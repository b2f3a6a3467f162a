import Mathlib.Data.List.Forall2
import FormReader.Form.Sketch
import FormReader.Proofs.Folding

/-! # Comparison — what the loop over pairs of trees decides

    Trees are compared by a loop over pairs that are still to be compared.  It
    does what a recursion does (`Tree.compare`): calls with equally many operands
    are compared by their operands, from the last one to the first, and by their
    operators then, up to the first parts that differ or cannot be compared
    (`equalPairs_cons`, by induction on the first tree).

    The rest is about the recursion.  It does not depend on the order of the two
    trees if comparing leaves does not (`compare_comm`), and decides whether they
    are the same if comparing leaves does (`compare_eq_decide`).  Whatever
    comparing leaves does, calls are the same if their parts are
    (`compare_call_true`). -/

namespace FormReader

namespace Tree

variable {α ε : Type}

/-! ## The recursion -/

/-- A second comparison, unless the first one settles it. -/
def both : (first second : Except ε Bool) → Except ε Bool
  | .ok true, second => second
  | first, _ => first

mutual

/-- Two trees are equal, each leaf compared by `same`. -/
def compare (same : α → α → Except ε Bool) : Tree α → Tree α → Except ε Bool
  | .leaf a, .leaf b => same a b
  | .call f xs, .call g ys =>
      if xs.length = ys.length then both (compareAll same xs ys) (compare same f g)
      else .ok false
  | .leaf _, .call _ _ => .ok false
  | .call _ _, .leaf _ => .ok false

/-- Trees in two rows are equal one by one, the last ones compared first. -/
def compareAll (same : α → α → Except ε Bool) : List (Tree α) → List (Tree α) → Except ε Bool
  | x :: xs, y :: ys => both (compareAll same xs ys) (compare same x y)
  | _, _ => .ok true

end

section

variable {p q r : Except ε Bool}

theorem both_assoc : both (both p q) r = both p (both q r) := by
  cases p with
  | error e => rfl
  | ok b =>
      cases b with
      | false => rfl
      | true => rfl

theorem both_true : both p (.ok true) = p := by
  cases p with
  | error e => rfl
  | ok b =>
      cases b with
      | false => rfl
      | true => rfl

theorem both_ok (b c : Bool) : both (ε := ε) (.ok b) (.ok c) = .ok (b && c) := by
  cases b with
  | false => rfl
  | true => rfl

theorem both_eq_true : both p q = .ok true ↔ p = .ok true ∧ q = .ok true := by
  cases p with
  | error e => simp [both]
  | ok b =>
      cases b with
      | false => simp [both]
      | true => simp [both]

end

variable {same : α → α → Except ε Bool}

/-! ## The loop -/

/-- Pairs of operands come up from the last to the first. -/
theorem equalPairs_zip {xs ys : List (Tree α)} (hlength : xs.length = ys.length)
    (h : ∀ x ∈ xs, ∀ y rest, equalPairs same ((x, y) :: rest)
      = both (compare same x y) (equalPairs same rest)) (rest : List (Tree α × Tree α)) :
    equalPairs same ((xs.zip ys).reverse ++ rest)
      = both (compareAll same xs ys) (equalPairs same rest) := by
  induction xs generalizing ys rest with
  | nil =>
      obtain rfl := List.length_eq_zero_iff.mp hlength.symm
      rfl
  | cons x xs ih =>
      obtain ⟨hx, hxs⟩ := List.forall_mem_cons.mp h
      obtain ⟨y, ys, rfl⟩ := List.exists_cons_of_length_eq_add_one hlength.symm
      rw [List.zip_cons_cons, List.reverse_cons, List.append_assoc, List.singleton_append,
        ih (Nat.succ.inj hlength) hxs, hx, ← both_assoc, compareAll]

/-- **THE LOOP COMPARES THE PAIR ON TOP**, and goes on. -/
theorem equalPairs_cons (a b : Tree α) (rest : List (Tree α × Tree α)) :
    equalPairs same ((a, b) :: rest) = both (compare same a b) (equalPairs same rest) := by
  induction a using Tree.induction generalizing b rest with
  | leaf a =>
      cases b with
      | call g ys =>
          rw [equalPairs, compare]
          rfl
      | leaf b =>
          rw [equalPairs, compare]
          rcases same a b with e | c
          · rfl
          · cases c with
            | false => rfl
            | true => rfl
  | call f xs hf hxs =>
      cases b with
      | leaf b =>
          rw [equalPairs, compare]
          rfl
      | call g ys =>
          rw [equalPairs, compare]
          by_cases hlength : xs.length = ys.length
          · rw [if_pos hlength, if_pos hlength, equalPairs_zip hlength hxs, hf, both_assoc]
          · rw [if_neg hlength, if_neg hlength]
            rfl

theorem equal_eq_compare (a b : Tree α) : equal same a b = compare same a b := by
  rw [equal, equalPairs_cons, equalPairs, both_true]

/-! ## The recursion, both ways round -/

theorem compareAll_comm {xs ys : List (Tree α)}
    (h : ∀ x ∈ xs, ∀ y, compare same x y = compare same y x) :
    compareAll same xs ys = compareAll same ys xs := by
  induction xs generalizing ys with
  | nil =>
      cases ys with
      | nil => rfl
      | cons y ys => rfl
  | cons x xs ih =>
      obtain ⟨hx, hxs⟩ := List.forall_mem_cons.mp h
      cases ys with
      | nil => rfl
      | cons y ys => rw [compareAll, compareAll, ih hxs, hx]

theorem compare_comm (hsame : ∀ a b, same a b = same b a) (a b : Tree α) :
    compare same a b = compare same b a := by
  induction a using Tree.induction generalizing b with
  | leaf a =>
      cases b with
      | leaf b => exact hsame a b
      | call g ys => rw [compare, compare]
  | call f xs hf hxs =>
      cases b with
      | leaf b => rw [compare, compare]
      | call g ys =>
          rw [compare, compare, compareAll_comm hxs, hf]
          exact if_congr eq_comm rfl rfl

/-! ## The same trees -/

theorem compareAll_eq_decide [DecidableEq α] {xs ys : List (Tree α)}
    (hlength : xs.length = ys.length)
    (h : ∀ x ∈ xs, ∀ y, compare same x y = .ok (decide (x = y))) :
    compareAll same xs ys = .ok (decide (xs = ys)) := by
  induction xs generalizing ys with
  | nil =>
      obtain rfl := List.length_eq_zero_iff.mp hlength.symm
      rfl
  | cons x xs ih =>
      obtain ⟨hx, hxs⟩ := List.forall_mem_cons.mp h
      obtain ⟨y, ys, rfl⟩ := List.exists_cons_of_length_eq_add_one hlength.symm
      rw [compareAll, ih (Nat.succ.inj hlength) hxs, hx, both_ok, ← Bool.decide_and]
      simp only [List.cons.injEq, and_comm]

/-- **COMPARING DECIDES WHETHER TREES ARE THE SAME** if it does at the leaves. -/
theorem compare_eq_decide [DecidableEq α] {a : Tree α} (b : Tree α)
    (h : ∀ x ∈ a.leaves, ∀ y, same x y = .ok (decide (x = y))) :
    compare same a b = .ok (decide (a = b)) := by
  induction a using Tree.induction generalizing b with
  | leaf a =>
      cases b with
      | leaf b =>
          rw [leaves_leaf, List.forall_mem_singleton] at h
          rw [compare, h]
          simp only [leaf.injEq]
      | call g ys => simp only [compare, reduceCtorEq, decide_false]
  | call f xs hf hxs =>
      obtain ⟨hleaf, hleaves⟩ := forall_leaves_call.mp h
      cases b with
      | leaf b => simp only [compare, reduceCtorEq, decide_false]
      | call g ys =>
          rw [compare]
          by_cases hlength : xs.length = ys.length
          · have hall := compareAll_eq_decide hlength fun x hx y => hxs x hx y (hleaves x hx)
            rw [if_pos hlength, hall, hf g hleaf, both_ok, ← Bool.decide_and]
            simp only [call.injEq, and_comm]
          · have hne : call f xs ≠ call g ys := by
              intro hsame
              exact hlength (congrArg List.length (call.inj hsame).2)
            rw [if_neg hlength, decide_eq_false hne]

theorem compareAll_true {xs ys : List (Tree α)} :
    xs.length = ys.length ∧ compareAll same xs ys = .ok true ↔
      List.Forall₂ (fun x y => compare same x y = .ok true) xs ys := by
  induction xs generalizing ys with
  | nil =>
      cases ys with
      | nil => exact iff_of_true ⟨rfl, rfl⟩ .nil
      | cons y ys => simp
  | cons x xs ih =>
      cases ys with
      | nil => simp
      | cons y ys =>
          rw [compareAll, both_eq_true, List.forall₂_cons, ← ih, List.length_cons,
            List.length_cons, Nat.add_right_cancel_iff]
          tauto

/-- **CALLS ARE THE SAME IF THEIR PARTS ARE**. -/
theorem compare_call_true {f g : Tree α} {xs ys : List (Tree α)} :
    compare same (.call f xs) (.call g ys) = .ok true ↔
      compare same f g = .ok true ∧
        List.Forall₂ (fun x y => compare same x y = .ok true) xs ys := by
  rw [← compareAll_true, compare]
  by_cases hlength : xs.length = ys.length
  · rw [if_pos hlength, both_eq_true]
    tauto
  · rw [if_neg hlength]
    simp [hlength]

/-- Trees that compare equal are the same, and their leaves can be compared. -/
theorem eq_of_compare (hsame : ∀ a b, same a b = .ok true → a = b) {a b : Tree α}
    (h : compare same a b = .ok true) : a = b ∧ ∀ x ∈ a.leaves, same x x = .ok true := by
  induction a using Tree.induction generalizing b with
  | leaf a =>
      cases b with
      | leaf b =>
          rw [compare] at h
          obtain rfl := hsame a b h
          exact ⟨rfl, by simpa using h⟩
      | call g ys =>
          rw [compare] at h
          cases h
  | call f xs hf hxs =>
      cases b with
      | leaf b =>
          rw [compare] at h
          cases h
      | call g ys =>
          obtain ⟨hoperator, hoperands⟩ := compare_call_true.mp h
          obtain ⟨rfl, hleaf⟩ := hf hoperator
          have hall : xs = ys ∧ ∀ x ∈ xs, ∀ l ∈ x.leaves, same l l = .ok true := by
            clear h hf hleaf
            induction hoperands with
            | nil => exact ⟨rfl, List.forall_mem_nil _⟩
            | cons hx _ ih =>
                obtain ⟨hhead, htail⟩ := List.forall_mem_cons.mp hxs
                obtain ⟨rfl, hxleaf⟩ := hhead hx
                obtain ⟨rfl, hxsleaf⟩ := ih htail
                exact ⟨rfl, List.forall_mem_cons.mpr ⟨hxleaf, hxsleaf⟩⟩
          obtain ⟨rfl, hleaves⟩ := hall
          exact ⟨rfl, forall_leaves_call.mpr ⟨hleaf, hleaves⟩⟩

end Tree

namespace Sketch

/-! ## Sketches -/

theorem sameLeaf_comm (a b : Option Atom) : sameLeaf a b = sameLeaf b a := by
  cases a with
  | none =>
      cases b with
      | none => rfl
      | some b => rfl
  | some a =>
      cases b with
      | none => rfl
      | some b => simp only [sameLeaf, eq_comm]

/-- Anything can be compared with a leaf that is no hole. -/
theorem sameLeaf_of_ne {a : Option Atom} (h : a ≠ none) (b : Option Atom) :
    sameLeaf a b = .ok (decide (a = b)) := by
  cases a with
  | none => exact absurd rfl h
  | some a => rfl

theorem eq_of_sameLeaf {a b : Option Atom} (h : sameLeaf a b = .ok true) :
    a = b ∧ a ≠ none := by
  cases a with
  | none =>
      cases b with
      | none => cases h
      | some b => cases h
  | some a => exact ⟨of_decide_eq_true (Except.ok.inj h), Option.some_ne_none a⟩

variable {a b : Sketch}

theorem equal_comm (a b : Sketch) : a.equal b = b.equal a := by
  rw [equal, equal, Tree.equal_eq_compare, Tree.equal_eq_compare]
  exact Tree.compare_comm sameLeaf_comm a b

/-- A sketch without holes can be compared with any. -/
theorem equal_eq_decide (h : none ∉ a.leaves) (b : Sketch) :
    a.equal b = .ok (decide (a = b)) := by
  rw [equal, Tree.equal_eq_compare]
  refine Tree.compare_eq_decide b ?_
  intro x hx y
  refine sameLeaf_of_ne ?_ y
  rintro rfl
  exact h hx

/-- **EQUAL SKETCHES ARE THE SAME**, and without holes. -/
theorem equal_true_iff : a.equal b = .ok true ↔ a = b ∧ none ∉ a.leaves := by
  constructor
  · intro h
    rw [equal, Tree.equal_eq_compare] at h
    obtain ⟨hsame, hleaves⟩ := Tree.eq_of_compare (fun _ _ h => (eq_of_sameLeaf h).1) h
    refine ⟨hsame, ?_⟩
    intro hnone
    exact (eq_of_sameLeaf (hleaves none hnone)).2 rfl
  · rintro ⟨rfl, h⟩
    rw [equal_eq_decide h, decide_eq_true rfl]

theorem equal_call_true {f g : Sketch} {xs ys : List Sketch} :
    equal (.call f xs) (.call g ys) = .ok true ↔
      f.equal g = .ok true ∧ List.Forall₂ (fun x y => x.equal y = .ok true) xs ys := by
  simp only [equal, Tree.equal_eq_compare]
  exact Tree.compare_call_true

/-- On sketches without holes, to be equal is an equivalence. -/
theorem equivalence_equal :
    Equivalence fun a b : {s : Sketch // none ∉ s.leaves} => a.1.equal b.1 = .ok true where
  refl a := equal_true_iff.mpr ⟨rfl, a.2⟩
  symm := by
    intro a b h
    rw [equal_comm]
    exact h
  trans := by
    intro a b c hab hbc
    obtain ⟨hab, -⟩ := equal_true_iff.mp hab
    rw [hab]
    exact hbc

end Sketch

end FormReader
