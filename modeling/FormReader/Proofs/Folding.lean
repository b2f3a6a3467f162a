import FormReader.Tree.Fold

/-! # Folding — what a fold without failures computes

    A fold is a loop with two stacks, which is shown next to it to compute what
    the recursion on the tree does.  Without failures a fold is therefore the
    structural one, `fold_leaf` and `fold_call`, which is all that the views of
    a form are told by.

    * `Tree.leaves` — the contents of the leaves, from left to right;
    * `Tree.map` — the tree of the same shape with other contents. -/

namespace FormReader

namespace Tree

variable {α β : Type}

/-! ## Without failures -/

variable (onLeaf : α → β) (onCall : β → List β → β)

private theorem evaluate_fold (t : Tree α) :
    evaluate (m := Except Empty) (fun a => .ok (onLeaf a))
      (fun _ _ r rs => .ok (onCall r rs)) t = .ok (t.fold onLeaf onCall) := by
  rw [fold, tryFold_eq_evaluate]
  cases evaluate (m := Except Empty) _ _ t with
  | ok r => rfl
  | error e => cases e

@[simp] theorem fold_leaf (a : α) :
    (leaf a).fold onLeaf onCall = onLeaf a := by
  have h := evaluate_fold onLeaf onCall (leaf a)
  rw [evaluate] at h
  exact (Except.ok.inj h).symm

/-- **A CALL IS FOLDED FROM ITS PARTS**. -/
@[simp] theorem fold_call (f : Tree α) (xs : List (Tree α)) :
    (call f xs).fold onLeaf onCall
      = onCall (f.fold onLeaf onCall) (xs.map (fold onLeaf onCall)) := by
  have hall : evaluateAll (m := Except Empty) (fun a => .ok (onLeaf a))
      (fun _ _ r rs => .ok (onCall r rs)) xs
        = .ok (xs.map (fold onLeaf onCall)) := by
    induction xs with
    | nil => rfl
    | cons x xs ih =>
        rw [evaluateAll, evaluate_fold, ih]
        rfl
  have h := evaluate_fold onLeaf onCall (call f xs)
  rw [evaluate, evaluate_fold, hall] at h
  exact (Except.ok.inj h).symm

/-- **A FOLD THAT LOSES NOTHING AT ANY NODE LOSES NOTHING**: trees are told by
    the result if leaves and calls are told by theirs. -/
theorem fold_injective {onLeaf : α → β} {onCall : β → List β → β}
    (ofLeaf : ∀ {a b}, onLeaf a = onLeaf b → a = b)
    (ofCall : ∀ {r s rs ss}, onCall r rs = onCall s ss → r = s ∧ rs = ss)
    (apart : ∀ {a r rs}, onLeaf a ≠ onCall r rs) {t u : Tree α}
    (h : t.fold onLeaf onCall = u.fold onLeaf onCall) : t = u := by
  induction t using Tree.induction generalizing u with
  | leaf a =>
      rw [fold_leaf] at h
      cases u with
      | leaf b =>
          rw [fold_leaf] at h
          rw [ofLeaf h]
      | call g ys =>
          rw [fold_call] at h
          exact absurd h apart
  | call f xs hf hxs =>
      rw [fold_call] at h
      cases u with
      | leaf b =>
          rw [fold_leaf] at h
          exact absurd h.symm apart
      | call g ys =>
          rw [fold_call] at h
          obtain ⟨hoperator, hoperands⟩ := ofCall h
          have hall : xs = ys := by
            clear h hf
            induction xs generalizing ys with
            | nil => exact (List.map_eq_nil_iff.mp hoperands.symm).symm
            | cons x xs ih =>
                obtain ⟨hx, hrest⟩ := List.forall_mem_cons.mp hxs
                obtain ⟨y, ys, rfl, hhead, htail⟩ :=
                  List.map_eq_cons_iff.mp hoperands.symm
                rw [hx hhead.symm, ih hrest ys htail.symm]
          rw [hf hoperator, hall]

/-! ## Leaves -/

/-- The contents of the leaves, from left to right. -/
def leaves (t : Tree α) : List α := t.fold (fun a => [a]) fun f xs => f ++ xs.flatten

@[simp] theorem leaves_leaf (a : α) : (leaf a).leaves = [a] := fold_leaf _ _ a

@[simp] theorem leaves_call (f : Tree α) (xs : List (Tree α)) :
    (call f xs).leaves = f.leaves ++ xs.flatMap leaves := by
  rw [leaves, fold_call, ← List.flatMap_def]
  rfl

/-- What holds of all leaves of a call holds of those of its parts. -/
theorem forall_leaves_call {p : α → Prop} {f : Tree α} {xs : List (Tree α)} :
    (∀ a ∈ (call f xs).leaves, p a) ↔
      (∀ a ∈ f.leaves, p a) ∧ ∀ x ∈ xs, ∀ a ∈ x.leaves, p a := by
  rw [leaves_call, List.forall_mem_append, List.forall_mem_flatMap]

/-! ## The same shape -/

/-- The tree of the same shape with other contents. -/
def map (g : α → β) (t : Tree α) : Tree β := t.fold (fun a => leaf (g a)) call

@[simp] theorem map_leaf (g : α → β) (a : α) : (leaf a).map g = leaf (g a) :=
  fold_leaf ..

@[simp] theorem map_call (g : α → β) (f : Tree α) (xs : List (Tree α)) :
    (call f xs).map g = call (f.map g) (xs.map (map g)) :=
  fold_call ..

end Tree

end FormReader
