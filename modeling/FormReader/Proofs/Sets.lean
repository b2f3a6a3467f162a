import Mathlib.Data.Finset.Card
import FormReader.Proofs.Comparison
import FormReader.Proofs.Holes

/-! # Sets — digests propose, equality decides

    A set keeps values under their digests and looks a value up among those that
    have its digest.  The digest can be any function of what it is taken of.  As
    equal sketches are the same, they have the same digest, so no equal one is
    overlooked; and one that has the same digest by chance is told apart.

    What is kept are sketches, each under its digest (`Keeps`).  A sketch is
    known exactly if it is among them (`known_eq_decide`), so one more sketch is
    a list insertion (`insert_of_keeps`), and a whole set keeps each sketch once
    (`setOf_of_keeps`). -/

namespace FormReader

namespace Sketch

variable {H : Type} (hash : Digestible H → H)

/-- **EQUAL SKETCHES HAVE EQUAL DIGESTS**, whatever digests are. -/
theorem digest_of_equal {a b : Sketch} (h : a.equal b = .ok true) :
    ∃ d, a.digest hash = .ok d ∧ b.digest hash = .ok d := by
  obtain ⟨rfl, hleaves⟩ := equal_true_iff.mp h
  obtain ⟨d, hd⟩ := (exists_ok_view _ _ a).mpr hleaves
  exact ⟨d, hd, hd⟩

end Sketch

namespace Comparand

variable {H : Type} {hash : Digestible H → H} {kept : List (H × Comparand)} {seen : List Sketch}

/-- The values that are kept are given sketches, each under its digest. -/
def Keeps (hash : Digestible H → H) (kept : List (H × Comparand)) (seen : List Sketch) : Prop :=
  List.Forall₂ (fun entry s => s.digest hash = .ok entry.1 ∧ entry.2 = .sketch s) kept seen

variable [DecidableEq H]

/-- The latest value is taken for another one if it has the digest and is equal. -/
theorem known_cons {u : Sketch} (hu : none ∉ u.leaves) (k h : H) (s : Sketch) :
    known h (.sketch s) ((k, .sketch u) :: kept)
      = if k = h ∧ u = s then .ok true else known h (.sketch s) kept := by
  have hequal : (Comparand.sketch u).equal (.sketch s) = .ok (decide (u = s)) :=
    Sketch.equal_eq_decide hu s
  rw [known, hequal]
  by_cases hdigest : k = h
  · by_cases hsame : u = s
    · rw [if_pos hdigest, if_pos ⟨hdigest, hsame⟩, decide_eq_true hsame]
      rfl
    · rw [if_pos hdigest, if_neg (mt And.right hsame), decide_eq_false hsame]
      rfl
  · rw [if_neg hdigest, if_neg (mt And.left hdigest)]

/-- **A SKETCH IS KNOWN EXACTLY IF IT IS THERE**: by chance others may have its
    digest, but if it is there, it has its digest there. -/
theorem known_eq_decide (hkeeps : Keeps hash kept seen) {s : Sketch} {h : H}
    (hdigest : s.digest hash = .ok h) : known h (.sketch s) kept = .ok (decide (s ∈ seen)) := by
  induction hkeeps with
  | nil => rfl
  | @cons entry u kept seen hentry _ ih =>
      obtain ⟨k, w⟩ := entry
      obtain ⟨hu, rfl⟩ := hentry
      have hleaves : none ∉ u.leaves := (Sketch.exists_ok_view _ _ u).mp ⟨k, hu⟩
      have hdigests : u = s → k = h := by
        rintro rfl
        exact Except.ok.inj (hu.symm.trans hdigest)
      rw [known_cons hleaves]
      by_cases hsame : u = s
      · rw [if_pos ⟨hdigests hsame, hsame⟩, decide_eq_true (hsame ▸ List.mem_cons_self)]
      · rw [if_neg (mt And.right hsame), ih]
        simp only [List.mem_cons, Ne.symm hsame, false_or]

/-- **ONE MORE SKETCH** is kept unless it is there. -/
theorem insert_of_keeps (hkeeps : Keeps hash kept seen) {s : Sketch} (hs : none ∉ s.leaves) :
    ∃ kept', insert hash kept (.sketch s) = .ok kept' ∧ Keeps hash kept' (seen.insert s) := by
  obtain ⟨h, hdigest⟩ := (Sketch.exists_ok_view _ _ s).mpr hs
  have hdigest' : (Comparand.sketch s).digest hash = .ok h := hdigest
  have hknown := known_eq_decide hkeeps hdigest
  rw [insert, hdigest']
  by_cases hmem : s ∈ seen
  · rw [decide_eq_true hmem] at hknown
    refine ⟨kept, ?_, ?_⟩
    · show (known h (.sketch s) kept >>= _) = _
      rw [hknown]
      rfl
    · rw [List.insert_of_mem hmem]
      exact hkeeps
  · rw [decide_eq_false hmem] at hknown
    refine ⟨(h, .sketch s) :: kept, ?_, ?_⟩
    · show (known h (.sketch s) kept >>= _) = _
      rw [hknown]
      rfl
    · rw [List.insert_of_not_mem hmem]
      exact .cons ⟨hdigest, rfl⟩ hkeeps

/-- **A SET KEEPS EACH SKETCH ONCE**, by induction over the values that are added. -/
theorem foldlM_of_keeps {ss : List Sketch} (hss : ∀ s ∈ ss, none ∉ s.leaves)
    (hkeeps : Keeps hash kept seen) (hnodup : seen.Nodup) :
    ∃ kept' seen', (ss.map Comparand.sketch).foldlM (insert hash) kept = .ok kept' ∧
      Keeps hash kept' seen' ∧ seen'.Nodup ∧ ∀ u, u ∈ seen' ↔ u ∈ seen ∨ u ∈ ss := by
  induction ss generalizing kept seen with
  | nil => exact ⟨kept, seen, rfl, hkeeps, hnodup, by simp⟩
  | cons s ss ih =>
      obtain ⟨hs, hss⟩ := List.forall_mem_cons.mp hss
      obtain ⟨kept₁, hinsert, hkeeps₁⟩ := insert_of_keeps hkeeps hs
      obtain ⟨kept₂, seen₂, hrun, hkeeps₂, hnodup₂, hmem⟩ := ih hss hkeeps₁ hnodup.insert
      refine ⟨kept₂, seen₂, ?_, hkeeps₂, hnodup₂, ?_⟩
      · rw [List.map_cons, List.foldlM_cons, hinsert]
        exact hrun
      · intro u
        rw [hmem, List.mem_insert_iff, List.mem_cons]
        tauto

theorem length_setOf (hash : Digestible H → H) {ss : List Sketch}
    (hss : ∀ s ∈ ss, none ∉ s.leaves) :
    (setOf hash (ss.map .sketch)).map List.length = .ok ss.toFinset.card := by
  have hempty : Keeps hash [] [] := .nil
  obtain ⟨kept, seen, hrun, hkeeps, hnodup, hmem⟩ :=
    foldlM_of_keeps hss hempty List.nodup_nil
  have hsame : seen.toFinset = ss.toFinset := by
    ext u
    rw [List.mem_toFinset, List.mem_toFinset, hmem]
    exact or_iff_right List.not_mem_nil
  rw [setOf, hrun, ← hsame, List.toFinset_card_of_nodup hnodup, ← hkeeps.length_eq]
  rfl

end Comparand

/-- **COMPARING SKETCHES**.  The loop over pairs does what the recursion does, the
    same both ways round.  On sketches without holes it decides whether they are the
    same, so that being equal is an equivalence, which calls respect.  Equal
    sketches have equal digests, whatever digests are, and a set has as many
    elements as there are different sketches in it. -/
theorem comparison_is_structural :
    (∀ a b : Sketch, a.equal b = Tree.compare Sketch.sameLeaf a b ∧ a.equal b = b.equal a ∧
      (none ∉ a.leaves → a.equal b = .ok (decide (a = b)))) ∧
    (Equivalence fun a b : {s : Sketch // none ∉ s.leaves} => a.1.equal b.1 = .ok true) ∧
    (∀ (f g : Sketch) (xs ys : List Sketch),
      Sketch.equal (.call f xs) (.call g ys) = .ok true ↔
        f.equal g = .ok true ∧ List.Forall₂ (fun x y => x.equal y = .ok true) xs ys) ∧
    (∀ {H : Type} (hash : Digestible H → H) (a b : Sketch), a.equal b = .ok true →
      ∃ d, a.digest hash = .ok d ∧ b.digest hash = .ok d) ∧
    (∀ {H : Type} [DecidableEq H] (hash : Digestible H → H) (ss : List Sketch),
      (∀ s ∈ ss, none ∉ s.leaves) →
      (Comparand.setOf hash (ss.map .sketch)).map List.length = .ok ss.toFinset.card) := by
  refine ⟨?_, Sketch.equivalence_equal, ?_, ?_, ?_⟩
  · intro a b
    exact ⟨Tree.equal_eq_compare a b, Sketch.equal_comm a b,
      fun h => Sketch.equal_eq_decide h b⟩
  · intro f g xs ys
    exact Sketch.equal_call_true
  · intro H hash a b h
    exact Sketch.digest_of_equal hash h
  · intro H _ hash ss hss
    exact Comparand.length_setOf hash hss

/-- Digests that are all the same tell nothing apart, and equality does. -/
theorem comparison_is_structural_colliding :
    let x : Sketch := .leaf (some (.identifier (.of "x")))
    let n : Sketch := .leaf (some (.numeral (.of "x")))
    let ss : List Sketch := [.call x [n], n, .call x [n], .call x []]
    (∀ s ∈ ss, none ∉ s.leaves) ∧ x.equal n = .ok false ∧
      Sketch.equal (.call x [n]) (.call x [n]) = .ok true ∧
      (∃ d, Sketch.digest (fun _ => ()) (.call x [n]) = .ok d) ∧
      (Comparand.setOf (fun _ => ()) (ss.map .sketch)).map List.length = .ok 3 := by
  intro x n ss
  obtain ⟨hequal, -, -, hdigest, hset⟩ := comparison_is_structural
  have hss : ∀ s ∈ ss, none ∉ s.leaves := by
    simp [ss, x, n]
  have hcall : Sketch.equal (.call x [n]) (.call x [n]) = .ok true := by
    rw [(hequal _ _).2.2 (hss _ List.mem_cons_self), decide_eq_true rfl]
  have hcard : ss.toFinset.card = 3 := by decide +kernel
  obtain ⟨d, hd, -⟩ := hdigest (fun _ => ()) _ _ hcall
  refine ⟨hss, ?_, hcall, ⟨d, hd⟩, hcard ▸ hset (fun _ => ()) ss hss⟩
  rw [(hequal x n).2.2 (by simp [x])]
  decide +kernel

end FormReader
