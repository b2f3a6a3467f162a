import FormReader.Form.Sketch
import FormReader.Proofs.Folding
import FormReader.Proofs.Outcomes

/-! # Holes — a view is given of whatever has no hole

    A fold whose calls do not fail has a value exactly if all its leaves have one
    (`Tree.exists_ok_evaluate`).  A view of a sketch is such a fold, in which a
    leaf has a value unless it is a hole.  As there is one way to fail, a view
    is refused exactly if there is a hole (`view_refused_iff`). -/

namespace FormReader

namespace Tree

variable {α β ε : Type}

/-! ## Leaves that have a value -/

section

variable {onLeaf : α → Except ε β}

theorem exists_ok_evaluateAll {onCall : Tree α → List (Tree α) → β → List β → Except ε β}
    {ts : List (Tree α)} :
    (∃ rs, evaluateAll onLeaf onCall ts = .ok rs) ↔
      ∀ t ∈ ts, ∃ r, evaluate onLeaf onCall t = .ok r := by
  induction ts with
  | nil => exact iff_of_true ⟨[], rfl⟩ (List.forall_mem_nil _)
  | cons t ts ih =>
      rw [evaluateAll, exists_ok_bind, List.forall_mem_cons, ← ih]
      constructor
      · rintro ⟨r, hr, h⟩
        obtain ⟨rs, hrs, -⟩ := exists_ok_bind.mp h
        exact ⟨⟨r, hr⟩, rs, hrs⟩
      · rintro ⟨⟨r, hr⟩, rs, hrs⟩
        exact ⟨r, hr, exists_ok_bind.mpr ⟨rs, hrs, _, rfl⟩⟩

/-- If calls do not fail, a tree has a value if its leaves have. -/
theorem exists_ok_evaluate (onCall : β → List β → β) (t : Tree α) :
    (∃ r, evaluate onLeaf (fun _ _ r rs => .ok (onCall r rs)) t = .ok r) ↔
      ∀ a ∈ t.leaves, ∃ r, onLeaf a = .ok r := by
  induction t using Tree.induction with
  | leaf a => rw [evaluate, leaves_leaf, List.forall_mem_singleton]
  | call f xs hf hxs =>
      rw [forall_leaves_call, ← hf]
      have hall : (∀ x ∈ xs, ∀ a ∈ x.leaves, ∃ r, onLeaf a = .ok r) ↔
          ∃ rs, evaluateAll onLeaf (fun _ _ r rs => .ok (onCall r rs)) xs = .ok rs := by
        rw [exists_ok_evaluateAll]
        exact forall₂_congr fun x hx => (hxs x hx).symm
      rw [hall, evaluate]
      constructor
      · intro h
        obtain ⟨r, hr, h⟩ := exists_ok_bind.mp h
        obtain ⟨rs, hrs, -⟩ := exists_ok_bind.mp h
        exact ⟨⟨r, hr⟩, rs, hrs⟩
      · rintro ⟨⟨r, hr⟩, rs, hrs⟩
        exact exists_ok_bind.mpr ⟨r, hr, exists_ok_bind.mpr ⟨rs, hrs, _, rfl⟩⟩

end

end Tree

namespace Sketch

variable {β : Type}

theorem exists_ok_filled {onAtom : Atom → β} {a : Option Atom} :
    (∃ r, filled onAtom a = .ok r) ↔ a ≠ none := by
  cases a with
  | none =>
      refine iff_of_false ?_ (fun h => h rfl)
      rintro ⟨r, h⟩
      cases h
  | some a => exact iff_of_true ⟨_, rfl⟩ (Option.some_ne_none a)

/-- A view is given of a sketch without holes. -/
theorem exists_ok_view (onAtom : Atom → β) (onCall : β → List β → β) (s : Sketch) :
    (∃ r, s.view onAtom onCall = .ok r) ↔ none ∉ s.leaves := by
  rw [view, Tree.tryFold_eq_evaluate, Tree.exists_ok_evaluate]
  simp only [exists_ok_filled]
  constructor
  · intro h hnone
    exact h none hnone rfl
  · rintro h a ha rfl
    exact h ha

/-- There is one way to fail. -/
theorem eq_hole_iff {x : Except Unfilled β} {p : Prop} (h : (∃ r, x = .ok r) ↔ ¬ p) :
    x = .error .hole ↔ p := by
  cases x with
  | ok r =>
      refine iff_of_false ?_ (h.mp ⟨r, rfl⟩)
      intro hok
      cases hok
  | error e =>
      refine iff_of_true rfl (Classical.byContradiction ?_)
      intro hp
      obtain ⟨r, hr⟩ := h.mpr hp
      cases hr

theorem exists_ok_write (style : Style) (s : Sketch) :
    (∃ t, s.write style = .ok t) ↔ none ∉ s.leaves := by
  rw [← exists_ok_view (fun a => Rope.piece (style.atom a)) style.call, write]
  constructor
  · rintro ⟨t, h⟩
    cases hview : s.view (fun a => Rope.piece (style.atom a)) style.call with
    | ok r => exact ⟨r, rfl⟩
    | error e =>
        rw [hview] at h
        cases h
  · rintro ⟨r, h⟩
    rw [h]
    exact ⟨_, rfl⟩

/-- **A VIEW IS REFUSED EXACTLY IF THERE IS A HOLE**. -/
theorem view_refused_iff {onAtom : Atom → β} {onCall : β → List β → β} {s : Sketch} :
    s.view onAtom onCall = .error .hole ↔ none ∈ s.leaves :=
  eq_hole_iff (exists_ok_view onAtom onCall s)

theorem write_refused_iff {style : Style} {s : Sketch} :
    s.write style = .error .hole ↔ none ∈ s.leaves :=
  eq_hole_iff (exists_ok_write style s)

end Sketch

end FormReader
