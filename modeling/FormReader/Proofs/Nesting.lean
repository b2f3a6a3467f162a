import FormReader.Proofs.OpenLists

/-! # Nesting — how deep in parentheses a spelling is

    An opening lexeme leads one level down and a closing one leads up again.  A
    whole spelling comes back to the level where it began (`depth_lexemes`), and
    on its way it is STRICTLY BELOW that level (`depth_beginning`).  So

    * what open lists have spent ends below (`depth_spent`), and
    * what is left of a spelling once it has begun leads up
      (`depth_ending`):

    a reader that begins inside a spelling comes to a closing token that
    belongs to none of its lists. -/

namespace FormReader

/-- How many levels down the lexemes lead. -/
def depth : List Lexeme → Int
  | [] => 0
  | .atom _ :: ls => depth ls
  | .opening :: ls => 1 + depth ls
  | .closing :: ls => depth ls - 1

theorem depth_append (ks ls : List Lexeme) :
    depth (ks ++ ls) = depth ks + depth ls := by
  induction ks with
  | nil => exact (Int.zero_add _).symm
  | cons k ks ih =>
      cases k with
      | atom a => exact ih
      | opening =>
          show 1 + depth (ks ++ ls) = 1 + depth ks + depth ls
          omega
      | closing =>
          show depth (ks ++ ls) - 1 = depth ks - 1 + depth ls
          omega

/-- A beginning of two lists is one of the first, or the first and a beginning
    of the second. -/
theorem prefix_append_cases {α : Type} {ks us vs : List α}
    (h : ks <+: us ++ vs) :
    ks <+: us ∨ ∃ ms, ks = us ++ ms ∧ ms <+: vs := by
  obtain ⟨rest, hrest⟩ := h
  rcases List.append_eq_append_iff.mp hrest with ⟨ms, hus, -⟩ | ⟨ms, hks, hvs⟩
  · exact Or.inl ⟨ms, hus.symm⟩
  · exact Or.inr ⟨ms, hks, rest, hvs.symm⟩

namespace Form

theorem depth_lexemesAll {xs : List Form}
    (h : ∀ x ∈ xs, depth (lexemes x) = 0) : depth (lexemesAll xs) = 0 := by
  induction xs with
  | nil => rfl
  | cons x xs ih =>
      obtain ⟨hx, hxs⟩ := List.forall_mem_cons.mp h
      rw [lexemesAll_cons, depth_append, hx, ih hxs]
      rfl

/-- **A SPELLING COMES BACK** to the level where it began. -/
theorem depth_lexemes (f : Form) : depth (lexemes f) = 0 := by
  induction f using Tree.induction with
  | leaf a => rfl
  | call g xs ihg ihxs =>
      have hbody : depth (lexemes g ++ lexemesAll xs) = 0 := by
        rw [depth_append, ihg, depth_lexemesAll ihxs]
        rfl
      rw [lexemes_call, ← List.append_assoc]
      show 1 + depth (lexemes g ++ lexemesAll xs ++ [.closing]) = 0
      rw [depth_append, hbody]
      rfl

/-- Every beginning is nothing, everything, or strictly below. -/
def BelowInside (f : Form) : Prop :=
  ∀ ks, ks <+: lexemes f → ks ≠ [] → ks = lexemes f ∨ 0 < depth ks

theorem BelowInside.nonneg {f : Form} (h : f.BelowInside) {ks : List Lexeme}
    (hks : ks <+: lexemes f) : 0 ≤ depth ks := by
  by_cases hnil : ks = []
  · rw [hnil]
    exact Int.le_refl 0
  · rcases h ks hks hnil with hall | hpos
    · rw [hall]
      exact Int.le_of_eq (depth_lexemes f).symm
    · exact Int.le_of_lt hpos

theorem depth_nonneg_all {xs : List Form} (h : ∀ x ∈ xs, x.BelowInside)
    {ks : List Lexeme} (hks : ks <+: lexemesAll xs) : 0 ≤ depth ks := by
  induction xs generalizing ks with
  | nil =>
      rw [List.prefix_nil.mp hks]
      exact Int.le_refl 0
  | cons x xs ih =>
      obtain ⟨hx, hxs⟩ := List.forall_mem_cons.mp h
      rcases prefix_append_cases hks with hks | ⟨ms, rfl, hms⟩
      · exact hx.nonneg hks
      · have := ih hxs hms
        rw [depth_append, depth_lexemes]
        omega

/-- **STRICTLY BELOW INSIDE**: a spelling that has begun and is not over is below
    the level where it began. -/
theorem depth_beginning (f : Form) : f.BelowInside := by
  induction f using Tree.induction with
  | leaf a =>
      intro ks hks hnil
      rcases List.prefix_cons_iff.mp hks with rfl | ⟨ms, rfl, hms⟩
      · exact absurd rfl hnil
      · rw [List.prefix_nil.mp hms]
        exact Or.inl rfl
  | call g xs ihg ihxs =>
      intro ks hks hnil
      rw [lexemes_call, ← List.append_assoc] at hks ⊢
      rcases List.prefix_cons_iff.mp hks with rfl | ⟨ms, rfl, hms⟩
      · exact absurd rfl hnil
      · rcases List.prefix_concat_iff.mp hms with rfl | hbody
        · exact Or.inl rfl
        · -- only the closing lexeme leads up to the level of the call
          have hparts : ∀ x ∈ g :: xs, BelowInside x :=
            List.forall_mem_cons.mpr ⟨ihg, ihxs⟩
          have hnonneg : 0 ≤ depth ms :=
            depth_nonneg_all hparts (by rw [lexemesAll_cons]; exact hbody)
          refine Or.inr ?_
          show 0 < 1 + depth ms
          omega

/-- What is left of a spelling that has begun leads up. -/
theorem depth_ending {f : Form} {ks ls : List Lexeme}
    (h : ks ++ ls = lexemes f) (hk : ks ≠ []) (hl : ls ≠ []) :
    depth ls < 0 := by
  have hsum := depth_lexemes f
  rw [← h, depth_append] at hsum
  rcases depth_beginning f ks ⟨ls, h⟩ hk with hall | hpos
  · rw [← h] at hall
    exact absurd (List.self_eq_append_right.mp hall) hl
  · omega

/-- What is left of a spelling, begun or not, does not lead down. -/
theorem depth_left {f : Form} {ks ls : List Lexeme}
    (h : ks ++ ls = lexemes f) (hl : ls ≠ []) : depth ls ≤ 0 := by
  by_cases hk : ks = []
  · rw [hk, List.nil_append] at h
    rw [h]
    exact Int.le_of_eq (depth_lexemes f)
  · exact Int.le_of_lt (depth_ending h hk hl)

/-- No form begins another. -/
theorem eq_nil_of_beginning {f g : Form} {ls : List Lexeme}
    (h : lexemes g ++ ls = lexemes f) : ls = [] := by
  rcases depth_beginning f _ ⟨ls, h⟩ (lexemes_ne_nil g) with hall | hpos
  · rw [← hall] at h
    exact List.self_eq_append_right.mp h.symm
  · rw [depth_lexemes] at hpos
    exact absurd hpos (Int.lt_irrefl 0)

/-- No form ends another. -/
theorem eq_nil_of_ending {f g : Form} {ks : List Lexeme}
    (h : ks ++ lexemes g = lexemes f) : ks = [] := by
  by_contra hks
  have hneg := depth_ending h hks (lexemes_ne_nil g)
  rw [depth_lexemes] at hneg
  exact Int.lt_irrefl 0 hneg

end Form

/-- Any beginning of what open lists have spent is strictly below. -/
theorem OpenList.depth_spent {lists : List OpenList} {ks : List Lexeme}
    (h : ks <+: spent lists) (hk : ks ≠ []) : 0 < depth ks := by
  obtain ⟨f, hf⟩ := spent_form_viable lists (.leaf (.identifier []))
  have hks : ks <+: Form.lexemes f :=
    (h.trans (List.prefix_append _ _)).trans hf
  rcases Form.depth_beginning f ks hks hk with hall | hpos
  · -- the spelling of the form goes on behind what is spent
    have h₁ := h.length_le
    have h₂ := hf.length_le
    rw [List.length_append, ← hall, Form.lexemes_leaf, List.length_singleton]
      at h₂
    omega
  · exact hpos

end FormReader
