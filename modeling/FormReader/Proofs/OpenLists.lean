import FormReader.Proofs.Spelling
import FormReader.Reader.Read

/-! # Open lists — the half of a spelling that a stack remembers

    The lists that are open remember exactly the lexemes used up since the
    first of them was opened (`OpenList.spent`).  This is the invariant that
    ties the stack to the grammar:

    * a move that uses a token up has SPENT ONE LEXEME MORE
      (`Move.spent?_next`), whether it opens a list, fills one or closes one;
    * what open lists have spent always begins the spelling of some form
      (`OpenList.spent_viable`);
    * where a move leaves its token, the lexeme of that token could not go on
      the spelling (`Move.closing_not_viable`), or it has none.

    The moves that leave their token are told apart once, in
    `Move.next_cases`. -/

namespace FormReader

namespace OpenList

/-- The lexemes used up since a list was opened. -/
def lexemes : OpenList → List Lexeme
  | .bare => [.opening]
  | .headed f xs => .opening :: (Form.lexemes f ++ Form.lexemesAll xs.reverse)

/-- The lexemes used up since the outermost of the lists was opened. -/
def spent : List OpenList → List Lexeme
  | [] => []
  | list :: lists => spent lists ++ list.lexemes

@[simp] theorem spent_nil : spent [] = [] := rfl

@[simp] theorem spent_cons (list : OpenList) (lists : List OpenList) :
    spent (list :: lists) = spent lists ++ list.lexemes := rfl

/-- One more part is one more spelling. -/
theorem lexemes_add (list : OpenList) (f : Form) :
    (list.add f).lexemes = list.lexemes ++ Form.lexemes f := by
  cases list with
  | bare => simp [add, lexemes]
  | headed g xs => simp [add, lexemes, Form.lexemesAll_append]

theorem lexemes_ne_nil (list : OpenList) : list.lexemes ≠ [] := by
  cases list with
  | bare => exact List.cons_ne_nil _ _
  | headed f xs => exact List.cons_ne_nil _ _

theorem spent_eq_nil {lists : List OpenList} :
    spent lists = [] ↔ lists = [] := by
  constructor
  · intro h
    cases lists with
    | nil => rfl
    | cons list lists =>
        exact absurd (List.append_eq_nil_iff.mp h).2 (lexemes_ne_nil list)
  · rintro rfl
    rfl

/-! ## What is spent is viable -/

/-- The call that a list becomes if it is closed behind one more part. -/
def closedBehind : OpenList → Form → Form
  | .bare, f => .call f []
  | .headed g xs, f => .call g (f :: xs).reverse

theorem lexemes_closedBehind (list : OpenList) (f : Form) :
    Form.lexemes (list.closedBehind f)
      = list.lexemes ++ Form.lexemes f ++ [.closing] := by
  cases list with
  | bare => simp [closedBehind, lexemes]
  | headed g xs => simp [closedBehind, lexemes, Form.lexemesAll_append]

/-- What open lists have spent, and any form behind it, begin a spelling. -/
theorem spent_form_viable (lists : List OpenList) (g : Form) :
    ∃ f, spent lists ++ Form.lexemes g <+: Form.lexemes f := by
  induction lists generalizing g with
  | nil => exact ⟨g, List.prefix_rfl⟩
  | cons list lists ih =>
      -- the innermost list, closed behind the form, is a form for the others
      obtain ⟨f, hf⟩ := ih (list.closedBehind g)
      refine ⟨f, List.IsPrefix.trans ?_ hf⟩
      rw [lexemes_closedBehind, spent_cons, ← List.append_assoc,
        ← List.append_assoc]
      exact List.prefix_append _ _

/-- **WHAT IS SPENT IS VIABLE**. -/
theorem spent_viable (lists : List OpenList) :
    ∃ f, spent lists <+: Form.lexemes f := by
  obtain ⟨f, hf⟩ := spent_form_viable lists (.leaf (.identifier []))
  exact ⟨f, (List.prefix_append _ _).trans hf⟩

/-! ## Lists that absence passes through -/

/-- The absence of a form ends the open lists without an error. -/
def Silent (mode : Mode) (lists : List OpenList) : Prop :=
  match mode with
  | .strict => lists = []
  | .lenient => ∀ list ∈ lists, list = .bare

/-- Lists without an operator are those that have spent nothing but their
    openings. -/
theorem all_bare_iff (lists : List OpenList) :
    (∀ list ∈ lists, list = .bare) ↔ ∀ l ∈ spent lists, l = .opening := by
  induction lists with
  | nil => simp
  | cons list lists ih =>
      rw [List.forall_mem_cons, spent_cons, List.forall_mem_append, ih, and_comm]
      refine and_congr_right fun _ => ?_
      cases list with
      | bare => simp [lexemes]
      | headed f xs =>
          constructor
          · intro h
            cases h
          · intro h
            refine absurd (fun l hl => h l ?_) (Form.lexemes_not_all_opening f)
            exact List.mem_cons_of_mem _ (List.mem_append_left _ hl)

end OpenList

namespace Move

open OpenList

/-- What a move has spent once it has used its token up. -/
def spent? : Move → Option (List Lexeme)
  | shift lists => some (spent lists)
  | accept f => some (Form.lexemes f)
  | absent => none
  | fail _ => none

/-- A form that is complete is spent. -/
theorem spent?_complete (f : Form) (lists : List OpenList) :
    (complete f lists).spent? = some (spent lists ++ Form.lexemes f) := by
  cases lists with
  | nil => rfl
  | cons list lists =>
      show some (spent lists ++ (list.add f).lexemes) = _
      rw [lexemes_add, spent_cons, List.append_assoc]

theorem spent?_unwind (mode : Mode) (token : Option Token)
    (lists : List OpenList) : (unwind mode token lists).spent? = none := by
  rcases unwind_stays mode token lists with h | h <;> rw [h] <;> rfl

theorem unwind_of_silent {mode : Mode} {lists : List OpenList}
    (h : Silent mode lists) (token : Option Token) :
    unwind mode token lists = absent := by
  cases mode with
  | strict => exact (show lists = [] from h) ▸ rfl
  | lenient =>
      induction lists with
      | nil => rfl
      | cons list lists ih =>
          obtain ⟨rfl, hrest⟩ := List.forall_mem_cons.mp h
          exact ih hrest

theorem unwind_of_not_silent {mode : Mode} {lists : List OpenList}
    (h : ¬ Silent mode lists) (token : Option Token) :
    unwind mode token lists = fail (.unmatched token) := by
  induction lists with
  | nil => cases mode <;> exact absurd (by simp [Silent]) h
  | cons list lists ih =>
      cases list with
      | headed f xs => rfl
      | bare =>
          cases mode with
          | strict => rfl
          | lenient =>
              refine ih fun hs => h ?_
              exact List.forall_mem_cons.mpr ⟨rfl, hs⟩

/-! ## What a move does at a token -/

/-- The move at a token that has a lexeme does not depend on the mode. -/
theorem next_of_lexeme {t : Token} {l : Lexeme} (h : t.lexeme? = some l)
    (mode : Mode) (lists : List OpenList) :
    next mode lists (some t) =
      match l with
      | .atom a => complete (.leaf a) lists
      | .opening => shift (.bare :: lists)
      | .closing => close t lists := by
  rw [Token.lexeme?] at h
  cases hr : t.role <;> rw [hr] at h <;> cases h <;>
    simp [next, hr, Form.numeral, Form.identifier]

theorem next_of_no_lexeme {t : Token} (h : t.lexeme? = none) (mode : Mode)
    (lists : List OpenList) :
    next mode lists (some t) =
      match mode with
      | .strict => fail (.unexpected t)
      | .lenient => unwind .lenient (some t) lists := by
  rw [Token.lexeme?] at h
  cases hr : t.role <;> rw [hr] at h <;> cases h <;> cases mode <;>
    simp [next, hr]

theorem spent?_close (t : Token) (f : Form) (xs : List Form)
    (lists : List OpenList) :
    (close t (.headed f xs :: lists)).spent?
      = some (spent (.headed f xs :: lists) ++ [.closing]) := by
  show (complete (.call f xs.reverse) lists).spent? = _
  rw [spent?_complete]
  simp [lexemes]

/-- **ONE LEXEME MORE**: a move that uses its token up has spent the lexeme of
    the token behind what the lists had spent. -/
theorem spent?_next {mode : Mode} {lists : List OpenList} {t : Token}
    {ls : List Lexeme} (h : (next mode lists (some t)).spent? = some ls) :
    ∃ l, t.lexeme? = some l ∧ ls = spent lists ++ [l] := by
  cases hl : t.lexeme? with
  | none =>
      rw [next_of_no_lexeme hl] at h
      cases mode with
      | strict => cases h
      | lenient =>
          have hnone : none = some ls := (spent?_unwind ..).symm.trans h
          cases hnone
  | some l =>
      refine ⟨l, rfl, ?_⟩
      rw [next_of_lexeme hl] at h
      cases l with
      | atom a => exact Option.some.inj (h.symm.trans (spent?_complete ..))
      | opening => exact (Option.some.inj h).symm
      | closing =>
          rcases lists with _ | ⟨_ | ⟨f, xs⟩, lists⟩
          · cases h
          · cases h
          · exact Option.some.inj (h.symm.trans (spent?_close ..))

/-! ## Moves that leave the token -/

/-- A closing lexeme does not go on what lists have spent, unless the
    innermost one has its operator. -/
theorem closing_not_viable {lists : List OpenList}
    (h : ∀ f xs outer, lists ≠ .headed f xs :: outer) (f : Form) :
    ¬ spent lists ++ [Lexeme.closing] <+: Form.lexemes f := by
  rintro ⟨ls, hls⟩
  rcases lists with _ | ⟨_ | ⟨g, xs⟩, outer⟩
  · exact Form.closing_not_head f (hls ▸ rfl)
  · -- an opening lexeme is the last that was spent
    have hchain : (spent outer ++ [Lexeme.opening] ++ [Lexeme.closing]).IsChain
        Lexeme.MayFollow := (hls ▸ Form.lexemes_chain f).left_of_append
    have hnext : Lexeme.MayFollow .opening .closing :=
      (List.isChain_append.mp hchain).2.2 .opening (by simp) .closing rfl
    exact hnext rfl rfl
  · exact h g xs outer rfl

/-- A move that leaves its token leaves a closing one that cannot go on, or
    finds no lexeme: then strict mode refuses the token, and else a form is
    absent. -/
theorem next_cases (mode : Mode) (lists : List OpenList)
    (stop : Option Token) :
    (∃ ls, (next mode lists stop).spent? = some ls) ∨
    (∃ t, stop = some t ∧ t.lexeme? = some .closing ∧
      (∀ f, ¬ spent lists ++ [Lexeme.closing] <+: Form.lexemes f) ∧
      next mode lists stop = fail (.unmatched (some t))) ∨
    (∃ t, stop = some t ∧ t.lexeme? = none ∧ mode = .strict ∧
      next mode lists stop = fail (.unexpected t)) ∨
    (stop.bind Token.lexeme? = none ∧ (mode = .strict → stop = none) ∧
      next mode lists stop = unwind mode stop lists) := by
  cases stop with
  | none => exact Or.inr (Or.inr (Or.inr ⟨rfl, fun _ => rfl, rfl⟩))
  | some t =>
      cases hl : t.lexeme? with
      | none =>
          rw [next_of_no_lexeme hl]
          cases mode with
          | strict => exact Or.inr (Or.inr (Or.inl ⟨t, rfl, hl, rfl, rfl⟩))
          | lenient =>
              refine Or.inr (Or.inr (Or.inr ⟨hl, ?_, rfl⟩))
              intro hstrict
              cases hstrict
      | some l =>
          rw [next_of_lexeme hl]
          cases l with
          | atom a => exact Or.inl ⟨_, spent?_complete ..⟩
          | opening => exact Or.inl ⟨_, rfl⟩
          | closing =>
              rcases lists with _ | ⟨_ | ⟨f, xs⟩, outer⟩
              · refine Or.inr (Or.inl ⟨t, rfl, hl, ?_, rfl⟩)
                exact closing_not_viable (by simp)
              · refine Or.inr (Or.inl ⟨t, rfl, hl, ?_, rfl⟩)
                exact closing_not_viable (by simp)
              · exact Or.inl ⟨_, spent?_close ..⟩

end Move

end FormReader
