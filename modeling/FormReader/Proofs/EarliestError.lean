import FormReader.Proofs.NextForm
import FormReader.Reader.Diagnostic

/-! # The earliest error — how far a reader goes where no form is

    Where no head of its stream spells a form, a reader goes exactly as far as
    a form could still be coming: it uses up the LONGEST VIABLE head and looks
    at the token behind.  What it then answers hangs on that token, on the mode
    and on whether anything but openings was used up (`Verdict`).

    The stack decides this correctly because it remembers all that was used up:
    what it has spent is viable, so the reader did not go too far, and a token
    that it leaves cannot go on what it has spent, so it went far enough
    (`longest_of_stop`). -/

namespace FormReader

/-- The answer is an error with the given message about the given token. -/
def Reports {α : Type} (answer : Except ReadError α) (d : Diagnostic) : Prop :=
  ∃ e, answer = .error e ∧ e.diagnostic? = some d

/-- What is said where no form is: `ws` are the tokens used up, and `stop` is
    the token behind them, if there is one. -/
structure Verdict (mode : Mode) (ws : List Token) (stop : Option Token)
    (answer : Answer) : Prop where
  /-- A closing token has no partner, in either mode. -/
  closing : ∀ t, stop = some t → t.role = .closing →
    Reports answer ⟨ReadError.unmatchedMessage, some t⟩
  /-- Strict mode refuses any other token. -/
  unexpected : mode = .strict → ∀ t, stop = some t → t.role ≠ .closing →
    Reports answer ⟨ReadError.unexpectedMessage t, some t⟩
  /-- At the end of the input, strict mode finds no form if nothing is open. -/
  ended : mode = .strict → stop = none →
    if ws = [] then answer = .ok none
    else Reports answer ⟨ReadError.unmatchedMessage, none⟩
  /-- Lenient mode finds no form if nothing but openings was used up. -/
  lenient : mode = .lenient → (∀ t, stop = some t → t.role ≠ .closing) →
    if ∀ t ∈ ws, t.role = .opening then answer = .ok none
    else Reports answer ⟨ReadError.unmatchedMessage, stop⟩

/-- Nothing was used up that is missed where no form is: nothing at all in
    strict mode, and openings at most in lenient mode. -/
def Quiet (mode : Mode) (ws : List Token) : Prop :=
  match mode with
  | .strict => ws = []
  | .lenient => ∀ t ∈ ws, t.role = .opening

/-- An answer that reports something is not the absence of a form. -/
theorem not_reports_none (d : Diagnostic) :
    ¬ Reports (.ok none : Answer) d := by
  rintro ⟨e, he, -⟩
  cases he

/-- A verdict is absence, and then it says what was used up and what stands
    behind, or it is one of the two errors. -/
theorem Verdict.cases {mode : Mode} {ws : List Token} {stop : Option Token}
    {answer : Answer} (h : Verdict mode ws stop answer) :
    (answer = .ok none ∧ (∀ t, stop = some t → t.role ≠ .closing) ∧
      (mode = .strict → stop = none) ∧ Quiet mode ws) ∨
    (∃ token, Reports answer ⟨ReadError.unmatchedMessage, token⟩) ∨
    (mode = .strict ∧
      ∃ t, Reports answer ⟨ReadError.unexpectedMessage t, some t⟩) := by
  by_cases hclosing : ∀ t, stop = some t → t.role ≠ .closing
  · cases mode with
    | strict =>
        cases stop with
        | none =>
            have hended := h.ended rfl rfl
            by_cases hws : ws = []
            · rw [if_pos hws] at hended
              exact Or.inl ⟨hended, hclosing, fun _ => rfl, hws⟩
            · rw [if_neg hws] at hended
              exact Or.inr (Or.inl ⟨_, hended⟩)
        | some t =>
            have hreports := h.unexpected rfl t rfl (hclosing t rfl)
            exact Or.inr (Or.inr ⟨rfl, t, hreports⟩)
    | lenient =>
        have hlenient := h.lenient rfl hclosing
        by_cases hws : ∀ t ∈ ws, t.role = .opening
        · rw [if_pos hws] at hlenient
          refine Or.inl ⟨hlenient, hclosing, ?_, hws⟩
          intro hmode
          cases hmode
        · rw [if_neg hws] at hlenient
          exact Or.inr (Or.inl ⟨_, hlenient⟩)
  · obtain ⟨t, ht⟩ := not_forall.mp hclosing
    obtain ⟨hstop, hrole⟩ := Classical.not_imp.mp ht
    exact Or.inr (Or.inl ⟨_, h.closing t hstop (not_not.mp hrole)⟩)

/-! ## The four answers and their verdicts -/

section Verdicts

variable {mode : Mode} {ws : List Token} {stop : Option Token} {t : Token}

theorem Verdict.of_closing (ht : t.role = .closing) :
    Verdict mode ws (some t) (.error (.unmatched (some t))) where
  closing u hu _ := by
    cases hu
    exact ⟨_, rfl, rfl⟩
  unexpected _ u hu hno := by
    cases hu
    exact absurd ht hno
  ended _ hend := by cases hend
  lenient _ hno := absurd ht (hno t rfl)

theorem Verdict.of_unexpected (ht : t.role ≠ .closing) :
    Verdict .strict ws (some t) (.error (.unexpected t)) where
  closing u hu hrole := by
    cases hu
    exact absurd hrole ht
  unexpected _ u hu _ := by
    cases hu
    exact ⟨_, rfl, rfl⟩
  ended _ hend := by cases hend
  lenient hmode := by cases hmode

theorem Verdict.of_quiet (hno : ∀ t, stop = some t → t.role ≠ .closing)
    (hend : mode = .strict → stop = none) (hws : Quiet mode ws) :
    Verdict mode ws stop (.ok none) where
  closing t ht hrole := absurd hrole (hno t ht)
  unexpected hstrict t ht _ := by cases (hend hstrict).symm.trans ht
  ended hstrict _ := by
    subst hstrict
    rw [if_pos (show ws = [] from hws)]
  lenient hlenient _ := by
    subst hlenient
    rw [if_pos (show ∀ t ∈ ws, t.role = .opening from hws)]

theorem Verdict.of_not_quiet (hno : ∀ t, stop = some t → t.role ≠ .closing)
    (hend : mode = .strict → stop = none) (hws : ¬ Quiet mode ws) :
    Verdict mode ws stop (.error (.unmatched stop)) where
  closing t ht hrole := absurd hrole (hno t ht)
  unexpected hstrict t ht _ := by cases (hend hstrict).symm.trans ht
  ended hstrict hnone := by
    subst hstrict
    rw [if_neg (show ¬ ws = [] from hws), hnone]
    exact ⟨_, rfl, rfl⟩
  lenient hlenient _ := by
    subst hlenient
    rw [if_neg (show ¬ ∀ t ∈ ws, t.role = .opening from hws)]
    exact ⟨_, rfl, rfl⟩

end Verdicts

namespace Reader

open OpenList

variable {r r' : Reader} {ws : List Token} {lists : List OpenList}

/-- From a plain source a reader answers a form, or runs to a move that leaves
    its token. -/
theorem read_cases (plain : r.source.Plain) :
    (∃ f r', r.read = (.ok (some f), r')) ∨
    ∃ ws lists r', Shifts [] r ws lists r' ∧ (r'.move lists).spent? = none := by
  obtain ⟨ws, lists, r', hrun, hstop⟩ := exists_stop [] r
  obtain ⟨r₁, hadv, -⟩ := advance_plain (hrun.plain plain)
  cases hmove : r'.move lists with
  | shift lists₁ => exact absurd hadv (hstop _ _ hmove)
  | accept f =>
      refine Or.inl ⟨f, r₁, ?_⟩
      rw [read, hrun.readFrom, readFrom_eq, hmove, hadv]
  | absent => exact Or.inr ⟨ws, lists, r', hrun, by rw [hmove]; rfl⟩
  | fail e => exact Or.inr ⟨ws, lists, r', hrun, by rw [hmove]; rfl⟩

/-- A run from nothing spends what its tokens spell. -/
theorem Shifts.spells_spent (h : Shifts [] r ws lists r') :
    Spells ws (spent lists) := by
  obtain ⟨ls, hls, hspent⟩ := h.spells
  rw [hspent]
  exact hls

/-- A token that is left goes on no spelling, nor does it begin a form. -/
theorem stop_cases (hstop : (r'.move lists).spent? = none) {t : Token}
    (looking : r'.lookahead = some t) :
    t.lexeme? = none ∨ t.lexeme? = some .closing ∧
      ∀ f, ¬ spent lists ++ [Lexeme.closing] <+: Form.lexemes f := by
  rw [move, looking] at hstop
  rcases Move.next_cases r'.mode lists (some t) with
    ⟨ls, hls⟩ | ⟨_, ht, hl, hnot, -⟩ | ⟨_, ht, hl, -⟩ | ⟨hl, -⟩
  · cases hstop.symm.trans hls
  · obtain rfl := Option.some.inj ht
    exact Or.inr ⟨hl, hnot⟩
  · obtain rfl := Option.some.inj ht
    exact Or.inl hl
  · exact Or.inl hl

/-- **FAR ENOUGH AND NOT TOO FAR**: where a run ends at a token that is left,
    it has used up the longest viable head of the stream. -/
theorem longest_of_stop (hrun : Shifts [] r ws lists r')
    (hstop : (r'.move lists).spent? = none) : LongestViable r.stream ws := by
  have hws := hrun.spells_spent
  refine ⟨⟨r'.stream, hrun.stream.symm⟩, ?_, ?_⟩
  · obtain ⟨f, hf⟩ := spent_viable lists
    exact ⟨f, spent lists, hf, hws⟩
  · intro us hus hviable
    refine Nat.le_of_not_lt fun hlt => ?_
    -- a longer viable head would hold the token that was left
    cases hstream : r'.stream with
    | nil =>
        have hlen := hus.length_le
        rw [hrun.stream, hstream, List.append_nil] at hlen
        exact absurd hlen (Nat.not_le_of_lt hlt)
    | cons t rest =>
        obtain ⟨looking, -⟩ := stream_eq_cons.mp hstream
        have hone : ws ++ [t] <+: r.stream := by
          rw [hrun.stream, hstream]
          exact ⟨rest, by rw [List.append_assoc]; rfl⟩
        have hhead : ws ++ [t] <+: us :=
          List.prefix_of_prefix_length_le hone hus (by
            rw [List.length_append]
            exact hlt)
        obtain ⟨f, ls, hls, hs⟩ := hviable.beginning hhead
        obtain ⟨l, hl, rfl⟩ := hws.of_concat hs
        rcases stop_cases hstop looking with hnone | ⟨hclosing, hnot⟩
        · cases hnone.symm.trans hl
        · obtain rfl := Option.some.inj (hclosing.symm.trans hl)
          exact hnot f hls

/-! ## What is answered -/

/-- Absence passes through the open lists in silence if nothing was used up,
    in lenient mode if nothing but openings was. -/
theorem silent_iff (hws : Spells ws (spent lists)) (mode : Mode) :
    Silent mode lists ↔ Quiet mode ws := by
  cases mode with
  | strict =>
      show lists = [] ↔ ws = []
      rw [← spent_eq_nil, ← List.length_eq_zero_iff, ← hws.length_eq,
        List.length_eq_zero_iff]
  | lenient => exact (all_bare_iff lists).trans hws.all_opening

theorem read_of_fail {e : ReadError} (hrun : Shifts [] r ws lists r')
    (hmove : r'.move lists = .fail e) : r.read = (.error e, r') := by
  rw [read, hrun.readFrom, readFrom_eq, hmove]

theorem read_of_absent (hrun : Shifts [] r ws lists r')
    (hmove : r'.move lists = .absent) : r.read = (.ok none, r') := by
  rw [read, hrun.readFrom, readFrom_eq, hmove]

/-- Where a run ends at a token that is left, the verdict on it is answered. -/
theorem verdict_of_stop (hrun : Shifts [] r ws lists r')
    (hstop : (r'.move lists).spent? = none) :
    ∃ answer, r.read = (answer, r') ∧
      Verdict r.mode ws r'.lookahead answer := by
  have hsilent := silent_iff hrun.spells_spent
  rw [← hrun.mode]
  rcases Move.next_cases r'.mode lists r'.lookahead with
    ⟨ls, hls⟩ | ⟨t, ht, hl, -, hmove⟩ | ⟨t, ht, hl, hmode, hmove⟩
      | ⟨hl, hmode, hmove⟩
  · cases hstop.symm.trans hls
  · -- a closing token without partner
    rw [ht]
    exact ⟨_, read_of_fail hrun hmove,
      Verdict.of_closing (Token.lexeme?_closing.mp hl)⟩
  · -- a token that strict mode refuses
    rw [ht, hmode]
    refine ⟨_, read_of_fail hrun hmove, Verdict.of_unexpected ?_⟩
    intro hrole
    cases hl.symm.trans (Token.lexeme?_closing.mpr hrole)
  · -- absence, which passes through the open lists or does not
    have hno : ∀ t, r'.lookahead = some t → t.role ≠ .closing := by
      intro t looking hrole
      rw [looking, Option.bind_some, Token.lexeme?_closing.mpr hrole] at hl
      cases hl
    by_cases hs : Silent r'.mode lists
    · rw [Move.unwind_of_silent hs] at hmove
      exact ⟨_, read_of_absent hrun hmove,
        Verdict.of_quiet hno hmode ((hsilent _).mp hs)⟩
    · rw [Move.unwind_of_not_silent hs] at hmove
      exact ⟨_, read_of_fail hrun hmove,
        Verdict.of_not_quiet hno hmode (mt (hsilent _).mpr hs)⟩

/-! ## Reached readers -/

end Reader

end FormReader
