import FormReader.Proofs.EarliestError

/-! # Endings — the three ways in which a reading is over

    Over any source a reading uses tokens up one by one and then is over in one
    of three ways: a form is complete and the reader has looked behind it, the
    source FAILED where the reader had to look on, or the reader STOPPED at
    what it looks at, with the verdict on it (`Ending`, `read_ends`).

    A failure leaves the lookahead and costs one item of the source.  A stop
    costs nothing: the reader stays where it is. -/

namespace FormReader

theorem not_reports_ok {α : Type} {x : α} {d : Diagnostic} :
    ¬ Reports (.ok x : Except ReadError α) d := by
  rintro ⟨e, he, -⟩
  cases he

/-- A failure of the source is nothing to report on the tokens. -/
theorem Reports.not_source {α : Type} {e : SourceFailure} {d : Diagnostic} :
    ¬ Reports (.error (.source e) : Except ReadError α) d := by
  rintro ⟨e', he, hd⟩
  cases he
  cases hd

theorem Reports.unique {α : Type} {answer : Except ReadError α}
    {d d' : Diagnostic} (h : Reports answer d) (h' : Reports answer d') :
    d = d' := by
  obtain ⟨e, rfl, hd⟩ := h
  obtain ⟨e', he, hd'⟩ := h'
  cases he
  exact Option.some.inj (hd.symm.trans hd')

/-- The two messages differ. -/
theorem ReadError.unexpected_ne_unmatched (t : Token) :
    unexpectedMessage t ≠ unmatchedMessage := by
  intro h
  have hthird : (unexpectedMessage t)[2]? = unmatchedMessage[2]? :=
    congrArg (fun message : Text => message[2]?) h
  rw [unexpectedMessage, List.getElem?_append_left (by decide)] at hthird
  exact absurd hthird (by decide)

/-- A diagnostic tells which error it is about. -/
theorem ReadError.diagnostic?_inj {e e' : ReadError} {d : Diagnostic}
    (h : e.diagnostic? = some d) (h' : e'.diagnostic? = some d) : e = e' := by
  cases e with
  | unmatched token =>
      cases e' with
      | unmatched token' =>
          cases h.trans h'.symm
          rfl
      | unexpected t' =>
          cases h
          have hmessage := congrArg Diagnostic.message (Option.some.inj h')
          exact absurd hmessage (unexpected_ne_unmatched t')
      | source failure => cases h'
  | unexpected t =>
      cases e' with
      | unmatched token' =>
          cases h'
          have hmessage := congrArg Diagnostic.message (Option.some.inj h)
          exact absurd hmessage (unexpected_ne_unmatched t)
      | unexpected t' =>
          have htoken := congrArg (Option.map Diagnostic.token)
            (h.trans h'.symm)
          cases htoken
          rfl
      | source failure => cases h'
  | source failure => cases h

theorem Reports.answer_eq {α : Type} {a b : Except ReadError α}
    {d : Diagnostic} (ha : Reports a d) (hb : Reports b d) : a = b := by
  obtain ⟨e, rfl, he⟩ := ha
  obtain ⟨e', rfl, he'⟩ := hb
  rw [ReadError.diagnostic?_inj he he']

section Verdicts

variable {mode : Mode} {ws : List Token} {stop : Option Token}
  {answer : Answer}

/-- A verdict is the absence of a form or a report. -/
theorem Verdict.none_or_reports (h : Verdict mode ws stop answer) :
    answer = .ok none ∨ ∃ d, Reports answer d := by
  rcases h.cases with ⟨hnone, -⟩ | ⟨_, hr⟩ | ⟨-, _, hr⟩
  · exact Or.inl hnone
  · exact Or.inr ⟨_, hr⟩
  · exact Or.inr ⟨_, hr⟩

/-- What is reported is about the token where the reader stopped. -/
theorem Verdict.token_eq (h : Verdict mode ws stop answer) {d : Diagnostic}
    (hr : Reports answer d) : d.token = stop := by
  by_cases hno : ∀ t, stop = some t → t.role ≠ .closing
  · cases mode with
    | strict =>
        cases stop with
        | none =>
            have hended := h.ended rfl rfl
            by_cases hws : ws = []
            · rw [if_pos hws] at hended
              exact absurd (hended ▸ hr) not_reports_ok
            · rw [if_neg hws] at hended
              rw [hr.unique hended]
        | some t => rw [hr.unique (h.unexpected rfl t rfl (hno t rfl))]
    | lenient =>
        have hlenient := h.lenient rfl hno
        by_cases hws : ∀ t ∈ ws, t.role = .opening
        · rw [if_pos hws] at hlenient
          exact absurd (hlenient ▸ hr) not_reports_ok
        · rw [if_neg hws] at hlenient
          rw [hr.unique hlenient]
  · obtain ⟨t, ht⟩ := not_forall.mp hno
    obtain ⟨hstop, hrole⟩ := Classical.not_imp.mp ht
    rw [hr.unique (h.closing t hstop (not_not.mp hrole)), hstop]

theorem Verdict.not_form (h : Verdict mode ws stop answer) (f : Form) :
    answer ≠ .ok (some f) := by
  rcases h.none_or_reports with rfl | ⟨d, e, rfl, -⟩
  · intro hf
    cases hf
  · intro hf
    cases hf

theorem Verdict.not_source (h : Verdict mode ws stop answer)
    (e : SourceFailure) : answer ≠ .error (.source e) := by
  rintro rfl
  rcases h.none_or_reports with hnone | ⟨d, hr⟩
  · cases hnone
  · exact Reports.not_source hr

end Verdicts

namespace Reader

open OpenList

variable {r r₁ r' : Reader} {ws : List Token} {lists : List OpenList}

theorem read_of_accept {f : Form} (hrun : Shifts [] r ws lists r₁)
    (hmove : r₁.move lists = .accept f) (hadv : r₁.advance = (.ok (), r')) :
    r.read = (.ok (some f), r') := by
  rw [read, hrun.readFrom, readFrom_eq, hmove, hadv]

/-- Where a token is used up and the source fails, the failure is answered. -/
theorem read_of_failure {ls : List Lexeme} {e : SourceFailure}
    (hrun : Shifts [] r ws lists r₁)
    (hspent : (r₁.move lists).spent? = some ls)
    (hadv : r₁.advance = (.error e, r')) :
    r.read = (.error (.source e), r') := by
  rw [read, hrun.readFrom, readFrom_eq]
  cases hmove : r₁.move lists with
  | shift lists₁ => rw [hadv]
  | accept f => rw [hadv]
  | absent =>
      rw [hmove] at hspent
      cases hspent
  | fail e' =>
      rw [hmove] at hspent
      cases hspent

/-- A reading by `r` has used up `ws` and is over, with an answer and the
    reader it leaves. -/
inductive Ending (r : Reader) (ws : List Token) : Answer → Reader → Prop where
  /-- A form was completed by one token more. -/
  | form {lists : List OpenList} {r₁ r' : Reader} {f : Form} :
      Shifts [] r ws lists r₁ → r₁.move lists = .accept f →
      r₁.advance = (.ok (), r') → Ending r ws (.ok (some f)) r'
  /-- One token more was to be used up when the source failed. -/
  | failure {lists : List OpenList} {r₁ r' : Reader} {ls : List Lexeme}
      {e : SourceFailure} :
      Shifts [] r ws lists r₁ → (r₁.move lists).spent? = some ls →
      r₁.advance = (.error e, r') → Ending r ws (.error (.source e)) r'
  /-- The lookahead is left. -/
  | stop {lists : List OpenList} {r₁ : Reader} {answer : Answer} :
      Shifts [] r ws lists r₁ → (r₁.move lists).spent? = none →
      Verdict r.mode ws r₁.lookahead answer → Ending r ws answer r₁

/-- **EVERY READING ENDS** in one of the three ways. -/
theorem read_ends {answer : Answer} (h : r.read = (answer, r')) :
    ∃ ws, Ending r ws answer r' := by
  obtain ⟨ws, lists, r₁, hrun, hstop⟩ := exists_stop [] r
  refine ⟨ws, ?_⟩
  cases hspent : (r₁.move lists).spent? with
  | none =>
      obtain ⟨a, hread, hverdict⟩ := verdict_of_stop hrun hspent
      obtain ⟨rfl, rfl⟩ := Prod.mk.inj (h.symm.trans hread)
      exact .stop hrun hspent hverdict
  | some ls =>
      rcases hadv : r₁.advance with ⟨e | ⟨⟩, r₂⟩
      · have hread := read_of_failure hrun hspent hadv
        obtain ⟨rfl, rfl⟩ := Prod.mk.inj (h.symm.trans hread)
        exact .failure hrun hspent hadv
      · cases hmove : r₁.move lists with
        | shift lists₁ => exact absurd hadv (hstop _ _ hmove)
        | accept f =>
            have hread := read_of_accept hrun hmove hadv
            obtain ⟨rfl, rfl⟩ := Prod.mk.inj (h.symm.trans hread)
            exact .form hrun hmove hadv
        | absent =>
            rw [hmove] at hspent
            cases hspent
        | fail e =>
            rw [hmove] at hspent
            cases hspent

/-- A reading that fails has run to an advance that fails. -/
theorem failure_of_read {e : SourceFailure}
    (h : r.read = (.error (.source e), r')) :
    ∃ ws lists r₁, Shifts [] r ws lists r₁ ∧ r₁.advance = (.error e, r') := by
  obtain ⟨ws, hend⟩ := read_ends h
  cases hend with
  | failure hrun _ hadv => exact ⟨ws, _, _, hrun, hadv⟩
  | stop _ _ hverdict => exact absurd rfl (hverdict.not_source e)

end Reader

end FormReader
