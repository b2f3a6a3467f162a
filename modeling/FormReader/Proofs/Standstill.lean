import FormReader.Proofs.Endings

/-! # Standstill — a reader that has stopped

    A reading that finds no form, or reports an error, leaves its reader in
    front of a token that begins no form, or of nothing (`stopped_of_read`).
    Such a reader has STOPPED: the next reading is over at once, uses nothing
    up and leaves the reader as it is (`read_of_stopped`).  So a session stands
    still under all steps but those that look at the next token or drain the
    source (`run_standstill`), and what it answers is the verdict on its
    lookahead where nothing was used up.

    * `Reader.Stopped` — what the reader looks at begins no form;
      `Reader.Idle` — nor is there anything to complain of;
    * `Action.Reads` — the step reads, walks or changes the mode;
    * `Session.AnswersNone`, `Session.AnswersError` — what a session
      answers however it is asked. -/

namespace FormReader

theorem Token.not_closing_of_other {t : Token} (h : t.role = .other) :
    t.role ≠ .closing := by
  rw [h]
  decide

/-- Where nothing was used up, it is absence that is answered unless there is a
    closing token, or in strict mode any token. -/
theorem Verdict.none_of_nothing {mode : Mode} {stop : Option Token}
    {answer : Answer} (h : Verdict mode [] stop answer)
    (hno : ∀ t, stop = some t → t.role ≠ .closing)
    (hend : mode = .strict → stop = none) : answer = .ok none := by
  cases mode with
  | strict =>
      have hended := h.ended rfl (hend rfl)
      rwa [if_pos rfl] at hended
  | lenient =>
      have hlenient := h.lenient rfl hno
      rwa [if_pos (by simp)] at hlenient

namespace Reader

variable {r r' : Reader}

/-- What the reader looks at begins no form. -/
def Stopped (r : Reader) : Prop :=
  ∀ t, r.lookahead = some t → t.role = .closing ∨ t.role = .other

/-- A reader never looks at a token that ends the input. -/
theorem no_ending_invariant :
    Invariant fun r => ∀ t, r.lookahead = some t → t.role ≠ .ending where
  advance r h := by
    rcases advance_cases r with
      ⟨e, rest, hadv⟩ | ⟨rest, hadv, -⟩ | ⟨t, rest, hadv, hahead⟩
    · rw [hadv]
      exact h
    · rw [hadv]
      intro t ht
      cases ht
    · rw [hadv]
      obtain ⟨_, -, ht, -⟩ := Source.eq_cons_of_ahead hahead
      intro u hu
      obtain rfl := Option.some.inj hu
      exact ht
  setMode _ _ h := h
  drain _ h := h

/-- **A READING THAT FINDS NO FORM STOPS**, and so does one that reports an
    error. -/
theorem stopped_of_read (hlook : ∀ t, r.lookahead = some t → t.role ≠ .ending)
    {answer : Answer} (h : r.read = (answer, r'))
    (hno : answer = .ok none ∨ ∃ d, Reports answer d) : r'.Stopped := by
  have hlook' := no_ending_invariant.read hlook h
  obtain ⟨ws, hend⟩ := read_ends h
  cases hend with
  | form _ _ _ =>
      rcases hno with hnone | ⟨d, hr⟩
      · cases hnone
      · exact absurd hr not_reports_ok
  | failure _ _ _ =>
      rcases hno with hnone | ⟨d, hr⟩
      · cases hnone
      · exact absurd hr Reports.not_source
  | stop _ hspent _ =>
      intro t looking
      rcases stop_cases hspent looking with hnone | ⟨hclosing, -⟩
      · exact Or.inr
          ((Token.lexeme?_none.mp hnone).resolve_left (hlook' t looking))
      · exact Or.inl (Token.lexeme?_closing.mp hclosing)

/-- Outside all lists, a token that begins no form is left. -/
theorem stays_of_stopped (h : r.Stopped) : (r.move []).spent? = none := by
  rw [move]
  cases looking : r.lookahead with
  | none => rfl
  | some t =>
      rcases h t looking with hclosing | hother
      · rw [Move.next_of_lexeme (Token.lexeme?_closing.mpr hclosing)]
        rfl
      · rw [Move.next_of_no_lexeme (Token.lexeme?_none.mpr (Or.inr hother))]
        cases r.mode with
        | strict => rfl
        | lenient => rfl

/-- **A STOPPED READER STAYS WHERE IT IS**, with the verdict on what it looks
    at. -/
theorem read_of_stopped (h : r.Stopped) :
    ∃ answer, r.read = (answer, r) ∧ Verdict r.mode [] r.lookahead answer :=
  verdict_of_stop (.refl [] r) (stays_of_stopped h)

theorem Stopped.read_stays (h : r.Stopped) :
    r.read = (.ok none, r) ∨ ∃ e, r.read = (.error e, r) := by
  obtain ⟨answer, hread, hverdict⟩ := read_of_stopped h
  rcases hverdict.none_or_reports with rfl | ⟨d, e, rfl, -⟩
  · exact Or.inl hread
  · exact Or.inr ⟨e, hread⟩

/-- There is nothing that a reader without open lists would complain of. -/
def Idle (r : Reader) : Prop :=
  r.lookahead = none ∨
    r.mode = .lenient ∧ ∃ t, r.lookahead = some t ∧ t.role = .other

theorem Idle.not_closing (h : r.Idle) {t : Token}
    (looking : r.lookahead = some t) : t.role ≠ .closing := by
  rcases h with hnone | ⟨-, u, hu, hother⟩
  · cases hnone.symm.trans looking
  · obtain rfl := Option.some.inj (looking.symm.trans hu)
    exact Token.not_closing_of_other hother

/-- An idle reader answers no form, whatever was answered before. -/
theorem Idle.read (h : r.Idle) (hstopped : r.Stopped) :
    r.read = (.ok none, r) := by
  obtain ⟨a, hread, hverdict⟩ := read_of_stopped hstopped
  obtain rfl := hverdict.none_of_nothing (fun t => h.not_closing) fun hstrict =>
    h.resolve_right fun hlenient => by cases hstrict.symm.trans hlenient.1
  exact hread

theorem readAllOnto_of_none (done : List Form) (h : r.read = (.ok none, r')) :
    r.readAllOnto done = (.ok done.reverse, r') := by
  rw [readAllOnto_eq, h]

theorem readAllOnto_of_error (done : List Form) {e : ReadError}
    (h : r.read = (.error e, r')) : r.readAllOnto done = (.error e, r') := by
  rw [readAllOnto_eq, h]

end Reader

/-! ## Sessions that stand still -/

/-- The forms that a reply delivers. -/
def Reply.delivered : Reply → List Form
  | form (some f) => [f]
  | forms fs => fs
  | _ => []

/-- The step reads, walks or changes the mode: it never looks at the next token
    on its own, nor does it take tokens from the source. -/
def Action.Reads : Action → Prop
  | read | readAll | setMode _ | openWalk | next _ => True
  | advance | generate _ | drain => False

namespace Session

variable {s : Session} {walk : Nat}

/-- The walk was begun and is not finished. -/
def Live (s : Session) (walk : Nat) : Prop := s.finished[walk]? = some false

instance (s : Session) (walk : Nat) : Decidable (s.Live walk) :=
  inferInstanceAs (Decidable (s.finished[walk]? = some false))

theorem not_live_iff : ¬ s.Live walk ↔ s.finished.getD walk true = true := by
  rw [Live, List.getD_eq_getElem?_getD]
  rcases s.finished[walk]? with _ | _ | _
  · simp
  · simp
  · simp

theorem next_of_live (h : s.Live walk) :
    s.next walk =
      match s.reader.read with
      | (.ok (some f), r) => (.form (some f), s.withReader r)
      | (.ok none, r) => (.finished, (s.withReader r).finish walk)
      | (.error e, r) => (.failed e, (s.withReader r).finish walk) :=
  if_neg (mt not_live_iff.mpr (not_not.mpr h))

theorem next_of_not_live (h : ¬ s.Live walk) : s.next walk = (.finished, s) :=
  if_pos (not_live_iff.mp h)

/-- The reply to all forms that are left. -/
def replyForms : Except ReadError (List Form) → Reply
  | .ok fs => .forms fs
  | .error e => .failed e

theorem act_readAll (s : Session) :
    s.act .readAll
      = (replyForms s.reader.readAll.1, s.withReader s.reader.readAll.2) := by
  rw [act]
  rcases s.reader.readAll with ⟨_ | _, _⟩
  · rfl
  · rfl

/-- However it is asked, the session answers that there is no form. -/
structure AnswersNone (s : Session) : Prop where
  read : (s.act .read).1 = .form none
  readAll : (s.act .readAll).1 = .forms []
  next : ∀ walk, s.Live walk → (s.act (.next walk)).1 = .finished

/-- However it is asked, the session answers an error with the diagnostic. -/
structure AnswersError (s : Session) (d : Diagnostic) : Prop where
  read : ∃ e, (s.act .read).1 = .failed e ∧ e.diagnostic? = some d
  readAll : ∃ e, (s.act .readAll).1 = .failed e ∧ e.diagnostic? = some d
  next : ∀ walk, s.Live walk →
    ∃ e, (s.act (.next walk)).1 = .failed e ∧ e.diagnostic? = some d

theorem answersNone_of_read (h : s.reader.read = (.ok none, s.reader)) :
    s.AnswersNone where
  read := by
    rw [act, h]
    rfl
  readAll := by
    rw [act, Reader.readAll, Reader.readAllOnto_of_none [] h]
    rfl
  next walk hlive := by
    rw [act, next_of_live hlive, h]

theorem answersError_of_read {d : Diagnostic}
    (h : ∃ answer, s.reader.read = (answer, s.reader) ∧ Reports answer d) :
    s.AnswersError d := by
  obtain ⟨answer, hread, e, rfl, hd⟩ := h
  refine ⟨⟨e, ?_, hd⟩, ⟨e, ?_, hd⟩, fun walk hlive => ⟨e, ?_, hd⟩⟩
  · rw [act, hread]
    rfl
  · rw [act, Reader.readAll, Reader.readAllOnto_of_error [] hread]
  · rw [act, next_of_live hlive, hread]

/-! ### What is answered where nothing moves -/

theorem answersNone_of_idle (hs : s.reader.Stopped) (h : s.reader.Idle) :
    s.AnswersNone :=
  answersNone_of_read (h.read hs)

theorem answersError_of_closing (hs : s.reader.Stopped) {t : Token}
    (looking : s.reader.lookahead = some t) (ht : t.role = .closing) :
    s.AnswersError ⟨ReadError.unmatchedMessage, some t⟩ := by
  obtain ⟨answer, hread, hverdict⟩ := Reader.read_of_stopped hs
  exact answersError_of_read ⟨answer, hread, hverdict.closing t looking ht⟩

theorem answersError_of_unexpected (hs : s.reader.Stopped)
    (hmode : s.reader.mode = .strict) {t : Token}
    (looking : s.reader.lookahead = some t) (ht : t.role = .other) :
    s.AnswersError ⟨ReadError.unexpectedMessage t, some t⟩ := by
  obtain ⟨answer, hread, hverdict⟩ := Reader.read_of_stopped hs
  exact answersError_of_read ⟨answer, hread,
    hverdict.unexpected hmode t looking (Token.not_closing_of_other ht)⟩

/-! ### Steps and runs -/

/-- **ONE STEP OF A STANDSTILL**: nothing is used up and no form delivered. -/
theorem act_standstill (hs : s.reader.Stopped) {action : Action}
    (ha : action.Reads) :
    (s.act action).1.delivered = [] ∧
      (s.act action).2.reader.lookahead = s.reader.lookahead ∧
      (s.act action).2.reader.source = s.reader.source := by
  cases action with
  | read =>
      rcases hs.read_stays with hread | ⟨e, hread⟩
      · rw [act, hread]
        exact ⟨rfl, rfl, rfl⟩
      · rw [act, hread]
        exact ⟨rfl, rfl, rfl⟩
  | readAll =>
      rcases hs.read_stays with hread | ⟨e, hread⟩
      · rw [act, Reader.readAll, Reader.readAllOnto_of_none [] hread]
        exact ⟨rfl, rfl, rfl⟩
      · rw [act, Reader.readAll, Reader.readAllOnto_of_error [] hread]
        exact ⟨rfl, rfl, rfl⟩
  | advance => exact ha.elim
  | generate f => exact ha.elim
  | setMode mode => exact ⟨rfl, rfl, rfl⟩
  | openWalk => exact ⟨rfl, rfl, rfl⟩
  | next walk =>
      by_cases hlive : s.Live walk
      · rcases hs.read_stays with hread | ⟨e, hread⟩
        · rw [act, next_of_live hlive, hread]
          exact ⟨rfl, rfl, rfl⟩
        · rw [act, next_of_live hlive, hread]
          exact ⟨rfl, rfl, rfl⟩
      · rw [act, next_of_not_live hlive]
        exact ⟨rfl, rfl, rfl⟩
  | drain => exact ha.elim

/-- **A RUN OF A STANDSTILL**, at its end and behind every step. -/
theorem run_standstill {actions : List Action} (hs : s.reader.Stopped)
    (ha : ∀ action ∈ actions, action.Reads) :
    ((s.run actions).2.reader.lookahead = s.reader.lookahead ∧
      (s.run actions).2.reader.source = s.reader.source) ∧
    ∀ step ∈ (s.run actions).1, step.1.delivered = [] ∧
      step.2.reader.lookahead = s.reader.lookahead ∧
      step.2.reader.source = s.reader.source := by
  induction actions generalizing s with
  | nil => exact ⟨⟨rfl, rfl⟩, by simp [run]⟩
  | cons action actions ih =>
      obtain ⟨hfirst, hrest⟩ := List.forall_mem_cons.mp ha
      have hone := act_standstill hs hfirst
      have hs' : (s.act action).2.reader.Stopped := by
        rw [Reader.Stopped, hone.2.1]
        exact hs
      obtain ⟨hlast, hsteps⟩ := ih hs' hrest
      rw [hone.2.1, hone.2.2] at hlast hsteps
      exact ⟨hlast, List.forall_mem_cons.mpr ⟨hone, hsteps⟩⟩

/-- **STOPPED FOR GOOD**: where a reached reader finds no form or reports an
    error, it looks at nothing, at a closing token or at one without meaning.
    However its session goes on to read, to walk and to change the mode, the
    lookahead and the source stay and no form is delivered, and the lookahead
    and the mode alone decide what is answered. -/
theorem stopped_for_good {source : Source} {s : Session}
    (hs : s.Reached source) {answer : Answer} {r : Reader}
    (hread : s.reader.read = (answer, r))
    (hno : answer = .ok none ∨ ∃ d, Reports answer d) :
    (∀ t, r.lookahead = some t → t.role = .closing ∨ t.role = .other) ∧
    ∀ (s₁ : Session) (actions : List Action), s₁.reader = r →
      (∀ action ∈ actions, action.Reads) →
      let s₂ := (s₁.run actions).2
      (s₂.reader.lookahead = r.lookahead ∧ s₂.reader.source = r.source) ∧
      (∀ step ∈ (s₁.run actions).1, step.1.delivered = [] ∧
        step.2.reader.lookahead = r.lookahead ∧
        step.2.reader.source = r.source) ∧
      (r.lookahead = none → s₂.AnswersNone) ∧
      ∀ t, r.lookahead = some t →
        (t.role = .closing →
          s₂.AnswersError ⟨ReadError.unmatchedMessage, some t⟩) ∧
        (t.role = .other → s₂.reader.mode = .strict →
          s₂.AnswersError ⟨ReadError.unexpectedMessage t, some t⟩) ∧
        (t.role = .other → s₂.reader.mode = .lenient → s₂.AnswersNone) := by
  have hlook := Reader.no_ending_invariant.reached
    (fun _ t ht => by cases ht) hs
  have hstopped : r.Stopped := Reader.stopped_of_read hlook hread hno
  refine ⟨hstopped, ?_⟩
  rintro s₁ actions rfl ha s₂
  obtain ⟨hlast, hsteps⟩ := run_standstill hstopped ha
  have hstopped₂ : s₂.reader.Stopped := by
    rw [Reader.Stopped, hlast.1]
    exact hstopped
  refine ⟨hlast, hsteps, ?_, ?_⟩
  · intro hnone
    exact answersNone_of_idle hstopped₂ (Or.inl (hlast.1.trans hnone))
  · intro t looking
    have looking₂ : s₂.reader.lookahead = some t := hlast.1.trans looking
    refine ⟨?_, ?_, ?_⟩
    · intro hclosing
      exact answersError_of_closing hstopped₂ looking₂ hclosing
    · intro hother hstrict
      exact answersError_of_unexpected hstopped₂ hstrict looking₂ hother
    · intro hother hlenient
      exact answersNone_of_idle hstopped₂
        (Or.inr ⟨hlenient, t, looking₂, hother⟩)

/-- In `(f` and a quotation mark, behind which the source fails, lenient mode
    finds the list unmatched.  A walk then finds no form, and strict mode the
    mark unexpected; the source still holds its failure. -/
theorem stopped_for_good_unclosed :
    let tokens : List Token :=
      [.make (.of "LPAREN") [] 1 1, .make (.of "IDENT") (.of "f") 1 2,
        .make (.of "QUOTE") (.of "'") 1 4]
    let source := Source.ofTokens tokens ++ [Item.failure (.of "lost")]
    let r : Reader := ⟨tokens.head?, source.drop 1, .lenient⟩
    let r' : Reader := ⟨tokens[2]?, source.drop 3, .lenient⟩
    let answer : Answer := .error (.unmatched tokens[2]?)
    let actions : List Action := [.openWalk, .next 0, .setMode .strict]
    Reached source (.ofReader r) ∧ r.read = (answer, r') ∧
      Reports answer ⟨ReadError.unmatchedMessage, tokens[2]?⟩ ∧
      (∀ action ∈ actions, action.Reads) ∧
      ∀ s₂, ((ofReader r').run actions).2 = s₂ → s₂.reader.source = r'.source ∧
        ∀ t ∈ tokens[2]?,
          s₂.AnswersError ⟨ReadError.unexpectedMessage t, some t⟩ := by
  intro tokens source r r' answer actions
  have hs : Reached source (.ofReader r) := .fresh .lenient rfl
  have hread : r.read = (answer, r') := by decide +kernel
  have hreports : Reports answer ⟨ReadError.unmatchedMessage, tokens[2]?⟩ :=
    ⟨_, rfl, rfl⟩
  have hactions : ∀ action ∈ actions, action.Reads := by
    simp [actions, Action.Reads]
  refine ⟨hs, hread, hreports, hactions, ?_⟩
  rintro s₂ rfl
  obtain ⟨-, hgood⟩ := stopped_for_good hs hread (Or.inr ⟨_, hreports⟩)
  obtain ⟨⟨-, hsource⟩, -, -, hsome⟩ := hgood (.ofReader r') actions rfl hactions
  refine ⟨hsource, ?_⟩
  intro t ht
  obtain ⟨-, hstrict, -⟩ := hsome t ht
  obtain rfl := Option.some.inj ht
  exact hstrict (by decide) rfl

end Session

end FormReader
