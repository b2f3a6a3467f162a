import FormReader.Proofs.Harvest

/-! # Sharing — one reader and any number of walks

    Walks have no forms of their own: a step that asks a walk which is not
    finished is a reading of the reader they share (`act_shares`).  So over any
    schedule of readings and walks the forms delivered, in the order of the
    steps, are those of as many readings in a row (`run_shares`), and these are
    the first forms of the harvest, none lost and none twice.

    A walk that has once answered no form, or an error, is finished whatever
    happens afterwards (`run_finished`). -/

namespace FormReader

/-- The step reads the next form, begins a walk or asks one. -/
def Action.Shares : Action → Prop
  | read | openWalk | next _ => True
  | readAll | advance | generate _ | setMode _ | drain => False

/-- The forms that the steps of a run deliver, in their order. -/
def deliveredBy (steps : List (Reply × Session)) : List Form :=
  steps.flatMap fun step => step.1.delivered

namespace Session

variable {s : Session} {walk : Nat}

/-- How often a step calls for the next form: once if it reads, or if it asks a
    walk that is not finished. -/
def callsOf (s : Session) : Action → Nat
  | .read => 1
  | .next walk => if s.Live walk then 1 else 0
  | _ => 0

/-- How often the steps of a run call for the next form. -/
def calls (s : Session) : List Action → Nat
  | [] => 0
  | action :: actions => s.callsOf action + (s.act action).2.calls actions

/-- **A STEP IS A READING** for each call in it. -/
theorem act_shares (s : Session) {action : Action} (ha : action.Shares) :
    ((s.act action).1.delivered, (s.act action).2.reader)
      = s.reader.reads (s.callsOf action) := by
  cases action with
  | read =>
      show _ = (_ ++ [], _)
      rw [List.append_nil]
      rfl
  | readAll => exact ha.elim
  | advance => exact ha.elim
  | generate f => exact ha.elim
  | setMode mode => exact ha.elim
  | openWalk => rfl
  | next walk =>
      by_cases hlive : s.Live walk
      · rw [act, next_of_live hlive, callsOf, if_pos hlive]
        show _ = (_ ++ [], _)
        rw [List.append_nil]
        rcases s.reader.read with ⟨_ | _ | _, r⟩
        · rfl
        · rfl
        · rfl
      · rw [act, next_of_not_live hlive, callsOf, if_neg hlive]
        rfl
  | drain => exact ha.elim

/-- **A SCHEDULE IS READINGS IN A ROW**. -/
theorem run_shares (s : Session) {schedule : List Action}
    (ha : ∀ action ∈ schedule, action.Shares) :
    (deliveredBy (s.run schedule).1, (s.run schedule).2.reader)
      = s.reader.reads (s.calls schedule) := by
  induction schedule generalizing s with
  | nil => rfl
  | cons action actions ih =>
      obtain ⟨hfirst, hrest⟩ := List.forall_mem_cons.mp ha
      rw [calls, Reader.reads_add, ← act_shares s hfirst]
      have hlater := ih (s := (s.act action).2) hrest
      rw [← hlater]
      rfl

/-! ## Finished walks -/

theorem finish_self (h : walk < s.finished.length) :
    (s.finish walk).finished[walk]? = some true := by
  show (s.finished.set walk true)[walk]? = some true
  rw [List.getElem?_set_self h]

theorem finish_keeps (other : Nat) (h : s.finished[walk]? = some true) :
    (s.finish other).finished[walk]? = some true := by
  by_cases hw : other = walk
  · obtain ⟨hlt, -⟩ := List.getElem?_eq_some_iff.mp h
    rw [hw]
    exact finish_self hlt
  · show (s.finished.set other true)[walk]? = some true
    rw [List.getElem?_set_ne hw]
    exact h

/-- No step takes up a walk that is finished. -/
theorem act_finished (action : Action) (h : s.finished[walk]? = some true) :
    (s.act action).2.finished[walk]? = some true := by
  cases action with
  | read => exact h
  | readAll =>
      rw [act]
      rcases s.reader.readAll with ⟨_ | _, _⟩
      · exact h
      · exact h
  | advance =>
      rw [act]
      rcases s.reader.advance with ⟨_ | _, _⟩
      · exact h
      · exact h
  | generate f =>
      rw [act]
      rcases s.reader.generate f with ⟨_ | _, _⟩
      · exact h
      · exact h
  | setMode mode => exact h
  | openWalk =>
      show (s.finished ++ [false])[walk]? = some true
      obtain ⟨hlt, -⟩ := List.getElem?_eq_some_iff.mp h
      rw [List.getElem?_append_left hlt]
      exact h
  | next other =>
      by_cases hlive : s.Live other
      · rw [act, next_of_live hlive]
        rcases s.reader.read with ⟨_ | _ | _, r⟩
        · exact finish_keeps (s := s.withReader r) other h
        · exact finish_keeps (s := s.withReader r) other h
        · exact h
      · rw [act, next_of_not_live hlive]
        exact h
  | drain =>
      rw [act]
      rcases s.reader.source.drain with ⟨_ | _, _⟩
      · exact h
      · exact h

theorem run_finished (actions : List Action)
    (h : s.finished[walk]? = some true) :
    (s.run actions).2.finished[walk]? = some true := by
  induction actions generalizing s with
  | nil => exact h
  | cons action actions ih => exact ih (act_finished action h)

/-- **FINISHED FOR GOOD**: a walk that has answered no form, or an error, is
    finished behind any further steps, and asking it changes nothing. -/
theorem next_finished (hlive : s.Live walk)
    (hend : (s.act (.next walk)).1 = .finished
      ∨ ∃ e, (s.act (.next walk)).1 = .failed e)
    (later : List Action) :
    let s' := ((s.act (.next walk)).2.run later).2
    s'.act (.next walk) = (.finished, s') := by
  intro s'
  have hlt := (List.getElem?_eq_some_iff.mp hlive).1
  have hfinished : (s.act (.next walk)).2.finished[walk]? = some true := by
    rw [act, next_of_live hlive] at hend ⊢
    rcases hread : s.reader.read with ⟨_ | _ | f, r⟩
    · exact finish_self (s := s.withReader r) hlt
    · exact finish_self (s := s.withReader r) hlt
    · rw [hread] at hend
      rcases hend with h | ⟨e, h⟩
      · cases h
      · cases h
  have hlast : s'.finished[walk]? = some true := run_finished later hfinished
  refine next_of_not_live fun hlive' => ?_
  cases hlast.symm.trans hlive'

/-! ## What a schedule delivers -/

theorem act_readAll_of_ok {fs : List Form} (h : s.reader.readAll.1 = .ok fs) :
    (s.act .readAll).1 = .forms fs := by
  rw [act_readAll, h]
  rfl

theorem act_readAll_of_error {e : ReadError}
    (h : s.reader.readAll.1 = .error e) : (s.act .readAll).1 = .failed e := by
  rw [act_readAll, h]
  rfl

/-- **NOTHING LOST AND NOTHING TWICE**: let `harvest` be what a fresh reader over
    a source that does not fail answers when it is read over and over.  A
    schedule of readings and walks delivers the first forms of the harvest, one
    for each call until none is left; behind them no call delivers a form.  All
    forms asked for at the end of the schedule are the rest of the harvest, if
    no error ends it.  An error that ends it is answered there, unless it was
    answered before and the reader is idle behind it: then no form is left.  A
    walk that has answered no form, or an error, stays finished. -/
theorem shared_harvest {source : Source}
    (steady : ∀ message, Item.failure message ∉ source) (mode : Mode) :
    ∃ r, Reader.ofSource source mode = (.ok (), r) ∧
      ∀ schedule : List Action, (∀ action ∈ schedule, action.Shares) →
        let harvest := r.harvest
        let n := (ofReader r).calls schedule
        let s := ((ofReader r).run schedule).2
        deliveredBy ((ofReader r).run schedule).1
          = harvest.forms.take (min harvest.forms.length n) ∧
        (harvest.forms.length ≤ n → ∀ action : Action, action.Shares →
          (s.act action).1.delivered = []) ∧
        (harvest.answer = .ok none →
          (s.act .readAll).1 = .forms (harvest.forms.drop n)) ∧
        (∀ e, harvest.answer = .error e →
          (n ≤ harvest.forms.length ∨ ¬ harvest.reader.Idle →
            (s.act .readAll).1 = .failed e) ∧
          (harvest.forms.length < n → harvest.reader.Idle →
            (s.act .readAll).1 = .forms [])) ∧
        ∀ walk, s.Live walk →
          ((s.act (.next walk)).1 = .finished
            ∨ ∃ e, (s.act (.next walk)).1 = .failed e) →
          ∀ later : List Action,
            let s' := ((s.act (.next walk)).2.run later).2
            s'.act (.next walk) = (.finished, s') := by
  have hfresh : (⟨none, source, mode⟩ : Reader).Steady := steady
  obtain ⟨r, hof⟩ := hfresh.exists_advance
  have hsteady : r.Steady := by
    have hsuffix := Reader.advance_suffix ⟨none, source, mode⟩
    rw [hof] at hsuffix
    exact hfresh.of_suffix hsuffix
  have hlook := Reader.no_ending_invariant.advanced
    (fun _ ht => by cases ht) hof
  obtain ⟨hstopped, hmode, ws, hverdict⟩ := Reader.harvest_ends hsteady hlook
  rw [← hmode] at hverdict
  refine ⟨r, hof, ?_⟩
  intro schedule ha harvest n s
  have hrun := run_shares (ofReader r) ha
  have hdelivered : deliveredBy ((ofReader r).run schedule).1 = (r.reads n).1 :=
    congrArg Prod.fst hrun
  have hreader : s.reader = (r.reads n).2 := congrArg Prod.snd hrun
  obtain ⟨hforms, -, hnone⟩ := Reader.reads_eq hstopped n
  have hover : harvest.forms.length < n → s.reader = harvest.reader :=
    fun hn => hreader.trans (hnone hn)
  refine ⟨?_, ?_, ?_, ?_, ?_⟩
  · rw [hdelivered, hforms, List.take_eq_take_min, Nat.min_comm]
  · intro hn action haction
    have hstep := congrArg Prod.fst (act_shares s haction)
    rw [hreader] at hstep
    exact hstep.trans (Reader.reads_used_up hstopped hn _)
  · intro hanswer
    refine act_readAll_of_ok ?_
    by_cases hn : n ≤ harvest.forms.length
    · rw [hreader, Reader.readAll_of_reads hstopped hn, hanswer]
      rfl
    · have hlt := Nat.lt_of_not_le hn
      have hidle : harvest.reader.Idle :=
        Reader.idle_of_none hstopped (hanswer ▸ hverdict)
      rw [hover hlt, hidle.readAll hstopped,
        List.drop_eq_nil_of_le (Nat.le_of_lt hlt)]
  · intro e hanswer
    constructor
    · intro hcase
      refine act_readAll_of_error ?_
      by_cases hn : n ≤ harvest.forms.length
      · rw [hreader, Reader.readAll_of_reads hstopped hn, hanswer]
        rfl
      · have hidle := hcase.resolve_left hn
        have hagain := Reader.read_again hstopped hverdict hidle
        rw [hanswer] at hagain
        rw [hover (Nat.lt_of_not_le hn), Reader.readAll,
          Reader.readAllOnto_of_error [] hagain]
    · intro hlt hidle
      refine act_readAll_of_ok ?_
      rw [hover hlt, hidle.readAll hstopped]
  · intro walk hlive hend later
    exact next_finished hlive hend later

/-- Of `a (f x)`, a pause and `b`, two walks and a reading share the two forms
    before the pause; the last of the calls finds none, and a walk that asks
    after it is finished. -/
theorem shared_harvest_before_pause :
    let a : Form := Form.identifier (.of "a")
    let call : Form :=
      .call (Form.identifier (.of "f")) [Form.identifier (.of "x")]
    let source : Source :=
      [.token (.make (.of "IDENT") (.of "a") 1 1),
        .token (.make (.of "LPAREN") [] 1 3),
        .token (.make (.of "IDENT") (.of "f") 1 4),
        .token (.make (.of "IDENT") (.of "x") 1 6),
        .token (.make (.of "RPAREN") [] 1 7), .pause,
        .token (.make (.of "IDENT") (.of "b") 2 1)]
    let schedule : List Action :=
      [.openWalk, .next 0, .openWalk, .read, .next 1]
    (∀ message, Item.failure message ∉ source) ∧
      (∀ action ∈ schedule, action.Shares) ∧
      ∃ r, Reader.ofSource source .strict = (.ok (), r) ∧
        let s := ((ofReader r).run schedule).2
        deliveredBy ((ofReader r).run schedule).1 = [a, call] ∧
        (s.act (.next 0)).1.delivered = [] ∧
        (s.act .readAll).1 = .forms [] ∧
        ∀ later, (((s.act (.next 0)).2.run later).2.act (.next 0)).1
          = .finished := by
  intro a call source schedule
  have hsteady : ∀ message, Item.failure message ∉ source := by
    simp [source]
  have hshares : ∀ action ∈ schedule, action.Shares := by
    simp [schedule, Action.Shares]
  obtain ⟨r, hof, hschedule⟩ := shared_harvest hsteady .strict
  obtain rfl := (Prod.mk.inj hof).2
  obtain ⟨hdelivered, hnone, hall, -, hwalk⟩ := hschedule schedule hshares
  refine ⟨hsteady, hshares, _, hof, ?_⟩
  intro s
  refine ⟨?_, ?_, ?_, ?_⟩
  · rw [hdelivered]
    decide +kernel
  · exact hnone (by decide +kernel) (.next 0) trivial
  · exact (hall (by decide +kernel)).trans
      (congrArg Reply.forms (by decide +kernel))
  · intro later
    have hlive : s.Live 0 := by decide +kernel
    have hread : s.reader.read = (.ok none, s.reader) := by decide +kernel
    have hend := (answersNone_of_read hread).next 0 hlive
    rw [hwalk 0 hlive (Or.inl hend) later]

/-- Of `(f` and a quotation mark, lenient mode reads no form and finds the list
    unmatched.  Asked for all forms then, it neither answers the error again nor
    looks at nothing: it answers that there are none. -/
theorem error_forgotten_at_token :
    let tokens : List Token :=
      [.make (.of "LPAREN") [] 1 1, .make (.of "IDENT") (.of "f") 1 2,
        .make (.of "QUOTE") (.of "'") 1 4]
    let r : Reader := ⟨tokens.head?, .ofTokens (tokens.drop 1), .lenient⟩
    let e : ReadError := .unmatched tokens[2]?
    let s := ((ofReader r).run [.read]).2
    Reader.ofSource (.ofTokens tokens) .lenient = (.ok (), r) ∧
      r.harvest.forms = [] ∧ r.harvest.answer = .error e ∧
      ((ofReader r).act .read).1 = .failed e ∧
      s.reader.lookahead ≠ none ∧ (s.act .readAll).1 = .forms [] := by
  intro tokens r e s
  have hread : r.read.1 = .error e := by decide +kernel
  have hall : s.reader.readAll.1 = .ok [] := by decide +kernel
  refine ⟨rfl, by decide +kernel, by decide +kernel, ?_, by decide +kernel,
    act_readAll_of_ok hall⟩
  show replyForm r.read.1 = .failed e
  rw [hread]
  rfl

end Session

end FormReader
