import FormReader.Proofs.Endings

/-! # Leniency — strict and lenient readers in lockstep

    Two readers that differ in nothing but their mode use up the same tokens,
    build the same forms and come to the same end: a move that uses a token up
    does not ask for the mode (`Move.next_of_spent`), so a run of one reader is
    a run of the other (`Shifts.inMode`).  Where both stop, they stop at the
    same token with the same tokens behind them, and the mode decides only how
    the stop is REPORTED: what strict mode refuses, lenient mode passes over in
    silence if nothing but openings was used up, and else calls unmatched.

    So a strict reading that succeeds is a lenient one, and the forms of a
    whole input that strict mode reads are those that lenient mode reads. -/

namespace FormReader

/-- A move that uses its token up is the move of the other mode, too. -/
theorem Move.next_of_spent {mode : Mode} {lists : List OpenList}
    {stop : Option Token} {ls : List Lexeme}
    (h : (next mode lists stop).spent? = some ls) (mode' : Mode) :
    next mode' lists stop = next mode lists stop := by
  cases stop with
  | none => cases (spent?_unwind mode none lists).symm.trans h
  | some t =>
      obtain ⟨l, hl, -⟩ := spent?_next h
      rw [next_of_lexeme hl, next_of_lexeme hl]

/-- In neither mode, and so in both, is the token used up. -/
theorem Move.next_stays {mode : Mode} {lists : List OpenList}
    {stop : Option Token} (h : (next mode lists stop).spent? = none)
    (mode' : Mode) : (next mode' lists stop).spent? = none := by
  cases hspent : (next mode' lists stop).spent? with
  | none => rfl
  | some ls =>
      rw [next_of_spent hspent mode, hspent] at h
      cases h

namespace Reader

variable {r r' : Reader} {lists lists' : List OpenList} {ws : List Token}

/-- The reader in another mode. -/
def inMode (mode : Mode) (r : Reader) : Reader := { r with mode := mode }

theorem advance_inMode (mode : Mode) (r : Reader) :
    (r.inMode mode).advance = (r.advance.1, r.advance.2.inMode mode) := by
  obtain ⟨lookahead, source, _⟩ := r
  rcases source with _ | ⟨t | _ | message, rest⟩
  · rfl
  · by_cases ht : t.role = .ending
    · rw [advance_of_ending rfl ht, advance_of_ending rfl ht]
      rfl
    · rw [advance_of_token rfl ht, advance_of_token rfl ht]
      rfl
  · rfl
  · rfl

theorem advance_in {a : Except SourceFailure Unit} (h : r.advance = (a, r'))
    (mode : Mode) : (r.inMode mode).advance = (a, r'.inMode mode) := by
  rw [advance_inMode, h]

/-- The same tokens are used up in either mode, inside the same lists. -/
theorem Shifts.inMode (h : Shifts lists r ws lists' r') (mode : Mode) :
    Shifts lists (r.inMode mode) ws lists' (r'.inMode mode) := by
  induction h with
  | refl lists r => exact .refl ..
  | @step lists lists₁ _ r _ _ _ _ looking hmove hadv _ ih =>
      refine .step looking ?_ (advance_in hadv mode) ih
      have hspent : (Move.next r.mode lists r.lookahead).spent?
          = (Move.shift lists₁).spent? := congrArg Move.spent? hmove
      exact (Move.next_of_spent hspent mode).trans hmove

/-! ## The answers of both modes -/

/-- How the answers of strict and of lenient mode belong together, where a
    reading leads the lenient reader from `r` to `r'`. -/
inductive Lockstep (r r' : Reader) : Answer → Answer → Prop where
  | form (f : Form) : Lockstep r r' (.ok (some f)) (.ok (some f))
  | failure (e : SourceFailure) :
      Lockstep r r' (.error (.source e)) (.error (.source e))
  | stop {ws : List Token} {a b : Answer} : r.stream = ws ++ r'.stream →
      r.advances ws.length = (.ok (), r') →
      Verdict .strict ws r'.lookahead a → Verdict .lenient ws r'.lookahead b →
      Lockstep r r' a b

/-- **IN LOCKSTEP**: the lenient reader comes to the end that the strict reader
    comes to. -/
theorem read_lenient {a : Answer} (hmode : r.mode = .strict)
    (h : r.read = (a, r')) :
    ∃ b, (r.inMode .lenient).read = (b, r'.inMode .lenient) ∧
      Lockstep (r.inMode .lenient) (r'.inMode .lenient) a b := by
  obtain ⟨ws, hend⟩ := read_ends h
  cases hend with
  | @form lists r₁ _ f hrun hmove hadv =>
      have hspent : (Move.next r₁.mode lists r₁.lookahead).spent? = _ :=
        congrArg Move.spent? hmove
      have hmove' : (r₁.inMode .lenient).move lists = .accept f :=
        (Move.next_of_spent hspent .lenient).trans hmove
      exact ⟨_, read_of_accept (hrun.inMode .lenient) hmove'
        (advance_in hadv .lenient), .form f⟩
  | @failure lists r₁ _ ls e hrun hspent hadv =>
      have hspent' : ((r₁.inMode .lenient).move lists).spent? = some ls :=
        (congrArg Move.spent? (Move.next_of_spent hspent .lenient)).trans hspent
      exact ⟨_, read_of_failure (hrun.inMode .lenient) hspent'
        (advance_in hadv .lenient), .failure e⟩
  | @stop lists _ _ hrun hspent hverdict =>
      rw [hmode] at hverdict
      have hrun' := hrun.inMode .lenient
      have hspent' : ((r'.inMode .lenient).move lists).spent? = none :=
        Move.next_stays hspent .lenient
      obtain ⟨b, hread', hverdict'⟩ := verdict_of_stop hrun' hspent'
      exact ⟨b, hread',
        .stop hrun'.stream hrun'.advances hverdict hverdict'⟩

section Answers

variable {ws : List Token} {stop : Option Token} {a b : Answer}

theorem Lockstep.form_iff (h : Lockstep r r' a b) (f : Form) :
    a = .ok (some f) ↔ b = .ok (some f) := by
  cases h with
  | form g => rfl
  | failure e => simp
  | stop _ _ ha hb =>
      exact iff_of_false (ha.not_form f) (hb.not_form f)

theorem Lockstep.failure_iff (h : Lockstep r r' a b) (e : SourceFailure) :
    a = .error (.source e) ↔ b = .error (.source e) := by
  cases h with
  | form g => simp
  | failure e' => rfl
  | stop _ _ ha hb =>
      exact iff_of_false (ha.not_source e) (hb.not_source e)

/-- Where strict mode finds no form there was nothing, and lenient mode finds
    none either. -/
theorem Lockstep.none_of_none (h : Lockstep r r' a b) (ha : a = .ok none) :
    b = .ok none := by
  subst ha
  cases h with
  | stop _ _ hstrict hlenient =>
      rcases hstrict.cases with ⟨-, hno, -, hws⟩ | ⟨_, hr⟩ | ⟨-, _, hr⟩
      · obtain rfl : _ = [] := hws
        have hb := hlenient.lenient rfl hno
        rwa [if_pos (by simp)] at hb
      · exact absurd hr (not_reports_none _)
      · exact absurd hr (not_reports_none _)

/-- Lenient mode never calls a token unexpected. -/
theorem Lockstep.not_unexpected (h : Lockstep r r' a b) (t : Token)
    (token : Option Token) :
    ¬ Reports b ⟨ReadError.unexpectedMessage t, token⟩ := by
  intro hr
  cases h with
  | form f => exact not_reports_ok hr
  | failure e => exact Reports.not_source hr
  | stop _ _ _ hb =>
      rcases hb.cases with ⟨rfl, -⟩ | ⟨_, hr'⟩ | ⟨hmode, -⟩
      · exact not_reports_ok hr
      · exact ReadError.unexpected_ne_unmatched t
          (congrArg Diagnostic.message (hr.unique hr'))
      · cases hmode

/-- A closing token is unmatched where the reader stops at it, in either
    mode. -/
theorem Lockstep.closing_iff (h : Lockstep r r' a b) {t : Token}
    (ht : t.role = .closing) :
    Reports a ⟨ReadError.unmatchedMessage, some t⟩
      ↔ Reports b ⟨ReadError.unmatchedMessage, some t⟩ := by
  cases h with
  | form f => rfl
  | failure e => rfl
  | stop _ _ ha hb =>
      constructor
      · intro hr
        exact hb.closing t (ha.token_eq hr).symm ht
      · intro hr
        exact ha.closing t (hb.token_eq hr).symm ht

/-- What strict mode refuses at a token, or at the end where lists are open,
    lenient mode takes for the absence of a form: that is silent if nothing but
    openings was used up, and else parentheses are unmatched. -/
theorem Lockstep.lenient_of_refused (h : Lockstep r r' a b)
    (ha : (∃ t, stop = some t ∧
        Reports a ⟨ReadError.unexpectedMessage t, some t⟩) ∨
      stop = none ∧ Reports a ⟨ReadError.unmatchedMessage, none⟩) :
    ∃ ws, r.stream = ws ++ r'.stream ∧
      r.advances ws.length = (.ok (), r') ∧
      if ∀ t ∈ ws, t.role = .opening then b = .ok none
      else Reports b ⟨ReadError.unmatchedMessage, stop⟩ := by
  cases h with
  | form f =>
      rcases ha with ⟨t, -, hr⟩ | ⟨-, hr⟩
      · exact absurd hr not_reports_ok
      · exact absurd hr not_reports_ok
  | failure e =>
      rcases ha with ⟨t, -, hr⟩ | ⟨-, hr⟩
      · exact absurd hr Reports.not_source
      · exact absurd hr Reports.not_source
  | @stop ws _ _ hstream hadv hstrict hlenient =>
      refine ⟨ws, hstream, hadv, ?_⟩
      rcases ha with ⟨t, rfl, hr⟩ | ⟨rfl, hr⟩
      · have hstop : some t = r'.lookahead := hstrict.token_eq hr
        rw [hstop]
        refine hlenient.lenient rfl ?_
        -- a closing token would have been called unmatched
        intro u hu hclosing
        exact ReadError.unexpected_ne_unmatched t (congrArg Diagnostic.message
          (hr.unique (hstrict.closing u hu hclosing)))
      · have hnone : r'.lookahead = none := (hstrict.token_eq hr).symm
        rw [hnone] at hlenient
        refine hlenient.lenient rfl ?_
        intro u hu
        cases hu

end Answers

/-! ## All forms that are left -/

/-- What strict mode reads to the end, lenient mode reads to the end. -/
theorem readAllOnto_lenient {done fs : List Form} (hmode : r.mode = .strict)
    (h : (r.readAllOnto done).1 = .ok fs) :
    ((r.inMode .lenient).readAllOnto done).1 = .ok fs := by
  fun_induction readAllOnto done r with
  | case1 done r f r₁ hread ih =>
      obtain ⟨b, hread', hlock⟩ := read_lenient hmode hread
      obtain rfl := (hlock.form_iff f).mp rfl
      obtain ⟨_, -, -, hadv⟩ := spelled_of_read hread
      rw [readAllOnto_eq, hread']
      exact ih ((mode_advances hadv).trans hmode) h
  | case2 done r r₁ hread =>
      obtain ⟨b, hread', hlock⟩ := read_lenient hmode hread
      obtain rfl := hlock.none_of_none rfl
      rw [readAllOnto_eq, hread']
      exact h
  | case3 done r e r₁ hread => cases h

/-- **STRICT AND LENIENT MODE**: from one lookahead and one source, both modes
    leave the same lookahead and the same source.  A form, the absence of a form
    in strict mode, a failure of the source, and a closing token without partner
    are answered alike.  What else strict mode refuses, an unexpected token or
    an end inside open lists, lenient mode answers by the absence of a form if
    nothing but openings was used up, and else by unmatched parentheses at the
    same place.  Where strict mode reads all forms, lenient mode reads the
    same. -/
theorem read_strict_lenient (lookahead : Option Token) (source : Source) :
    let strict := read ⟨lookahead, source, .strict⟩
    let lenient := read ⟨lookahead, source, .lenient⟩
    (lenient.2.lookahead = strict.2.lookahead ∧
      lenient.2.source = strict.2.source) ∧
    (∀ f, strict.1 = .ok (some f) ↔ lenient.1 = .ok (some f)) ∧
    (strict.1 = .ok none → lenient.1 = .ok none) ∧
    (∀ e, strict.1 = .error (.source e) ↔ lenient.1 = .error (.source e)) ∧
    (∀ t token,
      ¬ Reports lenient.1 ⟨ReadError.unexpectedMessage t, token⟩) ∧
    (∀ t, t.role = .closing →
      (Reports strict.1 ⟨ReadError.unmatchedMessage, some t⟩
        ↔ Reports lenient.1 ⟨ReadError.unmatchedMessage, some t⟩)) ∧
    (∀ stop, (∃ t, stop = some t ∧
        Reports strict.1 ⟨ReadError.unexpectedMessage t, some t⟩) ∨
        stop = none ∧ Reports strict.1 ⟨ReadError.unmatchedMessage, none⟩ →
      ∃ ws, stream ⟨lookahead, source, .lenient⟩ = ws ++ lenient.2.stream ∧
        advances ws.length ⟨lookahead, source, .lenient⟩
          = (.ok (), lenient.2) ∧
        if ∀ t ∈ ws, t.role = .opening then lenient.1 = .ok none
        else Reports lenient.1 ⟨ReadError.unmatchedMessage, stop⟩) ∧
    ∀ fs, (readAll ⟨lookahead, source, .strict⟩).1 = .ok fs →
      (readAll ⟨lookahead, source, .lenient⟩).1 = .ok fs := by
  intro strict lenient
  have hstrict : read ⟨lookahead, source, .strict⟩ = (strict.1, strict.2) := rfl
  obtain ⟨b, hread, hlock⟩ := read_lenient rfl hstrict
  have hlenient : lenient = (b, strict.2.inMode .lenient) := hread
  rw [hlenient]
  refine ⟨⟨rfl, rfl⟩, hlock.form_iff, hlock.none_of_none, hlock.failure_iff,
    hlock.not_unexpected, fun t ht => hlock.closing_iff ht,
    fun stop hstop => hlock.lenient_of_refused hstop, ?_⟩
  intro fs h
  exact readAllOnto_lenient rfl h

end Reader

end FormReader
