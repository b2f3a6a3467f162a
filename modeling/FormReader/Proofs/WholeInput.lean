import FormReader.Proofs.EarliestError
import FormReader.Printout

/-! # The whole input — tokens that are forms in a row

    All forms of an input are read exactly where the input is their spellings
    in a row and nothing else is left.  What counts as nothing is the only
    difference between the modes (`Exhausts`): strict mode wants the end, while
    lenient mode stops at a token without a lexeme, too, and lets openings go
    that nothing was put behind.

    `exhausts_of_read` and `read_of_exhausts` say so of one reading, and the
    induction over the forms is `readAllOnto_ok_iff`.  An input that is no such
    row is an error with a diagnostic, since a source of tokens does not fail. -/

namespace FormReader

/-- No form is left in the stream, and no error either. -/
def Exhausts (mode : Mode) (stream : List Token) : Prop :=
  match mode with
  | .strict => stream = []
  | .lenient => ∃ os rest, stream = os ++ rest ∧
      (∀ t ∈ os, t.role = .opening) ∧ ∀ t, rest.head? = some t → t.lexeme? = none

namespace Reader

open OpenList

variable {r r' : Reader} {lists : List OpenList}

/-! ## Reading nothing -/

/-- Openings are shifted, each as one more list without an operator. -/
theorem shifts_openings (lists : List OpenList) (plain : r.source.Plain) {os rest : List Token}
    (hos : ∀ t ∈ os, t.role = .opening) (h : r.stream = os ++ rest) :
    ∃ r', Shifts lists r os (List.replicate os.length .bare ++ lists) r'
      ∧ r'.stream = rest := by
  induction os generalizing r lists with
  | nil => exact ⟨r, .refl .., h⟩
  | cons t os ih =>
      obtain ⟨ht, hos⟩ := List.forall_mem_cons.mp hos
      obtain ⟨looking, -⟩ := stream_eq_cons.mp h
      obtain ⟨r₁, hadv, plain₁⟩ := advance_plain plain
      have hmove : r.move lists = .shift (.bare :: lists) := by
        rw [move, looking, Move.next_of_lexeme (Token.lexeme?_opening.mpr ht)]
      have hstream := (stream_advance looking hadv).symm.trans h
      obtain ⟨r', hrun, hrest⟩ :=
        ih (.bare :: lists) plain₁ hos (List.cons.inj hstream).2
      refine ⟨r', ?_, hrest⟩
      rw [List.length_cons, List.replicate_succ', List.append_assoc]
      exact .step looking hmove hadv hrun

/-- A reader that answers no form has nothing left. -/
theorem exhausts_of_read (plain : r.source.Plain)
    (h : r.read = (.ok none, r')) : Exhausts r.mode r.stream := by
  rcases read_cases plain with ⟨f, r₁, hf⟩ | ⟨ws, lists, r₁, hrun, hstop⟩
  · cases hf.symm.trans h
  · obtain ⟨answer, hread, hverdict⟩ := verdict_of_stop hrun hstop
    obtain ⟨rfl, rfl⟩ := Prod.mk.inj (h.symm.trans hread)
    rcases hverdict.cases with
      ⟨-, hclosing, hend, hquiet⟩ | ⟨_, hr⟩ | ⟨-, _, hr⟩
    · cases hmode : r.mode with
      | strict =>
          rw [hmode] at hquiet
          have hws : ws = [] := hquiet
          show r.stream = []
          rw [hrun.stream, hws, stream_eq_nil.mpr (hend hmode),
            List.append_nil]
      | lenient =>
          rw [hmode] at hquiet
          refine ⟨ws, r'.stream, hrun.stream, hquiet, ?_⟩
          intro t looking
          rw [head?_stream] at looking
          rcases stop_cases hstop looking with hnone | ⟨hl, -⟩
          · exact hnone
          · exact absurd (Token.lexeme?_closing.mp hl) (hclosing t looking)
    · exact absurd hr (not_reports_none _)
    · exact absurd hr (not_reports_none _)

/-- A reader that has nothing left answers no form. -/
theorem read_of_exhausts (plain : r.source.Plain)
    (h : Exhausts r.mode r.stream) : ∃ r', r.read = (.ok none, r') := by
  cases hmode : r.mode with
  | strict =>
      rw [hmode] at h
      refine ⟨r, read_of_absent (.refl [] r) ?_⟩
      rw [move, stream_eq_nil.mp h, hmode]
      rfl
  | lenient =>
      rw [hmode] at h
      obtain ⟨os, rest, hsplit, hos, hrest⟩ := h
      obtain ⟨r', hrun, hstream⟩ :=
        shifts_openings [] plain hos hsplit
      refine ⟨r', read_of_absent hrun ?_⟩
      have hsilent : Silent .lenient
          (List.replicate os.length .bare ++ []) := by
        intro list hlist
        rw [List.append_nil] at hlist
        exact List.eq_of_mem_replicate hlist
      rw [move, hrun.mode, hmode]
      cases looking : r'.lookahead with
      | none => exact Move.unwind_of_silent hsilent none
      | some t =>
          rw [← head?_stream, hstream] at looking
          rw [Move.next_of_no_lexeme (hrest t looking)]
          exact Move.unwind_of_silent hsilent (some t)

/-- An error over tokens alone has a diagnostic; in lenient mode it is about
    parentheses. -/
theorem diagnostic_of_read (plain : r.source.Plain) {e : ReadError}
    (h : r.read = (.error e, r')) :
    ∃ d, e.diagnostic? = some d ∧
      (r.mode = .lenient → d.message = ReadError.unmatchedMessage) := by
  rcases read_cases plain with ⟨f, r₁, hf⟩ | ⟨ws, lists, r₁, hrun, hstop⟩
  · cases hf.symm.trans h
  · obtain ⟨answer, hread, hverdict⟩ := verdict_of_stop hrun hstop
    obtain ⟨rfl, rfl⟩ := Prod.mk.inj (h.symm.trans hread)
    rcases hverdict.cases with ⟨hok, -⟩ | ⟨_, e', he, hd⟩ | ⟨hm, _, e', he, hd⟩
    · cases hok
    · obtain rfl := Except.error.inj he
      exact ⟨_, hd, fun _ => rfl⟩
    · obtain rfl := Except.error.inj he
      refine ⟨_, hd, ?_⟩
      intro hlenient
      cases hm.symm.trans hlenient

/-! ## Reading everything -/

/-- **FORMS IN A ROW**: all forms are read exactly where the stream is their
    spellings in a row and nothing is left behind them. -/
theorem readAllOnto_ok_iff (plain : r.source.Plain) (done all : List Form) :
    (r.readAllOnto done).1 = .ok all ↔
      ∃ fs ws rest, all = done.reverse ++ fs ∧ r.stream = ws ++ rest ∧
        Spells ws (Form.lexemesAll fs) ∧ Exhausts r.mode rest := by
  constructor
  · -- by the recursion over the readings
    intro h
    fun_induction readAllOnto done r with
    | case1 done r f r₁ hread ih =>
        obtain ⟨us, hstream, hus, hadv⟩ := spelled_of_read hread
        obtain ⟨fs, ws, rest, rfl, hrest, hws, hend⟩ :=
          ih (plain_invariant.read plain hread) h
        refine ⟨f :: fs, us ++ ws, rest, ?_, ?_, hus.append hws, ?_⟩
        · rw [List.reverse_cons, List.append_assoc]
          rfl
        · rw [hstream, hrest, List.append_assoc]
        · rw [← mode_advances hadv]
          exact hend
    | case2 done r r₁ hread =>
        refine ⟨[], [], r.stream, ?_, rfl, spells_nil.mpr rfl,
          exhausts_of_read plain hread⟩
        rw [List.append_nil]
        exact (Except.ok.inj h).symm
    | case3 done r e r₁ hread => cases h
  · -- by induction on the forms; each one's tokens come off the stream
    rintro ⟨fs, ws, rest, rfl, hstream, hws, hend⟩
    induction fs generalizing r done ws with
    | nil =>
        obtain rfl := spells_nil.mp hws
        rw [List.nil_append] at hstream
        obtain ⟨r', hread⟩ := read_of_exhausts plain (hstream ▸ hend)
        rw [readAllOnto_eq, hread, List.append_nil]
    | cons f fs ih =>
        obtain ⟨us, vs, rfl, hus, hvs⟩ := spells_append.mp hws
        rw [List.append_assoc] at hstream
        obtain ⟨r', hread, hstream'⟩ := exists_read plain hus hstream
        obtain ⟨_, -, -, hadv⟩ := spelled_of_read hread
        rw [readAllOnto_eq, hread]
        have hrest := ih (plain_invariant.read plain hread) (f :: done) vs
          hstream' hvs (mode_advances hadv ▸ hend)
        rw [List.reverse_cons, List.append_assoc] at hrest
        exact hrest

/-- What is not read is reported. -/
theorem diagnostic_of_readAll (plain : r.source.Plain) {done : List Form}
    {e : ReadError} (h : (r.readAllOnto done).1 = .error e) :
    ∃ d, e.diagnostic? = some d ∧
      (r.mode = .lenient → d.message = ReadError.unmatchedMessage) := by
  fun_induction readAllOnto done r with
  | case1 done r f r₁ hread ih =>
      obtain ⟨_, -, -, hadv⟩ := spelled_of_read hread
      rw [← mode_advances hadv]
      exact ih (plain_invariant.read plain hread) h
  | case2 done r r₁ hread => cases h
  | case3 done r e' r₁ hread =>
      obtain rfl := Except.error.inj h
      exact diagnostic_of_read plain hread

end Reader

/-! ## From the tokens to the forms -/

open Reader

/-- The forms of given tokens are all that a reader in front of the tokens
    before the first end reads. -/
theorem formsOf_eq (mode : Mode) (tokens : List Token) :
    ∃ r : Reader, Printout.formsOf mode tokens = (r.readAllOnto []).1 ∧
      r.source.Plain ∧ r.mode = mode ∧
      r.stream = tokens.takeWhile fun t => t.role ≠ .ending := by
  obtain ⟨r, hof, plain, hmode, hstream⟩ := ofSource_ofTokens tokens mode
  refine ⟨r, ?_, plain, hmode, hstream⟩
  rw [Printout.formsOf, hof]
  rfl

/-- Forms in a row, with nothing else left behind them. -/
theorem formsOf_ok_iff (mode : Mode) (tokens : List Token) (fs : List Form) :
    Printout.formsOf mode tokens = .ok fs ↔
      ∃ ws rest, (tokens.takeWhile fun t => t.role ≠ .ending) = ws ++ rest ∧
        Spells ws (Form.lexemesAll fs) ∧ Exhausts mode rest := by
  obtain ⟨r, hforms, plain, rfl, hstream⟩ := formsOf_eq mode tokens
  rw [hforms, readAllOnto_ok_iff plain, hstream]
  constructor
  · rintro ⟨_, ws, rest, rfl, hsplit, hws, hend⟩
    exact ⟨ws, rest, hsplit, hws, hend⟩
  · rintro ⟨ws, rest, hsplit, hws, hend⟩
    exact ⟨fs, ws, rest, rfl, hsplit, hws, hend⟩

/-- Tokens that are not read are reported on. -/
theorem formsOf_reports {mode : Mode} {tokens : List Token}
    (h : ∀ fs, Printout.formsOf mode tokens ≠ .ok fs) :
    ∃ d, Reports (Printout.formsOf mode tokens) d ∧
      (mode = .lenient → d.message = ReadError.unmatchedMessage) := by
  obtain ⟨r, hforms, plain, rfl, -⟩ := formsOf_eq mode tokens
  cases hread : Printout.formsOf r.mode tokens with
  | ok fs => exact absurd hread (h fs)
  | error e =>
      rw [hforms] at hread
      obtain ⟨d, hd, hmessage⟩ := diagnostic_of_readAll plain hread
      exact ⟨d, ⟨e, rfl, hd⟩, hmessage⟩

/-- **THE LANGUAGE OF THE READER**: let the input be the tokens before the first
    end.  Strict mode reads the forms whose spellings in a row are the input;
    there is one such row at most, and without one an error is reported.
    Lenient mode reads the forms in a row at the head of the input behind which
    come openings only and then the end or a token that stands for no lexeme;
    where there are none, parentheses are reported as unmatched. -/
theorem formsOf_language (tokens : List Token) :
    let input := tokens.takeWhile fun t => t.role ≠ .ending
    let tolerated := fun fs => ∃ ws openings rest,
      input = ws ++ openings ++ rest ∧ Spells ws (Form.lexemesAll fs) ∧
      (∀ t ∈ openings, t.role = .opening) ∧
      ∀ t, rest.head? = some t → t.role = .ending ∨ t.role = .other
    (∀ fs, Printout.formsOf .strict tokens = .ok fs ↔
      Spells input (Form.lexemesAll fs)) ∧
    (∀ fs gs, Spells input (Form.lexemesAll fs) →
      Spells input (Form.lexemesAll gs) → fs = gs) ∧
    ((∀ fs, ¬ Spells input (Form.lexemesAll fs)) →
      ∃ d, Reports (Printout.formsOf .strict tokens) d) ∧
    (∀ fs, Printout.formsOf .lenient tokens = .ok fs ↔ tolerated fs) ∧
    ((∀ fs, ¬ tolerated fs) → ∃ token,
      Reports (Printout.formsOf .lenient tokens)
        ⟨ReadError.unmatchedMessage, token⟩) := by
  intro input tolerated
  have hstrict : ∀ fs, Printout.formsOf .strict tokens = .ok fs ↔
      Spells input (Form.lexemesAll fs) := by
    intro fs
    rw [formsOf_ok_iff]
    constructor
    · rintro ⟨ws, rest, hsplit, hws, hend⟩
      obtain rfl : rest = [] := hend
      rw [List.append_nil] at hsplit
      have hinput : input = ws := hsplit
      rw [hinput]
      exact hws
    · intro hws
      exact ⟨input, [], (List.append_nil _).symm, hws, rfl⟩
  have hlenient : ∀ fs, Printout.formsOf .lenient tokens = .ok fs ↔
      tolerated fs := by
    intro fs
    rw [formsOf_ok_iff]
    constructor
    · rintro ⟨ws, _, hsplit, hws, openings, rest, rfl, hopen, hend⟩
      rw [← List.append_assoc] at hsplit
      refine ⟨ws, openings, rest, hsplit, hws, hopen, ?_⟩
      intro t ht
      exact Token.lexeme?_none.mp (hend t ht)
    · rintro ⟨ws, openings, rest, hsplit, hws, hopen, hend⟩
      rw [List.append_assoc] at hsplit
      refine ⟨ws, _, hsplit, hws, openings, rest, rfl, hopen, ?_⟩
      intro t ht
      exact Token.lexeme?_none.mpr (hend t ht)
  refine ⟨hstrict, ?_, ?_, hlenient, ?_⟩
  · -- both rows are what the reader answers
    intro fs gs hfs hgs
    have hread := ((hstrict fs).mpr hfs).symm.trans ((hstrict gs).mpr hgs)
    exact Except.ok.inj hread
  · intro hnone
    have hno : ∀ fs, Printout.formsOf .strict tokens ≠ .ok fs := by
      intro fs hread
      exact hnone fs ((hstrict fs).mp hread)
    obtain ⟨d, hd, -⟩ := formsOf_reports hno
    exact ⟨d, hd⟩
  · intro hnone
    have hno : ∀ fs, Printout.formsOf .lenient tokens ≠ .ok fs := by
      intro fs hread
      exact hnone fs ((hlenient fs).mp hread)
    obtain ⟨⟨message, token⟩, hd, hmessage⟩ := formsOf_reports hno
    obtain rfl : message = ReadError.unmatchedMessage := hmessage rfl
    exact ⟨token, hd⟩

end FormReader
