import FormReader.Proofs.Standstill

/-! # The harvest — what reading over and over answers

    A reader that is asked again and again answers forms and then, once, no
    form or an error.  The forms before are its HARVEST; with it go the answer
    that ended it and the reader left then, which has stopped.

    * `Reader.harvest` — the harvest of a reader;
    * `Reader.reads` — a number of readings in a row: the forms answered are
      the first of the harvest, and what is left to harvest behind them is the
      rest (`reads_eq`);
    * `readAllOnto_eq_harvest` — all forms at once are the harvest, unless it
      ends in an error.

    From a source that does not fail a harvest ends for good.  Read once more,
    its reader gives the same answer (`read_again`), with one exception: an
    error that was found behind open lists is FORGOTTEN with the lists, where
    the reader looks at nothing or, in lenient mode, at a token without meaning
    (`Idle`). -/

namespace FormReader

namespace Reader

variable {r r' : Reader}

/-! ## Sources that do not fail -/

/-- The source has no failure to report. -/
def Steady (r : Reader) : Prop := ∀ message, Item.failure message ∉ r.source

theorem drainOnto_suffix (done : List Token) (s : Source) :
    (s.drainOnto done).2 <:+ s := by
  fun_induction Source.drainOnto done s with
  | case1 => exact List.suffix_rfl
  | case2 done t rest ih => exact ih.trans (List.suffix_cons ..)
  | case3 => exact List.suffix_cons ..
  | case4 => exact List.suffix_cons ..

theorem advance_suffix (r : Reader) : r.advance.2.source <:+ r.source := by
  rcases hs : r.source with _ | ⟨t | _ | message, rest⟩
  · rw [advance, hs]
    exact List.suffix_rfl
  · by_cases ht : t.role = .ending
    · rw [advance_of_ending hs ht]
      exact List.nil_suffix
    · rw [advance_of_token hs ht]
      exact List.suffix_cons ..
  · rw [advance, hs]
    exact List.suffix_cons ..
  · rw [advance, hs]
    exact List.suffix_cons ..

/-- Using a reader takes items off its source and puts none there. -/
theorem suffix_invariant (source : Source) :
    Invariant fun r => r.source <:+ source where
  advance r h := (advance_suffix r).trans h
  setMode _ _ h := h
  drain r h := (drainOnto_suffix [] r.source).trans h

theorem Invariant.shifts {P : Reader → Prop} (inv : Invariant P)
    {lists lists' : List OpenList} {ws : List Token}
    (h : Shifts lists r ws lists' r') (hr : P r) : P r' := by
  induction h with
  | refl => exact hr
  | step _ _ hadv _ ih => exact ih (inv.advanced hr hadv)

/-- Over a source that does not fail, every advance succeeds. -/
theorem Steady.exists_advance (steady : r.Steady) :
    ∃ r', r.advance = (.ok (), r') := by
  rcases hadv : r.advance with ⟨e | ⟨⟩, r'⟩
  · have hsource := (failure_of_advance hadv).1
    have hmem : Item.failure e.message ∈ r.source := by
      rw [hsource]
      exact List.mem_cons_self ..
    exact absurd hmem (steady e.message)
  · exact ⟨r', rfl⟩

theorem Steady.of_suffix (steady : r.Steady) (h : r'.source <:+ r.source) :
    r'.Steady :=
  fun message hmem => steady message (h.subset hmem)

theorem Steady.read (steady : r.Steady) {answer : Answer}
    (h : r.read = (answer, r')) : r'.Steady :=
  steady.of_suffix ((suffix_invariant r.source).read List.suffix_rfl h)

/-- Over a source that does not fail, a reading answers a form, or it stops with
    a verdict. -/
theorem Steady.read_ends (steady : r.Steady) {answer : Answer}
    (h : r.read = (answer, r')) :
    (∃ f, answer = .ok (some f)) ∨
      r'.mode = r.mode ∧ ∃ ws, Verdict r.mode ws r'.lookahead answer := by
  obtain ⟨ws, hend⟩ := Reader.read_ends h
  cases hend with
  | form _ _ _ => exact Or.inl ⟨_, rfl⟩
  | stop hrun _ hverdict => exact Or.inr ⟨hrun.mode, ws, hverdict⟩
  | failure hrun _ hadv =>
      -- the source that fails is what is left of one that does not
      have hsuffix := (suffix_invariant r.source).shifts hrun List.suffix_rfl
      obtain ⟨r₂, hadv'⟩ := (steady.of_suffix hsuffix).exists_advance
      cases hadv.symm.trans hadv'

end Reader

/-! ## The harvest -/

/-- The forms that a reader answers, the answer that ended them, and the reader
    that was left then. -/
structure Harvest where
  forms : List Form
  answer : Answer
  reader : Reader

namespace Reader

variable {r r' : Reader}

/-- Reads over and over until no form is answered. -/
def harvest (r : Reader) : Harvest :=
  match _h : r.read with
  | (.ok (some f), r') =>
    let rest := r'.harvest
    { rest with forms := f :: rest.forms }
  | (answer, r') => ⟨[], answer, r'⟩
termination_by r.pending
decreasing_by exact pending_read _h

theorem harvest_of_form {f : Form} (h : r.read = (.ok (some f), r')) :
    r.harvest = { r'.harvest with forms := f :: r'.harvest.forms } := by
  rw [harvest]
  split
  · next f' r₁ hread =>
      obtain ⟨hanswer, rfl⟩ := Prod.mk.inj (h.symm.trans hread)
      rw [Option.some.inj (Except.ok.inj hanswer)]
  · next answer r₁ hno hread =>
      obtain ⟨rfl, rfl⟩ := Prod.mk.inj (h.symm.trans hread)
      exact absurd rfl (hno f)

theorem harvest_of_end {answer : Answer} (h : r.read = (answer, r'))
    (hno : ∀ f, answer ≠ .ok (some f)) : r.harvest = ⟨[], answer, r'⟩ := by
  rw [harvest]
  split
  · next f r₁ hform =>
      obtain ⟨rfl, -⟩ := Prod.mk.inj (h.symm.trans hform)
      exact absurd rfl (hno f)
  · next answer' r₁ _ hread =>
      obtain ⟨rfl, rfl⟩ := Prod.mk.inj (h.symm.trans hread)
      rfl

/-- **A HARVEST ENDS FOR GOOD**: its reader has stopped in the mode of the
    first, with a verdict. -/
theorem harvest_ends (steady : r.Steady)
    (hlook : ∀ t, r.lookahead = some t → t.role ≠ .ending) :
    r.harvest.reader.Stopped ∧ r.harvest.reader.mode = r.mode ∧
      ∃ ws, Verdict r.mode ws r.harvest.reader.lookahead r.harvest.answer := by
  fun_induction harvest r with
  | case1 r f r₁ hread rest ih =>
      obtain ⟨_, -, -, hadv⟩ := spelled_of_read hread
      rw [← mode_advances hadv]
      exact ih (steady.read hread) (no_ending_invariant.read hlook hread)
  | case2 r answer r₁ hno hread =>
      rcases steady.read_ends hread with ⟨f, rfl⟩ | ⟨hmode, ws, hverdict⟩
      · exact absurd rfl (hno f)
      · exact ⟨stopped_of_read hlook hread hverdict.none_or_reports, hmode, ws,
          hverdict⟩

/-- All forms that are left are the harvest, if no error ends it. -/
theorem readAllOnto_eq_harvest (done : List Form) (r : Reader) :
    r.readAllOnto done =
      (r.harvest.answer.map fun _ => done.reverse ++ r.harvest.forms,
        r.harvest.reader) := by
  fun_induction readAllOnto done r with
  | case1 done r f r₁ hread ih =>
      rw [ih, harvest_of_form hread, List.reverse_cons, List.append_assoc]
      rfl
  | case2 done r r₁ hread =>
      rw [harvest_of_end hread (by simp), List.append_nil]
      rfl
  | case3 done r e r₁ hread =>
      rw [harvest_of_end hread (by simp)]
      rfl

/-! ## A number of readings in a row -/

/-- The forms that a number of readings answer, and the reader they leave. -/
def reads : Nat → Reader → List Form × Reader
  | 0, r => ([], r)
  | n + 1, r =>
    let rest := reads n r.read.2
    ((Session.replyForm r.read.1).delivered ++ rest.1, rest.2)

theorem reads_add (m n : Nat) (r : Reader) :
    r.reads (m + n)
      = ((r.reads m).1 ++ ((r.reads m).2.reads n).1,
        ((r.reads m).2.reads n).2) := by
  induction m generalizing r with
  | zero =>
      rw [Nat.zero_add]
      rfl
  | succ m ih =>
      rw [Nat.add_right_comm, reads, reads, ih]
      show (_ ++ (_ ++ _), _) = (_ ++ _ ++ _, _)
      rw [List.append_assoc]

theorem delivered_of_end {answer : Answer}
    (hno : ∀ f, answer ≠ .ok (some f)) :
    (Session.replyForm answer).delivered = [] := by
  rcases answer with e | _ | f
  · rfl
  · rfl
  · exact absurd rfl (hno f)

/-- A reader that has stopped delivers nothing more. -/
theorem reads_of_stopped (h : r.Stopped) (n : Nat) : r.reads n = ([], r) := by
  induction n with
  | zero => rfl
  | succ n ih =>
      rcases h.read_stays with hread | ⟨e, hread⟩
      · rw [reads, hread, ih]
        rfl
      · rw [reads, hread, ih]
        rfl

/-- **READINGS IN A ROW**: they answer the first forms of the harvest; behind
    them the rest is still to be harvested, and once nothing is left the reader
    is the one that the harvest leaves. -/
theorem reads_eq (hend : r.harvest.reader.Stopped) (n : Nat) :
    (r.reads n).1 = r.harvest.forms.take n ∧
    (n ≤ r.harvest.forms.length → (r.reads n).2.harvest
      = { r.harvest with forms := r.harvest.forms.drop n }) ∧
    (r.harvest.forms.length < n → (r.reads n).2 = r.harvest.reader) := by
  induction n generalizing r with
  | zero => exact ⟨rfl, fun _ => rfl, fun h => absurd h (Nat.not_lt_zero _)⟩
  | succ n ih =>
      by_cases hform : ∃ f r', r.read = (.ok (some f), r')
      · obtain ⟨f, r', hread⟩ := hform
        rw [harvest_of_form hread] at hend ⊢
        obtain ⟨hforms, hmore, hnone⟩ := ih hend
        rw [reads, hread]
        refine ⟨?_, ?_, ?_⟩
        · show f :: (r'.reads n).1 = _
          rw [hforms]
          rfl
        · intro hn
          exact hmore (Nat.le_of_succ_le_succ hn)
        · intro hn
          exact hnone (Nat.lt_of_succ_lt_succ hn)
      · rcases hread : r.read with ⟨answer, r'⟩
        have hno : ∀ f, answer ≠ .ok (some f) := by
          rintro f rfl
          exact hform ⟨f, r', hread⟩
        rw [harvest_of_end hread hno] at hend ⊢
        rw [reads, hread, reads_of_stopped hend, delivered_of_end hno]
        exact ⟨rfl, fun hn => absurd hn (Nat.not_succ_le_zero n), fun _ => rfl⟩

/-- Once the harvest is used up, no reading delivers a form. -/
theorem reads_used_up (hend : r.harvest.reader.Stopped) {n : Nat}
    (hn : r.harvest.forms.length ≤ n) (k : Nat) :
    ((r.reads n).2.reads k).1 = [] := by
  have hsum : (r.reads (n + k)).1
      = (r.reads n).1 ++ ((r.reads n).2.reads k).1 := by
    rw [reads_add]
  rw [(reads_eq hend (n + k)).1, (reads_eq hend n).1,
    List.take_of_length_le hn,
    List.take_of_length_le (Nat.le_add_right_of_le hn)] at hsum
  exact List.self_eq_append_right.mp hsum

/-- As long as the harvest is not used up, all forms are the rest of it. -/
theorem readAll_of_reads (hend : r.harvest.reader.Stopped) {n : Nat}
    (hn : n ≤ r.harvest.forms.length) :
    (r.reads n).2.readAll.1
      = r.harvest.answer.map fun _ => r.harvest.forms.drop n := by
  rw [readAll, readAllOnto_eq_harvest, (reads_eq hend n).2.1 hn]
  rfl

/-! ## Reading once more -/

variable {ws : List Token} {answer : Answer}

theorem Idle.readAll (h : r.Idle) (hstopped : r.Stopped) :
    r.readAll = (.ok [], r) :=
  readAllOnto_of_none [] (h.read hstopped)

/-- Where no form was answered the reader is idle. -/
theorem idle_of_none (hstopped : r.Stopped)
    (h : Verdict r.mode ws r.lookahead (.ok none)) : r.Idle := by
  rcases h.cases with ⟨-, hno, hend, -⟩ | ⟨_, hr⟩ | ⟨-, _, hr⟩
  · cases looking : r.lookahead with
    | none => exact Or.inl looking
    | some t =>
        have hother := (hstopped t looking).resolve_left (hno t looking)
        refine Or.inr ⟨?_, t, looking, hother⟩
        cases hmode : r.mode with
        | strict => cases looking.symm.trans (hend hmode)
        | lenient => rfl
  · exact absurd hr not_reports_ok
  · exact absurd hr not_reports_ok

/-- Where a reader has stopped and is not idle, its answer stays the same. -/
theorem read_again (hstopped : r.Stopped) (h : Verdict r.mode ws r.lookahead answer)
    (hidle : ¬ r.Idle) : r.read = (answer, r) := by
  obtain ⟨a, hread, hverdict⟩ := read_of_stopped hstopped
  suffices hsame : a = answer by rw [hread, hsame]
  cases looking : r.lookahead with
  | none => exact absurd (Or.inl looking) hidle
  | some t =>
      rcases hstopped t looking with hclosing | hother
      · exact (hverdict.closing t looking hclosing).answer_eq
          (h.closing t looking hclosing)
      · have hrole := Token.not_closing_of_other hother
        cases hmode : r.mode with
        | strict =>
            exact (hverdict.unexpected hmode t looking hrole).answer_eq
              (h.unexpected hmode t looking hrole)
        | lenient => exact absurd (Or.inr ⟨hmode, t, looking, hother⟩) hidle

end Reader

end FormReader
