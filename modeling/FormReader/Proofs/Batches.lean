import FormReader.Proofs.Simulation
import FormReader.Proofs.WholeInput

/-! # Batches — what stands between two pauses

    A source may deliver its tokens in SEGMENTS with a pause between any two
    (`Source.segmented`).  Behind the last token of a segment the pause leaves
    the reader with an empty lookahead and the later segments in its source.
    Reading never advances from an empty lookahead, so up to the next step that
    looks for a token the reader of the whole source is matched by the reader of
    the segment alone (`Reader.InSegment`, a simulation), and the later segments
    stay untouched.

    A list that is LEFT OPEN where its segment ends (`LeftOpen`) is therefore
    settled there (`readAllOnto_leftOpen`), and `batches_independent` goes
    through any number of segments, one round of reading and looking on for
    each. -/

namespace FormReader

namespace Source

/-- The source that delivers segments of tokens, with a pause between any two. -/
def segmented (segments : List (List Token)) : Source :=
  [Item.pause].intercalate (segments.map ofTokens)

/-- Behind a segment the source is exhausted for once, and what it holds then
    are the later segments. -/
theorem segmented_cons (ts : List Token) (rest : List (List Token)) :
    ∃ cut : Source, segmented (ts :: rest) = ofTokens ts ++ cut ∧
      cut.pull = (.ok none, segmented rest) := by
  cases rest with
  | nil =>
      refine ⟨[], ?_, rfl⟩
      rw [segmented, List.map_cons, List.map_nil, List.intercalate_singleton,
        List.append_nil]
  | cons us rest =>
      refine ⟨.pause :: segmented (us :: rest), ?_, rfl⟩
      rw [segmented, List.map_cons, List.map_cons, List.intercalate_cons_cons,
        List.append_assoc]
      rfl

theorem pull_suffix (s : Source) : s.pull.2 <:+ s := by
  rcases s with _ | ⟨t | _ | message, rest⟩
  · exact List.suffix_rfl
  · exact List.suffix_cons ..
  · exact List.suffix_cons ..
  · exact List.suffix_cons ..

end Source

namespace Reader

variable {cut later : Source} {r r' : Reader}

/-- The readers look at the same; the first has what is left of the segment and
    then `cut`, the second what is left of the segment, until both look at
    nothing and only `later` is left to the first. -/
structure InSegment (cut later : Source) (r r' : Reader) : Prop where
  lookahead : r'.lookahead = r.lookahead
  mode : r'.mode = r.mode
  sources :
    (r.lookahead ≠ none ∧ ∃ ts, (∀ t ∈ ts, t.role ≠ .ending) ∧
      r'.source = .ofTokens ts ∧ r.source = .ofTokens ts ++ cut) ∨
    (r.lookahead = none ∧ r.source = later ∧ r'.source = [])

/-- **INSIDE A SEGMENT AN ADVANCE IS FOLLOWED**: where the segment is used up,
    one reader finds the pause and the other its source exhausted. -/
theorem follows_inSegment (hcut : cut.pull = (.ok none, later)) {ts : List Token}
    (ongoing : ∀ t ∈ ts, t.role ≠ .ending) (lookahead lookahead' : Option Token)
    (mode : Mode) :
    Follows (InSegment cut later) ⟨lookahead, .ofTokens ts ++ cut, mode⟩
      ⟨lookahead', .ofTokens ts, mode⟩ := by
  cases ts with
  | nil =>
      have hadv : advance ⟨lookahead, cut, mode⟩
          = (.ok (), ⟨none, later, mode⟩) := by
        rw [advance, hcut]
        rfl
      show Follows _ ⟨lookahead, cut, mode⟩ _
      rw [Follows, hadv]
      exact ⟨rfl, rfl, rfl, .inr ⟨rfl, rfl, rfl⟩⟩
  | cons t ts =>
      obtain ⟨ht, hts⟩ := List.forall_mem_cons.mp ongoing
      have hadv := advance_of_token
        (r := ⟨lookahead, .ofTokens (t :: ts) ++ cut, mode⟩) rfl ht
      have hadv' := advance_of_token
        (r := ⟨lookahead', .ofTokens (t :: ts), mode⟩) rfl ht
      rw [Follows, hadv, hadv']
      exact ⟨rfl, rfl, rfl, .inl ⟨Option.some_ne_none t, ts, hts, rfl, rfl⟩⟩

theorem InSegment.simulation (hcut : cut.pull = (.ok none, later)) :
    Simulation (· = ·) (InSegment cut later) := by
  refine .of_same InSegment.lookahead InSegment.mode
    (fun _ h => ⟨h.lookahead, rfl, h.sources⟩) ?_
  rintro ⟨lookahead, source, mode⟩ ⟨lookahead', source', mode'⟩ h hlook
  obtain ⟨-, rfl, ⟨-, ts, hts, rfl, rfl⟩ | ⟨hnone, -⟩⟩ := h
  · exact follows_inSegment hcut hts lookahead lookahead' _
  · exact absurd hnone hlook

/-- The later segments are untouched. -/
theorem InSegment.later_suffix (hcut : cut.pull = (.ok none, later))
    (h : InSegment cut later r r') : later <:+ r.source := by
  have hlater : later <:+ cut := by
    have hpull := Source.pull_suffix cut
    rwa [hcut] at hpull
  rcases h.sources with ⟨-, ts, -, -, hsource⟩ | ⟨-, hsource, -⟩
  · exact hsource ▸ hlater.trans (List.suffix_append ..)
  · exact hsource ▸ List.suffix_rfl

/-- The reader has just looked for the first token of the first segment. -/
def Begins (segments : List (List Token)) (r : Reader) : Prop :=
  ∃ lookahead, advance ⟨lookahead, .segmented segments, r.mode⟩ = (.ok (), r)

/-- No advance over segments fails. -/
theorem exists_begins (segments : List (List Token))
    (lookahead : Option Token) (mode : Mode) :
    ∃ r, advance ⟨lookahead, .segmented segments, mode⟩ = (.ok (), r) ∧
      r.mode = mode ∧ Begins segments r := by
  have hpull : ∃ delivered rest,
      (Source.segmented segments).pull = (.ok delivered, rest) := by
    cases segments with
    | nil => exact ⟨none, [], rfl⟩
    | cons ts rest =>
        obtain ⟨cut, hsource, hcut⟩ := Source.segmented_cons ts rest
        rw [hsource]
        cases ts with
        | nil => exact ⟨none, _, hcut⟩
        | cons t ts => exact ⟨some t, _, rfl⟩
  obtain ⟨delivered, rest, hpull⟩ := hpull
  obtain ⟨r, hadv⟩ : ∃ r, advance ⟨lookahead, .segmented segments, mode⟩
      = (.ok (), r) := by
    rw [advance, hpull]
    exact ⟨_, rfl⟩
  have hmode := mode_advance ⟨lookahead, .segmented segments, mode⟩
  rw [hadv] at hmode
  obtain rfl : r.mode = mode := hmode
  exact ⟨r, hadv, rfl, lookahead, hadv⟩

/-- Where a segment begins, its reader is matched by the one of the segment
    alone. -/
theorem Begins.inSegment {ts : List Token} {rest : List (List Token)}
    (h : Begins (ts :: rest) r) (ongoing : ∀ t ∈ ts, t.role ≠ .ending) :
    ∃ (cut : Source) (r' : Reader), cut.pull = (.ok none, .segmented rest) ∧
      ofSource (.ofTokens ts) r.mode = (.ok (), r') ∧
      InSegment cut (.segmented rest) r r' := by
  obtain ⟨lookahead, hadv⟩ := h
  obtain ⟨cut, hsource, hcut⟩ := Source.segmented_cons ts rest
  rw [hsource] at hadv
  obtain ⟨r', hof, hinside⟩ :=
    (follows_inSegment hcut ongoing lookahead none r.mode).advanced hadv
  exact ⟨cut, r', hcut, hof, hinside⟩

/-! ## Lists left open -/

end Reader

/-- The tokens spell forms in a row and then begin one more, which is not
    complete at their end. -/
structure LeftOpen (ts : List Token) (fs : List Form) (us : List Token) :
    Prop where
  spelled : ∃ ws, ts = ws ++ us ∧ Spells ws (Form.lexemesAll fs)
  begun : us ≠ []
  viable : Viable us
  incomplete : ∀ f vs, vs <+: us → ¬ Spells vs (Form.lexemes f)

namespace Reader

variable {r : Reader}

/-- A list that is open where the stream ends is settled there: the reader looks
    at nothing, and it is unmatched, unless lenient mode lets openings go. -/
theorem read_leftOpen (plain : r.source.Plain) (begun : r.stream ≠ [])
    (viable : Viable r.stream)
    (incomplete : ∀ f vs, vs <+: r.stream → ¬ Spells vs (Form.lexemes f)) :
    r.read.2.lookahead = none ∧
      r.read.1 = if r.mode = .lenient ∧ ∀ t ∈ r.stream, t.role = .opening
        then .ok none else .error (.unmatched none) := by
  rcases read_cases plain with
    ⟨f, r', hread⟩ | ⟨us, lists, r', hrun, hstop⟩
  · obtain ⟨vs, hstream, hvs, -⟩ := spelled_of_read hread
    exact absurd hvs (incomplete f vs ⟨r'.stream, hstream.symm⟩)
  · -- the whole stream is viable, so the reader has gone to its end
    have hlongest := longest_of_stop hrun hstop
    have hwhole : us = r.stream := hlongest.begins.eq_of_length
      (Nat.le_antisymm hlongest.begins.length_le
        (hlongest.longest _ List.prefix_rfl viable))
    have hstream := hrun.stream
    rw [hwhole] at hstream
    have hlook : r'.lookahead = none :=
      stream_eq_nil.mp (List.self_eq_append_right.mp hstream)
    obtain ⟨answer, hread, hverdict⟩ := verdict_of_stop hrun hstop
    rw [hread]
    refine ⟨hlook, ?_⟩
    rw [hwhole, hlook] at hverdict
    cases hmode : r.mode with
    | strict =>
        rw [hmode] at hverdict
        have hended := hverdict.ended rfl rfl
        rw [if_neg begun] at hended
        rw [if_neg (by simp)]
        exact hended.answer_eq ⟨_, rfl, rfl⟩
    | lenient =>
        rw [hmode] at hverdict
        have hlenient := hverdict.lenient rfl (by simp)
        by_cases hopen : ∀ t ∈ r.stream, t.role = .opening
        · rw [if_pos hopen] at hlenient
          rw [if_pos ⟨rfl, hopen⟩]
          exact hlenient
        · rw [if_neg hopen] at hlenient
          rw [if_neg (fun h => hopen h.2)]
          exact hlenient.answer_eq ⟨_, rfl, rfl⟩

theorem readAllOnto_leftOpen (plain : r.source.Plain) (done : List Form)
    {fs : List Form} {us : List Token} (h : LeftOpen r.stream fs us) :
    (r.readAllOnto done).2.lookahead = none ∧
      (r.readAllOnto done).1 =
        if r.mode = .lenient ∧ ∀ t ∈ us, t.role = .opening
        then .ok (done.reverse ++ fs) else .error (.unmatched none) := by
  obtain ⟨⟨ws, hsplit, hws⟩, begun, viable, incomplete⟩ := h
  induction fs generalizing r done ws with
  | nil =>
      obtain rfl := spells_nil.mp hws
      rw [List.nil_append] at hsplit
      rw [← hsplit] at begun viable incomplete ⊢
      obtain ⟨hlook, hanswer⟩ := read_leftOpen plain begun viable incomplete
      rcases hread : r.read with ⟨answer, r'⟩
      rw [hread] at hlook hanswer
      by_cases hquiet : r.mode = .lenient ∧ ∀ t ∈ r.stream, t.role = .opening
      · rw [if_pos hquiet] at hanswer ⊢
        obtain rfl : answer = .ok none := hanswer
        rw [readAllOnto_of_none done hread, List.append_nil]
        exact ⟨hlook, rfl⟩
      · rw [if_neg hquiet] at hanswer ⊢
        obtain rfl : answer = .error (.unmatched none) := hanswer
        rw [readAllOnto_of_error done hread]
        exact ⟨hlook, rfl⟩
  | cons f fs ih =>
      obtain ⟨vs, ws, rfl, hvs, hws⟩ := spells_append.mp hws
      rw [List.append_assoc] at hsplit
      obtain ⟨r', hread, hstream⟩ := exists_read plain hvs hsplit
      obtain ⟨_, -, -, hadv⟩ := spelled_of_read hread
      rw [readAllOnto_eq, hread, ← mode_advances hadv]
      have hrest := ih (plain_invariant.read plain hread) (f :: done) ws
        hstream hws
      rw [List.reverse_cons, List.append_assoc] at hrest
      exact hrest

end Reader

/-! ## Rounds -/

/-- Batch after batch: all forms that are left, then a look at the next token,
    a number of times. -/
def Action.rounds : Nat → List Action
  | 0 => []
  | n + 1 => .readAll :: .advance :: rounds n

namespace Session

variable {s : Session}

/-- A round that ends in an empty lookahead goes from the beginning of one
    segment to the beginning of the next. -/
theorem begins_round {ts : List Token} {rest : List (List Token)}
    (h : s.reader.Begins (ts :: rest)) (ongoing : ∀ t ∈ ts, t.role ≠ .ending)
    (hempty : (s.act .readAll).2.reader.lookahead = none) :
    ((s.act .readAll).2.act .advance).2.reader.Begins rest := by
  obtain ⟨cut, r', hcut, -, hrelated⟩ := h.inSegment ongoing
  obtain ⟨-, hall⟩ := (Reader.InSegment.simulation hcut).readAllOnto [] hrelated
  rw [reader_act] at hempty ⊢
  rw [reader_act]
  show (s.reader.readAllOnto []).2.advance.2.Begins rest
  rcases hall.sources with ⟨hlook, -⟩ | ⟨-, hsource, -⟩
  · exact absurd hempty hlook
  · obtain ⟨r, hadv, -, hbegins⟩ := Reader.exists_begins rest
      (s.reader.readAllOnto []).2.lookahead (s.reader.readAllOnto []).2.mode
    rw [← hsource] at hadv
    have hadv' : (s.reader.readAllOnto []).2.advance = (.ok (), r) := hadv
    rw [hadv']
    exact hbegins

/-- A round keeps the mode and begins no walk. -/
theorem round_keeps (s : Session) :
    ((s.act .readAll).2.act .advance).2.reader.mode = s.reader.mode ∧
      ((s.act .readAll).2.act .advance).2.finished = s.finished := by
  constructor
  · rw [reader_act, reader_act]
    exact (Reader.mode_advance _).trans (Reader.mode_readAllOnto [] s.reader)
  · rw [act_readAll, act]
    rcases (s.withReader s.reader.readAll.2).reader.advance with ⟨_ | ⟨⟩, _⟩
    · rfl
    · rfl

/-- **ROUNDS**: behind as many of them as there are segments before, a segment
    begins, if every segment before it was left with an empty lookahead. -/
theorem begins_rounds {segments : List (List Token)}
    (ongoing : ∀ ts ∈ segments, ∀ t ∈ ts, t.role ≠ .ending)
    (h : s.reader.Begins segments) {i : Nat} (hi : i ≤ segments.length)
    (hempty : ∀ j < i,
      (((s.run (Action.rounds j)).2.act .readAll).2.reader.lookahead = none)) :
    let s' := (s.run (Action.rounds i)).2
    s'.reader.Begins (segments.drop i) ∧ s'.reader.mode = s.reader.mode ∧
      s'.finished = s.finished := by
  induction i generalizing s segments with
  | zero => exact ⟨h, rfl, rfl⟩
  | succ i ih =>
      obtain ⟨ts, rest, rfl⟩ := List.exists_cons_of_length_pos (Nat.zero_lt_of_lt hi)
      obtain ⟨hts, hrest⟩ := List.forall_mem_cons.mp ongoing
      -- the first round goes over the first segment, the others over the rest
      have hnext := begins_round h hts (hempty 0 (Nat.succ_pos i))
      obtain ⟨hmode, hfinished⟩ := round_keeps s
      rw [← hmode, ← hfinished]
      exact ih hrest hnext (Nat.le_of_succ_le_succ hi)
        fun j hj => hempty (j + 1) (Nat.succ_lt_succ hj)

/-- **BATCHES ARE INDEPENDENT**: over segments of tokens with a pause between
    any two, let all forms that are left be read, and then the next token be
    looked at, round after round.  As long as every round has left an empty
    lookahead before the look, the reply in the round of a segment is what a
    fresh reader over the segment alone answers.  A list that is left open at
    the end of the segment is settled there, in strict mode always as unmatched.
    And however the session reads, walks and changes the mode within the round,
    it is not told apart from one of the segment alone, and leaves the later
    segments untouched. -/
theorem batches_independent {segments : List (List Token)}
    (ongoing : ∀ ts ∈ segments, ∀ t ∈ ts, t.role ≠ .ending) (mode : Mode) :
    ∃ r, Reader.ofSource (.segmented segments) mode = (.ok (), r) ∧
      let round := fun i => ((ofReader r).run (Action.rounds i)).2
      ∀ i ts, segments[i]? = some ts →
        (∀ j < i, ((round j).act .readAll).2.reader.lookahead = none) →
        ((round i).act .readAll).1 = replyForms (Printout.formsOf mode ts) ∧
        (∀ fs us, LeftOpen ts fs us →
          ((round i).act .readAll).2.reader.lookahead = none ∧
          ((round i).act .readAll).1 =
            if mode = .lenient ∧ ∀ t ∈ us, t.role = .opening then .forms fs
            else .failed (.unmatched none)) ∧
        ∃ r', Reader.ofSource (.ofTokens ts) mode = (.ok (), r') ∧
          ∀ actions : List Action, (∀ action ∈ actions, action.Reads) →
            (round i).transcript actions = (ofReader r').transcript actions ∧
            Source.segmented (segments.drop (i + 1))
              <:+ ((round i).run actions).2.reader.source := by
  obtain ⟨r, hof, rfl, hbegins⟩ := Reader.exists_begins segments none mode
  refine ⟨r, hof, ?_⟩
  intro round i ts hts hempty
  obtain ⟨hi, hget⟩ := List.getElem?_eq_some_iff.mp hts
  -- behind the rounds before, the segment begins
  obtain ⟨hbegin, hmode, hfinished⟩ :=
    begins_rounds (s := ofReader r) ongoing hbegins (Nat.le_of_lt hi) hempty
  have htokens : ∀ t ∈ ts, t.role ≠ .ending :=
    ongoing ts (List.mem_of_getElem? hts)
  rw [List.drop_eq_getElem_cons hi, hget] at hbegin
  -- the reader of the segment alone stands beside it from here on
  obtain ⟨cut, r', hcut, hof', hinside⟩ := hbegin.inSegment htokens
  have hof' : Reader.ofSource (.ofTokens ts) r.mode = (.ok (), r') :=
    hmode ▸ hof'
  have hsim := Reader.InSegment.simulation hcut
  have hrelated : Related (Reader.InSegment cut _) (round i) (ofReader r') :=
    ⟨hinside, hfinished.symm⟩
  have hforms : Printout.formsOf r.mode ts = r'.readAll.1 := by
    rw [Printout.formsOf, hof']
  obtain ⟨hreply, hafter⟩ := act_readAll_alike hsim hrelated
  rw [act_readAll (ofReader r')] at hreply hafter
  have hsame : ((round i).act .readAll).1 = replyForms r'.readAll.1 := hreply.eq
  refine ⟨hforms ▸ hsame, ?_, r', hof', ?_⟩
  · intro fs us hopen
    obtain ⟨_, hfresh, plain, hmode', hstream⟩ :=
      Reader.ofSource_ofTokens ts r.mode
    obtain rfl := (Prod.mk.inj (hof'.symm.trans hfresh)).2
    rw [List.takeWhile_eq_self_iff.mpr (by simpa using htokens)] at hstream
    obtain ⟨hlook, hanswer⟩ :=
      Reader.readAllOnto_leftOpen plain [] (hstream ▸ hopen)
    rw [hmode', List.reverse_nil, List.nil_append] at hanswer
    refine ⟨hafter.reader.lookahead.symm.trans hlook, ?_⟩
    rw [hsame, Reader.readAll, hanswer]
    split
    · rfl
    · rfl
  · intro actions ha
    have hfollowed : ∀ action ∈ actions, Followed (Reader.InSegment cut
        (Source.segmented (segments.drop (i + 1)))) action :=
      fun action haction => .inl (ha action haction)
    obtain ⟨-, hlast⟩ := run_alike hsim hrelated hfollowed
    exact ⟨(transcript_eq hsim hrelated hfollowed).symm,
      hlast.reader.later_suffix hcut⟩

/-- Of `(f`, nothing and `x`, with a pause between any two, strict mode finds
    the list unmatched in the first round, no form in the second and `x` in the
    third; and a walk over the first leaves the others in the source. -/
theorem batches_independent_left_open :
    let broken : List Token :=
      [.make (.of "LPAREN") [] 1 1, .make (.of "IDENT") (.of "f") 1 2]
    let segments : List (List Token) :=
      [broken, [], [.make (.of "IDENT") (.of "x") 3 1]]
    (∀ ts ∈ segments, ∀ t ∈ ts, t.role ≠ .ending) ∧ LeftOpen broken [] broken ∧
      ∃ r, Reader.ofSource (.segmented segments) .strict = (.ok (), r) ∧
        let round := fun i => ((ofReader r).run (Action.rounds i)).2
        ((round 0).act .readAll).1 = .failed (.unmatched none) ∧
        (∀ j < 2, ((round j).act .readAll).2.reader.lookahead = none) ∧
        ((round 2).act .readAll).1 = .forms [Form.identifier (.of "x")] ∧
        (∀ action ∈ [Action.openWalk, .next 0], action.Reads) ∧
        Source.segmented (segments.drop 1)
          <:+ ((round 0).run [.openWalk, .next 0]).2.reader.source := by
  intro broken segments
  have hongoing : ∀ ts ∈ segments, ∀ t ∈ ts, t.role ≠ .ending := by decide
  have hopen : LeftOpen broken [] broken :=
    { spelled := ⟨[], rfl, rfl⟩
      begun := List.cons_ne_nil _ _
      viable := ⟨.call (Form.identifier (.of "f")) [], _,
        List.take_prefix 2 _, by decide⟩
      incomplete := fun f _ h =>
        not_spells_of_unclosed (by decide) (by decide) h f }
  obtain ⟨r, hof, hrounds⟩ := batches_independent hongoing .strict
  have hreads : ∀ action ∈ [Action.openWalk, .next 0], action.Reads := by
    simp [Action.Reads]
  obtain ⟨-, hbroken, r', -, hwalk⟩ :=
    hrounds 0 broken rfl fun j hj => absurd hj (Nat.not_lt_zero j)
  obtain ⟨-, hfirst⟩ := hbroken [] broken hopen
  obtain ⟨-, hleft⟩ := hwalk _ hreads
  have hempty : ∀ j < 2, (((ofReader r).run (Action.rounds j)).2.act
      .readAll).2.reader.lookahead = none := by
    obtain rfl := (Prod.mk.inj hof).2
    decide +kernel
  obtain ⟨hthird, -⟩ := hrounds 2 _ rfl hempty
  have hx : Printout.formsOf .strict [.make (.of "IDENT") (.of "x") 3 1]
      = .ok [Form.identifier (.of "x")] := by decide +kernel
  rw [hx] at hthird
  exact ⟨hongoing, hopen, r, hof, hfirst, hempty, hthird, hreads, hleft⟩

end Session

end FormReader
