import FormReader.Proofs.Harvest
import FormReader.Proofs.Simulation

/-! # The end of the input — a token that ends it ends it for good

    A token that ends the input makes a reader drop its source, so nothing
    behind the token can be told from nothing at all.  Beside the reader of a
    source with an end in it and anything behind stands the reader of what
    comes before the end: they look at the same tokens, and the source of the
    first is that of the second with the end still to come, until both are
    empty (`Reader.UpToEnd`).  Every advance keeps them so (`UpToEnd.follows`),
    also over pauses and failures, so the relation is a simulation and no run
    tells them apart (`ended_for_good`). -/

namespace FormReader

/-- No token of the source ends the input. -/
def Source.Ongoing (s : Source) : Prop :=
  ∀ t, Item.token t ∈ s → t.role ≠ .ending

theorem Source.Ongoing.tail {item : Item} {s : Source}
    (h : Ongoing (item :: s)) : s.Ongoing :=
  fun t ht => h t (List.mem_cons_of_mem _ ht)

namespace Reader

variable {e : Token} {behind : Source} {r r' : Reader}

/-- The readers look at the same, and the first has what the second has, then
    the end `e` and what is behind it; or the end was found. -/
structure UpToEnd (e : Token) (behind : Source) (r r' : Reader) : Prop where
  lookahead : r'.lookahead = r.lookahead
  mode : r'.mode = r.mode
  sources : r.source = r'.source ++ .token e :: behind ∧ r'.source.Ongoing ∨
    r.lookahead = none ∧ r.source = [] ∧ r'.source = []

/-- **EVERY ADVANCE IS FOLLOWED**: where the one reader finds the end, the other
    finds its source exhausted. -/
theorem UpToEnd.follows (he : e.role = .ending) (h : UpToEnd e behind r r') :
    Follows (UpToEnd e behind) r r' := by
  obtain ⟨lookahead, source, mode⟩ := r
  obtain ⟨lookahead', source', mode'⟩ := r'
  obtain ⟨rfl, rfl, ⟨hsource, hongoing⟩ | ⟨-, hempty, hempty'⟩⟩ := h
  · obtain rfl : source = source' ++ .token e :: behind := hsource
    rcases source' with _ | ⟨t | _ | message, rest⟩
    · have hadv := advance_of_ending
        (r := ⟨lookahead', .token e :: behind, mode'⟩) rfl he
      show Follows _ ⟨lookahead', .token e :: behind, mode'⟩ _
      rw [Follows, hadv]
      exact ⟨rfl, rfl, rfl, .inr ⟨rfl, rfl, rfl⟩⟩
    · have ht : t.role ≠ .ending := hongoing t (List.mem_cons_self ..)
      rw [Follows, advance_of_token rfl ht, advance_of_token rfl ht]
      exact ⟨rfl, rfl, rfl, .inl ⟨rfl, hongoing.tail⟩⟩
    · exact ⟨rfl, rfl, rfl, .inl ⟨rfl, hongoing.tail⟩⟩
    · exact ⟨rfl, rfl, rfl, .inl ⟨rfl, hongoing.tail⟩⟩
  · obtain rfl : source = [] := hempty
    obtain rfl : source' = [] := hempty'
    exact ⟨rfl, rfl, rfl, .inr ⟨rfl, rfl, rfl⟩⟩

theorem UpToEnd.simulation (he : e.role = .ending) :
    Simulation (· = ·) (UpToEnd e behind) :=
  .of_same UpToEnd.lookahead UpToEnd.mode
    (fun _ h => ⟨h.lookahead, rfl, h.sources⟩) fun h _ => h.follows he

/-- Once a source is dropped, it stays so. -/
theorem dropped_invariant :
    Invariant fun r => r.lookahead = none ∧ r.source = [] where
  advance r h := by
    rw [advance, h.2]
    exact ⟨rfl, rfl⟩
  setMode _ _ h := h
  drain r h := by
    rw [h.2]
    exact ⟨h.1, rfl⟩

end Reader

namespace Session

/-- **ENDED FOR GOOD**: a source with an end in it and anything behind is used
    like the source before the end.  The readers of both begin alike, and every
    run of steps that does not drain the source replies the same with the same
    lookahead behind every step.  Until the end is found, it stands in the
    source with all that is behind it; once it is found the source is empty, and
    it stays so, and the lookahead with it, whatever is done later. -/
theorem ended_for_good {source : Source} (ongoing : source.Ongoing) {e : Token}
    (he : e.role = .ending) (behind : Source) (mode : Mode) :
    let first := Reader.ofSource (source ++ .token e :: behind) mode
    let alone := Reader.ofSource source mode
    first.1 = alone.1 ∧ first.2.lookahead = alone.2.lookahead ∧
    ∀ actions : List Action, (∀ action ∈ actions, action ≠ .drain) →
      (ofReader first.2).transcript actions
        = (ofReader alone.2).transcript actions ∧
      let s := ((ofReader first.2).run actions).2
      (∃ ahead, ahead <:+ source ∧
        s.reader.source = ahead ++ .token e :: behind) ∨
      (s.reader.lookahead = none ∧ s.reader.source = []) ∧
        ∀ later : List Action, let s' := (s.run later).2
          (s'.reader.lookahead = none ∧ s'.reader.source = []) ∧
            (s'.act .drain).1 = .tokens [] := by
  intro first alone
  have hfresh : Reader.UpToEnd e behind
      ⟨none, source ++ .token e :: behind, mode⟩ ⟨none, source, mode⟩ :=
    ⟨rfl, rfl, .inl ⟨rfl, ongoing⟩⟩
  obtain ⟨hsuccess, hfirst⟩ := hfresh.follows he
  refine ⟨hsuccess.symm, hfirst.lookahead.symm, ?_⟩
  intro actions ha
  have hrelated : Related (Reader.UpToEnd e behind) (ofReader first.2)
      (ofReader alone.2) := ⟨hfirst, rfl⟩
  have hfollowed : ∀ action ∈ actions, Followed (Reader.UpToEnd e behind) action :=
    fun action haction => .inr ⟨ha action haction, fun h => h.follows he⟩
  have hsim : Reader.Simulation (· = ·) (Reader.UpToEnd e behind) :=
    Reader.UpToEnd.simulation he
  refine ⟨(transcript_eq hsim hrelated hfollowed).symm, ?_⟩
  obtain ⟨-, hlast⟩ := run_alike hsim hrelated hfollowed
  intro s
  rcases hlast.reader.sources with ⟨hsource, -⟩ | ⟨hnone, hempty, -⟩
  · refine .inl ⟨_, ?_, hsource⟩
    have hinv := Reader.suffix_invariant source
    exact hinv.run _ actions (hinv.advance ⟨none, source, mode⟩ List.suffix_rfl)
  · refine .inr ⟨⟨hnone, hempty⟩, ?_⟩
    intro later s'
    have hdropped : s'.reader.lookahead = none ∧ s'.reader.source = [] :=
      Reader.dropped_invariant.run s later ⟨hnone, hempty⟩
    refine ⟨hdropped, ?_⟩
    rw [act, hdropped.2]
    rfl

/-- Of `(f`, a failure and the end, behind which the source would fail again,
    the list is lost with the failure, `f` is read as a form, and then nothing
    is left to be drained, as if the source had been over. -/
theorem ended_for_good_behind_failure :
    let source : Source :=
      [.token (.make (.of "LPAREN") [] 1 1),
        .token (.make (.of "IDENT") (.of "f") 1 2), .failure (.of "lost")]
    let e : Token := .make (.of "EOF") [] 1 3
    let behind : Source :=
      [.failure (.of "lost again"), .token (.make (.of "RPAREN") [] 2 1)]
    let actions : List Action := [.read, .read, .advance]
    source.Ongoing ∧ e.role = .ending ∧
      (∀ action ∈ actions, action ≠ .drain) ∧
      ∃ r r', Reader.ofSource (source ++ .token e :: behind) .strict
          = (.ok (), r) ∧
        Reader.ofSource source .strict = (.ok (), r') ∧
        (ofReader r).transcript actions = (ofReader r').transcript actions ∧
        ∀ later : List Action,
          ((((ofReader r).run actions).2.run later).2.act .drain).1
            = .tokens [] := by
  intro source e behind actions
  have hongoing : source.Ongoing := by
    intro t ht
    have ht' : t ∈ [Token.make (.of "LPAREN") [] 1 1,
        .make (.of "IDENT") (.of "f") 1 2] := by
      simpa [source] using ht
    clear ht
    revert t
    decide
  have he : e.role = .ending := by decide
  have ha : ∀ action ∈ actions, action ≠ .drain := by simp [actions]
  obtain ⟨-, -, hrun⟩ := ended_for_good hongoing he behind .strict
  obtain ⟨hsame, hcases⟩ := hrun actions ha
  refine ⟨hongoing, he, ha, _, _, rfl, rfl, hsame, ?_⟩
  intro later
  rcases hcases with ⟨ahead, -, hahead⟩ | ⟨-, hdropped⟩
  · -- the end was found
    have hempty : ((ofReader (Reader.ofSource (source ++ .token e :: behind)
        .strict).2).run actions).2.reader.source = [] := by decide +kernel
    rw [hempty] at hahead
    simp at hahead
  · exact (hdropped later).2

end Session

end FormReader
