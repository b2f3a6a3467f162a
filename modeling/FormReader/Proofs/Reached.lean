import FormReader.Proofs.Stream
import FormReader.Reader.Session

/-! # Reached sessions — what no use of a reader destroys

    A session over a source begins with a reader that looks at the first token
    of the source, and goes on by any steps in any order.  A property of
    readers that one advance, a change of mode and draining the source keep is
    kept by every step (`Invariant.act`), because reading only ever advances;
    so it holds of every session that is reached (`Invariant.reached`). -/

namespace FormReader

/-- The sessions that the steps of a session lead to, from a reader that was
    just made over a source. -/
inductive Session.Reached (source : Source) : Session → Prop where
  | fresh (mode : Mode) {r : Reader} :
      Reader.ofSource source mode = (.ok (), r) →
      Reached source (.ofReader r)
  | act {s : Session} (action : Action) :
      Reached source s → Reached source (s.act action).2

/-- What a step makes of the reader; the walks have no part in it but to say
    that nothing is read. -/
theorem Session.reader_act (s : Session) (action : Action) :
    (s.act action).2.reader =
      match action with
      | .read => s.reader.read.2
      | .readAll => s.reader.readAll.2
      | .advance => s.reader.advance.2
      | .generate f => (s.reader.generate f).2
      | .setMode mode => { s.reader with mode := mode }
      | .openWalk => s.reader
      | .next walk =>
        if s.finished.getD walk true then s.reader else s.reader.read.2
      | .drain => { s.reader with source := s.reader.source.drain.2 } := by
  cases action with
  | read => rfl
  | readAll =>
      rw [act]
      rcases s.reader.readAll with ⟨_ | _, _⟩ <;> rfl
  | advance =>
      rw [act]
      rcases s.reader.advance with ⟨_ | _, _⟩ <;> rfl
  | generate f =>
      show _ = (s.reader.generate f).2
      rw [act]
      rcases s.reader.generate f with ⟨_ | _, _⟩ <;> rfl
  | setMode mode => rfl
  | openWalk => rfl
  | next walk =>
      rw [act, next]
      by_cases hf : s.finished.getD walk true = true
      · simp only [if_pos hf]
      · simp only [if_neg hf]
        rcases s.reader.read with ⟨_ | _ | _, _⟩ <;> rfl
  | drain =>
      rw [act]
      rcases s.reader.source.drain with ⟨_ | _, _⟩ <;> rfl

namespace Reader

/-- A property of readers that using a reader keeps. -/
structure Invariant (P : Reader → Prop) : Prop where
  advance : ∀ r, P r → P r.advance.2
  setMode : ∀ r mode, P r → P { r with mode := mode }
  drain : ∀ r, P r → P { r with source := r.source.drain.2 }

namespace Invariant

variable {P : Reader → Prop} (inv : Invariant P)
include inv

theorem advanced {r r' : Reader} {a : Except SourceFailure Unit} (h : P r)
    (hadv : r.advance = (a, r')) : P r' := by
  have hr := inv.advance r h
  rwa [hadv] at hr

theorem readFrom (lists : List OpenList) (r : Reader) (h : P r) :
    P (r.readFrom lists).2 := by
  fun_induction Reader.readFrom lists r with
  | case1 => exact h
  | case2 => exact h
  | case3 lists r f _ r₁ hadv => exact inv.advanced h hadv
  | case4 lists r f _ e r₁ hadv => exact inv.advanced h hadv
  | case5 lists r lists₁ _ r₁ hadv ih => exact ih (inv.advanced h hadv)
  | case6 lists r lists₁ _ e r₁ hadv => exact inv.advanced h hadv

theorem read {r r' : Reader} {a : Answer} (h : P r) (hread : r.read = (a, r')) :
    P r' := by
  have hr := inv.readFrom [] r h
  rwa [← Reader.read, hread] at hr

theorem readAllOnto (done : List Form) (r : Reader) (h : P r) :
    P (r.readAllOnto done).2 := by
  fun_induction Reader.readAllOnto done r with
  | case1 done r f r₁ hread ih => exact ih (inv.read h hread)
  | case2 done r r₁ hread => exact inv.read h hread
  | case3 done r e r₁ hread => exact inv.read h hread

theorem generate (f : Form) (r : Reader) (h : P r) : P (r.generate f).2 := by
  rw [Reader.generate]
  have hadv := inv.advance r h
  rcases hres : r.advance with ⟨_ | ⟨⟩, _⟩
  · rw [hres] at hadv
    exact hadv
  · rw [hres] at hadv
    exact hadv

/-- **ONE STEP KEEPS AN INVARIANT**. -/
theorem act (s : Session) (action : Action) (h : P s.reader) :
    P (s.act action).2.reader := by
  rw [Session.reader_act]
  cases action with
  | read => exact inv.read h rfl
  | readAll => exact inv.readAllOnto [] s.reader h
  | advance => exact inv.advance s.reader h
  | generate f => exact inv.generate f s.reader h
  | setMode mode => exact inv.setMode s.reader mode h
  | openWalk => exact h
  | next walk =>
      -- a walk that is finished leaves the reader as it is
      by_cases hf : s.finished.getD walk true = true
      · simp only [if_pos hf]
        exact h
      · simp only [if_neg hf]
        exact inv.read h rfl
  | drain => exact inv.drain s.reader h

/-- **A RUN KEEPS AN INVARIANT**. -/
theorem run (s : Session) (actions : List Action) (h : P s.reader) :
    P (s.run actions).2.reader := by
  induction actions generalizing s with
  | nil => exact h
  | cons action actions ih => exact ih _ (inv.act s action h)

/-- **AN INVARIANT HOLDS OF EVERY REACHED SESSION**. -/
theorem reached {source : Source} (first : ∀ mode, P ⟨none, source, mode⟩)
    {s : Session} (hs : s.Reached source) : P s.reader := by
  induction hs with
  | @fresh mode r hr => exact inv.advanced (first mode) hr
  | act action _ ih => exact inv.act _ action ih

end Invariant

/-! ## Reading keeps the mode -/

theorem mode_of_advance {r r' : Reader} {a : Except SourceFailure Unit}
    (h : r.advance = (a, r')) : r'.mode = r.mode := by
  have hmode := mode_advance r
  rwa [h] at hmode

theorem mode_readFrom (lists : List OpenList) (r : Reader) :
    (r.readFrom lists).2.mode = r.mode := by
  fun_induction readFrom lists r with
  | case1 => rfl
  | case2 => rfl
  | case3 lists r f _ r₁ hadv => exact mode_of_advance hadv
  | case4 lists r f _ e r₁ hadv => exact mode_of_advance hadv
  | case5 lists r lists₁ _ r₁ hadv ih => exact ih.trans (mode_of_advance hadv)
  | case6 lists r lists₁ _ e r₁ hadv => exact mode_of_advance hadv

theorem mode_of_read {r r' : Reader} {a : Answer} (h : r.read = (a, r')) :
    r'.mode = r.mode := by
  have hmode := mode_readFrom [] r
  rwa [← read, h] at hmode

theorem mode_readAllOnto (done : List Form) (r : Reader) :
    (r.readAllOnto done).2.mode = r.mode := by
  fun_induction readAllOnto done r with
  | case1 done r f r₁ hread ih => exact ih.trans (mode_of_read hread)
  | case2 done r r₁ hread => exact mode_of_read hread
  | case3 done r e r₁ hread => exact mode_of_read hread

/-! ## Plain sources stay plain -/

theorem drainOnto_ofTokens (done ts : List Token) :
    (Source.ofTokens ts).drainOnto done = (.ok (done.reverse ++ ts), []) := by
  induction ts generalizing done with
  | nil => simp [Source.ofTokens, Source.drainOnto]
  | cons t ts ih =>
      show (Source.ofTokens ts).drainOnto (t :: done) = _
      rw [ih, List.reverse_cons, List.append_assoc]
      rfl

theorem plain_invariant : Invariant fun r => r.source.Plain where
  advance r plain := by
    obtain ⟨r', hadv, plain'⟩ := advance_plain plain
    exact hadv ▸ plain'
  setMode _ _ plain := plain
  drain r plain := by
    obtain ⟨ts, hts⟩ := plain
    refine ⟨[], ?_⟩
    show r.source.drain.2 = []
    rw [hts, Source.drain, drainOnto_ofTokens]

/-- Over tokens alone, a reader that is reached has a plain source. -/
theorem plain_of_reached {tokens : List Token} {s : Session}
    (hs : s.Reached (.ofTokens tokens)) : s.reader.source.Plain :=
  plain_invariant.reached (fun _ => ⟨tokens, rfl⟩) hs

end Reader

end FormReader
