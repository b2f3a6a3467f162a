import FormReader.Reader.Basic

/-! # Streams — the tokens in front of a reader

    The STREAM of a reader is its lookahead and what its source delivers behind
    it, up to a token that ends the input, a pause, a failure or the end.  A
    reader that looks at nothing has an empty stream, whatever its source still
    holds.

    * `Reader.stream` — the stream;
    * `Reader.advances` — advancing a number of times;
    * `Source.Plain` — a source of tokens only, from which every advance
      succeeds.

    One advance takes the first token off the stream (`stream_advance`), and
    inside the stream it is known which reader it leaves (`advances_within`):
    nothing else of the source is used up. -/

namespace FormReader

namespace Source

/-- The tokens that a source delivers in a row before the input ends. -/
def ahead : Source → List Token
  | .token t :: rest => if t.role = .ending then [] else t :: ahead rest
  | _ => []

/-- A source without pauses and failures. -/
def Plain (s : Source) : Prop := ∃ ts, s = ofTokens ts

theorem ahead_ofTokens (ts : List Token) :
    (ofTokens ts).ahead = ts.takeWhile fun t => t.role ≠ .ending := by
  induction ts with
  | nil => rfl
  | cons t ts ih =>
      show (if t.role = .ending then [] else t :: (ofTokens ts).ahead) = _
      rw [ih, List.takeWhile_cons]
      by_cases h : t.role = .ending <;> simp [h]

theorem Plain.drop {s : Source} (plain : s.Plain) (n : Nat) :
    Plain (List.drop n s) := by
  obtain ⟨ts, rfl⟩ := plain
  exact ⟨ts.drop n, List.map_drop.symm⟩

/-- Where a source delivers tokens they are its first items. -/
theorem eq_cons_of_ahead {s : Source} {t : Token} {ts : List Token}
    (h : s.ahead = t :: ts) :
    ∃ rest, s = .token t :: rest ∧ t.role ≠ .ending ∧ ahead rest = ts := by
  rcases s with _ | ⟨t' | _ | message, rest⟩
  · cases h
  · have h' : (if t'.role = .ending then [] else t' :: ahead rest)
        = t :: ts := h
    by_cases hr : t'.role = .ending
    · rw [if_pos hr] at h'
      cases h'
    · rw [if_neg hr] at h'
      obtain ⟨rfl, rfl⟩ := List.cons.inj h'
      exact ⟨rest, rfl, hr, rfl⟩
  · cases h
  · cases h

theorem ahead_of_ending {t : Token} (ht : t.role = .ending) (rest : Source) :
    ahead (.token t :: rest) = [] := if_pos ht

theorem ahead_of_token {t : Token} (ht : t.role ≠ .ending) (rest : Source) :
    ahead (.token t :: rest) = t :: rest.ahead := if_neg ht

end Source

namespace Reader

/-- The tokens in front of a reader. -/
def stream (r : Reader) : List Token :=
  match r.lookahead with
  | none => []
  | some t => t :: r.source.ahead

theorem stream_eq_cons {r : Reader} {t : Token} {ts : List Token} :
    r.stream = t :: ts ↔ r.lookahead = some t ∧ r.source.ahead = ts := by
  rw [stream]
  cases r.lookahead with
  | none => simp
  | some u => simp

theorem head?_stream (r : Reader) : r.stream.head? = r.lookahead := by
  rw [stream]
  cases r.lookahead <;> rfl

theorem stream_eq_nil {r : Reader} : r.stream = [] ↔ r.lookahead = none := by
  rw [← head?_stream, List.head?_eq_none_iff]

/-! ## One advance -/

theorem advance_of_ending {r : Reader} {t : Token} {rest : Source}
    (hs : r.source = .token t :: rest) (ht : t.role = .ending) :
    r.advance = (.ok (), ⟨none, [], r.mode⟩) := by
  rw [advance, hs]
  show (Except.ok (), r.look (some t) rest) = _
  rw [look, if_pos ht]

theorem advance_of_token {r : Reader} {t : Token} {rest : Source}
    (hs : r.source = .token t :: rest) (ht : t.role ≠ .ending) :
    r.advance = (.ok (), ⟨some t, rest, r.mode⟩) := by
  rw [advance, hs]
  show (Except.ok (), r.look (some t) rest) = _
  rw [look, if_neg ht]

/-- An advance fails and keeps the lookahead, or finds the input ended, or
    looks at the first item of the source. -/
theorem advance_cases (r : Reader) :
    (∃ e rest, r.advance = (.error e, { r with source := rest })) ∨
    (∃ rest, r.advance = (.ok (), ⟨none, rest, r.mode⟩) ∧
      r.source.ahead = []) ∨
    (∃ t rest, r.advance = (.ok (), ⟨some t, rest, r.mode⟩) ∧
      r.source.ahead = t :: rest.ahead) := by
  rcases hs : r.source with _ | ⟨t | _ | message, rest⟩
  · refine Or.inr (Or.inl ⟨[], ?_, rfl⟩)
    rw [advance, hs]
    rfl
  · by_cases ht : t.role = .ending
    · exact Or.inr (Or.inl
        ⟨[], advance_of_ending hs ht, Source.ahead_of_ending ht rest⟩)
    · exact Or.inr (Or.inr
        ⟨t, rest, advance_of_token hs ht, Source.ahead_of_token ht rest⟩)
  · refine Or.inr (Or.inl ⟨rest, ?_, rfl⟩)
    rw [advance, hs]
    rfl
  · refine Or.inl ⟨⟨message⟩, rest, ?_⟩
    rw [advance, hs]
    rfl

/-- A failed advance has used up the failure and nothing else. -/
theorem failure_of_advance {r r' : Reader} {e : SourceFailure}
    (h : r.advance = (.error e, r')) :
    r.source = .failure e.message :: r'.source ∧
      r' = { r with source := r'.source } := by
  rw [advance] at h
  rcases hs : r.source with _ | ⟨t | _ | message, rest⟩
  · rw [hs] at h
    cases h
  · rw [hs] at h
    cases h
  · rw [hs] at h
    cases h
  · rw [hs] at h
    cases h
    exact ⟨rfl, rfl⟩

theorem mode_advance (r : Reader) : r.advance.2.mode = r.mode := by
  rcases advance_cases r with ⟨e, rest, h⟩ | ⟨rest, h, -⟩ | ⟨t, rest, h, -⟩
  · rw [h]
  · rw [h]
  · rw [h]

/-- What is ahead of the source is in front of the reader after an advance. -/
theorem ahead_advance {r r' : Reader} (h : r.advance = (.ok (), r')) :
    r.source.ahead = r'.stream := by
  rcases advance_cases r with
    ⟨e, rest, hadv⟩ | ⟨rest, hadv, hahead⟩ | ⟨t, rest, hadv, hahead⟩
  · cases hadv.symm.trans h
  · cases hadv.symm.trans h
    exact hahead
  · cases hadv.symm.trans h
    exact hahead

/-- Advancing takes the first token off the stream. -/
theorem stream_advance {r r' : Reader} {t : Token}
    (looking : r.lookahead = some t) (h : r.advance = (.ok (), r')) :
    r.stream = t :: r'.stream :=
  stream_eq_cons.mpr ⟨looking, ahead_advance h⟩

/-! ## Advancing more than once -/

/-- Advances a number of times. -/
def advances : Nat → Reader → Except SourceFailure Unit × Reader
  | 0, r => (.ok (), r)
  | n + 1, r =>
    match r.advance with
    | (.ok (), r') => advances n r'
    | (.error e, r') => (.error e, r')

theorem advances_succ {r r' : Reader} (h : r.advance = (.ok (), r'))
    (n : Nat) : r.advances (n + 1) = r'.advances n := by
  rw [advances, h]

theorem advances_add {m : Nat} {r r' : Reader}
    (h : r.advances m = (.ok (), r')) (n : Nat) :
    r.advances (m + n) = r'.advances n := by
  induction m generalizing r with
  | zero =>
      cases h
      rw [Nat.zero_add]
  | succ m ih =>
      rw [Nat.add_right_comm]
      rw [advances] at h ⊢
      rcases hadv : r.advance with ⟨e | ⟨⟩, r₁⟩
      · rw [hadv] at h
        cases h
      · rw [hadv] at h
        exact ih h

theorem mode_advances {n : Nat} {r r' : Reader}
    {a : Except SourceFailure Unit} (h : r.advances n = (a, r')) :
    r'.mode = r.mode := by
  induction n generalizing r with
  | zero =>
      cases h
      rfl
  | succ n ih =>
      have hmode := mode_advance r
      rw [advances] at h
      rcases hadv : r.advance with ⟨e | ⟨⟩, r₁⟩
      · rw [hadv] at h hmode
        cases h
        exact hmode
      · rw [hadv] at h hmode
        exact (ih h).trans hmode

/-- Inside the stream an advance succeeds. -/
theorem advance_within {r : Reader} {t u : Token} {ts : List Token}
    (h : r.stream = t :: u :: ts) :
    r.advance
      = (.ok (), ⟨some u, r.source.drop 1, r.mode⟩) := by
  obtain ⟨-, hahead⟩ := stream_eq_cons.mp h
  obtain ⟨rest, hs, hu, -⟩ := Source.eq_cons_of_ahead hahead
  rw [advance_of_token hs hu, hs]
  rfl

theorem exists_advance {r : Reader} {t : Token} {ts : List Token}
    (h : r.stream = t :: ts) (hts : ts ≠ []) :
    ∃ r', r.advance = (.ok (), r') ∧ r'.stream = ts := by
  obtain ⟨u, us, rfl⟩ := List.exists_cons_of_ne_nil hts
  have hadv := advance_within h
  refine ⟨_, hadv, ?_⟩
  have hstream := stream_advance (stream_eq_cons.mp h).1 hadv
  rw [h] at hstream
  exact (List.cons.inj hstream).2.symm

/-- Inside the stream, advancing uses up one item of the source each time. -/
theorem advances_within {r : Reader} {ws : List Token} {t : Token}
    {ts : List Token} (h : r.stream = ws ++ t :: ts) :
    r.advances ws.length
      = (.ok (), ⟨some t, r.source.drop ws.length, r.mode⟩) := by
  induction ws generalizing r with
  | nil =>
      obtain ⟨looking, -⟩ := stream_eq_cons.mp h
      show ((.ok (), r) : Except SourceFailure Unit × Reader) = _
      rw [← looking]
      rfl
  | cons w ws ih =>
      obtain ⟨r₁, hadv, hstream⟩ := exists_advance h (by simp)
      obtain ⟨u, us, hus⟩ : ∃ u us, ws ++ t :: ts = u :: us :=
        List.exists_cons_of_ne_nil (by simp)
      rw [List.cons_append, hus] at h
      rw [List.length_cons, advances_succ hadv, ih hstream]
      obtain rfl := (Prod.mk.inj (hadv.symm.trans (advance_within h))).2
      rw [List.drop_drop, Nat.add_comm 1]

/-! ## Plain sources -/

/-- From a plain source an advance succeeds and leaves the source plain. -/
theorem advance_plain {r : Reader} (plain : r.source.Plain) :
    ∃ r', r.advance = (.ok (), r') ∧ r'.source.Plain := by
  obtain ⟨ts, hts⟩ := plain
  cases ts with
  | nil =>
      rw [advance, hts]
      exact ⟨_, rfl, [], rfl⟩
  | cons t ts =>
      by_cases ht : t.role = .ending
      · exact ⟨_, advance_of_ending hts ht, [], rfl⟩
      · exact ⟨_, advance_of_token hts ht, ts, rfl⟩

theorem plain_advance {r r' : Reader} (plain : r.source.Plain)
    (h : r.advance = (.ok (), r')) : r'.source.Plain := by
  obtain ⟨r₁, h₁, plain₁⟩ := advance_plain plain
  rw [h₁] at h
  cases h
  exact plain₁

/-- A reader that was just made over tokens has them in front of it, up to the
    first that ends the input. -/
theorem ofSource_ofTokens (tokens : List Token) (mode : Mode) :
    ∃ r, ofSource (.ofTokens tokens) mode = (.ok (), r) ∧ r.source.Plain ∧
      r.mode = mode ∧
      r.stream = tokens.takeWhile fun t => t.role ≠ .ending := by
  have plain : Source.Plain (.ofTokens tokens) := ⟨tokens, rfl⟩
  obtain ⟨r, hadv, plain'⟩ := advance_plain
    (r := ⟨none, .ofTokens tokens, mode⟩) plain
  have hmode := mode_advance ⟨none, .ofTokens tokens, mode⟩
  rw [hadv] at hmode
  refine ⟨r, hadv, plain', hmode, ?_⟩
  rw [← Source.ahead_ofTokens]
  exact (ahead_advance hadv).symm

end Reader

end FormReader
