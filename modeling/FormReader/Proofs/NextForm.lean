import FormReader.Proofs.Reached
import FormReader.Proofs.Shifting

/-! # The next form — reading answers the form that the stream begins with

    A reader answers a form exactly where its stream begins with the spelling
    of the form, and then it has advanced once for each token of the spelling:
    its new lookahead is the first token behind it, and no item of the source
    behind that one has been asked for.

    * `spelled_of_read` — SOUNDNESS: what was used up spells the form, from
      any source;
    * `read_of_spelled` — COMPLETENESS: over a spelling the answer hangs on the
      last advance alone, the one that looks behind the spelling;
    * `read_form_iff` — both over the readers that a session reaches, with the
      tokens used up and the independence of everything behind them. -/

namespace FormReader

namespace Reader

open OpenList

/-- A form is answered only by a move that completes it and an advance that
    succeeds, or behind a move that shifts. -/
theorem accept_of_readFrom {lists : List OpenList} {r r' : Reader} {f : Form}
    (hstop : ∀ lists₁ r₁, r.move lists = .shift lists₁ →
      r.advance ≠ (.ok (), r₁))
    (h : r.readFrom lists = (.ok (some f), r')) :
    r.move lists = .accept f ∧ r.advance = (.ok (), r') := by
  rw [readFrom_eq] at h
  rcases hmove : r.move lists with lists₁ | g | _ | e
  · rw [hmove] at h
    rcases hadv : r.advance with ⟨e | ⟨⟩, r₁⟩
    · rw [hadv] at h
      cases h
    · exact absurd hadv (hstop lists₁ r₁ hmove)
  · rw [hmove] at h
    rcases hadv : r.advance with ⟨e | ⟨⟩, r₁⟩
    · rw [hadv] at h
      cases h
    · rw [hadv] at h
      cases h
      exact ⟨rfl, rfl⟩
  · rw [hmove] at h
    cases h
  · rw [hmove] at h
    cases h

/-- **SOUNDNESS**: the tokens used up for a form spell it. -/
theorem spelled_of_read {r r' : Reader} {f : Form}
    (h : r.read = (.ok (some f), r')) :
    ∃ ws, r.stream = ws ++ r'.stream ∧ Spells ws (Form.lexemes f)
      ∧ r.advances ws.length = (.ok (), r') := by
  obtain ⟨us, lists, r₁, hrun, hstop⟩ := exists_stop [] r
  rw [read, hrun.readFrom] at h
  obtain ⟨hmove, hadv⟩ := accept_of_readFrom hstop h
  obtain ⟨t, looking⟩ := lookahead_of_accept hmove
  -- the tokens before the last spell what the open lists have spent
  obtain ⟨ls, hls, hspent⟩ := hrun.spells
  rw [move, looking] at hmove
  obtain ⟨l, hl, hone⟩ := Move.spent?_next (congrArg Move.spent? hmove)
  refine ⟨us ++ [t], ?_, ?_, ?_⟩
  · rw [hrun.stream, stream_advance looking hadv, List.append_assoc]
    rfl
  · rw [hone, hspent, spent_nil, List.nil_append]
    exact hls.append (spells_singleton.mpr ⟨t, rfl, hl⟩)
  · rw [List.length_append, advances_add hrun.advances]
    exact advances_succ hadv 0

/-- **COMPLETENESS**: over the spelling of a form, all advances but the last
    succeed, and the last one decides. -/
theorem read_of_spelled {r : Reader} {f : Form} {us rest : List Token}
    {t : Token} (hs : Spells (us ++ [t]) (Form.lexemes f))
    (h : r.stream = us ++ t :: rest) :
    r.read =
      match advance ⟨some t, r.source.drop us.length, r.mode⟩ with
      | (.ok (), r') => (.ok (some f), r')
      | (.error e, r') => (.error (.source e), r') := by
  obtain ⟨lists, r₁, hrun, -, hmove⟩ := completes f [] r us t rest hs h
  have hr₁ := hrun.advances.symm.trans (advances_within h)
  obtain rfl := (Prod.mk.inj hr₁).2
  rw [read, hrun.readFrom, readFrom_eq, hmove]
  rfl

/-- From a plain source a spelled form is answered. -/
theorem exists_read {r : Reader} (plain : r.source.Plain) {f : Form}
    {ws rest : List Token} (hs : Spells ws (Form.lexemes f))
    (h : r.stream = ws ++ rest) :
    ∃ r', r.read = (.ok (some f), r') ∧ r'.stream = rest := by
  obtain ⟨us, t, rfl⟩ := hs.exists_last
  obtain ⟨r', hadv, -⟩ := advance_plain
    (r := ⟨some t, r.source.drop us.length, r.mode⟩) (plain.drop us.length)
  have hread : r.read = (.ok (some f), r') := by
    rw [read_of_spelled hs (h.trans (List.append_assoc ..)), hadv]
  refine ⟨r', hread, ?_⟩
  -- what was used up has the length of the spelling, so it is the spelling
  obtain ⟨ws, hstream, hws, -⟩ := spelled_of_read hread
  have hlen := hws.length_eq.trans hs.length_eq.symm
  exact (List.append_inj (hstream.symm.trans h) hlen).2

/-- A stream begins with the spelling of one form at most. -/
theorem form_unique {r : Reader} (plain : r.source.Plain) {f g : Form}
    {us vs : List Token} (hu : us <+: r.stream) (hv : vs <+: r.stream)
    (hf : Spells us (Form.lexemes f)) (hg : Spells vs (Form.lexemes g)) :
    f = g := by
  obtain ⟨urest, hurest⟩ := hu
  obtain ⟨vrest, hvrest⟩ := hv
  obtain ⟨r₁, h₁, -⟩ := exists_read plain hf hurest.symm
  obtain ⟨r₂, h₂, -⟩ := exists_read plain hg hvrest.symm
  have hanswer := (Prod.mk.inj (h₁.symm.trans h₂)).1
  exact Option.some.inj (Except.ok.inj hanswer)

/-! ## Nothing behind the lookahead matters -/

/-- Sources with the same first items deliver the same first tokens. -/
theorem ahead_begins {s₁ s₂ : Source} {n : Nat} {ws : List Token}
    (hitems : s₂.take n = s₁.take n) (hn : ws.length ≤ n)
    (h : ws <+: s₁.ahead) : ws <+: s₂.ahead := by
  induction ws generalizing s₁ s₂ n with
  | nil => exact List.nil_prefix
  | cons w ws ih =>
      obtain ⟨ts, hts⟩ := h
      obtain ⟨rest₁, rfl, hw, hrest⟩ := Source.eq_cons_of_ahead hts.symm
      obtain ⟨n, rfl⟩ : ∃ m, n = m + 1 :=
        ⟨n - 1, by rw [List.length_cons] at hn; omega⟩
      rcases s₂ with _ | ⟨item, rest₂⟩
      · cases hitems
      · rw [List.take_succ_cons, List.take_succ_cons] at hitems
        obtain ⟨rfl, hrest₂⟩ := List.cons.inj hitems
        have hws : ws <+: Source.ahead rest₁ := ⟨ts, hrest.symm⟩
        rw [Source.ahead_of_token hw]
        exact List.cons_prefix_cons.mpr
          ⟨rfl, ih hrest₂ (Nat.le_of_succ_le_succ hn) hws⟩

/-- Readers with the same lookahead and the same first items have the same
    first tokens in front of them. -/
theorem stream_begins {r₁ r₂ : Reader} {n : Nat} {ws : List Token}
    (hlook : r₂.lookahead = r₁.lookahead)
    (hitems : r₂.source.take n = r₁.source.take n) (hn : ws.length ≤ n + 1)
    (h : ws <+: r₁.stream) : ws <+: r₂.stream := by
  cases ws with
  | nil => exact List.nil_prefix
  | cons w ws =>
      obtain ⟨ts, hts⟩ := h
      obtain ⟨looking, hahead⟩ := stream_eq_cons.mp hts.symm
      rw [stream_eq_cons.mpr ⟨hlook.trans looking, rfl⟩]
      refine List.cons_prefix_cons.mpr ⟨rfl, ?_⟩
      exact ahead_begins hitems (Nat.le_of_succ_le_succ hn) ⟨ts, hahead.symm⟩

/-- An advance asks for one item: sources with the same first item deliver the
    same lookahead, and each keeps its own rest unless the input ended. -/
theorem advance_agrees {r₁ r' : Reader} (r₂ : Reader)
    (plain : r₁.source.Plain)
    (hitem : r₂.source.take 1 = r₁.source.take 1)
    (h : r₁.advance = (.ok (), r')) :
    r₂.advance = (.ok (), ⟨r'.lookahead,
      if r'.exhausted then [] else r₂.source.drop 1, r₂.mode⟩) := by
  obtain ⟨ts, hts⟩ := plain
  rw [hts] at hitem
  rcases ts with _ | ⟨t, ts⟩
  · rcases hs : r₂.source with _ | ⟨item, rest₂⟩
    · rw [advance, hts] at h
      cases h
      rw [advance, hs]
      rfl
    · rw [hs] at hitem
      cases hitem
  · rcases hs : r₂.source with _ | ⟨item, rest₂⟩
    · rw [hs] at hitem
      cases hitem
    · rw [hs] at hitem
      obtain ⟨rfl, -⟩ := List.cons.inj hitem
      by_cases ht : t.role = .ending
      · rw [advance_of_ending hts ht] at h
        cases h
        exact advance_of_ending hs ht
      · rw [advance_of_token hts ht] at h
        cases h
        exact advance_of_token hs ht

/-- **NOTHING BEHIND THE LOOKAHEAD MATTERS**: a reader with the same lookahead
    and the same items up to the new lookahead answers the same form, in either
    mode, and keeps what its own source holds behind them. -/
theorem read_agrees {r₁ r₂ r' : Reader} (plain : r₁.source.Plain) {f : Form}
    (h : r₁.read = (.ok (some f), r')) {n : Nat}
    (hn : n = (Form.lexemes f).length) (hlook : r₂.lookahead = r₁.lookahead)
    (hitems : r₂.source.take n = r₁.source.take n) :
    r₂.read = (.ok (some f), ⟨r'.lookahead,
      if r'.exhausted then [] else r₂.source.drop n, r₂.mode⟩) := by
  obtain ⟨ws, hstream, hs, -⟩ := spelled_of_read h
  obtain ⟨us, t, rfl⟩ := hs.exists_last
  obtain rfl : n = us.length + 1 := by
    rw [hn, ← hs.length_eq, List.length_append]
    rfl
  obtain ⟨rest, hrest⟩ := stream_begins hlook hitems
    (by rw [List.length_append]; exact Nat.le_succ _) ⟨r'.stream, hstream.symm⟩
  rw [List.append_assoc] at hstream hrest
  rw [read_of_spelled hs hstream] at h
  rw [read_of_spelled hs hrest.symm]
  have hitem : (r₂.source.drop us.length).take 1
      = (r₁.source.drop us.length).take 1 := by
    rw [List.take_drop, List.take_drop, hitems]
  rcases hadv : advance ⟨some t, r₁.source.drop us.length, r₁.mode⟩
    with ⟨e | ⟨⟩, r₃⟩
  · rw [hadv] at h
    cases h
  · rw [hadv] at h
    cases h
    rw [advance_agrees ⟨some t, r₂.source.drop us.length, r₂.mode⟩
      (plain.drop us.length) hitem hadv, List.drop_drop]

/-! ## Reached readers -/

/-- **THE NEXT FORM**: over tokens alone, a reader that is reached answers a
    form exactly where its stream begins with the spelling of the form, and
    there is one such form at most.  It has then looked one item further for
    each lexeme, stands in front of the first token behind the spelling, and
    would have answered the same had anything else stood behind that token. -/
theorem read_form_iff {tokens : List Token} {s : Session}
    (hs : s.Reached (.ofTokens tokens)) :
    (∀ f, (∃ r', s.reader.read = (.ok (some f), r'))
      ↔ ∃ ws, ws <+: s.reader.stream ∧ Spells ws (Form.lexemes f)) ∧
    (∀ f g us vs, us <+: s.reader.stream → vs <+: s.reader.stream →
      Spells us (Form.lexemes f) → Spells vs (Form.lexemes g) → f = g) ∧
    ∀ f r' n, s.reader.read = (.ok (some f), r') →
      n = (Form.lexemes f).length →
      s.reader.advances n = (.ok (), r') ∧
      r'.lookahead = s.reader.stream[n]? ∧
      r'.source = (if r'.exhausted then [] else s.reader.source.drop n) ∧
      ∀ r₂ : Reader, r₂.lookahead = s.reader.lookahead →
        r₂.source.take n = s.reader.source.take n →
        r₂.read = (.ok (some f), ⟨r'.lookahead,
          if r'.exhausted then [] else r₂.source.drop n, r₂.mode⟩) := by
  have plain := plain_of_reached hs
  refine ⟨?_, ?_, ?_⟩
  · intro f
    constructor
    · rintro ⟨r', h⟩
      obtain ⟨ws, hstream, hws, -⟩ := spelled_of_read h
      exact ⟨ws, ⟨r'.stream, hstream.symm⟩, hws⟩
    · rintro ⟨ws, ⟨rest, hrest⟩, hws⟩
      obtain ⟨r', h, -⟩ := exists_read plain hws hrest.symm
      exact ⟨r', h⟩
  · intro f g us vs hu hv hf hg
    exact form_unique plain hu hv hf hg
  · intro f r' n h hn
    obtain ⟨ws, hstream, hws, hadv⟩ := spelled_of_read h
    have hlen : ws.length = n := hws.length_eq.trans hn.symm
    refine ⟨hlen ▸ hadv, ?_, ?_, ?_⟩
    · rw [hstream, ← hlen, List.getElem?_append_right (Nat.le_refl _),
        Nat.sub_self, ← List.head?_eq_getElem?, head?_stream]
    · have hself := read_agrees plain h hn rfl rfl
      rw [h] at hself
      exact congrArg Reader.source (Prod.mk.inj hself).2
    · intro r₂ hlook hitems
      exact read_agrees plain h hn hlook hitems

/-- Of `(f (g)) 7`, an end and a stray parenthesis, the call is answered, the
    numeral is looked at and the rest is left. -/
theorem read_form_iff_nested_call :
    let f : Form := .call (Form.identifier (.of "f"))
      [.call (Form.identifier (.of "g")) []]
    let tokens : List Token :=
      [.make (.of "LPAREN") [] 1 1, .make (.of "IDENT") (.of "f") 1 2,
        .make (.of "LPAREN") [] 1 4, .make (.of "IDENT") (.of "g") 1 5,
        .make (.of "RPAREN") [] 1 6, .make (.of "RPAREN") [] 1 7,
        .make (.of "NUMBER") (.of "7") 1 9, .make (.of "EOF") [] 1 10,
        .make (.of "RPAREN") [] 2 1]
    let r : Reader := ⟨tokens.head?, .ofTokens (tokens.drop 1), .strict⟩
    Session.Reached (.ofTokens tokens) (.ofReader r) ∧
      ∃ r', r.read = (.ok (some f), r') ∧ r'.lookahead = tokens[6]? ∧
        r'.source = .ofTokens (tokens.drop 7) := by
  intro f tokens r
  have hs : Session.Reached (.ofTokens tokens) (.ofReader r) :=
    .fresh .strict rfl
  obtain ⟨hiff, -, hafter⟩ := read_form_iff hs
  obtain ⟨r', hr⟩ := (hiff f).mpr ⟨tokens.take 6, by decide, by decide⟩
  obtain ⟨-, hlook, hsource, -⟩ := hafter f r' 6 hr rfl
  refine ⟨hs, r', hr, hlook, ?_⟩
  rw [hsource, exhausted, hlook]
  rfl

end Reader

end FormReader
