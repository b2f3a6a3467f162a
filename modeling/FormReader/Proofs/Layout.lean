import FormReader.Proofs.Simulation
import FormReader.Reader.Diagnostic

/-! # Layout — what reading never looks at

    With every token a scanner hands over where it stood, and with a token that
    is no atom the text it was written with.  That is LAYOUT.  Two sources MATCH
    if they differ in layout only, item by item (`Item.Matches`).

    Beside the reader of the one stands the reader of the other, at the same
    place of its source (`Reader.SamePlace`).  Tokens at the same place mean the
    same, so every advance of the one is followed by the other
    (`SamePlace.follows`) and the relation is a simulation.  What a run shows of
    the one source is therefore shown of the other; and where a token is shown,
    as the lookahead or in an error, it is the token that stands at the same
    place, as it stands there (`run_matching`). -/

namespace FormReader

/-! ## Sources that match -/

/-- The tokens are of one kind and, if they are atoms, of one text. -/
structure Token.Matches (t u : Token) : Prop where
  kind : u.kind = t.kind
  text : t.role = .numeral ∨ t.role = .identifier → u.text = t.text

/-- The items are tokens that match, both pauses, or the same failure. -/
inductive Item.Matches : Item → Item → Prop
  | token {t u : Token} (h : t.Matches u) : Matches (.token t) (.token u)
  | pause : Matches .pause .pause
  | failure (message : Text) : Matches (.failure message) (.failure message)

theorem Token.Matches.role {t u : Token} (h : t.Matches u) : u.role = t.role :=
  congrArg Role.ofKind h.kind

/-- Tokens that match stand for the same lexeme, or for none. -/
theorem Token.Matches.lexeme {t u : Token} (h : t.Matches u) :
    u.lexeme? = t.lexeme? := by
  rw [lexeme?, lexeme?, h.role]
  cases hrole : t.role with
  | numeral => rw [h.text (Or.inl hrole)]
  | identifier => rw [h.text (Or.inr hrole)]
  | opening => rfl
  | closing => rfl
  | ending => rfl
  | other => rfl

namespace Source

variable {s s' : Source} {t u : Token} {n : Nat}

/-- The tokens stand at the same place of the sources. -/
def Counterparts (s s' : Source) (t u : Token) : Prop :=
  ∃ i : Nat, s[i]? = some (.token t) ∧ s'[i]? = some (.token u)

theorem Counterparts.matches (hs : List.Forall₂ Item.Matches s s')
    (h : Counterparts s s' t u) : t.Matches u := by
  obtain ⟨i, ht, hu⟩ := h
  obtain ⟨hi, ht⟩ := List.getElem?_eq_some_iff.mp ht
  obtain ⟨hi', hu⟩ := List.getElem?_eq_some_iff.mp hu
  have hitems : Item.Matches s[i] s'[i] := hs.get hi hi'
  rw [ht, hu] at hitems
  cases hitems with
  | token h => exact h

/-- What is left behind `n` items begins with the next one. -/
theorem eq_cons_of_drop {item : Item} {rest : Source}
    (h : item :: rest = s.drop n) :
    s[n]? = some item ∧ rest = s.drop (n + 1) := by
  constructor
  · rw [← List.head?_drop, ← h]
    rfl
  · rw [← List.tail_drop, ← h]
    rfl

end Source

/-! ## Readers at the same place -/

namespace Reader

variable {s s' : Source} {r r' : Reader}

/-- The readers look at tokens that stand at the same place, and have used up
    equally much of their sources. -/
structure SamePlace (s s' : Source) (r r' : Reader) : Prop where
  lookahead : Option.Rel (s.Counterparts s') r.lookahead r'.lookahead
  mode : r'.mode = r.mode
  sources : ∃ n, r.source = s.drop n ∧ r'.source = s'.drop n

/-- **EVERY ADVANCE IS FOLLOWED**, by one over an item that matches. -/
theorem SamePlace.follows (hs : List.Forall₂ Item.Matches s s')
    (h : SamePlace s s' r r') : Follows (SamePlace s s') r r' := by
  obtain ⟨lookahead, source, mode⟩ := r
  obtain ⟨lookahead', source', mode'⟩ := r'
  obtain ⟨hlook, rfl, n, hsource, hsource'⟩ := h
  dsimp only at hlook hsource hsource'
  have hrest := List.forall₂_drop n hs
  rw [← hsource, ← hsource'] at hrest
  cases hrest with
  | nil => exact ⟨rfl, .none, rfl, n, hsource, hsource'⟩
  | cons hitem _ =>
      obtain ⟨hhere, hbehind⟩ := Source.eq_cons_of_drop hsource
      obtain ⟨hhere', hbehind'⟩ := Source.eq_cons_of_drop hsource'
      cases hitem with
      | @token t u hmatches =>
          by_cases ht : t.role = .ending
          · -- both sources are dropped, that is, used up to their end
            have hu : u.role = .ending := hmatches.role.trans ht
            rw [Follows, advance_of_ending rfl hu, advance_of_ending rfl ht]
            refine ⟨rfl, .none, rfl, s.length, List.drop_length.symm, ?_⟩
            rw [hs.length_eq]
            exact List.drop_length.symm
          · have hu : u.role ≠ .ending := mt hmatches.role.symm.trans ht
            rw [Follows, advance_of_token rfl hu, advance_of_token rfl ht]
            exact ⟨rfl, .some ⟨n, hhere, hhere'⟩, rfl, n + 1, hbehind, hbehind'⟩
      | pause => exact ⟨rfl, .none, rfl, n + 1, hbehind, hbehind'⟩
      | failure message => exact ⟨rfl, hlook, rfl, n + 1, hbehind, hbehind'⟩

theorem SamePlace.simulation (hs : List.Forall₂ Item.Matches s s') :
    Simulation (s.Counterparts s') (SamePlace s s') where
  meaning := fun h => (h.matches hs).lexeme
  lookahead := SamePlace.lookahead
  mode := SamePlace.mode
  setMode := fun _ h => ⟨h.lookahead, rfl, h.sources⟩
  advance := fun h _ => h.follows hs

end Reader

/-! ## What is said about a token -/

/-- What is shown of an error, with the text of a token in it left out. -/
def ReadError.outline : ReadError → Text
  | .unexpected t => display (.unexpected { t with text := [] })
  | e => e.display

/-- Errors about tokens of one kind say the same but for the text of the token. -/
theorem ReadError.Alike.outline_eq {T : Token → Token → Prop} {e e' : ReadError}
    (kinds : ∀ {t u}, T t u → u.kind = t.kind) (h : ReadError.Alike T e e') :
    e'.outline = e.outline := by
  cases h with
  | unmatched htoken => rfl
  | @unexpected t u htoken =>
      show Text.of "Syntax error: " ++ unexpectedMessage { u with text := [] }
        = Text.of "Syntax error: " ++ unexpectedMessage { t with text := [] }
      rw [unexpectedMessage, unexpectedMessage, Token.describe, Token.describe,
        kinds htoken]
  | source failure => rfl

namespace Session

/-- The steps differ in layout only: they reply the same, or errors of one sort
    that say the same but for the text of a token; every token that is shown has
    its counterpart in the other source, and equally much of both is left. -/
structure DifferInLayout (s s' : Source) (step step' : Reply × Session) :
    Prop where
  reply : Reply.Alike (s.Counterparts s') step.1 step'.1
  outline : ∀ e e', step.1 = .failed e → step'.1 = .failed e' →
    e'.outline = e.outline
  lookahead : Option.Rel (s.Counterparts s') step.2.reader.lookahead
    step'.2.reader.lookahead
  sources : ∃ n, step.2.reader.source = s.drop n ∧
    step'.2.reader.source = s'.drop n

theorem StepsAlike.differInLayout {s s' : Source} {step step' : Reply × Session}
    (hs : List.Forall₂ Item.Matches s s')
    (h : StepsAlike (s.Counterparts s') (Reader.SamePlace s s') step step') :
    DifferInLayout s s' step step' := by
  obtain ⟨hreply, hsession⟩ := h
  refine ⟨hreply, ?_, hsession.reader.lookahead, hsession.reader.sources⟩
  intro e e' he he'
  rw [he, he'] at hreply
  cases hreply with
  | failed halike => exact halike.outline_eq fun hplace => (hplace.matches hs).kind

/-- **LAYOUT DOES NOT MATTER**: of sources that match, the readers begin alike,
    and whatever is done with both, step by step they reply the same forms,
    their absence, or errors of one sort that say the same but for the text of a
    token.  The tokens that are looked at, answered or blamed are those that
    stand at the same place of their sources, each as it stands there. -/
theorem run_matching {source source' : Source}
    (h : List.Forall₂ Item.Matches source source') (mode : Mode) :
    let first := Reader.ofSource source mode
    let second := Reader.ofSource source' mode
    second.1 = first.1 ∧
    Option.Rel (source.Counterparts source') first.2.lookahead
      second.2.lookahead ∧
    ∀ actions : List Action, (∀ action ∈ actions, action ≠ .drain) →
      List.Forall₂ (DifferInLayout source source')
        ((ofReader first.2).run actions).1 ((ofReader second.2).run actions).1 := by
  intro first second
  have hfresh : Reader.SamePlace source source' ⟨none, source, mode⟩
      ⟨none, source', mode⟩ := ⟨.none, rfl, 0, rfl, rfl⟩
  obtain ⟨hsuccess, hplace⟩ := hfresh.follows h
  refine ⟨hsuccess, hplace.lookahead, ?_⟩
  intro actions ha
  have hrelated : Related (Reader.SamePlace source source') (ofReader first.2)
      (ofReader second.2) := ⟨hplace, rfl⟩
  have hfollowed : ∀ action ∈ actions,
      Followed (Reader.SamePlace source source') action :=
    fun action haction => .inr ⟨ha action haction, fun hr => hr.follows h⟩
  obtain ⟨hsteps, -⟩ :=
    run_alike (Reader.SamePlace.simulation h) hrelated hfollowed
  exact hsteps.imp fun _ _ hstep => hstep.differInLayout h

/-- A list that the source loses, the identifier left over from it and a token
    of no meaning, in two layouts: the last reading blames either mark. -/
theorem run_matching_marks :
    let mark : Token := .make (.of "QUOTE") (.of "'") 1 4
    let mark' : Token := .make (.of "QUOTE") (.of "quote") 7 0
    let source : Source :=
      [.token (.make (.of "LPAREN") [] 1 1),
        .token (.make (.of "IDENT") (.of "f") 1 2), .failure (.of "lost"),
        .token mark]
    let source' : Source :=
      [.token (.make (.of "LPAREN") (.of "[") 0 0),
        .token (.make (.of "IDENT") (.of "f") 5 (-2)), .failure (.of "lost"),
        .token mark']
    let actions : List Action := [.openWalk, .next 0, .read, .read]
    List.Forall₂ Item.Matches source source' ∧
      (∀ action ∈ actions, action ≠ .drain) ∧
      ∃ r r', Reader.ofSource source .strict = (.ok (), r) ∧
        Reader.ofSource source' .strict = (.ok (), r') ∧
        List.Forall₂ (DifferInLayout source source')
          ((ofReader r).run actions).1 ((ofReader r').run actions).1 ∧
        ((ofReader r).run actions).2.reader.read.1 = .error (.unexpected mark) ∧
        ((ofReader r').run actions).2.reader.read.1
          = .error (.unexpected mark') := by
  intro mark mark' source source' actions
  have hmatch : List.Forall₂ Item.Matches source source' :=
    .cons (.token ⟨rfl, by decide⟩) (.cons (.token ⟨rfl, by decide⟩)
      (.cons (.failure _) (.cons (.token ⟨rfl, by decide⟩) .nil)))
  have ha : ∀ action ∈ actions, action ≠ .drain := by simp [actions]
  obtain ⟨-, -, hrun⟩ := run_matching hmatch .strict
  exact ⟨hmatch, ha, _, _, rfl, rfl, hrun actions ha, by decide +kernel,
    by decide +kernel⟩

end Session

end FormReader
