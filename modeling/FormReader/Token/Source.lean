import FormReader.Token.Basic

/-! # Token sources — items delivered one at a time

    A source delivers its items in order and never looks back.  An item is a
    token, a pause, at which the source says once that it is exhausted and then
    goes on, or a failure, which it reports once.  Behind its last item a source
    is exhausted for good. -/

namespace FormReader

/-- What a source delivers next. -/
inductive Item where
  | token (t : Token)
  | pause
  | failure (message : Text)
  deriving DecidableEq

/-- A source: the items still to come. -/
abbrev Source := List Item

/-- A failure that a source reported. -/
structure SourceFailure where
  message : Text
  deriving DecidableEq

namespace Source

/-- The source that delivers given tokens. -/
def ofTokens (tokens : List Token) : Source := tokens.map .token

/-- Asks for the next token: none at a pause and at the end. -/
def pull : Source → Except SourceFailure (Option Token) × Source
  | [] => (.ok none, [])
  | .token t :: rest => (.ok (some t), rest)
  | .pause :: rest => (.ok none, rest)
  | .failure message :: rest => (.error ⟨message⟩, rest)

/-- Takes all tokens up to a pause or the end, the ones before in reverse. -/
def drainOnto (done : List Token) : Source → Except SourceFailure (List Token) × Source
  | [] => (.ok done.reverse, [])
  | .token t :: rest => drainOnto (t :: done) rest
  | .pause :: rest => (.ok done.reverse, rest)
  | .failure message :: rest => (.error ⟨message⟩, rest)

/-- Takes all tokens up to a pause or the end. A failure loses the tokens before it. -/
def drain (s : Source) : Except SourceFailure (List Token) × Source := s.drainOnto []

end Source

end FormReader
