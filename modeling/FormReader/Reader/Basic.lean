import FormReader.Form.Basic
import FormReader.Token.Source

/-! # The reader — one token of lookahead over a source

    A reader holds the token it looks at, the source behind that token and a
    mode.  It looks at nothing once its input is exhausted.  A token of role
    `ending` counts as exhaustion and drops the source for good; at a pause the
    source is kept, and a failure leaves the lookahead as it was.

    `Reader.advance` looks at the next token of the source.  `Reader.pending`
    counts the lookahead and the items of the source, which every successful
    move of the reader makes fewer. -/

namespace FormReader

/-- How a reader takes a token that cannot begin a form, and a list that was opened last before the
    input ends. -/
inductive Mode where
  /-- As an error. -/
  | strict
  /-- As the absence of a form. -/
  | lenient
  deriving DecidableEq

/-- A reader of forms. -/
structure Reader where
  lookahead : Option Token
  source : Source
  mode : Mode
  deriving DecidableEq

namespace Reader

/-- The reader has nothing left to look at. -/
def exhausted (r : Reader) : Bool := r.lookahead.isNone

/-- Looks at what a source delivered. -/
def look (r : Reader) (delivered : Option Token) (source : Source) : Reader :=
  match delivered with
  | none => { r with lookahead := none, source := source }
  | some t =>
    if t.role = .ending then { r with lookahead := none, source := [] }
    else { r with lookahead := some t, source := source }

/-- Looks at the next token. A failure of the source uses up the item and leaves the lookahead. -/
def advance (r : Reader) : Except SourceFailure Unit × Reader :=
  match r.source.pull with
  | (.ok delivered, source) => (.ok (), r.look delivered source)
  | (.error e, source) => (.error e, { r with source := source })

/-- A reader that looks at the first token of a source. -/
def ofSource (source : Source) (mode : Mode) : Except SourceFailure Unit × Reader :=
  advance ⟨none, source, mode⟩

/-- The tokens and items not yet used up. -/
def pending (r : Reader) : Nat := r.lookahead.toList.length + r.source.length

/-- Advancing behind a token uses up the token. -/
theorem pending_advance {r : Reader} {t : Token} (looking : r.lookahead = some t)
    {r' : Reader} (h : r.advance = (.ok (), r')) : r'.pending < r.pending := by
  obtain ⟨lookahead, source, mode⟩ := r
  subst looking
  cases source with
  | nil =>
    simp only [advance, Source.pull, look, Prod.mk.injEq, true_and] at h
    subst h
    simp [pending]
  | cons item rest =>
    cases item with
    | token t' =>
      simp only [advance, Source.pull, look, Prod.mk.injEq, true_and] at h
      subst h
      split
      · show 0 < 1 + (rest.length + 1)
        omega
      · show 1 + rest.length < 1 + (rest.length + 1)
        omega
    | pause =>
      simp only [advance, Source.pull, look, Prod.mk.injEq, true_and] at h
      subst h
      simp [pending]
      omega
    | failure message => simp [advance, Source.pull] at h

end Reader

end FormReader
