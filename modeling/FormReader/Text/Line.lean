import FormReader.Text.Basic

/-! # Lines — where in a text, and how lines end

    A `Position` is the line, the column and the offset of a place in a text;
    only a line feed ends a line.

    Files and the standard input are read with all their line ends made line
    feeds (`Text.normalizeLineEnds`): a carriage return, alone or before a line
    feed, becomes one line feed.  A text given directly is not. -/

namespace FormReader

/-- A place in a text: line and column count from one, the offset from zero. -/
structure Position where
  line : Nat
  column : Nat
  offset : Nat
  deriving DecidableEq

namespace Position

/-- The beginning of every text. -/
def start : Position := ⟨1, 1, 0⟩

/-- The place behind a code point. -/
def after (p : Position) (c : CodePoint) : Position :=
  if c = '\n' then ⟨p.line + 1, 1, p.offset + 1⟩ else ⟨p.line, p.column + 1, p.offset + 1⟩

/-- The place behind a text. -/
def behind (t : Text) : Position := t.foldl after start

theorem offset_foldl_after (t : Text) (p : Position) :
    (t.foldl after p).offset = p.offset + t.length := by
  induction t generalizing p with
  | nil => rfl
  | cons c t ih =>
    simp only [List.foldl_cons, ih, List.length_cons, after]
    split <;> simp <;> omega

/-- The offset of a place is the number of code points before it. -/
@[simp] theorem offset_behind (t : Text) : (behind t).offset = t.length := by
  simp [behind, offset_foldl_after, start]

/-- How messages name a place. -/
def describe (p : Position) : Text :=
  .of "line " ++ .ofNat p.line ++ .of " column " ++ .ofNat p.column ++
    .of " (char " ++ .ofNat p.offset ++ .of ")"

end Position

namespace Text

/-- The code points in reverse, each line end a line feed; `returned` says that the last code point
    seen was a carriage return, already written as a line feed. -/
def normalizeLineEndsOnto : (returned : Bool) → (done : Text) → Text → Text
  | _, done, [] => done
  | returned, done, c :: rest =>
    if c = '\r' then normalizeLineEndsOnto true (('\n' : CodePoint) :: done) rest
    else if returned && c = '\n' then normalizeLineEndsOnto false done rest
    else normalizeLineEndsOnto false (c :: done) rest

/-- The text with every carriage return, and every carriage return and line feed, made one line
    feed. -/
def normalizeLineEnds (t : Text) : Text := (normalizeLineEndsOnto false [] t).reverse

end Text

end FormReader
