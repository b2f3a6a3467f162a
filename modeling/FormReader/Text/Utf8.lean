import FormReader.Text.Basic

/-! # UTF-8 — texts as octets

    `decode` reads octets strictly.  It takes one octet at a time and remembers,
    inside a sequence, how many continuation octets are owed and the bounds of
    the next one.  The bounds of the first continuation octet depend on the
    lead; they exclude overlong forms, surrogates and everything above U+10FFFF.
    An error covers the longest run of octets that could still begin a sequence,
    or the single octet that can begin none.

    `encode` writes a text without surrogates, and otherwise names the first run
    of them.  `encodeName` writes the name of a file: names are octets that need
    not be UTF-8, and in the text of a name an octet above `0x7F` that belongs
    to no character is a surrogate of its own.  `escapeSurrogates` prepares a
    text for the lenient channel of messages: it spells a surrogate as an
    escape. -/

namespace FormReader

/-- A sequence of octets. -/
abbrev Octets := List UInt8

namespace Utf8

/-! ## Reading -/

/-- Why octets are no UTF-8. -/
inductive Flaw where
  /-- An octet that begins no sequence. -/
  | invalidStart
  /-- A sequence broken off by an octet that does not continue it. -/
  | invalidContinuation
  /-- A sequence broken off by the end. -/
  | unexpectedEnd
  deriving DecidableEq

/-- The octets that cannot be read: `width` of them from `offset` on, `first` being the first. -/
structure DecodeError where
  flaw : Flaw
  offset : Nat
  width : Nat
  first : UInt8
  deriving DecidableEq

/-- A sequence whose last octets are still to come. -/
structure Pending where
  /-- The octet that began it. -/
  lead : UInt8
  /-- The octets read so far. -/
  width : Nat
  /-- The bits read so far. -/
  value : Nat
  /-- The continuation octets still owed, but for one. -/
  owed : Nat
  /-- The least next octet. -/
  low : Nat
  /-- The greatest next octet. -/
  high : Nat

/-- What an octet begins. -/
inductive Beginning where
  | single (c : CodePoint)
  | sequence (p : Pending)
  | nothing

/-- The bounds of the octet after a given lead. -/
def secondBounds (lead : Nat) : Nat × Nat :=
  if lead = 0xE0 then (0xA0, 0xBF)
  else if lead = 0xED then (0x80, 0x9F)
  else if lead = 0xF0 then (0x90, 0xBF)
  else if lead = 0xF4 then (0x80, 0x8F)
  else (0x80, 0xBF)

/-- What an octet begins when no sequence is open. -/
def begin (b : UInt8) : Beginning :=
  let n := b.toNat
  let (low, high) := secondBounds n
  if n < 0x80 then .single (.ofNat n)
  else if n < 0xC2 then .nothing
  else if n < 0xE0 then .sequence ⟨b, 1, n - 0xC0, 0, low, high⟩
  else if n < 0xF0 then .sequence ⟨b, 1, n - 0xE0, 1, low, high⟩
  else if n < 0xF5 then .sequence ⟨b, 1, n - 0xF0, 2, low, high⟩
  else .nothing

/-- Reads on at an offset, inside an open sequence or between sequences, with the code points read
    so far in reverse. -/
def decodeFrom : (offset : Nat) → Option Pending → (done : Text) → Octets →
    Except DecodeError Text
  | _, none, done, [] => .ok done.reverse
  | offset, some p, _, [] => .error ⟨.unexpectedEnd, offset - p.width, p.width, p.lead⟩
  | offset, none, done, b :: rest =>
    match begin b with
    | .single c => decodeFrom (offset + 1) none (c :: done) rest
    | .sequence p => decodeFrom (offset + 1) (some p) done rest
    | .nothing => .error ⟨.invalidStart, offset, 1, b⟩
  | offset, some p, done, b :: rest =>
    if p.low ≤ b.toNat && b.toNat ≤ p.high then
      let value := p.value * 0x40 + (b.toNat - 0x80)
      match p.owed with
      | 0 => decodeFrom (offset + 1) none (.ofNat value :: done) rest
      | owed + 1 =>
        decodeFrom (offset + 1) (some ⟨p.lead, p.width + 1, value, owed, 0x80, 0xBF⟩) done rest
    else .error ⟨.invalidContinuation, offset - p.width, p.width, p.lead⟩

/-- The text that octets spell. -/
def decode (octets : Octets) : Except DecodeError Text := decodeFrom 0 none [] octets

/-! ## Writing -/

/-- The octets of one code point. -/
def octetsOf (c : CodePoint) : Octets :=
  let n := c.val
  if n < 0x80 then [n.toUInt8]
  else if n < 0x800 then [(0xC0 + n / 0x40).toUInt8, (0x80 + n % 0x40).toUInt8]
  else if n < 0x10000 then
    [(0xE0 + n / 0x1000).toUInt8, (0x80 + n / 0x40 % 0x40).toUInt8, (0x80 + n % 0x40).toUInt8]
  else
    [(0xF0 + n / 0x40000).toUInt8, (0x80 + n / 0x1000 % 0x40).toUInt8,
      (0x80 + n / 0x40 % 0x40).toUInt8, (0x80 + n % 0x40).toUInt8]

/-- The octets of a string. -/
def ofString (s : String) : Octets := (Text.of s).flatMap octetsOf

/-- The first run of surrogates that cannot be written: its offset, its length and its first code
    point. -/
structure EncodeError where
  offset : Nat
  length : Nat
  first : CodePoint
  deriving DecidableEq

/-- The octets of a text in which every code point has given ones, unless it is refused. The error
    covers the first code point that is refused and the surrogates that follow it. -/
def encodeBy (refused : CodePoint → Bool) (octets : CodePoint → Octets) (t : Text) :
    Except EncodeError Octets :=
  let clean := t.takeWhile (!refused ·)
  match t.dropWhile (!refused ·) with
  | [] => .ok (t.flatMap octets)
  | c :: rest =>
    .error ⟨clean.length, 1 + (rest.takeWhile (·.isSurrogate)).length, c⟩

/-- The octets of a text, if no surrogate occurs in it. -/
def encode : Text → Except EncodeError Octets := encodeBy (·.isSurrogate) octetsOf

/-- The octets of a code point in a name. -/
def nameOctetsOf (c : CodePoint) : Octets :=
  if c.isStrayOctet then [(c.val - 0xDC00).toUInt8] else octetsOf c

/-- The octets of a name, if every surrogate in it stands for one. -/
def encodeName : Text → Except EncodeError Octets :=
  encodeBy (fun c => c.isSurrogate && !c.isStrayOctet) nameOctetsOf

/-- A surrogate spelled as an escape, any other code point itself. -/
def escaped (c : CodePoint) : Text :=
  if c.isSurrogate then .of "\\u" ++ .hex 4 c.val else [c]

/-- The text with its surrogates spelled as escapes. -/
def escapeSurrogates (t : Text) : Text := t.flatMap escaped

/-! ## Messages -/

/-- The last offset of a run, and whether the run is longer than one. -/
private def run (offset length : Nat) (one many : Text) : Text :=
  if length = 1 then one ++ .of " in position " ++ .ofNat offset
  else many ++ .of " in position " ++ .ofNat offset ++ .of "-" ++ .ofNat (offset + length - 1)

/-- The reason given for a flaw. -/
def Flaw.describe : Flaw → Text
  | .invalidStart => .of "invalid start byte"
  | .invalidContinuation => .of "invalid continuation byte"
  | .unexpectedEnd => .of "unexpected end of data"

/-- The message of a failed reading. -/
def DecodeError.message (e : DecodeError) : Text :=
  .of "'utf-8' codec can't decode " ++
    run e.offset e.width (.of "byte 0x" ++ .hex 2 e.first.toNat) (.of "bytes") ++
    .of ": " ++ e.flaw.describe

/-- The message of a failed writing. -/
def EncodeError.message (e : EncodeError) : Text :=
  .of "'utf-8' codec can't encode " ++
    run e.offset e.length (.of "character '" ++ escaped e.first ++ .of "'") (.of "characters") ++
    .of ": surrogates not allowed"

end Utf8

end FormReader
