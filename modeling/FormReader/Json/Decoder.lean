import FormReader.Json.Scanner
import FormReader.Text.Line

/-! # Decoding JSON — a machine with open containers

    The decoder keeps the containers that are still open on a stack of its own,
    so nesting costs no call stack.  It is always in one of three phases: a
    value is due, the name of a member is due, or a value has been read and is
    handed to the innermost open container.  Every move takes at least one code
    point, which is why the machine stops.

    `decode` answers the value, or why and where the text is no JSON.  A text
    that begins with a byte order mark is refused before anything else. -/

namespace FormReader

namespace Json

/-- A container that is still open, with what it holds so far in reverse. -/
inductive Frame where
  | array (before : List Json)
  /-- An object whose member `name` awaits its value. -/
  | object (before : Members) (name : Text)

/-- What the decoder is about to do. -/
inductive Phase where
  /-- Read a value. -/
  | value
  /-- Read the name of the next member of an object. -/
  | name (before : Members)
  /-- Hand a value to the innermost open container. -/
  | complete (v : Json)

/-- Decodes on in a phase, with containers open, from a text whose leading blanks are taken unless
    a value has just been completed. -/
def decodeFrom (phase : Phase) (stack : List Frame) (t : Text) : Except Fault Json :=
  match phase with
  | .value =>
    match t with
    | [] => .error (.malformed .expectingValue t)
    | c :: rest =>
      if c = '\x22' then
        match _h : scanString rest with
        | .ok (text, behind) => decodeFrom (.complete (.string text)) stack behind
        | .error fault => .error fault
      else if c = '\x7b' then
        match _h : skipBlanks rest with
        | [] => .error (.malformed .expectingName [])
        | d :: behind =>
          if d = '\x7d' then decodeFrom (.complete (.object [])) stack behind
          else decodeFrom (.name []) stack (d :: behind)
      else if c = '[' then
        match _h : skipBlanks rest with
        | [] => .error (.malformed .expectingValue [])
        | d :: behind =>
          if d = ']' then decodeFrom (.complete (.array [])) stack behind
          else decodeFrom .value (.array [] :: stack) (d :: behind)
      else
        match _h : scanConstant? (c :: rest) with
        | some (v, behind) => decodeFrom (.complete v) stack behind
        | none =>
          match _h : scanNumeral? (c :: rest) with
          | none => .error (.malformed .expectingValue (c :: rest))
          | some (n, behind) =>
            match n.value with
            | .ok v => decodeFrom (.complete v) stack behind
            | .error fault => .error fault
  | .name before =>
    match t with
    | [] => .error (.malformed .expectingName [])
    | c :: rest =>
      if c = '\x22' then
        match _h : scanString rest with
        | .error fault => .error fault
        | .ok (name, behind) =>
          match _h : skipBlanks behind with
          | [] => .error (.malformed .expectingColon [])
          | d :: more =>
            if d = ':' then decodeFrom .value (.object before name :: stack) (skipBlanks more)
            else .error (.malformed .expectingColon (d :: more))
      else .error (.malformed .expectingName (c :: rest))
  | .complete v =>
    match _h : skipBlanks t with
    | [] =>
      match stack with
      | [] => .ok v
      | _ :: _ => .error (.malformed .expectingComma [])
    | c :: rest =>
      match stack with
      | [] => .error (.malformed .extraData (c :: rest))
      | .array before :: stack =>
        if c = ']' then decodeFrom (.complete (.array (v :: before).reverse)) stack rest
        else if c = ',' then decodeFrom .value (.array (v :: before) :: stack) (skipBlanks rest)
        else .error (.malformed .expectingComma (c :: rest))
      | .object before name :: stack =>
        let members := (name, v) :: before
        if c = '\x7d' then
          decodeFrom (.complete (.object (Members.settled members.reverse))) stack rest
        else if c = ',' then decodeFrom (.name members) stack (skipBlanks rest)
        else .error (.malformed .expectingComma (c :: rest))
termination_by t.length
decreasing_by
  all_goals try rw [List.length_cons]
  · have := scanString_shorter _h; omega
  · have := skipBlanks_shorter _h; omega
  · have := skipBlanks_shorter _h; simp only [List.length_cons]; omega
  · have := skipBlanks_shorter _h; omega
  · have := skipBlanks_shorter _h; simp only [List.length_cons]; omega
  · exact scanConstant?_shorter _h
  · exact scanNumeral?_shorter _h
  · have := scanString_shorter ‹_›
    have := skipBlanks_shorter _h
    have := skipBlanks_length_le more
    omega
  · exact skipBlanks_shorter _h
  · have := skipBlanks_shorter _h; have := skipBlanks_length_le rest; omega
  · exact skipBlanks_shorter _h
  · have := skipBlanks_shorter _h; have := skipBlanks_length_le rest; omega

/-- Why a text is not decoded. -/
inductive DecodeError where
  | malformed (flaw : Flaw) (position : Position)
  | oversizedInteger (digits : Nat)
  deriving DecidableEq

/-- The error of a fault in a text. -/
def Fault.locate (t : Text) : Fault → DecodeError
  | .malformed flaw rest => .malformed flaw (.behind (t.take (t.length - rest.length)))
  | .oversizedInteger digits => .oversizedInteger digits

/-- The value that a text spells. -/
def decode (t : Text) : Except DecodeError Json :=
  let mark := CodePoint.ofNat 0xFEFF
  if t.head? = some mark then .error (.malformed .byteOrderMark .start)
  else (decodeFrom .value [] (skipBlanks t)).mapError (·.locate t)

/-! ## Messages -/

/-- What a flaw is called. -/
def Flaw.describe : Flaw → Text
  | .byteOrderMark => .of "Unexpected UTF-8 BOM (decode using utf-8-sig)"
  | .expectingValue => .of "Expecting value"
  | .expectingName => .of "Expecting property name enclosed in double quotes"
  | .expectingColon => .of "Expecting ':' delimiter"
  | .expectingComma => .of "Expecting ',' delimiter"
  | .extraData => .of "Extra data"
  | .unterminatedString => .of "Unterminated string starting at"
  | .controlCharacter => .of "Invalid control character at"
  | .badEscape => .of "Invalid \\escape"
  | .badUnicodeEscape => .of "Invalid \\uXXXX escape"

/-- The message of a failed decoding. -/
def DecodeError.message : DecodeError → Text
  | .malformed flaw position => flaw.describe ++ .of ": " ++ position.describe
  | .oversizedInteger digits =>
    .of "Exceeds the limit (" ++ .ofNat integerDigitLimit ++
      .of " digits) for integer string conversion: value has " ++ .ofNat digits ++
      .of " digits; use sys.set_int_max_str_digits() to increase the limit"

end Json

end FormReader
