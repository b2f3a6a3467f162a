import FormReader.Json.Basic
import FormReader.Number.Shortest

/-! # Encoding JSON — the plain encoder

    By recursion on the value.  The text is ASCII: every code point outside the
    printable ASCII range is escaped, one above U+FFFF as the two halves of a
    surrogate pair.  A comma and a colon are followed by a space. -/

namespace FormReader

namespace Json

/-- A 16-bit unit as an escape. -/
def unitEscape (n : Nat) : Text := .of "\\u" ++ .hex 4 n

/-- One code point inside a string. -/
def escaped (c : CodePoint) : Text :=
  if c = '\x22' then .of "\\\x22"
  else if c = '\\' then .of "\\\\"
  else if c = '\n' then .of "\\n"
  else if c = '\r' then .of "\\r"
  else if c = '\t' then .of "\\t"
  else if c = '\x08' then .of "\\b"
  else if c = '\x0c' then .of "\\f"
  else if 0x20 ≤ c.val && c.val ≤ 0x7E then [c]
  else if c.val < 0x10000 then unitEscape c.val
  else
    unitEscape (0xD800 + (c.val - 0x10000) / 0x400) ++
      unitEscape (0xDC00 + (c.val - 0x10000) % 0x400)

/-- A text as a JSON string. -/
def encodeString (t : Text) : Text := .of "\x22" ++ t.flatMap escaped ++ .of "\x22"

/-- A number with a fraction or an exponent. -/
def encodeReal : Binary64 → Text
  | .nan => .of "NaN"
  | .infinite negative => .of (if negative then "-Infinity" else "Infinity")
  | x => x.numeral

/-- The items between brackets. -/
def bracketed (items : List Text) : Text := .of "[" ++ .joined (.of ", ") items ++ .of "]"

/-- The items between braces. -/
def braced (items : List Text) : Text := .of "\x7b" ++ .joined (.of ", ") items ++ .of "\x7d"

mutual

/-- The text of a value. -/
def encode : Json → Text
  | null => .of "null"
  | bool b => .of (if b then "true" else "false")
  | integer n => .ofInt n
  | real x => encodeReal x
  | string t => encodeString t
  | array items => bracketed (encodeItems [] items)
  | object members => braced (encodeMembers [] members)

/-- The texts of items behind given ones, which come in reverse. -/
def encodeItems (done : List Text) : List Json → List Text
  | [] => done.reverse
  | v :: rest => encodeItems (encode v :: done) rest

/-- The texts of members behind given ones, which come in reverse. -/
def encodeMembers (done : List Text) : List (Text × Json) → List Text
  | [] => done.reverse
  | (name, v) :: rest => encodeMembers ((encodeString name ++ .of ": " ++ encode v) :: done) rest

end

theorem encodeItems_eq (done : List Text) (items : List Json) :
    encodeItems done items = done.reverse ++ items.map encode := by
  induction items generalizing done with
  | nil => simp [encodeItems]
  | cons v rest ih => simp [encodeItems, ih]

theorem encodeMembers_eq (done : List Text) (members : List (Text × Json)) :
    encodeMembers done members =
      done.reverse ++ members.map fun m => encodeString m.1 ++ .of ": " ++ encode m.2 := by
  induction members generalizing done with
  | nil => simp [encodeMembers]
  | cons m rest ih => simp [encodeMembers, ih]

/-- An array is the texts of its items between brackets. -/
theorem encode_array (items : List Json) :
    (array items).encode = bracketed (items.map encode) := by
  rw [encode, encodeItems_eq, List.reverse_nil, List.nil_append]

/-- An object is the texts of its members between braces. -/
theorem encode_object (members : List (Text × Json)) :
    (object members).encode =
      braced (members.map fun m => encodeString m.1 ++ .of ": " ++ encode m.2) := by
  rw [encode, encodeMembers_eq, List.reverse_nil, List.nil_append]

end Json

end FormReader
