import FormReader.Json.Decoder
import FormReader.Json.Literal
import FormReader.Token.Basic

/-! # Loading tokens — an array of token objects

    A token file holds a JSON array of objects.  The member `type` is the kind,
    a text that is not empty; `value` is the text, `line` and `col` are
    integers, and each of the three may be missing.  Other members are ignored.
    Entries are checked in order, and within an entry the members in the order
    given here; the first offence is the error. -/

namespace FormReader

namespace Token

/-- A member of an entry that may be missing. -/
inductive Field where
  | text
  | line
  | column
  deriving DecidableEq

/-- The name of a field in an entry. -/
def Field.name : Field → Text
  | text => .of "value"
  | line => .of "line"
  | column => .of "col"

/-- What messages call the values of a field. -/
def Field.sort : Field → Text
  | text => .of "str"
  | line | column => .of "int"

/-- What is wrong with an entry. -/
inductive EntryError where
  | notAnObject (v : Json)
  | withoutKind (members : Json.Members)
  | wrongField (field : Field) (v : Json)

/-- Why tokens are not loaded. -/
inductive LoadError where
  | undecodable (e : Json.DecodeError)
  | notAnArray
  | badEntry (e : EntryError)

/-- The text in a field, empty where the field is missing. -/
def textField (members : Json.Members) (field : Field) : Except EntryError Text :=
  match members.find? field.name with
  | none => .ok []
  | some (.string t) => .ok t
  | some v => .error (.wrongField field v)

/-- The integer in a field, zero where the field is missing. -/
def integerField (members : Json.Members) (field : Field) : Except EntryError Int :=
  match members.find? field.name with
  | none => .ok 0
  | some (.integer n) => .ok n
  | some v => .error (.wrongField field v)

/-- The kind in an entry. -/
def kindField (members : Json.Members) : Except EntryError Text :=
  match members.find? (.of "type") with
  | some (.string (c :: cs)) => .ok (c :: cs)
  | _ => .error (.withoutKind members)

/-- The token of an entry. -/
def ofJson : Json → Except EntryError Token
  | .object members => do
    let kind ← kindField members
    let text ← textField members .text
    let line ← integerField members .line
    let column ← integerField members .column
    pure (make kind text line column)
  | v => .error (.notAnObject v)

/-- The tokens of a decoded file. -/
def listOfJson : Json → Except LoadError (List Token)
  | .array entries => (entries.mapM ofJson).mapError .badEntry
  | _ => .error .notAnArray

/-- The tokens that a text holds. -/
def load (t : Text) : Except LoadError (List Token) :=
  match Json.decode t with
  | .ok v => listOfJson v
  | .error e => .error (.undecodable e)

/-! ## Messages -/

/-- The message of a bad entry. -/
def EntryError.message : EntryError → Text
  | .notAnObject v => .of "Token entry must be an object, got " ++ v.literal
  | .withoutKind members => .of "Token entry has no type: " ++ (Json.object members).literal
  | .wrongField field v =>
    .of "Token field " ++ field.name.quoted ++ .of " must be " ++ field.sort ++ .of ", got " ++
      v.literal

/-- The message of tokens that are not loaded. -/
def LoadError.message : LoadError → Text
  | .undecodable (.malformed flaw position) =>
    .of "Invalid token JSON: " ++ (Json.DecodeError.malformed flaw position).message
  | .undecodable (.oversizedInteger digits) => (Json.DecodeError.oversizedInteger digits).message
  | .notAnArray => .of "Token input must be a JSON array"
  | .badEntry e => e.message

end Token

end FormReader
