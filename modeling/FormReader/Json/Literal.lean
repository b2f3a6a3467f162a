import FormReader.Json.Basic
import FormReader.Number.Shortest
import FormReader.Text.Quoted

/-! # Literals — how messages show a JSON value

    A message that rejects a value shows it in a notation of its own: words for
    the constants, the shortest numeral for a number, quoted texts, items
    between brackets and members between braces. -/

namespace FormReader

namespace Json

mutual

/-- A value as messages show it. -/
def literal : Json → Text
  | null => .of "None"
  | bool b => .of (if b then "True" else "False")
  | integer n => .ofInt n
  | real x => x.numeral
  | string t => t.quoted
  | array items => .of "[" ++ .joined (.of ", ") (itemLiterals [] items) ++ .of "]"
  | object members =>
    .of "\x7b" ++ .joined (.of ", ") (memberLiterals [] members) ++ .of "\x7d"

/-- The items of an array as messages show them, behind given texts, which come in reverse. -/
def itemLiterals (done : List Text) : List Json → List Text
  | [] => done.reverse
  | v :: rest => itemLiterals (literal v :: done) rest

/-- The members of an object as messages show them, behind given texts, which come in reverse. -/
def memberLiterals (done : List Text) : List (Text × Json) → List Text
  | [] => done.reverse
  | (name, v) :: rest => memberLiterals ((name.quoted ++ .of ": " ++ literal v) :: done) rest

end

end Json

end FormReader
