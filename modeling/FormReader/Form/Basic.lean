import FormReader.Json.Basic
import FormReader.Tree.Fold
import FormReader.Tree.Equal

/-! # Forms — what a reader builds

    A form is an identifier, a numeral, or a call of a form on forms.  Numerals
    keep their text: no value is computed and nothing is checked.

    `Form.toJson` is the structured value of a form, and `Form.stats` the number
    of its nodes, its depth and the number of its leaves. -/

namespace FormReader

/-- The content of a leaf. -/
inductive Atom where
  | identifier (name : Text)
  | numeral (literal : Text)
  deriving DecidableEq

/-- A form read from tokens. -/
abbrev Form := Tree Atom

namespace Atom

/-- The text of an atom. -/
def text : Atom → Text
  | identifier name => name
  | numeral literal => literal

/-- What the atoms of a sort are called in the structured value. -/
def kind : Atom → Text
  | identifier _ => .of "identifier"
  | numeral _ => .of "number"

/-- The member that holds the text of an atom. -/
def member : Atom → Text
  | identifier _ => .of "name"
  | numeral _ => .of "literal"

/-- The structured value of an atom. -/
def toJson (a : Atom) : Json :=
  .object [(.of "kind", .string a.kind), (a.member, .string a.text)]

end Atom

namespace Form

/-- A form that is an identifier. -/
def identifier (name : Text) : Form := .leaf (.identifier name)

/-- A form that is a numeral. -/
def numeral (literal : Text) : Form := .leaf (.numeral literal)

/-- What calls are called in the structured value. -/
def callKind : Text := .of "call"

/-- What a form is called. -/
def kind : Form → Text
  | .leaf a => a.kind
  | .call _ _ => callKind

/-- The structured value of a call, from those of its parts. -/
def callJson (operator : Json) (operands : List Json) : Json :=
  .object [(.of "kind", .string callKind), (.of "operator", operator),
    (.of "operands", .array operands)]

/-- The structured value of a form. -/
def toJson (f : Form) : Json := f.fold Atom.toJson callJson

end Form

/-! ## Measures -/

/-- The measures of a tree. -/
structure Stats where
  nodes : Nat
  depth : Nat
  leaves : Nat
  deriving DecidableEq

namespace Stats

/-- The measures of a leaf. -/
def leaf : Stats := ⟨1, 1, 1⟩

/-- The measures of a call, from those of its parts. -/
def call (operator : Stats) (operands : List Stats) : Stats :=
  let parts := operator :: operands
  ⟨1 + parts.foldl (fun n s => n + s.nodes) 0, 1 + parts.foldl (fun n s => max n s.depth) 0,
    parts.foldl (fun n s => n + s.leaves) 0⟩

end Stats

/-- The measures of a tree. -/
def Tree.stats {α : Type} (t : Tree α) : Stats := t.fold (fun _ => .leaf) .call

end FormReader
