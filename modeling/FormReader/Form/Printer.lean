import FormReader.Form.Basic
import FormReader.Json.Encoder
import FormReader.Text.Quoted
import FormReader.Text.Rope

/-! # Printing forms — three styles, one fold

    A `Style` says how a leaf is written and what stands around the parts of a
    call.  A form is written in a style by one fold into a rope, so its depth is
    not limited.

    * `Style.structured` — JSON on one line, as `Json.encode` writes the
      structured value.
    * `Style.source` — the form as it would be entered:
      `(operator operand ...)`.
    * `Style.literal` — constructors around quoted texts, from which the form
      can be told exactly. -/

namespace FormReader

/-- How forms are written. -/
structure Style where
  /-- A leaf. -/
  atom : Atom → Text
  /-- Before the operator. -/
  opening : Text
  /-- Behind the operator. -/
  afterOperator : Text
  /-- Before the first operand. -/
  beforeFirst : Text
  /-- Before every other operand. -/
  separator : Text
  /-- Behind the last operand. -/
  closing : Text

namespace Style

/-- The operands of a call in a row. -/
def operands (s : Style) : List Rope → Rope
  | [] => .empty
  | x :: xs => .piece s.beforeFirst ++ x ++ .concat (xs.map (.piece s.separator ++ ·))

/-- A call, from its parts. -/
def call (s : Style) (operator : Rope) (operands : List Rope) : Rope :=
  .piece s.opening ++ operator ++ .piece s.afterOperator ++ s.operands operands ++ .piece s.closing

/-- The JSON of a form on one line. -/
def structured : Style where
  atom a := a.toJson.encode
  opening := .of "\x7b\"kind\": \"call\", \"operator\": "
  afterOperator := .of ", \"operands\": ["
  beforeFirst := []
  separator := .of ", "
  closing := .of "]\x7d"

/-- A form as it would be entered. -/
def source : Style where
  atom := Atom.text
  opening := .of "("
  afterOperator := []
  beforeFirst := .of " "
  separator := .of " "
  closing := .of ")"

/-- A leaf with the name of its constructor. -/
def literalAtom : Atom → Text
  | .identifier name => .of "Identifier(" ++ name.quoted ++ .of ")"
  | .numeral literal => .of "Number(" ++ literal.quoted ++ .of ")"

/-- Constructors around quoted texts. -/
def literal : Style where
  atom := literalAtom
  opening := .of "ProcedureCall("
  afterOperator := .of ", ["
  beforeFirst := []
  separator := .of ", "
  closing := .of "])"

end Style

namespace Form

/-- The form written in a style, as a rope. -/
def toRope (s : Style) (f : Form) : Rope := f.fold (fun a => .piece (s.atom a)) s.call

/-- The form written in a style. -/
def write (s : Style) (f : Form) : Text := (f.toRope s).toText

end Form

/-! ## Output formats -/

/-- The formats in which the forms of a file are printed. -/
inductive Format where
  | structured
  | source
  | literal
  deriving DecidableEq

namespace Format

/-- The formats in the order in which they are offered. -/
def all : List Format := [structured, source, literal]

/-- The name by which a format is asked for. -/
def name : Format → Text
  | structured => .of "json"
  | source => .of "sexp"
  | literal => .of "repr"

/-- The format with a given name. -/
def ofName? (name : Text) : Option Format := all.find? fun f => f.name = name

/-- How a format writes one form. -/
def style : Format → Style
  | structured => .structured
  | source => .source
  | literal => .literal

/-- The forms printed: in the structured format an array with one form a line, otherwise one form
    a line. -/
def print (format : Format) (forms : List Form) : Text :=
  let lines := forms.map (Form.write format.style)
  match format, lines with
  | .structured, [] => .of "[]"
  | .structured, lines => .of "[\n  " ++ .joined (.of ",\n  ") lines ++ .of "\n]"
  | _, lines => .joined (.of "\n") lines

end Format

end FormReader
