import FormReader.Text.Basic

/-! # Tokens — what a scanner hands over

    A token has a kind, a text and a position.  Five kinds mean something to the
    reader, their `Role`; a token of any other kind never begins a form.  A
    delimiter without a text gets its parenthesis. -/

namespace FormReader

/-- A lexical token. -/
structure Token where
  kind : Text
  text : Text
  line : Int
  column : Int
  deriving DecidableEq

/-- What a kind of token means to the reader. -/
inductive Role where
  /-- A numeral, a form by itself. -/
  | numeral
  /-- An identifier, a form by itself. -/
  | identifier
  /-- The beginning of a call. -/
  | opening
  /-- The end of a call. -/
  | closing
  /-- The end of the input. -/
  | ending
  /-- Nothing. -/
  | other
  deriving DecidableEq

namespace Role

/-- The kinds that mean something. -/
def kinds : List (Text × Role) :=
  [(.of "NUMBER", numeral), (.of "IDENT", identifier), (.of "LPAREN", opening),
    (.of "RPAREN", closing), (.of "EOF", ending)]

/-- The role of a kind. -/
def ofKind (kind : Text) : Role := (kinds.lookup kind).getD other

/-- The text of a token that comes without one. -/
def defaultText : Role → Text
  | opening => .of "("
  | closing => .of ")"
  | _ => []

end Role

namespace Token

/-- What a token means to the reader. -/
def role (t : Token) : Role := .ofKind t.kind

/-- A token as a scanner makes it: an empty text becomes the one its role has by default. -/
def make (kind text : Text) (line column : Int) : Token where
  kind := kind
  text := if text.isEmpty then (Role.ofKind kind).defaultText else text
  line := line
  column := column

/-- How messages show a token. -/
def describe (t : Token) : Text := .of "Token(" ++ t.kind ++ .of ", " ++ t.text ++ .of ")"

end Token

end FormReader
