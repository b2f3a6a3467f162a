import FormReader.Reader.Read

/-! # Diagnostics — what is said about tokens that form no expression

    A diagnostic is a message and the token it is about, if there is one.
    Diagnostics are the same when their messages are, whatever token they carry.

    A reading error has a diagnostic unless the source failed
    (`ReadError.diagnostic?`).  A `Report` is a diagnostic among reports of
    other origins, each of which is only the same as itself. -/

namespace FormReader

/-- A message about a token. -/
structure Diagnostic where
  message : Text
  token : Option Token
  deriving DecidableEq

namespace Diagnostic

/-- How a diagnostic is shown. -/
def display (d : Diagnostic) : Text := .of "Syntax error: " ++ d.message

/-- Two diagnostics say the same. -/
def same (a b : Diagnostic) : Bool := a.message = b.message

/-- The number of diagnostics that differ in what they say. -/
def distinct (ds : List Diagnostic) : Nat := (ds.map message).eraseDups.length

end Diagnostic

namespace ReadError

/-- The message about a parenthesis without partner. -/
def unmatchedMessage : Text := .of "Unmatched Parentheses!"

/-- The message about a token that cannot begin a form. -/
def unexpectedMessage (t : Token) : Text := .of "Unexpected token " ++ t.describe

/-- The diagnostic of an error, unless the source failed. -/
def diagnostic? : ReadError → Option Diagnostic
  | unmatched token => some ⟨unmatchedMessage, token⟩
  | unexpected t => some ⟨unexpectedMessage t, some t⟩
  | source _ => none

/-- What is shown of an error. -/
def display : ReadError → Text
  | unmatched token => Diagnostic.display ⟨unmatchedMessage, token⟩
  | unexpected t => Diagnostic.display ⟨unexpectedMessage t, some t⟩
  | source failure => failure.message

end ReadError

/-- A report about an input. -/
inductive Report where
  | diagnostic (d : Diagnostic)
  /-- A report of another origin, with its number among all reports. -/
  | foreign (number : Nat)
  deriving DecidableEq

/-- Two reports are the same. -/
def Report.same : Report → Report → Bool
  | diagnostic a, diagnostic b => a.same b
  | foreign m, foreign n => m = n
  | _, _ => false

/-- The diagnostic in a report. -/
def Report.diagnostic? : Report → Option Diagnostic
  | diagnostic d => some d
  | foreign _ => none

end FormReader
