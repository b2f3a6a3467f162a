import FormReader.Form.Printer
import FormReader.Reader.Diagnostic
import FormReader.Token.Loader

/-! # Printouts — from the text of a token file to its forms in print

    The tokens are loaded, all forms are read, and the forms are printed in the
    format asked for.  The stages come in this order, so the name of the format
    is looked at last. -/

namespace FormReader

/-- Why there is no printout. -/
inductive PrintError where
  | load (e : Token.LoadError)
  | read (e : ReadError)
  | unknownFormat (name : Text)

namespace Printout

/-- All forms that given tokens make up. -/
def formsOf (mode : Mode) (tokens : List Token) : Except ReadError (List Form) :=
  match Reader.ofSource (.ofTokens tokens) mode with
  | (.ok (), r) => r.readAll.1
  | (.error e, _) => .error (.source e)

/-- The forms printed in the format of a given name. -/
def print (formatName : Text) (forms : List Form) : Except PrintError Text :=
  match Format.ofName? formatName with
  | some format => .ok (format.print forms)
  | none => .error (.unknownFormat formatName)

/-- The forms of a token file in print. -/
def ofText (mode : Mode) (formatName t : Text) : Except PrintError Text := do
  let tokens ← (Token.load t).mapError .load
  let forms ← (formsOf mode tokens).mapError .read
  print formatName forms

end Printout

/-- The message of a missing printout. -/
def PrintError.message : PrintError → Text
  | .load e => e.message
  | .read e => e.display
  | .unknownFormat name => .of "Unknown output format: " ++ name

end FormReader
