import FormReader.Text.Basic

/-! # Usage — what the command says about itself -/

namespace FormReader

namespace Usage

/-- The name of the command. -/
def program : Text := .of "sexpr"

/-- How the command is called. -/
def summary : Text := .of
  "usage: sexpr [-h] [-s] [-f \x7bjson,sexp,repr\x7d] [-o OUTFILE] [--lenient]
             [--verbose]
             [source]
"

/-- What the command offers. -/
def help : Text := summary ++ .of
  "
Parse S-expression tokens into an AST.

positional arguments:
  source                Token file (.json), raw JSON with -s, or stdin

options:
  -h, --help            show this help message and exit
  -s, --string          Interpret source as JSON text
  -f \x7bjson,sexp,repr\x7d, --format \x7bjson,sexp,repr\x7d
                        Output format (default: json)
  -o OUTFILE, --out OUTFILE
                        Output to file
  --lenient             Stop quietly at tokens that cannot start an expression
  --verbose             Show tracebacks on errors
"

end Usage

end FormReader
