import FormReader.CommandLine.Usage
import FormReader.Form.Printer
import FormReader.Text.DecimalDigit
import FormReader.Text.Quoted

/-! # Arguments — the command line taken apart

    The words of a command line are first told apart one by one (`Word.ofText`):
    switches, words that look like switches but are none, and plain words.
    Behind the first `--` every word is plain.  Then the words are taken in
    order (`Arguments.take`): switches set what they stand for, one plain word
    names the source, and what is left over is an error in the end.

    A long switch may be shortened as long as one switch only is meant; its
    value follows `=` or is the next word.  Short switches without a value may
    be run together, the last one with the value of a switch that takes one.  A
    negative number and a word with a space in it are plain, unless they begin
    with a short switch.  A value attached to a switch that takes none is an
    error, and so is a value that is missing.

    Readers of command lines differ in two points from one version to the next,
    and both are settled here as one version has them.  A value that is just
    `--` and attached to its switch counts as no value at all
    (`Arguments.apply`); and what is attached to a short switch without a value
    is more short switches, also behind an equals sign, so that `-s=f` stands
    for `-s` and `-f` (`settingsOf`). -/

namespace FormReader

/-- What a command line can ask for. -/
inductive Switch where
  | help
  | string
  | format
  | out
  | lenient
  | verbose
  deriving DecidableEq

namespace Switch

/-- The spellings of all switches in the order in which they are offered. -/
def spellings : List (Text × Switch) :=
  [(.of "-h", help), (.of "--help", help), (.of "-s", string), (.of "--string", string),
    (.of "-f", format), (.of "--format", format), (.of "-o", out), (.of "--out", out),
    (.of "--lenient", lenient), (.of "--verbose", verbose)]

/-- The switch with a given spelling. -/
def ofSpelling? (spelling : Text) : Option Switch := spellings.lookup spelling

/-- The switch takes a value. -/
def takesValue : Switch → Bool
  | format | out => true
  | _ => false

/-- How messages name a switch: all its spellings. -/
def describe (s : Switch) : Text :=
  .joined (.of "/") ((spellings.filter fun known => known.2 = s).map (·.1))

end Switch

/-- Why a command line is refused. -/
inductive ArgumentError where
  /-- A shortened switch may mean several. -/
  | ambiguous (word : Text) (candidates : List Text)
  /-- A switch without value was given one. -/
  | ignoredValue (s : Switch) (value : Text)
  /-- A switch with a value was given none. -/
  | missingValue (s : Switch)
  /-- No format has this name. -/
  | unknownFormat (name : Text)
  /-- Words are left over. -/
  | unrecognized (words : List Text)
  deriving DecidableEq

/-- The message of a refused command line. -/
def ArgumentError.message : ArgumentError → Text
  | .ambiguous word candidates =>
    .of "ambiguous option: " ++ word ++ .of " could match " ++ .joined (.of ", ") candidates
  | .ignoredValue s value =>
    .of "argument " ++ s.describe ++ .of ": ignored explicit argument " ++ value.quoted
  | .missingValue s => .of "argument " ++ s.describe ++ .of ": expected one argument"
  | .unknownFormat name =>
    .of "argument " ++ Switch.format.describe ++ .of ": invalid choice: " ++ name.quoted ++
      .of " (choose from " ++ .joined (.of ", ") (Format.all.map (·.name.quoted)) ++ .of ")"
  | .unrecognized words => .of "unrecognized arguments: " ++ .joined (.of " ") words

/-! ## Telling words apart -/

/-- A word of the command line. -/
inductive Word where
  | plain (t : Text)
  /-- The first `--`. -/
  | separator
  /-- A switch. `joins` says that short switches may follow it in the attached text. -/
  | switch (s : Switch) (joins : Bool) (attached : Option Text)
  /-- A word that looks like a switch and is none. -/
  | unknown (t : Text)
  deriving DecidableEq

namespace Word

/-- The word that separates switches from plain words. -/
def separatorText : Text := .of "--"

/-- The word can only be plain. -/
def isPlain : Word → Bool
  | plain _ | separator => true
  | _ => false

/-- The word as it was given, where it is no switch. -/
def text : Word → Text
  | plain t | unknown t => t
  | separator => separatorText
  | switch .. => []

/-- Digits of any script, at least one. -/
def isDigits (t : Text) : Bool := !t.isEmpty && t.all (·.isDecimalDigit)

/-- A minus sign before digits, or before a point with digits behind it. One line feed may follow.
    -/
def isNegativeNumber : Text → Bool
  | [] => false
  | c :: rest =>
    let number := if rest.getLast? = some '\n' then rest.dropLast else rest
    let fraction := number.dropWhile (·.isDecimalDigit)
    c = '-' && (isDigits number || (fraction.head? = some '.' && isDigits fraction.tail))

/-- A word cut at its first equals sign. -/
def cut (t : Text) : Text × Option Text :=
  let stem := t.takeWhile (· ≠ ('=' : CodePoint))
  match t.drop stem.length with
  | [] => (stem, none)
  | _ :: value => (stem, some value)

/-- A word that begins with one dash, more than a dash, and is no spelling. -/
def ofShort (t : Text) : Word :=
  match Switch.ofSpelling? (t.take 2) with
  | some s => switch s true (some (t.drop 2))
  | none =>
    if isNegativeNumber t || t.contains (' ' : CodePoint) then plain t else unknown t

/-- A word that begins with two dashes and is no spelling. -/
def ofLong (t : Text) : Except ArgumentError Word :=
  let (stem, value) := cut t
  match Switch.spellings.filter fun known => stem.isPrefixOf known.1 with
  | [] => .ok (if t.contains (' ' : CodePoint) then plain t else unknown t)
  | [(_, s)] => .ok (switch s false value)
  | candidates => .error (.ambiguous t (candidates.map (·.1)))

/-- A word before the separator. -/
def ofText (t : Text) : Except ArgumentError Word :=
  let dash : CodePoint := '-'
  let isLong := t.take 2 = [dash, dash]
  match Switch.ofSpelling? t with
  | some s => .ok (switch s (!isLong) none)
  | none =>
    if t.head? ≠ some dash || t.length = 1 then .ok (plain t)
    else
      match cut t with
      | (stem, some value) =>
        match Switch.ofSpelling? stem with
        | some s => .ok (switch s (!isLong) (some value))
        | none => if isLong then ofLong t else .ok (ofShort t)
      | (_, none) => if isLong then ofLong t else .ok (ofShort t)

/-- The words of a command line. -/
def ofTexts : List Text → Except ArgumentError (List Word)
  | [] => .ok []
  | t :: rest =>
    if t = separatorText then .ok (separator :: rest.map plain)
    else do
      let word ← ofText t
      let words ← ofTexts rest
      pure (word :: words)

end Word

/-! ## Taking words -/

/-- What a command line settles. -/
structure Settings where
  source : Option Text
  isString : Bool
  formatName : Text
  out : Option Text
  lenient : Bool
  verbose : Bool
  deriving DecidableEq

/-- What holds when a command line is empty. -/
def Settings.default : Settings where
  source := none
  isString := false
  formatName := Format.structured.name
  out := none
  lenient := false
  verbose := false

/-- What a command line asks for. -/
inductive Request where
  | help
  | job (s : Settings)
  deriving DecidableEq

namespace Arguments

/-- A switch and the value it comes with. -/
abbrev Setting := Switch × Option Text

/-- The name that a format has when its value is empty. -/
def emptyFormat : Text := .of "[]"

/-- Sets what a switch stands for; none where the switch asks for help. -/
def apply (s : Settings) : Setting → Except ArgumentError (Option Settings)
  | (.help, _) => .ok none
  | (.string, _) => .ok (some { s with isString := true })
  | (.lenient, _) => .ok (some { s with lenient := true })
  | (.verbose, _) => .ok (some { s with verbose := true })
  | (.out, value) =>
    let name := value.filter (· ≠ Word.separatorText)
    .ok (some { s with out := name })
  | (.format, value) =>
    match value.filter (· ≠ Word.separatorText) with
    | none => .ok (some { s with formatName := emptyFormat })
    | some name =>
      if (Format.ofName? name).isSome then .ok (some { s with formatName := name })
      else .error (.unknownFormat name)

/-- Sets what several switches stand for, one after the other, until one asks for help. -/
def applyAll (s : Settings) : List Setting → Except ArgumentError (Option Settings)
  | [] => .ok (some s)
  | setting :: rest => do
    match ← apply s setting with
    | none => pure none
    | some s => applyAll s rest

/-- The switches that a word holds, and the last one if it still needs a value. -/
def settingsOf (s : Switch) (joins : Bool) (attached : Option Text) :
    Except ArgumentError (List Setting × Option Switch) :=
  match s.takesValue, attached with
  | true, some value => .ok ([(s, some value)], none)
  | true, none => .ok ([], some s)
  | false, none => .ok ([(s, none)], none)
  | false, some value =>
    match value, joins with
    | c :: rest, true =>
      match Switch.ofSpelling? ['-', c] with
      | none => .error (.ignoredValue s value)
      | some s' => do
        let (settings, needing) ← settingsOf s' true (if rest.isEmpty then none else some rest)
        pure ((s, none) :: settings, needing)
    | _, _ => .error (.ignoredValue s value)
termination_by (attached.map List.length).getD 0
decreasing_by
  cases rest <;> simp

/-- How far a command line has been taken. -/
structure Progress where
  settings : Settings
  /-- The source is settled. -/
  sourceTaken : Bool
  /-- The words left over so far, the last one first. -/
  extras : List Text

/-- The progress with a source. -/
def Progress.takeSource (p : Progress) (t : Text) : Progress :=
  { p with settings := { p.settings with source := some t }, sourceTaken := true }

/-- The progress with words left over. -/
def Progress.leave (p : Progress) (ts : List Text) : Progress :=
  { p with extras := ts.reverse ++ p.extras }

/-- Takes the plain words at the end of a command line. The source may stand before or behind the
    separator, which is used up with it. -/
def takePlain (p : Progress) (words : List Word) : Progress :=
  if p.sourceTaken then p.leave (words.map Word.text)
  else
    match words with
    | [] => p
    | [.separator] => p
    | .separator :: source :: rest => (p.takeSource source.text).leave (rest.map Word.text)
    | source :: .separator :: rest => (p.takeSource source.text).leave (rest.map Word.text)
    | source :: rest => (p.takeSource source.text).leave (rest.map Word.text)

/-- The progress with switches set; none where one asks for help. -/
def Progress.set (p : Progress) (settings : List Setting) :
    Except ArgumentError (Option Progress) :=
  (applyAll p.settings settings).map fun settled =>
    settled.map fun settings => { p with settings := settings }

/-- Takes words in order; none where one asks for help. -/
def take (p : Progress) : List Word → Except ArgumentError (Option Progress)
  | [] => .ok (some p)
  | .plain t :: rest =>
    if rest.all Word.isPlain then .ok (some (takePlain p (.plain t :: rest)))
    else if p.sourceTaken then take (p.leave [t]) rest
    else take (p.takeSource t) rest
  | .separator :: rest => .ok (some (takePlain p (.separator :: rest)))
  | .unknown t :: rest => take (p.leave [t]) rest
  | .switch s joins attached :: rest =>
    match settingsOf s joins attached, rest with
    | .error e, _ => .error e
    | .ok (settings, none), rest =>
      match p.set settings with
      | .error e => .error e
      | .ok none => .ok none
      | .ok (some p) => take p rest
    | .ok (settings, some s), .plain value :: rest =>
      match p.set (settings ++ [(s, some value)]) with
      | .error e => .error e
      | .ok none => .ok none
      | .ok (some p) => take p rest
    | .ok (_, some s), _ => .error (.missingValue s)

/-- What a command line asks for. -/
def parse (args : List Text) : Except ArgumentError Request := do
  let words ← Word.ofTexts args
  match ← take ⟨.default, false, []⟩ words with
  | none => pure .help
  | some p =>
    if p.extras.isEmpty then pure (.job p.settings)
    else throw (.unrecognized p.extras.reverse)

end Arguments

end FormReader
