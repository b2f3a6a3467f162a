import FormReader.FileTree
import FormReader.Printout
import FormReader.Text.Line

/-! # Jobs — one token file, read and printed

    A job names where its text comes from, how it is read and printed, and where
    the printout goes.  Files and the standard input are octets: they are
    decoded strictly and their line ends made line feeds, while a text given
    directly is taken as it is.

    `Job.run` does a job in its surroundings.  A failure before the printout is
    delivered changes nothing; a file is opened before the printout is encoded,
    so one that cannot be encoded leaves it empty.

    Octets can always be written: a file that has been opened, and the standard
    output, take all that is delivered to them.  That a disk is full or a pipe
    closed is not modelled. -/

namespace FormReader

/-- What a command reads and writes. -/
structure Surroundings where
  files : FileTree
  standardInput : Octets
  /-- What has been printed. -/
  output : Text
  /-- What has been complained of. -/
  complaints : Text
  deriving DecidableEq

/-- Why a job fails. -/
inductive Failure where
  /-- The source is no token file by its name. -/
  | unsupported
  | unopened (e : OpenError)
  | undecodable (e : Utf8.DecodeError)
  | unprintable (e : PrintError)
  | unencodable (e : Utf8.EncodeError)

namespace Failure

/-- What a failure is about. -/
def message : Failure → Text
  | unsupported => .of "Only .json token files are supported."
  | unopened e => e.message
  | undecodable e => e.message
  | unprintable e => e.message
  | unencodable e => e.message

end Failure

/-- A token file to be printed. -/
structure Job where
  /-- A file name or a text; none for the standard input. -/
  source : Option Text
  /-- The source is a text. -/
  isString : Bool
  formatName : Text
  /-- The name of the file to be written. Without a name, or with an empty one, the printout goes to
      the standard output. -/
  out : Option Text
  mode : Mode
  deriving DecidableEq

/-- Where the text of a job comes from. -/
inductive Input where
  | standardInput
  | text (t : Text)
  | file (name : Text)
  | unsupported
  deriving DecidableEq

namespace Job

/-- The ending of the names of token files. -/
def extension : Text := .of ".json"

/-- Where the text comes from. -/
def input (j : Job) : Input :=
  match j.source with
  | none => .standardInput
  | some t =>
    if j.isString then .text t else if extension.isSuffixOf t then .file t else .unsupported

/-- The file to be written, if there is one. -/
def destination (j : Job) : Option Text := j.out.filter (!·.isEmpty)

/-- The text that octets spell, its line ends made line feeds. -/
def textOf (octets : Octets) : Except Failure Text :=
  ((Utf8.decode octets).map Text.normalizeLineEnds).mapError .undecodable

/-- The text of an input. -/
def read (s : Surroundings) : Input → Except Failure Text
  | .standardInput => textOf s.standardInput
  | .text t => .ok t
  | .unsupported => .error .unsupported
  | .file name =>
    match s.files.read name with
    | .ok octets => textOf octets
    | .error e => .error (.unopened e)

/-- The printout of a text. -/
def printout (j : Job) (t : Text) : Except Failure Text :=
  (Printout.ofText j.mode j.formatName t).mapError .unprintable

/-- What is written of a printout. -/
def written (printout : Text) : Text := printout ++ .of "\n"

/-- Delivers a printout to the standard output or into a file. -/
def deliver (s : Surroundings) (printout : Text) : (destination : Option Text) →
    Except Failure Unit × Surroundings
  | none =>
    match Utf8.encode (written printout) with
    | .ok _ => (.ok (), { s with output := s.output ++ written printout })
    | .error e => (.error (.unencodable e), s)
  | some name =>
    match s.files.create name with
    | .error e => (.error (.unopened e), s)
    | .ok (path, opened) =>
      match Utf8.encode (written printout) with
      | .ok octets => (.ok (), { s with files := opened.put path (.file octets) })
      | .error e => (.error (.unencodable e), { s with files := opened })

/-- Does the job: the printout, or why there is none, and the surroundings afterwards. -/
def run (j : Job) (s : Surroundings) : Except Failure Text × Surroundings :=
  match read s j.input with
  | .error e => (.error e, s)
  | .ok t =>
    match j.printout t with
    | .error e => (.error e, s)
    | .ok printout =>
      match deliver s printout j.destination with
      | (.ok (), s') => (.ok printout, s')
      | (.error e, s') => (.error e, s')

end Job

end FormReader
