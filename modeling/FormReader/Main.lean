import FormReader.CommandLine.Command

/-! # The program — the command in the real world

    Does what `Command.run` describes with the real standard channels and the
    real file system.  Only the reading and the writing of octets are done here. -/

namespace FormReader

namespace Program

/-- All octets of a stream, behind those read so far. -/
partial def readRest (stream : IO.FS.Stream) (done : ByteArray) : IO ByteArray := do
  let more ← stream.read 65536
  if more.isEmpty then return done else readRest stream (done ++ more)

/-- The flaw that the system reports. -/
def flawOf : IO.Error → OpenFlaw
  | .noFileOrDirectory .. => .notFound
  | .inappropriateType _ 20 _ => .notAFolder
  | .inappropriateType _ 21 _ => .isAFolder
  | .permissionDenied _ code _ => .refused code.toNat (.of "Permission denied")
  | e => .refused 5 (.of e.toString)

/-- An action on a named file, its failure told as a value. A name that is not UTF-8 cannot be handed
    on to the system here and counts as the name of no file. -/
def onFile {α : Type} (name : Text) (action : String → IO α) : IO (Except Failure α) := do
  match FileTree.octetsOfName name with
  | .error flaw => return .error (.unopened ⟨flaw, name⟩)
  | .ok octets =>
    match String.fromUTF8? ⟨octets.toArray⟩ with
    | none => return .error (.unopened ⟨.notFound, name⟩)
    | some path =>
      try return .ok (← action path)
      catch e => return .error (.unopened ⟨flawOf e, name⟩)

/-- The text of an input. -/
def read : Input → IO (Except Failure Text)
  | .standardInput => do
    let octets ← readRest (← IO.getStdin) .empty
    return Job.textOf octets.toList
  | .text t => return .ok t
  | .unsupported => return .error .unsupported
  | .file name => do
    match ← onFile name fun path => do (← IO.FS.Handle.mk path .read).readBinToEnd with
    | .ok octets => return Job.textOf octets.toList
    | .error e => return .error e

/-- Writes a text as octets, unless it holds a surrogate. -/
def write (stream : IO.FS.Stream) (t : Text) : IO (Except Failure Unit) := do
  match Utf8.encode t with
  | .ok octets =>
    stream.write ⟨octets.toArray⟩
    stream.flush
    return .ok ()
  | .error e => return .error (.unencodable e)

/-- Delivers a printout. -/
def deliver (printout : Text) : (destination : Option Text) → IO (Except Failure Unit)
  | none => do write (← IO.getStdout) (Job.written printout)
  | some name => do
    match ← onFile name (IO.FS.Handle.mk · .write) with
    | .ok handle => write (.ofHandle handle) (Job.written printout)
    | .error e => return .error e

/-- Does a job. -/
def run (j : Job) : IO (Except Failure Unit) := do
  match ← read j.input with
  | .error e => return .error e
  | .ok t =>
    match j.printout t with
    | .error e => return .error e
    | .ok printout => deliver printout j.destination

/-- Ends with an outcome. -/
def conclude (o : Outcome) : IO UInt32 := do
  discard (write (← IO.getStderr) o.complaint)
  return o.code.toUInt32

end Program

end FormReader

open FormReader in
/-- Runs the command line of the program. -/
def main (args : List String) : IO UInt32 := do
  match Arguments.parse (args.map Text.of) with
  | .error e => Program.conclude (.refused e)
  | .ok .help =>
    discard (Program.write (← IO.getStdout) Usage.help)
    return 0
  | .ok (.job settings) =>
    match ← Program.run settings.job with
    | .ok () => return 0
    | .error e => Program.conclude (.failed settings.verbose e)
