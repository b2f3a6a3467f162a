import FormReader.CommandLine.Arguments
import FormReader.CommandLine.Job

/-! # The command — requests and how they end

    A command line is a request for help, a job, or refused.  The exit code says
    how it ended: `0` for help and for a job that is done, `1` where the tokens
    are no forms, `2` for every other failure and for a command line that is
    refused.  Complaints go to a channel of their own, in which surrogates are
    spelled as escapes. -/

namespace FormReader

/-- How a command ends. -/
structure Outcome where
  code : Nat
  complaint : Text
  deriving DecidableEq

namespace Outcome

/-- Nothing went wrong. -/
def success : Outcome := ⟨0, []⟩

/-- The command line is refused. -/
def refused (e : ArgumentError) : Outcome :=
  ⟨2, Utf8.escapeSurrogates
    (Usage.summary ++ Usage.program ++ .of ": error: " ++ e.message ++ .of "\n")⟩

/-- What is said of a failure, and the code it ends with. -/
def display : Failure → Nat × Text
  | .unprintable (.read e) => (1, e.display)
  | e => (2, .of "Error: " ++ e.message)

/-- The trace that is shown on demand: its first line and the failure. -/
def trace (e : Failure) : Text :=
  .of "Traceback (most recent call last):\n" ++ e.message ++ .of "\n"

/-- A job failed. -/
def failed (verbose : Bool) (e : Failure) : Outcome :=
  let (code, line) := display e
  ⟨code, Utf8.escapeSurrogates (line ++ .of "\n" ++ if verbose then trace e else [])⟩

end Outcome

namespace Settings

/-- The job that a command line settles. -/
def job (s : Settings) : Job where
  source := s.source
  isString := s.isString
  formatName := s.formatName
  out := s.out
  mode := if s.lenient then .lenient else .strict

end Settings

namespace Command

/-- Runs a command line in its surroundings: the exit code and the surroundings afterwards. -/
def run (args : List Text) (s : Surroundings) : Nat × Surroundings :=
  match Arguments.parse args with
  | .error e => conclude (Outcome.refused e) s
  | .ok .help => (0, { s with output := s.output ++ Usage.help })
  | .ok (.job settings) =>
    match settings.job.run s with
    | (.ok _, s') => conclude .success s'
    | (.error e, s') => conclude (.failed settings.verbose e) s'
where
  /-- Ends with an outcome. -/
  conclude (o : Outcome) (s : Surroundings) : Nat × Surroundings :=
    (o.code, { s with complaints := s.complaints ++ o.complaint })

end Command

end FormReader
