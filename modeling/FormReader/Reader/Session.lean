import FormReader.Reader.Read

/-! # Sessions — one reader, many users

    A session is a reader that is used step by step: directly, and through any
    number of walks.  A walk answers the forms one by one.  All walks share the
    reader; a walk that has once answered no form, or an error, is finished for
    good and touches the reader no more.

    A step is an `Action` and what it answers a `Reply`; `Session.act` does one
    step and `Session.run` a list of them. -/

namespace FormReader

/-- A reader and, for each of its walks in the order of their creation, whether it is finished. -/
structure Session where
  reader : Reader
  finished : List Bool
  deriving DecidableEq

/-- A step of a session. -/
inductive Action where
  /-- Read the next form. -/
  | read
  /-- Read all forms that are left. -/
  | readAll
  /-- Look at the next token. -/
  | advance
  /-- Use the lookahead up for a form. -/
  | generate (f : Form)
  /-- Change the mode. -/
  | setMode (mode : Mode)
  /-- Begin a walk. -/
  | openWalk
  /-- Ask a walk for its next form. -/
  | next (walk : Nat)
  /-- Take what the source holds behind the lookahead. -/
  | drain

/-- What a step answers. -/
inductive Reply where
  | form (f : Option Form)
  | forms (fs : List Form)
  | token (t : Option Token)
  | tokens (ts : List Token)
  /-- A walk with its number. -/
  | walk (number : Nat)
  /-- The walk is finished. -/
  | finished
  | done
  | failed (e : ReadError)

namespace Session

/-- A session with a reader. -/
def ofReader (r : Reader) : Session := ⟨r, []⟩

/-- The session with its reader replaced. -/
def withReader (s : Session) (r : Reader) : Session := { s with reader := r }

/-- The session with a walk finished. -/
def finish (s : Session) (walk : Nat) : Session := { s with finished := s.finished.set walk true }

/-- The reply to a form or its absence. -/
def replyForm : Answer → Reply
  | .ok f => .form f
  | .error e => .failed e

/-- The next form of a walk. A walk that was never begun counts as finished. -/
def next (s : Session) (walk : Nat) : Reply × Session :=
  if s.finished.getD walk true then (.finished, s)
  else
    match s.reader.read with
    | (.ok (some f), r) => (.form (some f), s.withReader r)
    | (.ok none, r) => (.finished, (s.withReader r).finish walk)
    | (.error e, r) => (.failed e, (s.withReader r).finish walk)

/-- One step. -/
def act (s : Session) : Action → Reply × Session
  | .read =>
    let (answer, r) := s.reader.read
    (replyForm answer, s.withReader r)
  | .readAll =>
    match s.reader.readAll with
    | (.ok fs, r) => (.forms fs, s.withReader r)
    | (.error e, r) => (.failed e, s.withReader r)
  | .advance =>
    match s.reader.advance with
    | (.ok (), r) => (.token r.lookahead, s.withReader r)
    | (.error e, r) => (.failed (.source e), s.withReader r)
  | .generate f =>
    match s.reader.generate f with
    | (.ok f, r) => (.form (some f), s.withReader r)
    | (.error e, r) => (.failed e, s.withReader r)
  | .setMode mode => (.done, s.withReader { s.reader with mode := mode })
  | .openWalk => (.walk s.finished.length, { s with finished := s.finished ++ [false] })
  | .next walk => s.next walk
  | .drain =>
    match s.reader.source.drain with
    | (.ok ts, source) => (.tokens ts, s.withReader { s.reader with source := source })
    | (.error e, source) =>
      (.failed (.source e), s.withReader { s.reader with source := source })

/-- A list of steps: the replies, each with the session it leaves, and the session at the end. -/
def run (s : Session) : List Action → List (Reply × Session) × Session
  | [] => ([], s)
  | action :: actions =>
    let step := s.act action
    let (replies, last) := step.2.run actions
    (step :: replies, last)

end Session

end FormReader
