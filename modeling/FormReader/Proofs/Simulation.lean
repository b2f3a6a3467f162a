import FormReader.Proofs.Standstill
import Mathlib.Data.List.Forall2

/-! # Simulation — two sessions that answer alike

    A relation between readers is a SIMULATION if related readers look at
    tokens that mean the same, are in the same mode, and stay related when both
    look behind a token (`Reader.Simulation`).  That is enough for everything
    that is built on reading: a move asks for nothing but the meaning of the
    lookahead (`Move.next_alike`), so related readers make the same moves, build
    the same forms and stop together (`Simulation.readFrom`), and their sessions
    reply alike step by step (`Session.act_alike`) and over a run
    (`Session.run_alike`).

    Replies are ALIKE if they are the same but for their tokens, which
    correspond.  Steps that look at the next token on their own are followed
    where the relation survives every advance (`Reader.Follows`), not only one
    behind a token; draining the source is not followed. -/

namespace FormReader

variable {T : Token → Token → Prop}

/-! ## The same but for the tokens -/

/-- The errors are the same but for their tokens, which correspond. -/
inductive ReadError.Alike (T : Token → Token → Prop) :
    ReadError → ReadError → Prop where
  | unmatched {t u : Option Token} :
      Option.Rel T t u → Alike T (.unmatched t) (.unmatched u)
  | unexpected {t u : Token} : T t u → Alike T (.unexpected t) (.unexpected u)
  | source (failure : SourceFailure) :
      Alike T (.source failure) (.source failure)

/-- The same was read, or the errors are alike. -/
inductive ReadAlike (T : Token → Token → Prop) {α : Type} :
    Except ReadError α → Except ReadError α → Prop where
  | ok (x : α) : ReadAlike T (.ok x) (.ok x)
  | error {e e' : ReadError} :
      ReadError.Alike T e e' → ReadAlike T (.error e) (.error e')

/-- The moves are the same but for the token of an error. -/
inductive Move.Alike (T : Token → Token → Prop) : Move → Move → Prop where
  | shift (lists : List OpenList) : Alike T (.shift lists) (.shift lists)
  | accept (f : Form) : Alike T (.accept f) (.accept f)
  | absent : Alike T .absent .absent
  | fail {e e' : ReadError} :
      ReadError.Alike T e e' → Alike T (.fail e) (.fail e')

/-- The replies are the same but for their tokens, which correspond. -/
inductive Reply.Alike (T : Token → Token → Prop) : Reply → Reply → Prop where
  | form (f : Option Form) : Alike T (.form f) (.form f)
  | forms (fs : List Form) : Alike T (.forms fs) (.forms fs)
  | token {t u : Option Token} :
      Option.Rel T t u → Alike T (.token t) (.token u)
  | walk (number : Nat) : Alike T (.walk number) (.walk number)
  | finished : Alike T .finished .finished
  | done : Alike T .done .done
  | failed {e e' : ReadError} :
      ReadError.Alike T e e' → Alike T (.failed e) (.failed e')

theorem eq_of_rel_eq {t u : Option Token} (h : Option.Rel (· = ·) t u) :
    t = u := by
  cases h with
  | none => rfl
  | some htoken => rw [htoken]

/-- Where tokens correspond only to themselves, errors that are alike are the
    same. -/
theorem ReadError.Alike.eq {e e' : ReadError}
    (h : ReadError.Alike (· = ·) e e') : e = e' := by
  cases h with
  | unmatched htoken => rw [eq_of_rel_eq htoken]
  | unexpected htoken => rw [htoken]
  | source failure => rfl

theorem Reply.Alike.eq {a b : Reply} (h : Reply.Alike (· = ·) a b) : a = b := by
  cases h with
  | form f => rfl
  | forms fs => rfl
  | token htoken => rw [eq_of_rel_eq htoken]
  | walk number => rfl
  | finished => rfl
  | done => rfl
  | failed he => rw [he.eq]

/-! ## Moves -/

namespace Move

theorem complete_alike (f : Form) (lists : List OpenList) :
    Alike T (complete f lists) (complete f lists) := by
  cases lists with
  | nil => exact .accept f
  | cons list lists => exact .shift _

theorem unwind_alike (mode : Mode) {t u : Option Token}
    (h : Option.Rel T t u) (lists : List OpenList) :
    Alike T (unwind mode t lists) (unwind mode u lists) := by
  induction lists with
  | nil => exact .absent
  | cons list lists ih =>
      cases list with
      | headed f xs => exact .fail (.unmatched h)
      | bare =>
          cases mode with
          | strict => exact .fail (.unmatched h)
          | lenient => exact ih

theorem close_alike {t u : Token} (h : T t u) (lists : List OpenList) :
    Alike T (close t lists) (close u lists) := by
  rcases lists with _ | ⟨_ | ⟨f, xs⟩, lists⟩
  · exact .fail (.unmatched (.some h))
  · exact .fail (.unmatched (.some h))
  · exact complete_alike _ lists

/-- **A MOVE ASKS FOR MEANING ONLY**: tokens that stand for the same lexeme, or
    for none, make the same move. -/
theorem next_alike (meaning : ∀ {t u}, T t u → u.lexeme? = t.lexeme?)
    (mode : Mode) (lists : List OpenList) {t u : Option Token}
    (h : Option.Rel T t u) :
    Alike T (next mode lists t) (next mode lists u) := by
  cases h with
  | none => exact unwind_alike mode .none lists
  | @some t u htoken =>
      have hmeaning := meaning htoken
      cases hl : t.lexeme? with
      | none =>
          rw [next_of_no_lexeme hl, next_of_no_lexeme (hmeaning.trans hl)]
          cases mode with
          | strict => exact .fail (.unexpected htoken)
          | lenient => exact unwind_alike .lenient (.some htoken) lists
      | some l =>
          rw [next_of_lexeme hl, next_of_lexeme (hmeaning.trans hl)]
          cases l with
          | atom a => exact complete_alike _ lists
          | opening => exact .shift _
          | closing => exact close_alike htoken lists

end Move

namespace Move.Alike

variable {m : Move}

theorem absent_eq (h : Move.Alike T .absent m) : m = .absent := by
  cases h
  rfl

theorem accept_eq {f : Form} (h : Move.Alike T (.accept f) m) :
    m = .accept f := by
  cases h
  rfl

theorem shift_eq {lists : List OpenList} (h : Move.Alike T (.shift lists) m) :
    m = .shift lists := by
  cases h
  rfl

theorem fail_eq {e : ReadError} (h : Move.Alike T (.fail e) m) :
    ∃ e', m = .fail e' ∧ ReadError.Alike T e e' := by
  cases h with
  | fail he => exact ⟨_, rfl, he⟩

end Move.Alike

namespace Reader

variable {R : Reader → Reader → Prop} {r r' : Reader}

/-- Both readers look at the next token with the same success and stay
    related. -/
def Follows (R : Reader → Reader → Prop) (r r' : Reader) : Prop :=
  r'.advance.1 = r.advance.1 ∧ R r.advance.2 r'.advance.2

/-- What one advance comes to, the one that follows it does. -/
theorem Follows.advanced {a : Except SourceFailure Unit} {r₁ : Reader}
    (h : Follows R r r') (hadv : r.advance = (a, r₁)) :
    ∃ r₁', r'.advance = (a, r₁') ∧ R r₁ r₁' := by
  obtain ⟨hsuccess, hrelated⟩ := h
  rw [hadv] at hsuccess hrelated
  exact ⟨r'.advance.2, Prod.ext hsuccess rfl, hrelated⟩

/-- A relation between readers that reading keeps. -/
structure Simulation (T : Token → Token → Prop)
    (R : Reader → Reader → Prop) : Prop where
  meaning : ∀ {t u}, T t u → u.lexeme? = t.lexeme?
  lookahead : ∀ {r r'}, R r r' → Option.Rel T r.lookahead r'.lookahead
  mode : ∀ {r r'}, R r r' → r'.mode = r.mode
  setMode : ∀ {r r'} (mode : Mode), R r r' →
    R { r with mode := mode } { r' with mode := mode }
  advance : ∀ {r r'}, R r r' → r.lookahead ≠ none → Follows R r r'

/-- Readers that look at the same token mean the same by it. -/
theorem Simulation.of_same
    (lookahead : ∀ {r r'}, R r r' → r'.lookahead = r.lookahead)
    (mode : ∀ {r r'}, R r r' → r'.mode = r.mode)
    (setMode : ∀ {r r'} (mode : Mode), R r r' →
      R { r with mode := mode } { r' with mode := mode })
    (advance : ∀ {r r'}, R r r' → r.lookahead ≠ none → Follows R r r') :
    Simulation (· = ·) R where
  meaning := by
    rintro t _ rfl
    rfl
  lookahead := by
    intro r r' h
    rw [lookahead h]
    cases r.lookahead with
    | none => exact .none
    | some t => exact .some rfl
  mode := mode
  setMode := setMode
  advance := advance

namespace Simulation

variable (sim : Simulation T R)
include sim

theorem move (h : R r r') (lists : List OpenList) :
    Move.Alike T (r.move lists) (r'.move lists) := by
  rw [Reader.move, Reader.move, sim.mode h]
  exact Move.next_alike sim.meaning r.mode lists (sim.lookahead h)

/-- Behind a token, both advances succeed or both fail. -/
theorem advanced {t : Token} {a : Except SourceFailure Unit} {r₁ : Reader}
    (h : R r r') (looking : r.lookahead = some t) (hadv : r.advance = (a, r₁)) :
    ∃ r₁', r'.advance = (a, r₁') ∧ R r₁ r₁' := by
  have hlook : r.lookahead ≠ none := by
    rw [looking]
    exact Option.some_ne_none t
  exact (sim.advance h hlook).advanced hadv

/-- **RELATED READERS READ ALIKE**, inside any open lists. -/
theorem readFrom (lists : List OpenList) (h : R r r') :
    ReadAlike T (r.readFrom lists).1 (r'.readFrom lists).1 ∧
      R (r.readFrom lists).2 (r'.readFrom lists).2 := by
  -- by the recursion of one reader, which the other one follows
  fun_induction Reader.readFrom lists r generalizing r' with
  | case1 lists r hmove =>
      have hmove' := (hmove ▸ sim.move h lists).absent_eq
      rw [readFrom_eq, hmove']
      exact ⟨.ok none, h⟩
  | case2 lists r e hmove =>
      obtain ⟨e', hmove', he⟩ := (hmove ▸ sim.move h lists).fail_eq
      rw [readFrom_eq, hmove']
      exact ⟨.error he, h⟩
  | case3 lists r f hmove r₁ hadv =>
      have hmove' := (hmove ▸ sim.move h lists).accept_eq
      obtain ⟨t, looking⟩ := lookahead_of_accept hmove
      obtain ⟨r₁', hadv', h₁⟩ := sim.advanced h looking hadv
      rw [readFrom_eq, hmove', hadv']
      exact ⟨.ok (some f), h₁⟩
  | case4 lists r f hmove e r₁ hadv =>
      have hmove' := (hmove ▸ sim.move h lists).accept_eq
      obtain ⟨t, looking⟩ := lookahead_of_accept hmove
      obtain ⟨r₁', hadv', h₁⟩ := sim.advanced h looking hadv
      rw [readFrom_eq, hmove', hadv']
      exact ⟨.error (.source e), h₁⟩
  | case5 lists r lists₁ hmove r₁ hadv ih =>
      have hmove' := (hmove ▸ sim.move h lists).shift_eq
      obtain ⟨t, looking⟩ := lookahead_of_shift hmove
      obtain ⟨r₁', hadv', h₁⟩ := sim.advanced h looking hadv
      rw [readFrom_eq lists r', hmove', hadv']
      exact ih h₁
  | case6 lists r lists₁ hmove e r₁ hadv =>
      have hmove' := (hmove ▸ sim.move h lists).shift_eq
      obtain ⟨t, looking⟩ := lookahead_of_shift hmove
      obtain ⟨r₁', hadv', h₁⟩ := sim.advanced h looking hadv
      rw [readFrom_eq, hmove', hadv']
      exact ⟨.error (.source e), h₁⟩

theorem read {a : Answer} {r₁ : Reader} (h : R r r') (hread : r.read = (a, r₁)) :
    ∃ a' r₁', r'.read = (a', r₁') ∧ ReadAlike T a a' ∧ R r₁ r₁' := by
  have hboth := sim.readFrom [] h
  rw [← Reader.read, hread] at hboth
  exact ⟨_, _, rfl, hboth⟩

theorem readAllOnto (done : List Form) (h : R r r') :
    ReadAlike T (r.readAllOnto done).1 (r'.readAllOnto done).1 ∧
      R (r.readAllOnto done).2 (r'.readAllOnto done).2 := by
  fun_induction Reader.readAllOnto done r generalizing r' with
  | case1 done r f r₁ hread ih =>
      obtain ⟨_, r₁', hread', ⟨⟩, h₁⟩ := sim.read h hread
      rw [readAllOnto_eq done r', hread']
      exact ih h₁
  | case2 done r r₁ hread =>
      obtain ⟨_, r₁', hread', ⟨⟩, h₁⟩ := sim.read h hread
      rw [readAllOnto_eq, hread']
      exact ⟨.ok done.reverse, h₁⟩
  | case3 done r e r₁ hread =>
      obtain ⟨_, r₁', hread', he, h₁⟩ := sim.read h hread
      cases he with
      | error he =>
          rw [readAllOnto_eq, hread']
          exact ⟨.error he, h₁⟩

end Simulation

/-- Where the advance is followed, so is using the lookahead up. -/
theorem Follows.generate (f : Form) (h : Follows R r r') :
    ReadAlike T (r.generate f).1 (r'.generate f).1 ∧
      R (r.generate f).2 (r'.generate f).2 := by
  rcases hadv : r.advance with ⟨e | ⟨⟩, r₁⟩
  · obtain ⟨r₁', hadv', h₁⟩ := h.advanced hadv
    rw [Reader.generate, Reader.generate, hadv, hadv']
    exact ⟨.error (.source e), h₁⟩
  · obtain ⟨r₁', hadv', h₁⟩ := h.advanced hadv
    rw [Reader.generate, Reader.generate, hadv, hadv']
    exact ⟨.ok f, h₁⟩

end Reader

/-! ## Sessions -/

namespace Session

variable {R : Reader → Reader → Prop} {s s' : Session}

/-- The sessions have related readers and the same walks. -/
structure Related (R : Reader → Reader → Prop) (s s' : Session) : Prop where
  reader : R s.reader s'.reader
  finished : s'.finished = s.finished

theorem Related.withReader {r r' : Reader} (h : Related R s s') (hr : R r r') :
    Related R (s.withReader r) (s'.withReader r') :=
  ⟨hr, h.finished⟩

theorem Related.finish (h : Related R s s') (walk : Nat) :
    Related R (s.finish walk) (s'.finish walk) :=
  ⟨h.reader, congrArg (·.set walk true) h.finished⟩

theorem Related.live_iff (h : Related R s s') (walk : Nat) :
    s'.Live walk ↔ s.Live walk := by
  rw [Live, Live, h.finished]

/-- The replies of two steps are alike and the sessions they leave related. -/
def StepsAlike (T : Token → Token → Prop) (R : Reader → Reader → Prop)
    (step step' : Reply × Session) : Prop :=
  Reply.Alike T step.1 step'.1 ∧ Related R step.2 step'.2

/-- What a step asks of a simulation: nothing if it only reads, and that every
    advance is followed if it looks at the next token on its own. -/
def Followed (R : Reader → Reader → Prop) (action : Action) : Prop :=
  action.Reads ∨
    action ≠ .drain ∧ ∀ {r r' : Reader}, R r r' → Reader.Follows R r r'

theorem replyForms_alike {a a' : Except ReadError (List Form)}
    (h : ReadAlike T a a') : Reply.Alike T (replyForms a) (replyForms a') := by
  cases h with
  | ok fs => exact .forms fs
  | error he => exact .failed he

variable (sim : Reader.Simulation T R)
include sim

theorem act_readAll_alike (h : Related R s s') :
    StepsAlike T R (s.act .readAll) (s'.act .readAll) := by
  obtain ⟨halike, hreader⟩ := sim.readAllOnto [] h.reader
  rw [act_readAll, act_readAll]
  exact ⟨replyForms_alike halike, h.withReader hreader⟩

theorem next_alike (h : Related R s s') (walk : Nat) :
    StepsAlike T R (s.next walk) (s'.next walk) := by
  by_cases hlive : s.Live walk
  · rw [next_of_live hlive, next_of_live ((h.live_iff walk).mpr hlive)]
    rcases hread : s.reader.read with ⟨a, r⟩
    obtain ⟨a', r', hread', halike, hreader⟩ := sim.read h.reader hread
    rw [hread']
    cases halike with
    | error he => exact ⟨.failed he, (h.withReader hreader).finish walk⟩
    | ok f =>
        cases f with
        | none => exact ⟨.finished, (h.withReader hreader).finish walk⟩
        | some f => exact ⟨.form (some f), h.withReader hreader⟩
  · rw [next_of_not_live hlive,
      next_of_not_live (mt (h.live_iff walk).mp hlive)]
    exact ⟨.finished, h⟩

/-- **ONE STEP ALIKE**. -/
theorem act_alike (h : Related R s s') {action : Action}
    (ha : Followed R action) : StepsAlike T R (s.act action) (s'.act action) := by
  cases action with
  | read =>
      rcases hread : s.reader.read with ⟨a, r⟩
      obtain ⟨a', r', hread', halike, hreader⟩ := sim.read h.reader hread
      rw [act, act, hread, hread']
      cases halike with
      | ok f => exact ⟨.form f, h.withReader hreader⟩
      | error he => exact ⟨.failed he, h.withReader hreader⟩
  | readAll => exact act_readAll_alike sim h
  | advance =>
      obtain ⟨-, hfollows⟩ := ha.resolve_left id
      rcases hadv : s.reader.advance with ⟨e | ⟨⟩, r⟩
      · obtain ⟨r', hadv', hreader⟩ := (hfollows h.reader).advanced hadv
        rw [act, act, hadv, hadv']
        exact ⟨.failed (.source e), h.withReader hreader⟩
      · obtain ⟨r', hadv', hreader⟩ := (hfollows h.reader).advanced hadv
        rw [act, act, hadv, hadv']
        exact ⟨.token (sim.lookahead hreader), h.withReader hreader⟩
  | generate f =>
      -- like the advance, it may look for a token where none is looked at
      obtain ⟨-, hfollows⟩ := ha.resolve_left id
      obtain ⟨halike, hreader⟩ := (hfollows h.reader).generate (T := T) f
      rw [act, act]
      rcases hgen : s.reader.generate f with ⟨a, r⟩
      rcases hgen' : s'.reader.generate f with ⟨a', r'⟩
      rw [hgen, hgen'] at halike hreader
      cases halike with
      | ok g => exact ⟨.form (some g), h.withReader hreader⟩
      | error he => exact ⟨.failed he, h.withReader hreader⟩
  | setMode mode => exact ⟨.done, h.withReader (sim.setMode mode h.reader)⟩
  | openWalk =>
      rw [act, act, h.finished]
      exact ⟨.walk _, h.reader, rfl⟩
  | next walk => exact next_alike sim h walk
  | drain => exact absurd rfl (ha.resolve_left id).1

/-- **A RUN ALIKE**, at its end and behind every step. -/
theorem run_alike (h : Related R s s') {actions : List Action}
    (ha : ∀ action ∈ actions, Followed R action) :
    List.Forall₂ (StepsAlike T R) (s.run actions).1 (s'.run actions).1 ∧
      Related R (s.run actions).2 (s'.run actions).2 := by
  induction actions generalizing s s' with
  | nil => exact ⟨.nil, h⟩
  | cons action actions ih =>
      obtain ⟨hfirst, hrest⟩ := List.forall_mem_cons.mp ha
      have hone := act_alike sim h hfirst
      obtain ⟨hsteps, hlast⟩ := ih hone.2 hrest
      exact ⟨.cons hone hsteps, hlast⟩

end Session

/-! ## What is seen -/

namespace Session

/-- What is seen of a run: the replies, each with the lookahead behind it. -/
def transcript (s : Session) (actions : List Action) :
    List (Reply × Option Token) :=
  (s.run actions).1.map fun step => (step.1, step.2.reader.lookahead)

/-- Where tokens correspond only to themselves, nothing tells related sessions
    apart. -/
theorem transcript_eq {R : Reader → Reader → Prop} {s s' : Session}
    (sim : Reader.Simulation (· = ·) R) (h : Related R s s')
    {actions : List Action} (ha : ∀ action ∈ actions, Followed R action) :
    s'.transcript actions = s.transcript actions := by
  obtain ⟨hsteps, -⟩ := run_alike sim h ha
  rw [transcript, transcript]
  -- only the steps matter from here on, not the runs they come from
  generalize (s.run actions).1 = steps at hsteps
  generalize (s'.run actions).1 = steps' at hsteps
  induction hsteps with
  | nil => rfl
  | @cons step step' _ _ hone _ ih =>
      obtain ⟨hreply, hsession⟩ := hone
      have hlook := eq_of_rel_eq (sim.lookahead hsession.reader)
      rw [List.map_cons, List.map_cons, ih, hreply.eq, hlook]

end Session

end FormReader
