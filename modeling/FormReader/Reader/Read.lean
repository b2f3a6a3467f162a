import FormReader.Reader.Basic

/-! # Reading a form — one loop over open lists

    A form is a numeral, an identifier, or a list in parentheses that holds an
    operator and operands.  The reader keeps the lists that are open on a stack
    of its own, so the depth of a form is not limited.  Seen from the top of the
    stack, a token makes one `Move`: it is used up and changes the open lists,
    it is used up and completes the form, or it stays because there is no form
    or an error.

    * `Reader.read` — the next form, none at the end of the input, or an error.
    * `Reader.readAll` — all forms that are left; an error loses the forms
      before it.

    A closing parenthesis needs an open list that has its operator.  A token
    that cannot begin a form is an error in strict mode; in lenient mode it
    reads as the end of the input does, as the absence of a form.  Absence ends
    every open list.  In lenient mode a list without operator passes it on to
    the list around it; any other open list, and in strict mode every one, is
    unmatched. -/

namespace FormReader

/-- Why a form cannot be read. -/
inductive ReadError where
  /-- A parenthesis has no partner; the token is where that shows, none at the end of the input. -/
  | unmatched (token : Option Token)
  /-- The token cannot begin a form. -/
  | unexpected (token : Token)
  /-- The source failed. -/
  | source (failure : SourceFailure)
  deriving DecidableEq

/-- What reading a form answers: the form, or none where no form is. -/
abbrev Answer := Except ReadError (Option Form)

/-- A list whose closing parenthesis is still to come. -/
inductive OpenList where
  /-- The operator is still to come, too. -/
  | bare
  /-- The operator and, in reverse, the operands so far. -/
  | headed (operator : Form) (operands : List Form)

/-- The list with one more part. -/
def OpenList.add : OpenList → Form → OpenList
  | bare, f => headed f []
  | headed g operands, f => headed g (f :: operands)

/-- What the reader does at a token, or at the end of the input. -/
inductive Move where
  /-- Use the token up and go on inside these lists. -/
  | shift (lists : List OpenList)
  /-- Use the token up and answer a form. -/
  | accept (f : Form)
  /-- Leave the token: no form is here. -/
  | absent
  /-- Leave the token: an error. -/
  | fail (e : ReadError)

namespace Move

/-- A form is complete: it goes into the innermost open list, or is the answer. -/
def complete (f : Form) : List OpenList → Move
  | [] => accept f
  | list :: lists => shift (list.add f :: lists)

/-- No form is where one is due; `token` is what stands there. -/
def unwind (mode : Mode) (token : Option Token) : List OpenList → Move
  | [] => absent
  | .headed _ _ :: _ => fail (.unmatched token)
  | .bare :: lists =>
    match mode with
    | .strict => fail (.unmatched token)
    | .lenient => unwind mode token lists

/-- The call that a closing parenthesis completes. -/
def close (t : Token) : List OpenList → Move
  | .headed f operands :: lists => complete (.call f operands.reverse) lists
  | _ => fail (.unmatched (some t))

/-- The move at a lookahead inside open lists. -/
def next (mode : Mode) (lists : List OpenList) : Option Token → Move
  | none => unwind mode none lists
  | some t =>
    match t.role, mode with
    | .numeral, _ => complete (.numeral t.text) lists
    | .identifier, _ => complete (.identifier t.text) lists
    | .opening, _ => shift (.bare :: lists)
    | .closing, _ => close t lists
    | _, .strict => fail (.unexpected t)
    | _, .lenient => unwind mode (some t) lists

/-- Unwinding uses up no token. -/
theorem unwind_stays (mode : Mode) (token : Option Token) (lists : List OpenList) :
    unwind mode token lists = absent ∨ unwind mode token lists = fail (.unmatched token) := by
  induction lists with
  | nil => exact .inl rfl
  | cons list lists ih =>
    cases list with
    | headed => exact .inr rfl
    | bare =>
      cases mode with
      | strict => exact .inr rfl
      | lenient => exact ih

end Move

namespace Reader

/-- The move of a reader inside open lists. -/
def move (r : Reader) (lists : List OpenList) : Move := .next r.mode lists r.lookahead

/-- Where a token is used up there is one. -/
theorem lookahead_of_shift {r : Reader} {lists lists' : List OpenList}
    (h : r.move lists = .shift lists') : ∃ t, r.lookahead = some t := by
  cases looking : r.lookahead with
  | none =>
    rw [move, looking] at h
    rcases Move.unwind_stays r.mode none lists with stays | stays <;> simp [Move.next, stays] at h
  | some t => exact ⟨t, rfl⟩

/-- Where a form is completed a token is used up. -/
theorem lookahead_of_accept {r : Reader} {lists : List OpenList} {f : Form}
    (h : r.move lists = .accept f) : ∃ t, r.lookahead = some t := by
  cases looking : r.lookahead with
  | none =>
    rw [move, looking] at h
    rcases Move.unwind_stays r.mode none lists with stays | stays <;> simp [Move.next, stays] at h
  | some t => exact ⟨t, rfl⟩

/-- Reads on inside open lists, the innermost first. -/
def readFrom (lists : List OpenList) (r : Reader) : Answer × Reader :=
  match _h : r.move lists with
  | .absent => (.ok none, r)
  | .fail e => (.error e, r)
  | .accept f =>
    match r.advance with
    | (.ok (), r') => (.ok (some f), r')
    | (.error e, r') => (.error (.source e), r')
  | .shift lists' =>
    match _advanced : r.advance with
    | (.ok (), r') => readFrom lists' r'
    | (.error e, r') => (.error (.source e), r')
termination_by r.pending
decreasing_by
  obtain ⟨t, looking⟩ := lookahead_of_shift _h
  exact pending_advance looking _advanced

/-- Reading on does what the move says. -/
theorem readFrom_eq (lists : List OpenList) (r : Reader) :
    r.readFrom lists =
      match r.move lists with
      | .absent => (.ok none, r)
      | .fail e => (.error e, r)
      | .accept f =>
        match r.advance with
        | (.ok (), r') => (.ok (some f), r')
        | (.error e, r') => (.error (.source e), r')
      | .shift lists' =>
        match r.advance with
        | (.ok (), r') => r'.readFrom lists'
        | (.error e, r') => (.error (.source e), r') := by
  fun_cases readFrom lists r with
  | case1 absent => rw [absent]
  | case2 e failed => rw [failed]
  | case3 f accepted r' advanced => rw [accepted, advanced]
  | case4 f accepted e r' stuck => rw [accepted, stuck]
  | case5 lists' shifted r' advanced => rw [shifted, advanced]
  | case6 lists' shifted e r' stuck => rw [shifted, stuck]

/-- Reads the next form. -/
def read (r : Reader) : Answer × Reader := r.readFrom []

/-- Reading a form uses something up. -/
theorem pending_readFrom {lists : List OpenList} {r r' : Reader} {f : Form}
    (h : r.readFrom lists = (.ok (some f), r')) : r'.pending < r.pending := by
  fun_induction readFrom lists r with
  | case1 => simp at h
  | case2 => simp at h
  | case3 lists r f' accepted r₁ advanced =>
    obtain ⟨t, looking⟩ := lookahead_of_accept accepted
    cases h
    exact pending_advance looking advanced
  | case4 => simp at h
  | case5 lists r lists' shifted r₁ advanced ih =>
    obtain ⟨t, looking⟩ := lookahead_of_shift shifted
    exact Nat.lt_trans (ih h) (pending_advance looking advanced)
  | case6 => simp at h

theorem pending_read {r r' : Reader} {f : Form} (h : r.read = (.ok (some f), r')) :
    r'.pending < r.pending :=
  pending_readFrom h

/-- Reads all forms that are left, with the forms before in reverse. -/
def readAllOnto (done : List Form) (r : Reader) : Except ReadError (List Form) × Reader :=
  match _h : r.read with
  | (.ok (some f), r') => readAllOnto (f :: done) r'
  | (.ok none, r') => (.ok done.reverse, r')
  | (.error e, r') => (.error e, r')
termination_by r.pending
decreasing_by exact pending_read _h

/-- All forms that are left are the next one and those behind it. -/
theorem readAllOnto_eq (done : List Form) (r : Reader) :
    r.readAllOnto done =
      match r.read with
      | (.ok (some f), r') => r'.readAllOnto (f :: done)
      | (.ok none, r') => (.ok done.reverse, r')
      | (.error e, r') => (.error e, r') := by
  fun_cases readAllOnto done r with
  | case1 f r' formed => rw [formed]
  | case2 r' ended => rw [ended]
  | case3 e r' failed => rw [failed]

/-- Reads all forms that are left. -/
def readAll (r : Reader) : Except ReadError (List Form) × Reader := r.readAllOnto []

/-- Uses the lookahead up and answers the form made from it. -/
def generate (f : Form) (r : Reader) : Except ReadError Form × Reader :=
  match r.advance with
  | (.ok (), r') => (.ok f, r')
  | (.error e, r') => (.error (.source e), r')

end Reader

end FormReader
