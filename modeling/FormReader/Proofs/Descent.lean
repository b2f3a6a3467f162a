import FormReader.Proofs.OpenLists

/-! # Descent — reading a form by recursion

    The reader keeps its open lists on a stack.  Written by recursion the same
    grammar needs none: a form is read by a dispatch on the lookahead, the
    operator of a call one level deeper, and the operands one after another up
    to the closing parenthesis.

    `descend` is that recursion, and the loop answers what it answers, from
    every reader over every source (`read_eq_descend`).  An open list of the
    loop is a call of the recursion that has not returned: `OpenList.proceed` is
    how it goes on, and `OpenList.receive` is what it makes of an outcome one
    level deeper.  The recursion inside open lists makes the moves of the loop
    (`descendFrom_eq`), so both are the same by the loop's own induction. -/

namespace FormReader

namespace Reader

variable {r r' : Reader} {t : Token} {m n : Nat}

/-! ## The recursion -/

/-- An error in strict mode, and in lenient mode the absence of a form. -/
def refuse (e : ReadError) (r : Reader) : Answer × Reader :=
  match r.mode with
  | .strict => (.error e, r)
  | .lenient => (.ok none, r)

/-- The form whose last token is the lookahead. -/
def finish (f : Form) (r : Reader) : Answer × Reader :=
  match r.advance with
  | (.ok (), r') => (.ok (some f), r')
  | (.error e, r') => (.error (.source e), r')

theorem refuse_below (e : ReadError) (r : Reader) (f : Form)
    (h : (r.refuse e).1 = .ok (some f)) : (r.refuse e).2.pending < n := by
  rw [refuse] at h
  cases hmode : r.mode with
  | strict =>
      rw [hmode] at h
      cases h
  | lenient =>
      rw [hmode] at h
      cases h

theorem finish_below (looking : r.lookahead = some t) (f g : Form)
    (h : (r.finish f).1 = .ok (some g)) :
    (r.finish f).2.pending < r.pending := by
  rw [finish] at h ⊢
  rcases hadv : r.advance with ⟨e | ⟨⟩, r'⟩
  · rw [hadv] at h
    cases h
  · exact pending_advance looking hadv

/-- An answer and the reader behind it.  With a form fewer than `n` items are
    left, which is why the recursion ends. -/
abbrev Outcome (n : Nat) :=
  { out : Answer × Reader // ∀ f, out.1 = .ok (some f) → out.2.pending < n }

def Outcome.weaken (out : Outcome m) (h : m ≤ n) : Outcome n :=
  ⟨out.val, fun f hf => Nat.lt_of_lt_of_le (out.property f hf) h⟩

mutual

/-- A form, by a dispatch on the lookahead. -/
def formBelow (r : Reader) : Outcome r.pending :=
  match looking : r.lookahead with
  | none => ⟨(.ok none, r), nofun⟩
  | some t =>
    match t.role with
    | .numeral => ⟨r.finish (.numeral t.text), finish_below looking _⟩
    | .identifier => ⟨r.finish (.identifier t.text), finish_below looking _⟩
    | .opening =>
      match advanced : r.advance with
      | (.error e, r₁) => ⟨(.error (.source e), r₁), nofun⟩
      | (.ok (), r₁) =>
        -- the token used up is what the operator one level deeper is paid with
        have less := pending_advance looking advanced
        r₁.callBelow.weaken (Nat.le_of_lt less)
    | .closing => ⟨(.error (.unmatched (some t)), r), nofun⟩
    | .ending | .other => ⟨r.refuse (.unexpected t), refuse_below _ r⟩
termination_by (r.pending, 0)

/-- The call whose operator begins at the lookahead. -/
def callBelow (r : Reader) : Outcome r.pending :=
  match r.formBelow with
  | ⟨(.error e, r₁), _⟩ => ⟨(.error e, r₁), nofun⟩
  | ⟨(.ok none, r₁), _⟩ =>
    ⟨r₁.refuse (.unmatched r₁.lookahead), refuse_below _ r₁⟩
  | ⟨(.ok (some f), r₁), below⟩ =>
    have less := below f rfl
    (r₁.operandsBelow f []).weaken (Nat.le_of_lt less)
termination_by (r.pending, 1)

/-- The call of `f` on the operands so far and those from the lookahead on. -/
def operandsBelow (f : Form) (xs : List Form) (r : Reader) :
    Outcome r.pending :=
  match looking : r.lookahead with
  | none => ⟨(.error (.unmatched none), r), nofun⟩
  | some t =>
    if t.role = .closing then
      ⟨r.finish (.call f xs), finish_below looking _⟩
    else
      -- nothing is used up before the operand, hence the second measure
      match r.formBelow with
      | ⟨(.error e, r₁), _⟩ => ⟨(.error e, r₁), nofun⟩
      | ⟨(.ok none, r₁), _⟩ => ⟨(.error (.unmatched r₁.lookahead), r₁), nofun⟩
      | ⟨(.ok (some x), r₁), below⟩ =>
        have less := below x rfl
        (r₁.operandsBelow f (xs ++ [x])).weaken (Nat.le_of_lt less)
termination_by (r.pending, 1)

end

/-- Reads the next form by recursion. -/
def descend (r : Reader) : Answer × Reader := r.formBelow.val

/-- Reads on behind an opening parenthesis. -/
def descendCall (r : Reader) : Answer × Reader := r.callBelow.val

/-- Reads on behind an operator and its first operands. -/
def descendOperands (f : Form) (xs : List Form) (r : Reader) :
    Answer × Reader :=
  (r.operandsBelow f xs).val

theorem descend_eq (r : Reader) :
    r.descend =
      match r.lookahead with
      | none => (.ok none, r)
      | some t =>
        match t.role with
        | .numeral => r.finish (.numeral t.text)
        | .identifier => r.finish (.identifier t.text)
        | .opening =>
          match r.advance with
          | (.error e, r₁) => (.error (.source e), r₁)
          | (.ok (), r₁) => r₁.descendCall
        | .closing => (.error (.unmatched (some t)), r)
        | .ending | .other => r.refuse (.unexpected t) := by
  rw [descend, formBelow]
  split
  · next looking => simp only [looking]
  · next t looking =>
      simp only [looking]
      cases t.role with
      | opening =>
          simp only
          split
          · next hadv => simp only [hadv]
          · next hadv => simp only [hadv]; rfl
      | _ => rfl

theorem descendCall_eq (r : Reader) :
    r.descendCall =
      match r.descend with
      | (.error e, r₁) => (.error e, r₁)
      | (.ok none, r₁) => r₁.refuse (.unmatched r₁.lookahead)
      | (.ok (some f), r₁) => r₁.descendOperands f [] := by
  rw [descendCall, callBelow, descend]
  rcases r.formBelow with ⟨⟨e | _ | f, r₁⟩, _⟩
  · rfl
  · rfl
  · rfl

theorem descendOperands_eq (f : Form) (xs : List Form) (r : Reader) :
    r.descendOperands f xs =
      match r.lookahead with
      | none => (.error (.unmatched none), r)
      | some t =>
        if t.role = .closing then r.finish (.call f xs)
        else
          match r.descend with
          | (.error e, r₁) => (.error e, r₁)
          | (.ok none, r₁) => (.error (.unmatched r₁.lookahead), r₁)
          | (.ok (some x), r₁) => r₁.descendOperands f (xs ++ [x]) := by
  rw [descendOperands, operandsBelow, descend]
  split
  · next looking => simp only [looking]
  · next t looking =>
      simp only [looking]
      by_cases hr : t.role = .closing
      · rw [if_pos hr, if_pos hr]
      · rw [if_neg hr, if_neg hr]
        rcases r.formBelow with ⟨⟨e | _ | x, r₁⟩, _⟩
        · rfl
        · rfl
        · rfl

end Reader

/-! ## Open lists as calls that have not returned -/

open Reader

namespace OpenList

/-- How the call goes on at a reader. -/
def proceed : OpenList → Reader → Answer × Reader
  | bare, r => r.descendCall
  | headed f xs, r => r.descendOperands f xs.reverse

/-- What the call makes of an outcome one level deeper. -/
def receive : OpenList → Answer × Reader → Answer × Reader
  | _, (.error e, r) => (.error e, r)
  | bare, (.ok none, r) => r.refuse (.unmatched r.lookahead)
  | headed _ _, (.ok none, r) => (.error (.unmatched r.lookahead), r)
  | list, (.ok (some f), r) => (list.add f).proceed r

/-- What all calls make of an outcome, the innermost first. -/
def receiveAll (lists : List OpenList) (out : Answer × Reader) :
    Answer × Reader :=
  lists.foldl (fun out list => list.receive out) out

theorem receiveAll_cons (list : OpenList) (lists : List OpenList)
    (out : Answer × Reader) :
    receiveAll (list :: lists) out = receiveAll lists (list.receive out) := rfl

/-- Errors pass through all calls. -/
theorem receiveAll_error (lists : List OpenList) (e : ReadError) (r : Reader) :
    receiveAll lists (.error e, r) = (.error e, r) := by
  induction lists with
  | nil => rfl
  | cons list lists ih =>
      rw [receiveAll_cons]
      cases list with
      | bare => exact ih
      | headed f xs => exact ih

/-- In front of anything but a closing token, a call asks for one more form. -/
theorem proceed_eq_receive (list : OpenList) {r : Reader}
    (h : ∀ t, r.lookahead = some t → t.role ≠ .closing) :
    list.proceed r = list.receive r.descend := by
  cases list with
  | bare =>
      rw [proceed, descendCall_eq]
      rcases r.descend with ⟨e | _ | f, r₁⟩
      · rfl
      · rfl
      · rfl
  | headed f xs =>
      rw [proceed, descendOperands_eq]
      cases looking : r.lookahead with
      | none =>
          rw [descend_eq, looking]
          show _ = (Except.error (ReadError.unmatched r.lookahead), r)
          rw [looking]
      | some t =>
          show (if t.role = .closing then _ else _) = _
          rw [if_neg (h t looking)]
          rcases r.descend with ⟨e | _ | x, r₁⟩
          · rfl
          · rfl
          · show _ = r₁.descendOperands f (x :: xs).reverse
            rw [List.reverse_cons]

end OpenList

open OpenList

namespace Reader

variable {r r' : Reader}

/-! ## The moves of the recursion -/

/-- The recursion inside open lists, the innermost first. -/
def descendFrom : List OpenList → Reader → Answer × Reader
  | [], r => r.descend
  | list :: lists, r => receiveAll lists (list.proceed r)

/-- A move, and the recursion inside the open lists it leads to. -/
def follow (r : Reader) : Move → Answer × Reader
  | .absent => (.ok none, r)
  | .fail e => (.error e, r)
  | .accept f => r.finish f
  | .shift lists =>
    match r.advance with
    | (.ok (), r') => r'.descendFrom lists
    | (.error e, r') => (.error (.source e), r')

/-- Calls that receive no form unwind. -/
theorem receiveAll_none (lists : List OpenList) (r : Reader) :
    receiveAll lists (.ok none, r)
      = r.follow (.unwind r.mode r.lookahead lists) := by
  induction lists with
  | nil => rfl
  | cons list lists ih =>
      rw [receiveAll_cons]
      cases list with
      | headed f xs => exact receiveAll_error lists _ r
      | bare =>
          -- a call without operator passes absence on, in lenient mode only
          show receiveAll lists (r.refuse _) = _
          cases hmode : r.mode with
          | strict =>
              rw [refuse, hmode]
              exact receiveAll_error lists _ r
          | lenient =>
              rw [refuse, hmode]
              rw [hmode] at ih
              exact ih

/-- Calls that receive a form at its last token take it in. -/
theorem receiveAll_finish (lists : List OpenList) (f : Form) (r : Reader) :
    receiveAll lists (r.finish f) = r.follow (.complete f lists) := by
  cases lists with
  | nil => rfl
  | cons list lists =>
      rw [finish, Move.complete, follow]
      rcases r.advance with ⟨e | ⟨⟩, r'⟩
      · exact receiveAll_error (list :: lists) _ r'
      · cases list with
        | bare => rfl
        | headed g xs => rfl

/-- In front of anything but a closing token, the recursion asks for a form
    inside all open lists. -/
theorem descendFrom_eq_receiveAll (lists : List OpenList)
    (h : ∀ t, r.lookahead = some t → t.role ≠ .closing) :
    r.descendFrom lists = receiveAll lists r.descend := by
  cases lists with
  | nil => rfl
  | cons list lists =>
      rw [receiveAll_cons, ← proceed_eq_receive list h]
      rfl

/-- In front of a closing token, the innermost call closes or fails. -/
theorem descendFrom_closing (lists : List OpenList) {t : Token}
    (looking : r.lookahead = some t) (hr : t.role = .closing) :
    r.descendFrom lists = r.follow (.close t lists) := by
  have hdescend : r.descend = (.error (.unmatched (some t)), r) := by
    rw [descend_eq, looking]
    simp only [hr]
  cases lists with
  | nil => exact hdescend
  | cons list lists =>
      cases list with
      | bare =>
          -- the operator is due, and a closing token begins no form
          show receiveAll lists r.descendCall = _
          rw [descendCall_eq, hdescend]
          exact receiveAll_error lists _ r
      | headed f xs =>
          show receiveAll lists (r.descendOperands f xs.reverse) = _
          rw [descendOperands_eq, looking]
          show receiveAll lists (if t.role = .closing then _ else _) = _
          rw [if_pos hr]
          exact receiveAll_finish lists _ r

/-- A token that the recursion refuses is one that the loop refuses. -/
theorem receiveAll_refuse (lists : List OpenList) {t : Token}
    (looking : r.lookahead = some t) (hr : t.role = .ending ∨ t.role = .other) :
    receiveAll lists (r.refuse (.unexpected t))
      = r.follow (.next r.mode lists (some t)) := by
  rw [refuse, Move.next_of_no_lexeme (Token.lexeme?_none.mpr hr)]
  cases hmode : r.mode with
  | strict => exact receiveAll_error lists _ r
  | lenient =>
      have hunwind := receiveAll_none lists r
      rw [hmode, looking] at hunwind
      exact hunwind

/-- **THE SAME MOVES**: inside open lists the recursion makes the move that the
    loop makes, and goes on inside the lists that the loop goes on in. -/
theorem descendFrom_eq (lists : List OpenList) (r : Reader) :
    r.descendFrom lists = r.follow (r.move lists) := by
  rw [move]
  cases looking : r.lookahead with
  | none =>
      have hno : ∀ u, r.lookahead = some u → u.role ≠ .closing := by
        intro u hu
        cases looking.symm.trans hu
      rw [descendFrom_eq_receiveAll lists hno, descend_eq, looking]
      have hunwind := receiveAll_none lists r
      rw [looking] at hunwind
      exact hunwind
  | some t =>
      by_cases hclosing : t.role = .closing
      · rw [descendFrom_closing lists looking hclosing]
        simp only [Move.next, hclosing]
      · have hno : ∀ u, r.lookahead = some u → u.role ≠ .closing := by
          intro u hu
          rw [looking] at hu
          exact Option.some.inj hu ▸ hclosing
        rw [descendFrom_eq_receiveAll lists hno, descend_eq, looking]
        cases hr : t.role with
        | numeral =>
            simp only [Move.next, hr]
            exact receiveAll_finish lists _ r
        | identifier =>
            simp only [Move.next, hr]
            exact receiveAll_finish lists _ r
        | opening =>
            simp only [Move.next, hr, follow]
            rcases r.advance with ⟨e | ⟨⟩, r₁⟩
            · exact receiveAll_error lists _ r₁
            · rfl
        | closing => exact absurd hr hclosing
        | ending =>
            simp only [hr]
            exact receiveAll_refuse lists looking (Or.inl hr)
        | other =>
            simp only [hr]
            exact receiveAll_refuse lists looking (Or.inr hr)

/-- The loop and the recursion go on alike inside open lists. -/
theorem readFrom_eq_descendFrom (lists : List OpenList) (r : Reader) :
    r.readFrom lists = r.descendFrom lists := by
  -- by the recursion of the loop, which makes the same moves
  fun_induction readFrom lists r with
  | case1 lists r hmove =>
      rw [descendFrom_eq, hmove]
      rfl
  | case2 lists r e hmove =>
      rw [descendFrom_eq, hmove]
      rfl
  | case3 lists r f hmove r₁ hadv =>
      rw [descendFrom_eq, hmove, follow, finish, hadv]
  | case4 lists r f hmove e r₁ hadv =>
      rw [descendFrom_eq, hmove, follow, finish, hadv]
  | case5 lists r lists₁ hmove r₁ hadv ih =>
      rw [descendFrom_eq, hmove, follow, hadv]
      exact ih
  | case6 lists r lists₁ hmove e r₁ hadv =>
      rw [descendFrom_eq, hmove, follow, hadv]

/-- **THE LOOP IS THE RECURSION**: from every reader, in either mode and over
    every source, reading the next form with a stack of open lists gives the
    outcome of the recursive descent and leaves the same reader behind. -/
theorem read_eq_descend (r : Reader) : r.read = r.descend :=
  readFrom_eq_descendFrom [] r

end Reader

end FormReader
