import FormReader.Proofs.Endings

/-! # What is unread — a failure holds tokens up and loses none

    A failure of the source costs an item and no token: the reader keeps its
    lookahead, and the tokens behind the failure are still to come.  The UNREAD
    tokens of a reader are those that it would have in front of it if its source
    did not fail.

    * `Source.reliable`, `Reader.reliable` — without the failures;
    * `Reader.unread` — the stream of the reliable reader.

    Each reading takes tokens off the front of the unread ones, a failed reading
    too (`Ending.unread`).  Where it does not fail it does what the reliable
    reader does (`read_reliable`), and where it fails before it has used a token
    up, the reliable reader is the same as before
    (`reliable_of_read_failure`). -/

namespace FormReader

/-- The source without its failures. -/
def Source.reliable (s : Source) : Source :=
  s.filter fun
    | .failure _ => false
    | _ => true

namespace Reader

/-- The reader over the source without its failures. -/
def reliable (r : Reader) : Reader := { r with source := r.source.reliable }

/-- The tokens in front of the reader, whatever failures are between them. -/
def unread (r : Reader) : List Token := r.reliable.stream

variable {r r' : Reader}

/-! ## One advance -/

/-- An advance that succeeds is the one over the source without failures. -/
theorem advance_reliable (h : r.advance = (.ok (), r')) :
    r.reliable.advance = (.ok (), r'.reliable) := by
  obtain ⟨lookahead, source, mode⟩ := r
  rcases source with _ | ⟨t | _ | message, rest⟩
  · cases h
    rfl
  · by_cases ht : t.role = .ending
    · cases (advance_of_ending rfl ht).symm.trans h
      exact advance_of_ending rfl ht
    · cases (advance_of_token rfl ht).symm.trans h
      exact advance_of_token rfl ht
  · cases h
    rfl
  · cases h

/-- An advance that fails loses nothing but the failure. -/
theorem reliable_of_failure {e : SourceFailure}
    (h : r.advance = (.error e, r')) : r'.reliable = r.reliable := by
  obtain ⟨hsource, hr'⟩ := failure_of_advance h
  rw [hr', reliable, reliable, hsource]
  rfl

theorem unread_advance {t : Token} (looking : r.lookahead = some t)
    (h : r.advance = (.ok (), r')) : r.unread = t :: r'.unread :=
  stream_advance looking (advance_reliable h)

theorem unread_failure {e : SourceFailure} (h : r.advance = (.error e, r')) :
    r'.unread = r.unread :=
  congrArg stream (reliable_of_failure h)

theorem lookahead_of_unread {t : Token} {ts : List Token}
    (h : r.unread = t :: ts) : r.lookahead = some t :=
  (stream_eq_cons.mp h).1

/-! ## One reading -/

variable {lists lists' : List OpenList} {ws : List Token} {answer : Answer}

theorem move_reliable (r : Reader) (lists : List OpenList) :
    r.reliable.move lists = r.move lists := rfl

theorem Shifts.reliable (h : Shifts lists r ws lists' r') :
    Shifts lists r.reliable ws lists' r'.reliable := by
  induction h with
  | refl => exact .refl ..
  | step looking hmove hadv _ ih =>
      exact .step looking hmove (advance_reliable hadv) ih

theorem Shifts.unread (h : Shifts lists r ws lists' r') :
    r.unread = ws ++ r'.unread :=
  h.reliable.stream

/-- **NO TOKEN IS LOST OR PUT BACK**: a reading leaves an end of the unread
    tokens. -/
theorem Ending.unread (h : Ending r ws answer r') :
    r'.unread <:+ r.unread := by
  cases h with
  | form hrun hmove hadv =>
      obtain ⟨t, looking⟩ := lookahead_of_accept hmove
      rw [hrun.unread, unread_advance looking hadv]
      exact (List.suffix_cons ..).trans (List.suffix_append ..)
  | failure hrun _ hadv =>
      rw [hrun.unread, unread_failure hadv]
      exact List.suffix_append ..
  | stop hrun _ _ =>
      rw [hrun.unread]
      exact List.suffix_append ..

theorem unread_of_read (h : r.read = (answer, r')) : r'.unread <:+ r.unread := by
  obtain ⟨ws, hend⟩ := read_ends h
  exact hend.unread

theorem readFrom_reliable (h : r.readFrom lists = (answer, r'))
    (hno : ∀ e, answer ≠ .error (.source e)) :
    r.reliable.readFrom lists = (answer, r'.reliable) := by
  fun_induction readFrom lists r with
  | case1 lists r hmove =>
      cases h
      rw [readFrom_eq, move_reliable, hmove]
  | case2 lists r e hmove =>
      cases h
      rw [readFrom_eq, move_reliable, hmove]
  | case3 lists r f hmove r₁ hadv =>
      cases h
      rw [readFrom_eq, move_reliable, hmove,
        advance_reliable hadv]
  | case4 lists r f hmove e r₁ hadv =>
      cases h
      exact absurd rfl (hno e)
  | case5 lists r lists₁ hmove r₁ hadv ih =>
      rw [readFrom_eq, move_reliable, hmove,
        advance_reliable hadv]
      exact ih h
  | case6 lists r lists₁ hmove e r₁ hadv =>
      cases h
      exact absurd rfl (hno e)

/-- Where a reading does not fail, it does what the reliable reader does. -/
theorem read_reliable (h : r.read = (answer, r'))
    (hno : ∀ e, answer ≠ .error (.source e)) :
    r.reliable.read = (answer, r'.reliable) :=
  readFrom_reliable h hno

/-- A reading that fails before it has used a token up has changed nothing but
    the failures that are still to come. -/
theorem reliable_of_read_failure {e : SourceFailure}
    (h : r.read = (.error (.source e), r')) (hsame : r'.unread = r.unread) :
    r'.reliable = r.reliable := by
  obtain ⟨ws, lists, r₁, hrun, hadv⟩ := failure_of_read h
  rw [unread_failure hadv, hrun.unread] at hsame
  obtain rfl := List.self_eq_append_left.mp hsame
  cases hrun
  exact reliable_of_failure hadv

end Reader

end FormReader
