import FormReader.Proofs.Escapes
import FormReader.Text.Printable

/-! # Printable texts — what stays on one line

    Looking a number up in ascending intervals finds it exactly if one of them
    holds it (`Ranges.contains_iff`): the lookup gives up at the first interval
    that begins beyond the number, and behind that one all do.  With it a fact
    about printable characters is a fact about ONE interval of the table, so that
    no surrogate is printable (`not_surrogate_of_printable`) and none of the
    characters that end a line (`not_lineEnd_of_printable`).

    `Text.lines` takes a text apart wherever a line may end: not only at a line
    feed, but also at the controls and the two separators that end a line or a
    page.  Printable texts joined by line feeds are taken apart into
    themselves (`lines_joined`). -/

namespace FormReader

/-! ## Looking numbers up -/

namespace Ranges

theorem ascending_tail {i : Nat × Nat} {r : Ranges}
    (h : ascending (i :: r) = true) : ascending r = true := by
  cases r with
  | nil => rfl
  | cons next r =>
      simp only [ascending, Bool.and_eq_true] at h
      exact h.2

theorem head_le {low high : Nat} {r : Ranges}
    (h : ascending ((low, high) :: r) = true) : low ≤ high := by
  cases r with
  | nil => simpa [ascending] using h
  | cons next r =>
      simp only [ascending, Bool.and_eq_true, decide_eq_true_eq] at h
      exact h.1.1

/-- Behind an interval all others begin later. -/
theorem lt_of_mem_behind {low high : Nat} {r : Ranges}
    (h : ascending ((low, high) :: r) = true) : ∀ i ∈ r, high < i.1 := by
  induction r generalizing low high with
  | nil => exact List.forall_mem_nil _
  | cons next r ih =>
      obtain ⟨low', high'⟩ := next
      simp only [ascending, Bool.and_eq_true, decide_eq_true_eq] at h
      obtain ⟨⟨-, hgap⟩, htail⟩ := h
      refine List.forall_mem_cons.mpr ⟨Nat.lt_of_succ_lt hgap, fun i hi => ?_⟩
      have hnext := head_le htail
      have hlater := ih htail i hi
      omega

/-- **A NUMBER IS FOUND EXACTLY IF AN INTERVAL HOLDS IT**. -/
theorem contains_iff {r : Ranges} (h : r.ascending = true) (n : Nat) :
    r.contains n = true ↔ ∃ i ∈ r, i.1 ≤ n ∧ n ≤ i.2 := by
  induction r with
  | nil => simp [contains]
  | cons i r ih =>
      obtain ⟨low, high⟩ := i
      have hlater := lt_of_mem_behind h
      have horder := head_le h
      rw [contains, List.exists_mem_cons_iff]
      by_cases hbefore : n < low
      · -- the number lies before this interval, so before all
        rw [if_pos hbefore]
        refine iff_of_false Bool.false_ne_true ?_
        rintro (⟨hlow, -⟩ | ⟨j, hj, hlow, -⟩)
        · exact Nat.not_le_of_lt hbefore hlow
        · have hgap := hlater j hj
          omega
      rw [if_neg hbefore]
      by_cases hhigh : n ≤ high
      · rw [if_pos hhigh]
        exact iff_of_true rfl (.inl ⟨Nat.le_of_not_lt hbefore, hhigh⟩)
      · rw [if_neg hhigh, ih (ascending_tail h)]
        exact (or_iff_right fun hin => hhigh hin.2).symm

end Ranges

/-! ## Printable characters -/

namespace CodePoint

/-- What an interval of the table holds is not printable. -/
theorem isPrintable_eq_false {c : CodePoint} {low high : Nat}
    (hmem : (low, high) ∈ unprintable) (hlow : low ≤ c.val) (hhigh : c.val ≤ high) :
    c.isPrintable = false := by
  have hfound := (Ranges.contains_iff unprintable_ascending c.val).mpr
    ⟨(low, high), hmem, hlow, hhigh⟩
  rw [isPrintable, hfound]
  rfl

theorem not_surrogate_of_printable {c : CodePoint} (h : c.isPrintable = true) :
    c.isSurrogate = false := by
  refine Bool.eq_false_iff.mpr fun hsurrogate => ?_
  simp only [isSurrogate, Bool.and_eq_true, decide_eq_true_eq] at hsurrogate
  have hmem : (0xD7FC, 0xF8FF) ∈ unprintable := by decide +kernel
  have hnot := isPrintable_eq_false (c := c) hmem (by omega) (by omega)
  exact Bool.false_ne_true (hnot.symm.trans h)

/-- The first two intervals of the table leave visible ASCII between them. -/
theorem printable_of_visible {c : CodePoint} (h : c.Visible) :
    c.isPrintable = true := by
  have htable : unprintable = (0x0, 0x1F) :: (0x7F, 0xA0) :: unprintable.drop 2 := rfl
  obtain ⟨hlow, hhigh⟩ := h
  have hbehind : ¬ c.val ≤ 0x1F := by omega
  have hbefore : c.val < 0x7F := by omega
  rw [isPrintable, htable, Ranges.contains, if_neg (Nat.not_lt_zero _), if_neg hbehind,
    Ranges.contains, if_pos hbefore]
  rfl

/-- The characters that end a line: line feed, carriage return, vertical tab, form
    feed, three information separators, the next line control, and the line and
    the paragraph separator. -/
def lineEnds : List Nat :=
  [0x0A, 0x0D, 0x0B, 0x0C, 0x1C, 0x1D, 0x1E, 0x85, 0x2028, 0x2029]

/-- A line ends at this character. -/
def isLineEnd (c : CodePoint) : Bool := lineEnds.contains c.val

theorem not_lineEnd_of_printable {c : CodePoint} (h : c.isPrintable = true) :
    c.isLineEnd = false := by
  refine Bool.eq_false_iff.mpr fun hend => ?_
  have hall : ∀ n ∈ lineEnds, unprintable.contains n = true := by decide +kernel
  have hfound := hall c.val (List.contains_iff_mem.mp hend)
  rw [isPrintable, hfound] at h
  exact Bool.false_ne_true h

end CodePoint

/-! ## Printable texts -/

namespace Text

/-- Every character is printable. -/
def Printable (t : Text) : Prop := ∀ c ∈ t, c.isPrintable = true

theorem Visible.printable {t : Text} (h : t.Visible) : t.Printable :=
  fun c hc => CodePoint.printable_of_visible (h c hc)

theorem Printable.append {t u : Text} (ht : t.Printable) (hu : u.Printable) :
    Printable (t ++ u) :=
  List.forall_mem_append.mpr ⟨ht, hu⟩

theorem Printable.flatMap {α : Type} {xs : List α} {f : α → Text}
    (h : ∀ x ∈ xs, (f x).Printable) : Printable (xs.flatMap f) :=
  List.forall_mem_flatMap.mpr h

/-! ## Lines -/

/-- The lines of a text behind the beginning of one, which comes in reverse;
    `returned` says that a carriage return has just ended a line, so that a line
    feed belongs to it. -/
def linesOnto (returned : Bool) (current : Text) : Text → List Text
  | [] => if current.isEmpty then [] else [current.reverse]
  | c :: rest =>
      if returned && c = '\n' then linesOnto false current rest
      else if c.isLineEnd then current.reverse :: linesOnto (c = '\r') [] rest
      else linesOnto false (c :: current) rest

/-- The lines of a text, without what ends them. -/
def lines (t : Text) : List Text := linesOnto false [] t

/-- What ends no line goes on the line. -/
theorem linesOnto_inside {c : CodePoint} (h : c.isLineEnd = false)
    (current rest : Text) :
    linesOnto false current (c :: rest) = linesOnto false (c :: current) rest := by
  rw [linesOnto, Bool.false_and, if_neg Bool.false_ne_true,
    if_neg (Bool.eq_false_iff.mp h)]

/-- A line feed ends the line. -/
theorem linesOnto_feed (current rest : Text) :
    linesOnto false current (('\n' : CodePoint) :: rest)
      = current.reverse :: linesOnto false [] rest := by
  rw [linesOnto, Bool.false_and, if_neg Bool.false_ne_true, if_pos (by decide)]
  rfl

theorem linesOnto_append {t : Text} (h : ∀ c ∈ t, c.isLineEnd = false)
    (current rest : Text) :
    linesOnto false current (t ++ rest) = linesOnto false (t.reverse ++ current) rest := by
  induction t generalizing current with
  | nil => rfl
  | cons c t ih =>
      obtain ⟨hc, ht⟩ := List.forall_mem_cons.mp h
      rw [List.cons_append, linesOnto_inside hc, ih ht, List.reverse_cons,
        List.append_assoc]
      rfl

/-- **TEXTS ON A LINE EACH ARE THE LINES**: where no line ends inside a text and
    none is empty, joining them by line feeds loses nothing. -/
theorem lines_joined {ts : List Text} (h : ∀ t ∈ ts, ∀ c ∈ t, c.isLineEnd = false)
    (hne : ∀ t ∈ ts, t ≠ []) : lines (joined (.of "\n") ts) = ts := by
  cases ts with
  | nil => rfl
  | cons t ts =>
      rw [joined]
      induction ts generalizing t with
      | nil =>
          obtain ⟨ht, -⟩ := List.forall_mem_cons.mp h
          have hsome := hne t List.mem_cons_self
          rw [List.flatMap_nil, lines, linesOnto_append ht, linesOnto, List.append_nil,
            List.isEmpty_reverse, if_neg (by simpa using hsome), List.reverse_reverse]
      | cons u ts ih =>
          obtain ⟨ht, hrest⟩ := List.forall_mem_cons.mp h
          obtain ⟨-, hnerest⟩ := List.forall_mem_cons.mp hne
          have hfeed := linesOnto_feed t.reverse (u ++ ts.flatMap (Text.of "\n" ++ ·))
          rw [List.reverse_reverse] at hfeed
          rw [List.flatMap_cons, List.append_assoc, lines, linesOnto_append ht,
            List.append_nil]
          exact hfeed.trans (congrArg (t :: ·) (ih u hrest hnerest))

example : lines (.of "a\r\nb\x0bc\n\nd\n")
    = [of "a", of "b", of "c", [], of "d"] := by
  decide

end Text

end FormReader
