import FormReader.Text.Line

/-! # Line ends — texts that differ in how their lines end

    Two texts are the same UP TO LINE ENDS if they differ in the runs of line
    feeds and carriage returns only: where one has such a run, the other has
    one too, of any length (`Text.UpToLineEnds`).  The relation goes both ways,
    so whatever is shown to be taken over from one text to the other is shared
    by the two.

    Normalising the line ends of a text changes nothing else, and changes
    nothing at all without a carriage return. -/

namespace FormReader

/-- A line feed or a carriage return. -/
def CodePoint.EndsLine (c : CodePoint) : Prop := c = '\n' ∨ c = '\r'

instance (c : CodePoint) : Decidable c.EndsLine :=
  inferInstanceAs (Decidable (_ ∨ _))

theorem CodePoint.EndsLine.ne {c d : CodePoint} (hc : c.EndsLine)
    (hd : ¬ d.EndsLine) : c ≠ d := by
  rintro rfl
  exact hd hc

/-- A predicate that fails of both line ends fails of any. -/
theorem CodePoint.EndsLine.false_of {p : CodePoint → Bool}
    (hfeed : p '\n' = false) (hreturn : p '\r' = false) {c : CodePoint}
    (h : c.EndsLine) : p c = false := by
  rcases h with rfl | rfl
  · exact hfeed
  · exact hreturn

namespace Text

/-- The texts are the same but for their runs of line ends. -/
inductive UpToLineEnds : Text → Text → Prop
  | nil : UpToLineEnds [] []
  | cons {c : CodePoint} {t u : Text} (hc : ¬ c.EndsLine)
      (h : UpToLineEnds t u) : UpToLineEnds (c :: t) (c :: u)
  /-- A run of line ends stands for another one. -/
  | lineEnds {c d : CodePoint} {cs ds t u : Text}
      (hcs : ∀ x ∈ c :: cs, x.EndsLine) (hds : ∀ x ∈ d :: ds, x.EndsLine)
      (h : UpToLineEnds t u) :
      UpToLineEnds (c :: (cs ++ t)) (d :: (ds ++ u))

namespace UpToLineEnds

variable {t u : Text}

theorem symm (h : UpToLineEnds t u) : UpToLineEnds u t := by
  induction h with
  | nil => exact .nil
  | cons hc _ ih => exact .cons hc ih
  | lineEnds hcs hds _ ih => exact .lineEnds hds hcs ih

theorem eq_nil (h : UpToLineEnds [] u) : u = [] := by
  cases h
  rfl

/-- A code point that ends no line is met in both texts. -/
theorem exists_cons {c : CodePoint} (h : UpToLineEnds (c :: t) u)
    (hc : ¬ c.EndsLine) : ∃ v, u = c :: v ∧ UpToLineEnds t v := by
  cases h with
  | cons _ h => exact ⟨_, rfl, h⟩
  | lineEnds hcs _ _ => exact absurd (hcs c List.mem_cons_self) hc

/-- The other text begins with no code point that the text does not begin with,
    line ends apart. -/
theorem exists_head {c : CodePoint} (h : UpToLineEnds (c :: t) u) :
    ∃ d v, u = d :: v ∧ ∀ k : CodePoint, ¬ k.EndsLine → c ≠ k → d ≠ k := by
  cases h with
  | cons _ _ => exact ⟨c, _, rfl, fun _ _ hne => hne⟩
  | @lineEnds _ d _ ds _ _ _ hds _ =>
      exact ⟨d, _, rfl, fun _ hk _ => (hds d List.mem_cons_self).ne hk⟩

theorem ne_nil (h : UpToLineEnds t u) (ht : t ≠ []) : u ≠ [] := by
  rintro rfl
  exact ht h.symm.eq_nil

/-- A beginning without line ends is met in both texts. -/
theorem exists_append {w rest : Text} (h : UpToLineEnds (w ++ rest) u)
    (hw : ∀ c ∈ w, ¬ c.EndsLine) : ∃ v, u = w ++ v ∧ UpToLineEnds rest v := by
  induction w generalizing u with
  | nil => exact ⟨u, rfl, h⟩
  | cons c w ih =>
      obtain ⟨hc, hw⟩ := List.forall_mem_cons.mp hw
      obtain ⟨u, rfl, hbehind⟩ := h.exists_cons hc
      obtain ⟨v, rfl, hrest⟩ := ih hbehind hw
      exact ⟨v, rfl, hrest⟩

/-- Code points are taken alike as long as they end no line. -/
theorem takeWhile_eq (h : UpToLineEnds t u) {p : CodePoint → Bool}
    (hp : ∀ c, c.EndsLine → p c = false) :
    t.takeWhile p = u.takeWhile p ∧
      UpToLineEnds (t.dropWhile p) (u.dropWhile p) := by
  induction h with
  | nil => exact ⟨rfl, .nil⟩
  | @cons c t u hc h ih =>
      by_cases hpc : p c = true
      · simpa [hpc] using ih
      · simpa [hpc] using h.cons hc
  | @lineEnds c d cs ds t u hcs hds h ih =>
      have hpc := hp c (hcs c List.mem_cons_self)
      have hpd := hp d (hds d List.mem_cons_self)
      simpa [hpc, hpd] using h.lineEnds hcs hds

end UpToLineEnds

/-! ## Normalising -/

/-- The text with its line ends normalised, by recursion: behind a carriage
    return, which was written as a line feed, a line feed is not written. -/
def normalized : (returned : Bool) → Text → Text
  | _, [] => []
  | returned, c :: t =>
      if c = '\r' then '\n' :: normalized true t
      else if returned && c = '\n' then normalized false t
      else c :: normalized false t

theorem normalizeLineEnds_eq (t : Text) :
    t.normalizeLineEnds = normalized false t := by
  have honto : ∀ returned done, normalizeLineEndsOnto returned done t
      = (normalized returned t).reverse ++ done := by
    intro returned done
    fun_induction normalizeLineEndsOnto returned done t with
    | case1 => rfl
    | case2 returned done rest ih =>
        rw [normalized, if_pos rfl, ih, List.reverse_cons, List.append_assoc]
        rfl
    | case3 returned done c rest hr hn ih =>
        rw [normalized, if_neg hr, if_pos hn, ih]
    | case4 returned done c rest hr hn ih =>
        rw [normalized, if_neg hr, if_neg hn, ih, List.reverse_cons,
          List.append_assoc]
        rfl
  rw [normalizeLineEnds, honto, List.append_nil, List.reverse_reverse]

/-- A text is the same as its normalisation up to line ends.  Behind a carriage
    return the line feed that stands for it is counted in. -/
theorem upToLineEnds_normalized (t : Text) :
    UpToLineEnds t (normalized false t) ∧
      UpToLineEnds ('\r' :: t) ('\n' :: normalized true t) := by
  have hreturn : ∀ c ∈ [CodePoint.ofChar '\r'], c.EndsLine := by decide
  have hboth : ∀ c ∈ [CodePoint.ofChar '\r', '\n'], c.EndsLine := by decide
  have hfeed : ∀ c ∈ [CodePoint.ofChar '\n'], c.EndsLine := by decide
  induction t with
  | nil => exact ⟨.nil, UpToLineEnds.nil.lineEnds hreturn hfeed⟩
  | cons c t ih =>
      obtain ⟨hplain, hreturned⟩ := ih
      rw [normalized, normalized]
      by_cases hr : c = '\r'
      · subst hr
        rw [if_pos rfl, if_pos rfl]
        exact ⟨hreturned, hreturned.lineEnds hreturn hfeed⟩
      rw [if_neg hr, if_neg hr]
      by_cases hn : c = '\n'
      · subst hn
        rw [if_neg (by decide), if_pos (by decide)]
        exact ⟨hplain.lineEnds hfeed hfeed, hplain.lineEnds hboth hfeed⟩
      · have hkept := hplain.cons (not_or.mpr ⟨hn, hr⟩)
        rw [if_neg (by simp), if_neg (by simp [hn])]
        exact ⟨hkept, hkept.lineEnds hreturn hfeed⟩

/-- **NORMALISING CHANGES LINE ENDS ONLY**. -/
theorem upToLineEnds_normalizeLineEnds (t : Text) :
    UpToLineEnds t t.normalizeLineEnds := by
  rw [normalizeLineEnds_eq]
  exact (upToLineEnds_normalized t).1

/-- A text without carriage returns stays as it is. -/
theorem normalizeLineEnds_of_not_mem {t : Text}
    (h : CodePoint.ofChar '\r' ∉ t) : t.normalizeLineEnds = t := by
  rw [normalizeLineEnds_eq]
  induction t with
  | nil => rfl
  | cons c t ih =>
      obtain ⟨hc, ht⟩ := not_or.mp (mt List.mem_cons.mpr h)
      rw [normalized, if_neg (Ne.symm hc), if_neg (by simp), ih ht]

end Text

end FormReader
