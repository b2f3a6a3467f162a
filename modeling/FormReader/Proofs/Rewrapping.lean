import FormReader.Proofs.Decoding
import FormReader.Proofs.LineEnds

/-! # Rewrapping — how lines end does not matter to a decoder

    Of two texts that are the same up to line ends, every scanner reads the same
    and leaves what is the same up to line ends, because a line end is a blank
    between tokens, ends a number or a constant, and is refused inside a string.
    So a decoder takes over the value (`decodeFrom_upToLineEnds`, by the
    recursion of the decoder).  Only successes are followed: the positions in
    the errors of the two texts need not agree. -/

namespace FormReader

theorem CodePoint.EndsLine.isBlank {c : CodePoint} (h : c.EndsLine) :
    Json.isBlank c = true := by
  rcases h with rfl | rfl
  · decide
  · decide

namespace Json

variable {t u rest : Text}

/-! ## Blanks -/

theorem skipBlanks_upToLineEnds (h : t.UpToLineEnds u) :
    (skipBlanks t).UpToLineEnds (skipBlanks u) := by
  induction h with
  | nil => exact .nil
  | @cons c t u hc h ih =>
      cases hblank : isBlank c with
      | true => simpa [skipBlanks, hblank] using ih
      | false => simpa [skipBlanks, hblank] using h.cons hc
  | @lineEnds c d cs ds t u hcs hds h ih =>
      have hleft : Gap (c :: cs) := fun x hx => (hcs x hx).isBlank
      have hright : Gap (d :: ds) := fun x hx => (hds x hx).isBlank
      rw [← List.cons_append, ← List.cons_append, skipBlanks_append hleft,
        skipBlanks_append hright]
      exact ih

/-- What stands behind blanks ends no line. -/
theorem not_endsLine_of_skipBlanks {c : CodePoint}
    (h : skipBlanks t = c :: rest) : ¬ c.EndsLine := by
  intro hc
  have hhead := List.head?_dropWhile_not isBlank t
  rw [show t.dropWhile isBlank = c :: rest from h] at hhead
  exact Bool.false_ne_true (hhead.symm.trans hc.isBlank)

theorem exists_of_skipBlanks {c : CodePoint} (htexts : t.UpToLineEnds u)
    (h : skipBlanks t = c :: rest) :
    ∃ behind, skipBlanks u = c :: behind ∧ rest.UpToLineEnds behind := by
  have hblanks := skipBlanks_upToLineEnds htexts
  rw [h] at hblanks
  exact hblanks.exists_cons (not_endsLine_of_skipBlanks h)

theorem skipBlanks_eq_nil (htexts : t.UpToLineEnds u) (h : skipBlanks t = []) :
    skipBlanks u = [] := by
  have hblanks := skipBlanks_upToLineEnds htexts
  rw [h] at hblanks
  exact hblanks.eq_nil

/-! ## Strings -/

theorem not_endsLine_of_hexValue? {c : CodePoint} {n : Nat}
    (h : Text.hexValue? c = some n) : ¬ c.EndsLine := by
  rintro (rfl | rfl)
  · cases h
  · cases h

theorem not_endsLine_of_letterEscape? {c l : CodePoint}
    (h : letterEscape? c = some l) : ¬ c.EndsLine := by
  rintro (rfl | rfl)
  · cases h
  · cases h

/-- The digits of a unit end no line. -/
theorem not_endsLine_of_unit? {a b c d x : CodePoint}
    (h : unit? a b c d = some x) : ∀ y ∈ [a, b, c, d], ¬ y.EndsLine := by
  simp only [unit?, Option.bind_eq_bind, Option.bind_eq_some_iff] at h
  obtain ⟨_, ha, _, hb, _, hc, _, hd, -⟩ := h
  simp only [List.forall_mem_cons]
  exact ⟨not_endsLine_of_hexValue? ha, not_endsLine_of_hexValue? hb,
    not_endsLine_of_hexValue? hc, not_endsLine_of_hexValue? hd,
    List.forall_mem_nil _⟩

/-- A string that is scanned holds no line end as such, so it is met in both
    texts. -/
theorem scanStringFrom_upToLineEnds {whole whole' text : Text} {s : Scanned}
    (htexts : t.UpToLineEnds u)
    (h : scanStringFrom whole s t = .ok (text, rest)) :
    ∃ behind, scanStringFrom whole' s u = .ok (text, behind) ∧
      rest.UpToLineEnds behind := by
  have hquote : ¬ CodePoint.EndsLine '\x22' := by decide
  have hslash : ¬ CodePoint.EndsLine '\\' := by decide
  have hunitmark : ¬ CodePoint.EndsLine 'u' := by decide
  fun_induction scanStringFrom whole s t generalizing u with
  | case1 => cases h
  | case2 s rest =>
      cases h
      obtain ⟨v, rfl, hrest⟩ := htexts.exists_cons hquote
      exact ⟨v, by rw [scanStringFrom.eq_def]; exact if_pos rfl, hrest⟩
  | case3 => cases h
  | case4 s a b c d next more x hunit hne ih =>
      obtain ⟨_, rfl, hmark⟩ := htexts.exists_cons hslash
      obtain ⟨_, rfl, hdigits⟩ := hmark.exists_cons hunitmark
      obtain ⟨v, rfl, hbehind⟩ := hdigits.exists_append (w := [a, b, c, d])
        (not_endsLine_of_unit? hunit)
      obtain ⟨next', more', rfl⟩ :=
        List.exists_cons_of_ne_nil (hbehind.ne_nil (List.cons_ne_nil next more))
      show ∃ behind, scanStringFrom whole' s (CodePoint.ofChar '\\' ::
        CodePoint.ofChar 'u' :: a :: b :: c :: d :: next' :: more') = _ ∧ _
      rw [scanStringFrom, if_neg hne, if_pos rfl, if_pos rfl, hunit]
      exact ih hbehind h
  | case5 => cases h
  | case6 => cases h
  | case7 s e behind hunit l hletter hne ih =>
      obtain ⟨_, rfl, hescape⟩ := htexts.exists_cons hslash
      obtain ⟨v, rfl, hbehind⟩ :=
        hescape.exists_cons (not_endsLine_of_letterEscape? hletter)
      rw [scanStringFrom.eq_def]
      dsimp only
      rw [if_neg hne, if_pos rfl, if_neg hunit, hletter]
      exact ih hbehind h
  | case8 => cases h
  | case9 => cases h
  | case10 s c rest hquote hslash hplain ih =>
      have hc : ¬ c.EndsLine := by
        rintro (rfl | rfl)
        · exact hplain (by decide)
        · exact hplain (by decide)
      obtain ⟨v, rfl, hv⟩ := htexts.exists_cons hc
      rw [scanStringFrom.eq_def]
      dsimp only
      rw [if_neg hquote, if_neg hslash, if_neg hplain]
      exact ih hv h

theorem scanString_upToLineEnds {text : Text} (htexts : t.UpToLineEnds u)
    (h : scanString t = .ok (text, rest)) :
    ∃ behind, scanString u = .ok (text, behind) ∧ rest.UpToLineEnds behind :=
  scanStringFrom_upToLineEnds htexts h

/-! ## Numbers -/

/-- What two scanners read is the same, and what they leave is the same up to
    line ends. -/
def SameRead {γ : Type} (x y : γ × Text) : Prop := x.1 = y.1 ∧ x.2.UpToLineEnds y.2

/-- A scanner that leaves line ends alone reads the same of two runs of them. -/
theorem sameRead_lineEnds {γ : Type} {scan : Text → γ × Text} {r : γ}
    (hscan : ∀ {c : CodePoint}, c.EndsLine → ∀ t, scan (c :: t) = (r, c :: t))
    {c d : CodePoint} {cs ds : Text} (hcs : ∀ x ∈ c :: cs, x.EndsLine)
    (hds : ∀ x ∈ d :: ds, x.EndsLine) (h : t.UpToLineEnds u) :
    SameRead (scan (c :: (cs ++ t))) (scan (d :: (ds ++ u))) := by
  rw [hscan (hcs c List.mem_cons_self), hscan (hds d List.mem_cons_self)]
  exact ⟨rfl, h.lineEnds hcs hds⟩

theorem takeSign_of_endsLine (minus plus : Bool) {c : CodePoint} (hc : c.EndsLine) (t : Text) :
    takeSign minus plus (c :: t) = (false, c :: t) := by
  have hminus : c ≠ '-' := hc.ne (by decide)
  have hplus : c ≠ '+' := hc.ne (by decide)
  simp [takeSign, hminus, hplus]

theorem takeFraction_of_endsLine {c : CodePoint} (hc : c.EndsLine) (t : Text) :
    takeFraction (c :: t) = ([], c :: t) := by
  have hpoint : c ≠ '.' := hc.ne (by decide)
  simp [takeFraction, hpoint]

theorem takeExponent_of_endsLine {c : CodePoint} (hc : c.EndsLine) (t : Text) :
    takeExponent (c :: t) = (none, c :: t) := by
  have hlower : c ≠ 'e' := hc.ne (by decide)
  have hupper : c ≠ 'E' := hc.ne (by decide)
  simp [takeExponent, hlower, hupper]

theorem takeSign_upToLineEnds (minus plus : Bool) (h : t.UpToLineEnds u) :
    SameRead (takeSign minus plus t) (takeSign minus plus u) := by
  cases h with
  | nil => exact ⟨rfl, .nil⟩
  | cons hc h =>
      rw [takeSign, takeSign]
      split
      · exact ⟨rfl, h⟩
      split
      · exact ⟨rfl, h⟩
      · exact ⟨rfl, h.cons hc⟩
  | lineEnds hcs hds h => exact sameRead_lineEnds (takeSign_of_endsLine minus plus) hcs hds h

theorem takeDigits_upToLineEnds (h : t.UpToLineEnds u) :
    SameRead (takeDigits t) (takeDigits u) :=
  h.takeWhile_eq fun _ hc => hc.false_of rfl rfl

theorem takeWhole?_upToLineEnds {p : Text × Text} (htexts : t.UpToLineEnds u)
    (h : takeWhole? t = some p) : ∃ q, takeWhole? u = some q ∧ SameRead p q := by
  cases htexts with
  | nil => cases h
  | @cons c t u hc htexts =>
      rw [takeWhole?] at h ⊢
      by_cases hzero : c = '0'
      · rw [if_pos hzero] at h ⊢
        cases h
        exact ⟨_, rfl, rfl, htexts⟩
      rw [if_neg hzero] at h ⊢
      by_cases hdigit : Text.isDigit c = true
      · rw [if_pos hdigit] at h ⊢
        cases h
        exact ⟨_, rfl, takeDigits_upToLineEnds (htexts.cons hc)⟩
      · rw [if_neg hdigit] at h
        cases h
  | @lineEnds c d cs ds t u hcs hds htexts =>
      have hc := hcs c List.mem_cons_self
      have hzero := hc.ne (d := '0') (by decide)
      have hdigit : Text.isDigit c = false := hc.false_of rfl rfl
      rw [takeWhole?, if_neg hzero, hdigit] at h
      cases h

theorem takeFraction_upToLineEnds (h : t.UpToLineEnds u) :
    SameRead (takeFraction t) (takeFraction u) := by
  cases h with
  | nil => exact ⟨rfl, .nil⟩
  | @cons c t u hc h =>
      obtain ⟨hdigits, hbehind⟩ := takeDigits_upToLineEnds h
      simp only [takeFraction, hdigits]
      split
      · exact ⟨rfl, hbehind⟩
      · exact ⟨rfl, h.cons hc⟩
  | lineEnds hcs hds h => exact sameRead_lineEnds takeFraction_of_endsLine hcs hds h

theorem takeExponent_upToLineEnds (h : t.UpToLineEnds u) :
    SameRead (takeExponent t) (takeExponent u) := by
  cases h with
  | nil => exact ⟨rfl, .nil⟩
  | @cons c t u hc h =>
      obtain ⟨hsign, hunsigned⟩ := takeSign_upToLineEnds true true h
      obtain ⟨hdigits, hbehind⟩ := takeDigits_upToLineEnds hunsigned
      simp only [takeExponent, hsign, hdigits]
      split
      · exact ⟨rfl, hbehind⟩
      · exact ⟨rfl, h.cons hc⟩
  | lineEnds hcs hds h => exact sameRead_lineEnds takeExponent_of_endsLine hcs hds h

/-- The parts of a number, each read behind the one before. -/
theorem scanNumeral?_eq (t : Text) :
    scanNumeral? t = (takeWhole? (takeSign true false t).2).map fun whole =>
      (⟨(takeSign true false t).1, whole.1, (takeFraction whole.2).1,
        (takeExponent (takeFraction whole.2).2).1⟩,
        (takeExponent (takeFraction whole.2).2).2) :=
  rfl

theorem scanNumeral?_upToLineEnds {n : Numeral} (htexts : t.UpToLineEnds u)
    (h : scanNumeral? t = some (n, rest)) :
    ∃ behind, scanNumeral? u = some (n, behind) ∧ rest.UpToLineEnds behind := by
  obtain ⟨hsign, hunsigned⟩ := takeSign_upToLineEnds true false htexts
  rw [scanNumeral?_eq, Option.map_eq_some_iff] at h
  obtain ⟨p, hp, hread⟩ := h
  obtain ⟨q, hq, hwhole, hbehind⟩ := takeWhole?_upToLineEnds hunsigned hp
  obtain ⟨hfraction, hbehind⟩ := takeFraction_upToLineEnds hbehind
  obtain ⟨hexponent, hbehind⟩ := takeExponent_upToLineEnds hbehind
  rw [hsign, hwhole, hfraction, hexponent] at hread
  obtain ⟨rfl, rfl⟩ := Prod.mk.inj hread
  exact ⟨_, by rw [scanNumeral?_eq, hq, Option.map_some], hbehind⟩

/-! ## Constants -/

/-- The words that stand for a value hold no line end. -/
theorem not_endsLine_of_constant :
    ∀ k ∈ constants, ∀ c ∈ k.1, ¬ c.EndsLine := by
  simp only [constants, List.forall_mem_cons]
  exact ⟨by decide, by decide, by decide, by decide, by decide, by decide,
    List.forall_mem_nil _⟩

/-- A word is met in both texts. -/
theorem isPrefixOf_upToLineEnds {word : Text} (hword : ∀ c ∈ word, ¬ c.EndsLine)
    (htexts : t.UpToLineEnds u) :
    word.isPrefixOf t = word.isPrefixOf u := by
  have hmet : ∀ {t u : Text}, t.UpToLineEnds u → word <+: t → word <+: u := by
    rintro _ u htexts ⟨rest, rfl⟩
    obtain ⟨behind, rfl, -⟩ := htexts.exists_append hword
    exact List.prefix_append word behind
  rw [Bool.eq_iff_iff, List.isPrefixOf_iff_prefix, List.isPrefixOf_iff_prefix]
  exact ⟨hmet htexts, hmet htexts.symm⟩

theorem scanConstant?_upToLineEnds {v : Json} (htexts : t.UpToLineEnds u)
    (h : scanConstant? t = some (v, rest)) :
    ∃ behind, scanConstant? u = some (v, behind) ∧ rest.UpToLineEnds behind := by
  have hwords := not_endsLine_of_constant
  unfold scanConstant? at h ⊢
  generalize constants = words at h hwords
  induction words with
  | nil => cases h
  | cons k ks ih =>
      obtain ⟨hk, hks⟩ := List.forall_mem_cons.mp hwords
      have hbegun := isPrefixOf_upToLineEnds hk htexts
      rw [List.findSome?_cons] at h ⊢
      dsimp only at h ⊢
      cases hword : k.1.isPrefixOf t with
      | false =>
          rw [hword] at hbegun h
          rw [← hbegun]
          exact ih h hks
      | true =>
          obtain ⟨rest, rfl⟩ := List.isPrefixOf_iff_prefix.mp hword
          obtain ⟨behind, rfl, hrest⟩ := htexts.exists_append hk
          rw [if_pos hword, List.drop_left] at h
          cases h
          refine ⟨behind, ?_, hrest⟩
          rw [if_pos (hbegun.symm.trans hword), List.drop_left]

theorem scanConstant?_eq_none (htexts : t.UpToLineEnds u)
    (h : scanConstant? t = none) : scanConstant? u = none := by
  refine Option.eq_none_iff_forall_ne_some.mpr ?_
  rintro ⟨v, behind⟩ hscan
  obtain ⟨rest, hscan, -⟩ := scanConstant?_upToLineEnds htexts.symm hscan
  cases h.symm.trans hscan

/-! ## Values -/

/-- **A VALUE IS DECODED FROM BOTH TEXTS**. -/
theorem decodeFrom_upToLineEnds {phase : Phase} {stack : List Frame} {v : Json}
    (htexts : t.UpToLineEnds u) (h : decodeFrom phase stack t = .ok v) :
    decodeFrom phase stack u = .ok v := by
  have hquote : ¬ CodePoint.EndsLine '\x22' := by decide
  have hbrace : ¬ CodePoint.EndsLine '\x7b' := by decide
  have hbracket : ¬ CodePoint.EndsLine '[' := by decide
  fun_induction decodeFrom phase stack t generalizing u with
  | case1 => cases h
  -- a value is due: a string
  | case2 stack rest text behind hscan ih =>
      obtain ⟨_, rfl, hrest⟩ := htexts.exists_cons hquote
      obtain ⟨_, hscan, hbehind⟩ := scanString_upToLineEnds hrest hscan
      rw [decodeFrom_string hscan]
      exact ih hbehind h
  | case3 => cases h
  | case4 => cases h
  -- an object
  | case5 stack rest behind _ hskip ih =>
      obtain ⟨_, rfl, hrest⟩ := htexts.exists_cons hbrace
      obtain ⟨_, hskip, hbehind⟩ := exists_of_skipBlanks hrest hskip
      rw [decodeFrom_empty_object hskip]
      exact ih hbehind h
  | case6 stack rest d behind hskip hd _ ih =>
      obtain ⟨_, rfl, hrest⟩ := htexts.exists_cons hbrace
      have hends := not_endsLine_of_skipBlanks hskip
      obtain ⟨_, hskip, hbehind⟩ := exists_of_skipBlanks hrest hskip
      rw [decodeFrom_open_object hskip hd]
      exact ih (hbehind.cons hends) h
  | case7 => cases h
  -- an array
  | case8 stack rest behind _ _ hskip ih =>
      obtain ⟨_, rfl, hrest⟩ := htexts.exists_cons hbracket
      obtain ⟨_, hskip, hbehind⟩ := exists_of_skipBlanks hrest hskip
      rw [decodeFrom_empty_array hskip]
      exact ih hbehind h
  | case9 stack rest d behind hskip hd _ _ ih =>
      obtain ⟨_, rfl, hrest⟩ := htexts.exists_cons hbracket
      have hends := not_endsLine_of_skipBlanks hskip
      obtain ⟨_, hskip, hbehind⟩ := exists_of_skipBlanks hrest hskip
      rw [decodeFrom_open_array hskip hd]
      exact ih (hbehind.cons hends) h
  -- a constant or a number
  | case10 stack c rest hq hb hk w behind hscan ih =>
      obtain ⟨_, hscan, hbehind⟩ := scanConstant?_upToLineEnds htexts hscan
      obtain ⟨d, u, rfl, hne⟩ := htexts.exists_head
      rw [decodeFrom_constant (hne _ hquote hq) (hne _ hbrace hb)
        (hne _ hbracket hk) hscan]
      exact ih hbehind h
  | case11 => cases h
  | case12 stack c rest hq hb hk hconstant n behind hscan w hvalue ih =>
      have hconstant := scanConstant?_eq_none htexts hconstant
      obtain ⟨_, hscan, hbehind⟩ := scanNumeral?_upToLineEnds htexts hscan
      obtain ⟨d, u, rfl, hne⟩ := htexts.exists_head
      rw [decodeFrom_numeral (hne _ hquote hq) (hne _ hbrace hb)
        (hne _ hbracket hk) hconstant hscan hvalue]
      exact ih hbehind h
  | case13 => cases h
  | case14 => cases h
  | case15 => cases h
  | case16 => cases h
  -- the name of a member is due
  | case17 stack before rest name behind hscan more hskip ih =>
      obtain ⟨_, rfl, hrest⟩ := htexts.exists_cons hquote
      obtain ⟨_, hscan, hbehind⟩ := scanString_upToLineEnds hrest hscan
      obtain ⟨_, hskip, hmore⟩ := exists_of_skipBlanks hbehind hskip
      rw [decodeFrom_name hscan hskip]
      exact ih (skipBlanks_upToLineEnds hmore) h
  | case18 => cases h
  | case19 => cases h
  -- a value is handed over
  | case20 t w hskip =>
      rw [decodeFrom_end (skipBlanks_eq_nil htexts hskip)]
      exact h
  | case21 => cases h
  | case22 => cases h
  | case23 t w behind before stack hskip ih =>
      obtain ⟨_, hskip, hbehind⟩ := exists_of_skipBlanks htexts hskip
      rw [decodeFrom_close_array hskip]
      exact ih hbehind h
  | case24 t w behind before stack hskip _ ih =>
      obtain ⟨_, hskip, hbehind⟩ := exists_of_skipBlanks htexts hskip
      rw [decodeFrom_next_item hskip]
      exact ih (skipBlanks_upToLineEnds hbehind) h
  | case25 => cases h
  | case26 t w behind before name stack members hskip =>
      rename_i ih
      obtain ⟨_, hskip, hbehind⟩ := exists_of_skipBlanks htexts hskip
      rw [decodeFrom_close_object hskip]
      exact ih hbehind h
  | case27 t w behind before name stack members hskip _ =>
      rename_i ih
      obtain ⟨_, hskip, hbehind⟩ := exists_of_skipBlanks htexts hskip
      rw [decodeFrom_next_member hskip]
      exact ih (skipBlanks_upToLineEnds hbehind) h
  | case28 => cases h

theorem decode_upToLineEnds {v : Json} (htexts : t.UpToLineEnds u)
    (h : decode t = .ok v) : decode u = .ok v := by
  have hmark : ∀ {t u : Text}, t.UpToLineEnds u →
      t.head? = some (CodePoint.ofNat 0xFEFF) → u.head? = some (.ofNat 0xFEFF) := by
    intro t u htexts hhead
    obtain ⟨t, rfl⟩ := List.head?_eq_some_iff.mp hhead
    obtain ⟨_, rfl, -⟩ := htexts.exists_cons (by decide)
    rfl
  unfold decode at h ⊢
  dsimp only at h ⊢
  by_cases hmarked : t.head? = some (CodePoint.ofNat 0xFEFF)
  · rw [if_pos hmarked] at h
    cases h
  rw [if_neg hmarked] at h
  rw [if_neg (mt (hmark htexts.symm) hmarked)]
  cases hvalue : decodeFrom .value [] (skipBlanks t) with
  | error fault =>
      rw [hvalue] at h
      cases h
  | ok w =>
      rw [hvalue] at h
      cases h
      rw [decodeFrom_upToLineEnds (skipBlanks_upToLineEnds htexts) hvalue]
      rfl

end Json

end FormReader
