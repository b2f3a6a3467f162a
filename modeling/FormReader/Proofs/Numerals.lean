import FormReader.Proofs.Decoding
import Mathlib.Data.Nat.Digits.Lemmas

/-! # Numerals — an integer is decoded as it was written

    The numeral of a number is its digits to the base ten with the most
    significant in front (`ofNat_of_pos`), so its value and its length are those
    of the digits.  The scanner takes a sign, then a lone zero or digits that do
    not begin with one, and a numeral is of this shape; what stands behind must
    not go on a number (`scanNumeral?_ofInt`).  Neither a numeral nor a numeral
    behind a minus sign begins with a constant.  With at most as many digits as
    are converted, an integer therefore spells itself (`decodes_ofInt`), whatever
    its size. -/

namespace FormReader

namespace Text

/-! ## Digits -/

theorem val_digit {d : Nat} (h : d < 10) : (digit d).val = 0x30 + d :=
  CodePoint.val_ofNat (by omega)

theorem isDigit_digit {d : Nat} (h : d < 10) : isDigit (digit d) = true := by
  rw [isDigit, val_digit h, Bool.and_eq_true, decide_eq_true_eq, decide_eq_true_eq]
  omega

/-- The digits of a number that is not zero, in front of given ones. -/
theorem digitsOnto_of_pos {n : Nat} (h : 0 < n) (rest : List Nat) :
    digitsOnto n rest = (Nat.digits 10 n).reverse ++ rest := by
  fun_induction digitsOnto n rest with
  | case1 n rest hlt =>
      rw [Nat.digits_of_lt 10 n h.ne' hlt]
      rfl
  | case2 n rest hge ih =>
      rw [ih (by omega), Nat.digits_def' (by decide) h, List.reverse_cons, List.append_assoc]
      rfl

theorem ofNat_zero : ofNat 0 = [digit 0] := by
  rw [ofNat, digitsOnto, dif_pos (by decide)]
  rfl

/-- **A NUMERAL IS THE DIGITS TO THE BASE TEN**, the most significant in front. -/
theorem ofNat_of_pos {n : Nat} (h : 0 < n) :
    ofNat n = (Nat.digits 10 n).reverse.map digit := by
  rw [ofNat, digitsOnto_of_pos h, List.append_nil]

theorem isDigit_of_mem_ofNat {n : Nat} : ∀ c ∈ ofNat n, isDigit c = true := by
  rcases Nat.eq_zero_or_pos n with rfl | hpos
  · rw [ofNat_zero]
    decide
  · rw [ofNat_of_pos hpos, List.forall_mem_map]
    intro d hd
    exact isDigit_digit (Nat.digits_lt_base (by decide) (List.mem_reverse.mp hd))

/-- A numeral begins with a digit, and one of more than zero not with a zero. -/
theorem ofNat_begins (n : Nat) :
    ∃ c u, ofNat n = c :: u ∧ isDigit c = true ∧ (0 < n → c ≠ '0') := by
  rcases Nat.eq_zero_or_pos n with rfl | hpos
  · exact ⟨digit 0, [], ofNat_zero, by decide, fun h => absurd h (by decide)⟩
  · have hne : Nat.digits 10 n ≠ [] := Nat.digits_ne_nil_iff_ne_zero.mpr hpos.ne'
    obtain ⟨ds, d, hds⟩ := List.eq_nil_or_concat (Nat.digits 10 n) |>.resolve_left hne
    have hlast := Nat.getLast_digit_ne_zero 10 hpos.ne'
    have hlt : d < 10 := Nat.digits_lt_base (b := 10) (m := n) (by decide) (by simp [hds])
    refine ⟨digit d, ds.reverse.map digit, ?_, isDigit_digit hlt, fun _ hzero => ?_⟩
    · rw [ofNat_of_pos hpos, hds]
      simp
    · have hval := congrArg CodePoint.val hzero
      rw [val_digit hlt] at hval
      simp only [hds, List.concat_eq_append, List.getLast_append_singleton] at hlast
      exact hlast (Nat.add_left_cancel hval)

/-- **A NUMERAL HAS THE VALUE IT WAS WRITTEN FOR**. -/
theorem numeralValue_ofNat (n : Nat) : numeralValue (ofNat n) = n := by
  rcases Nat.eq_zero_or_pos n with rfl | hpos
  · rw [ofNat_zero]
    rfl
  · have hfold : ∀ ds : List Nat, (∀ d ∈ ds, d < 10) →
        numeralValue (ds.reverse.map digit) = Nat.ofDigits 10 ds := by
      intro ds hds
      induction ds with
      | nil => rfl
      | cons d ds ih =>
          obtain ⟨hd, hrest⟩ := List.forall_mem_cons.mp hds
          have hlast : (digit d).val - 0x30 = d := by
            rw [val_digit hd, Nat.add_sub_cancel_left]
          rw [List.reverse_cons, List.map_append, numeralValue, List.foldl_append]
          show 10 * numeralValue (ds.reverse.map digit) + ((digit d).val - 0x30) = _
          rw [ih hrest, hlast, Nat.ofDigits_cons, Nat.add_comm]
    rw [ofNat_of_pos hpos, hfold _ fun d hd => Nat.digits_lt_base (by decide) hd,
      Nat.ofDigits_digits]

theorem length_ofNat_le {n limit : Nat} (hlimit : 0 < limit)
    (h : (Nat.digits 10 n).length ≤ limit) : (ofNat n).length ≤ limit := by
  rcases Nat.eq_zero_or_pos n with rfl | hpos
  · rw [ofNat_zero]
    exact hlimit
  · rw [ofNat_of_pos hpos, List.length_map, List.length_reverse]
    exact h

end Text

namespace Json

open Text

/-! ## Scanning -/

/-- Digits are taken up to a text that begins with none. -/
theorem takeDigits_append {t rest : Text} (h : ∀ c ∈ t, isDigit c = true)
    (hrest : ∀ c ∈ rest.head?, isDigit c = false) : takeDigits (t ++ rest) = (t, rest) := by
  rw [takeDigits, List.takeWhile_append_of_pos h, List.dropWhile_append_of_pos h]
  cases rest with
  | nil => rw [List.takeWhile_nil, List.dropWhile_nil, List.append_nil]
  | cons c rest =>
      have hc := Bool.eq_false_iff.mp (hrest c rfl)
      rw [List.takeWhile_cons_of_neg hc, List.dropWhile_cons_of_neg hc, List.append_nil]

theorem takeWhole?_ofNat (n : Nat) {rest : Text} (h : EndsNumber rest) :
    takeWhole? (ofNat n ++ rest) = some (ofNat n, rest) := by
  rcases Nat.eq_zero_or_pos n with rfl | hpos
  · rw [ofNat_zero, List.singleton_append, takeWhole?, if_pos (by decide)]
  · obtain ⟨c, u, hbegins, hdigit, hzero⟩ := ofNat_begins n
    have hall := takeDigits_append (isDigit_of_mem_ofNat (n := n)) fun c hc => (h c hc).1
    rw [hbegins, List.cons_append] at hall ⊢
    rw [takeWhole?, if_neg (hzero hpos), if_pos hdigit, hall]

theorem takeFraction_of_ends {t : Text} (h : EndsNumber t) : takeFraction t = ([], t) := by
  cases t with
  | nil => rfl
  | cons c t =>
      have hpoint := (h c rfl).2.1
      simp [takeFraction, hpoint]

theorem takeExponent_of_ends {t : Text} (h : EndsNumber t) : takeExponent t = (none, t) := by
  cases t with
  | nil => rfl
  | cons c t =>
      obtain ⟨-, -, hlower, hupper⟩ := h c rfl
      simp [takeExponent, hlower, hupper]

theorem takeSign_ofInt (n : Int) (rest : Text) :
    takeSign true false (ofInt n ++ rest) = (decide (n < 0), ofNat n.natAbs ++ rest) := by
  cases n with
  | ofNat m =>
      obtain ⟨c, u, hbegins, hdigit, -⟩ := ofNat_begins m
      have hminus : c ≠ '-' := by
        rintro rfl
        cases hdigit
      have hnonneg : ¬ Int.ofNat m < 0 := Int.not_lt.mpr (Int.natCast_nonneg m)
      show takeSign true false (ofNat m ++ rest) = (_, ofNat m ++ rest)
      rw [hbegins, List.cons_append, takeSign, decide_eq_false hnonneg]
      simp [hminus]
  | negSucc m =>
      rw [decide_eq_true (Int.negSucc_lt_zero m)]
      rfl

/-- **AN INTEGER IS SCANNED AS IT WAS WRITTEN**. -/
theorem scanNumeral?_ofInt (n : Int) {rest : Text} (h : EndsNumber rest) :
    scanNumeral? (ofInt n ++ rest)
      = some (⟨decide (n < 0), ofNat n.natAbs, [], none⟩, rest) := by
  rw [scanNumeral?, takeSign_ofInt]
  dsimp only
  rw [takeWhole?_ofNat _ h, Option.map_some, takeFraction_of_ends h]
  dsimp only
  rw [takeExponent_of_ends h]

theorem value_ofInt {n : Int} (h : (Nat.digits 10 n.natAbs).length ≤ integerDigitLimit) :
    Numeral.value ⟨decide (n < 0), ofNat n.natAbs, [], none⟩ = .ok (.integer n) := by
  have hlength := length_ofNat_le (by decide) h
  have hsigned : (if decide (n < 0) = true then -(n.natAbs : Int) else n.natAbs) = n := by
    simp only [decide_eq_true_eq]
    omega
  simp only [Numeral.value, List.isEmpty_nil, Option.isNone_none, Bool.and_self, if_true,
    if_neg (Nat.not_lt_of_le hlength), numeralValue_ofNat, hsigned]

/-! ## Integers are no constants -/

/-- The text begins with a digit, or with a minus sign and a digit. -/
def beginsNumber : Text → Bool
  | [] => false
  | c :: u => isDigit c || (c = '-' && u.head?.any isDigit)

theorem beginsNumber_ofInt (n : Int) (rest : Text) : beginsNumber (ofInt n ++ rest) = true := by
  cases n with
  | ofNat m =>
      obtain ⟨c, u, hbegins, hdigit, -⟩ := ofNat_begins m
      rw [ofInt, hbegins, List.cons_append, beginsNumber, hdigit, Bool.true_or]
  | negSucc m =>
      obtain ⟨d, v, hbegins, hdigit, -⟩ := ofNat_begins (m + 1)
      simp [ofInt, hbegins, beginsNumber, hdigit]

/-- What begins a number begins nothing else. -/
theorem exists_cons_of_number {t : Text} (h : beginsNumber t = true) :
    ∃ c u, t = c :: u ∧ isBlank c = false ∧
      c ≠ '\x22' ∧ c ≠ '\x7b' ∧ c ≠ '[' ∧ c ≠ ']' := by
  cases t with
  | nil => cases h
  | cons c u =>
      refine ⟨c, u, rfl, Bool.eq_false_iff.mpr fun hblank => ?_, ?_, ?_, ?_, ?_⟩
      · simp only [isBlank, Bool.or_eq_true, decide_eq_true_eq] at hblank
        rcases hblank with ((rfl | rfl) | rfl) | rfl <;> cases h
      all_goals
        rintro rfl
        cases h

/-- No constant begins as a number does, the infinite one behind a minus sign
    included. -/
theorem scanConstant?_of_number {t : Text} (h : beginsNumber t = true) :
    scanConstant? t = none := by
  have hwords : ∀ k ∈ constants, ∀ rest, beginsNumber (k.1 ++ rest) = false := by
    simp only [constants, List.forall_mem_cons]
    exact ⟨fun _ => rfl, fun _ => rfl, fun _ => rfl, fun _ => rfl, fun _ => rfl,
      fun _ => rfl, List.forall_mem_nil _⟩
  rw [scanConstant?, List.findSome?_eq_none_iff]
  rintro ⟨word, v⟩ hword
  refine if_neg fun hbegun => ?_
  obtain ⟨rest, rfl⟩ := List.isPrefixOf_iff_prefix.mp hbegun
  exact Bool.false_ne_true ((hwords _ hword rest).symm.trans h)

/-! ## Decoding -/

theorem decodeFrom_number {stack : List Frame} {t rest : Text} {n : Numeral} {v : Json}
    (hbegins : beginsNumber t = true) (hscan : scanNumeral? t = some (n, rest))
    (hvalue : n.value = .ok v) :
    decodeFrom .value stack t = decodeFrom (.complete v) stack rest := by
  have hconstant := scanConstant?_of_number hbegins
  obtain ⟨c, u, rfl, -, hquote, hbrace, hbracket, -⟩ := exists_cons_of_number hbegins
  exact decodeFrom_numeral hquote hbrace hbracket hconstant hscan hvalue

/-- **AN INTEGER SPELLS ITSELF**, if it has no more digits than are converted. -/
theorem decodes_ofInt {n : Int} (h : (Nat.digits 10 n.natAbs).length ≤ integerDigitLimit) :
    Decodes (ofInt n) (.integer n) where
  begins := by
    have hbegins := beginsNumber_ofInt n []
    rw [List.append_nil] at hbegins
    obtain ⟨c, u, hcons, hblank, -, -, -, hbracket⟩ := exists_cons_of_number hbegins
    exact ⟨c, u, hcons, hblank, hbracket⟩
  reads stack rest hends :=
    decodeFrom_number (beginsNumber_ofInt n rest) (scanNumeral?_ofInt n hends) (value_ofInt h)

end Json

end FormReader
