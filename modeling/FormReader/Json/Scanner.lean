import FormReader.Json.Basic

/-! # Scanning JSON — blanks, strings, numbers, constants

    The parts of JSON that hold no other values.  Each scanner takes the text
    from its first code point on and answers what it read with the text behind;
    a `Fault` keeps the text from the place at fault on, from which the decoder
    tells the position.

    `scanString` joins the escapes of a high and a low surrogate that follow
    each other directly; any other surrogate escape stays.  An escape of four
    digits needs one more code point behind it.  `scanNumeral?` takes a fraction
    or an exponent only when a digit follows.

    The `_shorter` lemmas say that a scanner never stands still, which is why
    decoding ends. -/

namespace FormReader

namespace Json

/-- What is wrong with a text that is no JSON. -/
inductive Flaw where
  | byteOrderMark
  | expectingValue
  | expectingName
  | expectingColon
  | expectingComma
  | extraData
  | unterminatedString
  | controlCharacter
  | badEscape
  | badUnicodeEscape
  deriving DecidableEq

/-- Why decoding stops. -/
inductive Fault where
  /-- The text is no JSON, from `rest` on. -/
  | malformed (flaw : Flaw) (rest : Text)
  /-- An integer with more digits than are converted. -/
  | oversizedInteger (digits : Nat)
  deriving DecidableEq

/-! ## Blanks -/

/-- Space, tab, line feed and carriage return. -/
def isBlank (c : CodePoint) : Bool := c = ' ' || c = '\t' || c = '\n' || c = '\r'

/-- The text behind leading blanks. -/
def skipBlanks (t : Text) : Text := t.dropWhile isBlank

theorem skipBlanks_length_le (t : Text) : (skipBlanks t).length ≤ t.length :=
  (List.dropWhile_sublist _).length_le

theorem skipBlanks_shorter {t rest : Text} {c : CodePoint} (h : skipBlanks t = c :: rest) :
    rest.length < t.length := by
  have kept := skipBlanks_length_le t
  rw [h, List.length_cons] at kept
  omega

/-! ## Strings -/

/-- The code point that a backslash and a letter stand for. -/
def letterEscape? (c : CodePoint) : Option CodePoint :=
  if c = '\x22' || c = '\\' || c = '/' then some c
  else if c = 'b' then some '\x08'
  else if c = 'f' then some '\x0c'
  else if c = 'n' then some '\n'
  else if c = 'r' then some '\r'
  else if c = 't' then some '\t'
  else none

/-- The code point with four given hexadecimal digits. -/
def unit? (a b c d : CodePoint) : Option CodePoint := do
  let a ← Text.hexValue? a
  let b ← Text.hexValue? b
  let c ← Text.hexValue? c
  let d ← Text.hexValue? d
  pure (.ofNat (((a * 16 + b) * 16 + c) * 16 + d))

/-- A text under construction, its last code point first. -/
structure Scanned where
  done : Text
  /-- The last code point is the escape of a high surrogate that may still be joined. -/
  awaitsLow : Bool

/-- Nothing scanned yet. -/
def Scanned.nothing : Scanned := ⟨[], false⟩

/-- One more code point that stands for itself or has a letter. -/
def Scanned.push (s : Scanned) (c : CodePoint) : Scanned := ⟨c :: s.done, false⟩

/-- One more code point given by its digits, joined with a high surrogate before it. -/
def Scanned.pushUnit (s : Scanned) (c : CodePoint) : Scanned :=
  match s.done, s.awaitsLow && c.isLowSurrogate with
  | high :: before, true => ⟨.ofSurrogates high c :: before, false⟩
  | done, _ => ⟨c :: done, c.isHighSurrogate⟩

/-- Scans on inside a string that began with `whole`, up to the closing quote. -/
def scanStringFrom (whole : Text) (s : Scanned) : Text → Except Fault (Text × Text)
  | [] => .error (.malformed .unterminatedString whole)
  | c :: rest =>
    if c = '\x22' then .ok (s.done.reverse, rest)
    else if c = '\\' then
      match rest with
      | [] => .error (.malformed .unterminatedString whole)
      | e :: behind =>
        if e = 'u' then
          match behind with
          | h₁ :: h₂ :: h₃ :: h₄ :: next :: more =>
            match unit? h₁ h₂ h₃ h₄ with
            | some u => scanStringFrom whole (s.pushUnit u) (next :: more)
            | none => .error (.malformed .badUnicodeEscape (e :: behind))
          | _ => .error (.malformed .badUnicodeEscape (e :: behind))
        else
          match letterEscape? e with
          | some l => scanStringFrom whole (s.push l) behind
          | none => .error (.malformed .badEscape (c :: rest))
    else if c.val < 0x20 then .error (.malformed .controlCharacter (c :: rest))
    else scanStringFrom whole (s.push c) rest

/-- Scans the string that begins behind an opening quote. -/
def scanString (behindQuote : Text) : Except Fault (Text × Text) :=
  scanStringFrom (('\x22' : CodePoint) :: behindQuote) .nothing behindQuote

theorem scanStringFrom_shorter {whole t text rest : Text} {s : Scanned}
    (h : scanStringFrom whole s t = .ok (text, rest)) : rest.length < t.length := by
  fun_induction scanStringFrom whole s t with
  | case1 s => cases h
  | case2 s behind =>
    obtain ⟨-, rfl⟩ := Prod.mk.inj (Except.ok.inj h)
    exact Nat.lt_succ_self _
  | case3 s escape => cases h
  | case4 s h₁ h₂ h₃ h₄ next more u unit escape ih =>
    have shorter := ih h
    simp only [List.length_cons] at *
    omega
  | case5 s h₁ h₂ h₃ h₄ next more noUnit escape => cases h
  | case6 s behind short escape => cases h
  | case7 s e behind lettered l letter escape ih =>
    exact Nat.lt_succ_of_lt (Nat.lt_succ_of_lt (ih h))
  | case8 s e behind lettered noLetter escape => cases h
  | case9 s c behind inside plain control => cases h
  | case10 s c behind inside plain noControl ih => exact Nat.lt_succ_of_lt (ih h)

theorem scanString_shorter {t text rest : Text} (h : scanString t = .ok (text, rest)) :
    rest.length < t.length :=
  scanStringFrom_shorter h

/-! ## Numbers -/

/-- The parts of a number as written. -/
structure Numeral where
  negative : Bool
  whole : Text
  fraction : Text
  exponent : Option Int
  deriving DecidableEq

/-- The most digits an integer may have. -/
def integerDigitLimit : Nat := 4300

/-- The value of a number. -/
def Numeral.value (n : Numeral) : Except Fault Json :=
  if n.fraction.isEmpty && n.exponent.isNone then
    if integerDigitLimit < n.whole.length then .error (.oversizedInteger n.whole.length)
    else
      let magnitude : Int := Text.numeralValue n.whole
      .ok (.integer (if n.negative then -magnitude else magnitude))
  else
    let digits := n.whole ++ n.fraction
    .ok (.real (.ofDecimal n.negative (Text.numeralValue digits) digits.length
      (n.exponent.getD 0 - n.fraction.length)))

/-- A sign given by a code point, and the text behind it. -/
def takeSign (minus plus : Bool) : Text → Bool × Text
  | [] => (false, [])
  | c :: rest =>
    if minus && c = '-' then (true, rest)
    else if plus && c = '+' then (false, rest)
    else (false, c :: rest)

/-- The digits at the head of a text, and the text behind them. -/
def takeDigits (t : Text) : Text × Text := (t.takeWhile Text.isDigit, t.dropWhile Text.isDigit)

/-- The digits before the point: a lone zero, or digits that do not begin with one. -/
def takeWhole? : Text → Option (Text × Text)
  | [] => none
  | c :: rest =>
    if c = '0' then some ([c], rest)
    else if Text.isDigit c then some (takeDigits (c :: rest))
    else none

/-- The digits behind a point, none where no point with a digit follows. -/
def takeFraction : Text → Text × Text
  | [] => ([], [])
  | c :: rest =>
    let (digits, behind) := takeDigits rest
    if c = '.' && !digits.isEmpty then (digits, behind) else ([], c :: rest)

/-- The exponent, none where no digit follows the mark and its sign. -/
def takeExponent : Text → Option Int × Text
  | [] => (none, [])
  | c :: rest =>
    let (negative, unsigned) := takeSign true true rest
    let (digits, behind) := takeDigits unsigned
    if (c = 'e' || c = 'E') && !digits.isEmpty then
      let magnitude : Int := Text.numeralValue digits
      (some (if negative then -magnitude else magnitude), behind)
    else (none, c :: rest)

/-- Scans a number, if one begins here. -/
def scanNumeral? (t : Text) : Option (Numeral × Text) :=
  let (negative, unsigned) := takeSign true false t
  (takeWhole? unsigned).map fun (whole, behindWhole) =>
    let (fraction, behindFraction) := takeFraction behindWhole
    let (exponent, behind) := takeExponent behindFraction
    (⟨negative, whole, fraction, exponent⟩, behind)

theorem takeSign_length_le (minus plus : Bool) (t : Text) :
    (takeSign minus plus t).2.length ≤ t.length := by
  fun_cases takeSign minus plus t with
  | case1 => exact Nat.le_refl _
  | case2 c rest isMinus => exact Nat.le_succ _
  | case3 c rest notMinus isPlus => exact Nat.le_succ _
  | case4 c rest notMinus notPlus => exact Nat.le_refl _

theorem takeDigits_length_le (t : Text) : (takeDigits t).2.length ≤ t.length :=
  (List.dropWhile_sublist _).length_le

theorem takeWhole?_shorter {t whole rest : Text} (h : takeWhole? t = some (whole, rest)) :
    rest.length < t.length := by
  unfold takeWhole? at h
  split at h
  · simp at h
  · rename_i c tail
    split at h
    · cases h; simp
    · split at h
      · rename_i digit
        simp only [takeDigits, List.dropWhile_cons, digit, Option.some.injEq, Prod.mk.injEq] at h
        have kept := takeDigits_length_le tail
        simp only [takeDigits] at kept
        rw [← h.2]
        simp only [↓reduceIte, List.length_cons]
        omega
      · simp at h

theorem takeFraction_length_le (t : Text) : (takeFraction t).2.length ≤ t.length := by
  unfold takeFraction
  split
  · simp
  · rename_i c rest
    have kept := takeDigits_length_le rest
    dsimp only
    split <;> simp only [List.length_cons] <;> omega

theorem takeExponent_length_le (t : Text) : (takeExponent t).2.length ≤ t.length := by
  unfold takeExponent
  split
  · simp
  · rename_i c rest
    have unsigned := takeSign_length_le true true rest
    have kept := takeDigits_length_le (takeSign true true rest).2
    dsimp only
    split <;> simp only [List.length_cons] <;> omega

theorem scanNumeral?_shorter {t rest : Text} {n : Numeral}
    (h : scanNumeral? t = some (n, rest)) : rest.length < t.length := by
  simp only [scanNumeral?, Option.map_eq_some_iff] at h
  obtain ⟨⟨whole, behindWhole⟩, found, same⟩ := h
  simp only [Prod.mk.injEq] at same
  have signed := takeSign_length_le true false t
  have shorter := takeWhole?_shorter found
  have fraction := takeFraction_length_le behindWhole
  have exponent := takeExponent_length_le (takeFraction behindWhole).2
  rw [← same.2]
  omega

/-! ## Constants -/

/-- The words that stand for a value. -/
def constants : List (Text × Json) :=
  [(.of "null", .null), (.of "true", .bool true), (.of "false", .bool false),
    (.of "NaN", .real .nan), (.of "Infinity", .real (.infinite false)),
    (.of "-Infinity", .real (.infinite true))]

/-- Scans a constant, if one begins here. -/
def scanConstant? (t : Text) : Option (Json × Text) :=
  constants.findSome? fun (word, v) =>
    if word.isPrefixOf t then some (v, t.drop word.length) else none

theorem scanConstant?_shorter {t rest : Text} {v : Json}
    (h : scanConstant? t = some (v, rest)) : rest.length < t.length := by
  simp only [scanConstant?] at h
  obtain ⟨⟨word, w⟩, mem, found⟩ := List.exists_of_findSome?_eq_some h
  have nonempty : 0 < word.length := by
    simp only [constants, List.mem_cons, Prod.mk.injEq, List.not_mem_nil, or_false] at mem
    rcases mem with h | h | h | h | h | h <;> rw [h.1] <;> decide
  split at found
  · rename_i isHead
    have fits : word.length ≤ t.length := (List.isPrefixOf_iff_prefix.mp isHead).length_le
    simp only [Option.some.injEq, Prod.mk.injEq] at found
    rw [← found.2, List.length_drop]
    omega
  · simp at found

end Json

end FormReader
