/-! # Texts — sequences of code points

    Every name, numeral and message of the library is a `Text`: a list of
    Unicode code points.  A code point may be a surrogate, on its own or in any
    order, because a token file can spell one with an escape and a command line
    can hold one; that is why `Char` and `String`, which cannot, are not used
    for content.

    * `CodePoint` — a number below `0x110000`, surrogates included.  A `Char` is
      one by coercion.
    * `Text` — a list of code points; `Text.of` reads a string literal.
    * `Text.joined` — texts in a row with a separator between neighbours.
    * `Text.ofNat`, `Text.ofInt` — decimal numerals; `Text.hex` — lower-case
      hexadecimal of a fixed width. -/

namespace FormReader

/-- A Unicode code point, surrogates included. -/
structure CodePoint where
  val : Nat
  isLt : val < 0x110000
  deriving DecidableEq

namespace CodePoint

/-- The code point of a character. -/
def ofChar (c : Char) : CodePoint where
  val := c.toNat
  isLt := by
    have valid := c.valid
    simp only [UInt32.isValidChar, Nat.isValidChar] at valid
    have same : c.val.toNat = c.toNat := rfl
    omega

instance : Coe Char CodePoint := ⟨ofChar⟩

/-- The code point with a given number, the replacement character where there is none. -/
def ofNat (n : Nat) : CodePoint :=
  if h : n < 0x110000 then ⟨n, h⟩ else ⟨0xFFFD, by decide⟩

@[simp] theorem val_ofChar (c : Char) : (ofChar c).val = c.toNat := rfl

theorem val_ofNat {n : Nat} (h : n < 0x110000) : (ofNat n).val = n := by
  simp [ofNat, h]

@[ext] theorem ext {a b : CodePoint} (h : a.val = b.val) : a = b := by
  cases a; cases b; cases h; rfl

/-- The first half of a surrogate pair. -/
def isHighSurrogate (c : CodePoint) : Bool := 0xD800 ≤ c.val && c.val < 0xDC00

/-- The second half of a surrogate pair. -/
def isLowSurrogate (c : CodePoint) : Bool := 0xDC00 ≤ c.val && c.val < 0xE000

/-- A code point that is no character by itself. -/
def isSurrogate (c : CodePoint) : Bool := 0xD800 ≤ c.val && c.val < 0xE000

/-- A surrogate that stands in a name for an octet above `0x7F` which belongs to no character. -/
def isStrayOctet (c : CodePoint) : Bool := 0xDC80 ≤ c.val && c.val ≤ 0xDCFF

/-- The code point that a high and a low surrogate stand for together. -/
def ofSurrogates (high low : CodePoint) : CodePoint :=
  ofNat (0x10000 + (high.val - 0xD800) * 0x400 + (low.val - 0xDC00))

end CodePoint

/-- A sequence of code points. -/
abbrev Text := List CodePoint

namespace Text

/-- The code points of a string. -/
def of (s : String) : Text := s.toList.map CodePoint.ofChar

/-- The texts in a row, a separator between every two neighbours. -/
def joined (separator : Text) : List Text → Text
  | [] => []
  | t :: ts => t ++ ts.flatMap (separator ++ ·)

@[simp] theorem joined_nil (separator : Text) : joined separator [] = [] := rfl

@[simp] theorem joined_singleton (separator t : Text) : joined separator [t] = t := by
  simp [joined]

theorem joined_cons_cons (separator t u : Text) (ts : List Text) :
    joined separator (t :: u :: ts) = t ++ separator ++ joined separator (u :: ts) := by
  simp [joined]

/-! ## Numerals -/

/-- The decimal digits of a number, most significant first, in front of given ones. -/
def digitsOnto (n : Nat) (rest : List Nat) : List Nat :=
  if h : n < 10 then n :: rest else digitsOnto (n / 10) (n % 10 :: rest)
termination_by n

/-- The code point of a decimal digit. -/
def digit (d : Nat) : CodePoint := CodePoint.ofNat (0x30 + d)

/-- The decimal numeral of a natural number. -/
def ofNat (n : Nat) : Text := (digitsOnto n []).map digit

/-- The decimal numeral of an integer. -/
def ofInt : Int → Text
  | .ofNat n => ofNat n
  | .negSucc n => '-' :: ofNat (n + 1)

/-- The code point of a hexadecimal digit, letters in lower case. -/
def hexDigit (d : Nat) : CodePoint :=
  CodePoint.ofNat (if d < 10 then 0x30 + d else 0x57 + d)

/-- The last `width` hexadecimal digits of a number. -/
def hex : (width n : Nat) → Text
  | 0, _ => []
  | width + 1, n => hex width (n / 16) ++ [hexDigit (n % 16)]

/-- The number that a hexadecimal digit of either case stands for. -/
def hexValue? (c : CodePoint) : Option Nat :=
  if 0x30 ≤ c.val && c.val ≤ 0x39 then some (c.val - 0x30)
  else if 0x61 ≤ c.val && c.val ≤ 0x66 then some (c.val - 0x57)
  else if 0x41 ≤ c.val && c.val ≤ 0x46 then some (c.val - 0x37)
  else none

/-- An ASCII decimal digit. -/
def isDigit (c : CodePoint) : Bool := 0x30 ≤ c.val && c.val ≤ 0x39

/-- The number that a row of ASCII digits stands for. -/
def numeralValue (digits : Text) : Nat :=
  digits.foldl (fun n c => 10 * n + (c.val - 0x30)) 0

end Text

end FormReader
