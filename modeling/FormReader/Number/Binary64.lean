import FormReader.Text.Basic

/-! # Binary floating point — numbers of 53 significant bits

    A decimal with a fraction or an exponent is kept as the nearest number
    `m · 2 ^ q` with `m < 2 ^ 53` and `-1074 ≤ q`; a tie goes to the even `m`.
    Rounding is done on exact rationals, so there is no second rounding to
    reason about.

    `Binary64.ofDecimal` is the number nearest to `digits · 10 ^ exponent`.  The
    significand of `Binary64.finite` is in normal form: `2 ^ 52 ≤ m` unless
    `q = -1074`. -/

namespace FormReader

/-- A number of binary floating point. -/
inductive Binary64 where
  | nan
  | infinite (negative : Bool)
  /-- The number `± significand · 2 ^ exponent`. -/
  | finite (negative : Bool) (significand : Nat) (exponent : Int)
  deriving DecidableEq

namespace Binary64

/-- The least exponent. -/
def leastExponent : Int := -1074

/-- The integer nearest to a rational that is not negative; a tie goes to the even neighbour. -/
def roundHalfEven (r : Rat) : Nat :=
  let below := r.floor.toNat
  let excess := r - (below : Rat)
  if excess < 1 / 2 then below
  else if 1 / 2 < excess then below + 1
  else if below % 2 = 0 then below else below + 1

/-- The exponent that gives a positive rational a significand of 53 bits, or the least one. -/
def exponentFor (r : Rat) : Int :=
  let estimate := max ((Nat.log2 r.num.toNat : Int) - Nat.log2 r.den - 53) leastExponent
  if r < (2 : Rat) ^ (53 : Nat) * (2 : Rat) ^ estimate then estimate else estimate + 1

/-- The number nearest to a positive rational. -/
def nearest (negative : Bool) (r : Rat) : Binary64 :=
  let exponent := exponentFor r
  let significand := roundHalfEven (r / (2 : Rat) ^ exponent)
  let (significand, exponent) :=
    if significand = Nat.pow 2 53 then (Nat.pow 2 52, exponent + 1) else (significand, exponent)
  if 971 < exponent then .infinite negative else .finite negative significand exponent

/-- The number nearest to `± numeral · 10 ^ exponent`. The numeral has at most `places` digits; a
    magnitude far outside the range is settled by the place of its first digit alone. -/
def ofDecimal (negative : Bool) (numeral places : Nat) (exponent : Int) : Binary64 :=
  if numeral = 0 || places + exponent < -400 then .finite negative 0 leastExponent
  else if 400 < (Nat.log2 numeral : Int) * 3 / 10 + exponent then .infinite negative
  else nearest negative ((numeral : Rat) * (10 : Rat) ^ exponent)

end Binary64

end FormReader
