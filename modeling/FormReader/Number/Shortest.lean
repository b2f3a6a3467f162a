import FormReader.Number.Binary64

/-! # Shortest decimals — the numeral of a floating point number

    A finite number is written with the fewest decimal digits that read back to
    it.  Candidates are tried with one digit, two digits and so on; at each
    length they are the two neighbours of the number on the decimal grid, of
    which those count that lie in the interval of reals that round to the
    number.  Of two the nearer is taken, and of two equally near ones the even
    one.

    The numeral is positional while the exponent of its first digit lies from
    `-4` to `15`, and always shows a point; otherwise the exponent is written
    with its sign and at least two digits. -/

namespace FormReader

namespace Binary64

/-! ## Digits -/

/-- The value `significand · 2 ^ exponent`. -/
def magnitude (significand : Nat) (exponent : Int) : Rat :=
  (significand : Rat) * (2 : Rat) ^ exponent

/-- A rational lies among the reals that round to `significand · 2 ^ exponent`. The ends of the
    interval belong to it if the significand is even, and the lower end is nearer at a power of two.
    -/
def readsBack (significand : Nat) (exponent : Int) (candidate : Rat) : Bool :=
  let quarter : Rat := (2 : Rat) ^ (exponent - 2)
  let narrow := significand = Nat.pow 2 52 && leastExponent < exponent
  let low := (4 * significand - (if narrow then 1 else 2) : Int) * quarter
  let high := (4 * significand + 2 : Int) * quarter
  if significand % 2 = 0 then low ≤ candidate && candidate ≤ high
  else low < candidate && candidate < high

/-- The exponent of the first decimal digit of a positive rational, searched downwards. -/
def leadingExponent (r : Rat) : (fuel : Nat) → (start : Int) → Int
  | 0, e => e
  | fuel + 1, e => if (10 : Rat) ^ e ≤ r then e else leadingExponent r fuel (e - 1)

/-- Of the two neighbours of a value on a decimal grid, the one to write, if either reads back. -/
def candidate? (significand : Nat) (exponent : Int) (grid : Int) : Option Nat :=
  let value := magnitude significand exponent
  let unit : Rat := (10 : Rat) ^ grid
  let below := (value / unit).floor.toNat
  let fits (n : Nat) : Bool := readsBack significand exponent ((n : Rat) * unit)
  match fits below, fits (below + 1) with
  | true, true => some (roundHalfEven (value / unit))
  | true, false => some below
  | false, true => some (below + 1)
  | false, false => none

/-- A decimal without zeros at its end, the exponent belonging to its last digit. -/
def withoutTrailingZeros : (fuel : Nat) → (numeral : Nat) → (grid : Int) → Nat × Int
  | 0, n, g => (n, g)
  | fuel + 1, n, g =>
    if n ≠ 0 && n % 10 = 0 then withoutTrailingZeros fuel (n / 10) (g + 1) else (n, g)

/-- The shortest decimal of a positive number, as a numeral and the exponent of its last digit. -/
def shortest (significand : Nat) (exponent : Int) : Nat × Int :=
  let leading := leadingExponent (magnitude significand exponent) 700 309
  let found := (List.range 17).findSome? fun (places : Nat) =>
    let grid := leading - places
    (candidate? significand exponent grid).map fun n => (n, grid)
  match found with
  | some (n, grid) => withoutTrailingZeros 20 n grid
  | none => (significand * Nat.pow 2 exponent.toNat * Nat.pow 5 (-exponent).toNat, min exponent 0)

/-! ## Layout -/

/-- The decimal exponents that are written positionally. -/
def isPositional (leading : Int) : Bool := -4 ≤ leading && leading < 16

/-- The exponent part of a numeral: a sign and at least two digits. -/
def exponentPart (leading : Int) : Text :=
  let digits := Text.ofNat leading.natAbs
  Text.of (if leading < 0 then "e-" else "e+") ++
    (if digits.length < 2 then Text.of "0" ++ digits else digits)

/-- The layout of a decimal whose first digit has a given exponent. -/
def layout (digits : Text) (leading : Int) : Text :=
  if !isPositional leading then
    match digits with
    | [] => []
    | d :: [] => d :: exponentPart leading
    | d :: rest => d :: Text.of "." ++ rest ++ exponentPart leading
  else if leading < 0 then
    Text.of "0." ++ List.replicate (-leading - 1).toNat ('0' : CodePoint) ++ digits
  else
    let whole := leading.toNat + 1
    if digits.length ≤ whole then
      digits ++ List.replicate (whole - digits.length) ('0' : CodePoint) ++ Text.of ".0"
    else digits.take whole ++ Text.of "." ++ digits.drop whole

/-- The numeral of a number. -/
def numeral : Binary64 → Text
  | nan => .of "nan"
  | infinite negative => .of (if negative then "-inf" else "inf")
  | finite negative significand exponent =>
    let sign : Text := .of (if negative then "-" else "")
    if significand = 0 then sign ++ .of "0.0"
    else
      let (n, grid) := shortest significand exponent
      let digits := Text.ofNat n
      sign ++ layout digits (grid + digits.length - 1)

end Binary64

end FormReader
