import FormReader.Text.Basic

/-! # Digests — by what values are sorted out

    A digest is taken of a text or of several things in a row: texts, digests
    taken before, and rows of such things.  How it is computed is left open
    wherever digests are used, so they can be computed by any function;
    `Digestible.mixed` is the one that is used in the end.  Different things may
    have the same digest. -/

namespace FormReader

/-- What a digest is taken of. -/
inductive Digestible (H : Type) where
  | text (t : Text)
  /-- A digest that was taken before. -/
  | digest (h : H)
  | row (parts : List (Digestible H))

namespace Digestible

/-- A number mixed into another one. -/
def mix (h n : UInt64) : UInt64 :=
  let product := (h ^^^ n) * 0x100000001B3
  product ^^^ (product >>> 29)

/-- Where the digest of a text begins. -/
def textSeed : UInt64 := 0xCBF29CE484222325

/-- Where the digest of a row begins. -/
def rowSeed : UInt64 := 0x9E3779B97F4A7C15

mutual

/-- A digest of 64 bits. -/
def mixed : Digestible UInt64 → UInt64
  | text t => t.foldl (fun h c => mix h c.val.toUInt64) textSeed
  | digest h => h
  | row parts => mixedRow rowSeed parts

/-- The digests of the parts mixed into one. -/
def mixedRow (h : UInt64) : List (Digestible UInt64) → UInt64
  | [] => h
  | part :: parts => mixedRow (mix h part.mixed) parts

end

end Digestible

end FormReader
