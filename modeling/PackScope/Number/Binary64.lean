/-!
Double-precision numbers. A finite number is a sign and the rank of its magnitude among all finite
magnitudes, counted from zero. Every magnitude is a whole multiple of `2 ^ -1074`, and `units` says
which, so magnitudes are compared and rounded in the natural numbers and nothing is lost.
-/

namespace PackScope

/-- The number of magnitudes with one power of two, `2 ^ 52`. -/
def Binary64.binadeSize : Nat := 0x10000000000000

/-- The number of finite magnitudes. -/
def Binary64.finiteRanks : Nat := 2047 * binadeSize

/-- **A double-precision number.** The rank of a magnitude is its bit pattern without the sign. All
bit patterns that are not numbers are one value. -/
inductive Binary64 where
  | finite (negative : Bool) (rank : Fin Binary64.finiteRanks)
  | infinite (negative : Bool)
  | nan
  deriving DecidableEq, Repr, Inhabited

namespace Binary64

/-! ### Magnitudes -/

/-- The significand of the magnitude with a given rank; below `2 ^ 52` ranks there is no leading
bit to restore. -/
def significand (rank : Nat) : Nat :=
  if rank < binadeSize then rank else binadeSize + rank % binadeSize

/-- The power of two that multiplies the significand, counted from `2 ^ -1074`. -/
def scale (rank : Nat) : Nat := rank / binadeSize - 1

/-- A magnitude in units of `2 ^ -1074`. -/
def units (rank : Nat) : Nat := significand rank * Nat.pow 2 (scale rank)

/-- The number of units in one. -/
def unitsOfOne : Nat := Nat.pow 2 1074

/-! ### Rounding -/

/-- The whole number nearest to a quotient, the even one of two that are equally near. -/
def roundQuotient (num den : Nat) : Nat :=
  let low := num / den
  let twice := 2 * (num % den)
  if twice > den ∨ twice = den ∧ low % 2 = 1 then low + 1 else low

/-- The rank of the magnitude nearest to a number of units given as a quotient. A rank that lies
beyond all finite ones stands for a number too large. -/
def rankOfUnits (num den : Nat) : Nat :=
  let binade := Nat.log2 (num / den) - 52
  binade * binadeSize + roundQuotient num (den * Nat.pow 2 binade)

/-- The number with a given sign and rank, infinite if the rank is beyond all finite ones. -/
def ofRank (negative : Bool) (rank : Nat) : Binary64 :=
  if h : rank < finiteRanks then finite negative ⟨rank, h⟩ else infinite negative

/-- The number nearest to a quotient of natural numbers. -/
def ofQuotient (negative : Bool) (num den : Nat) : Binary64 :=
  ofRank negative (rankOfUnits (num * unitsOfOne) den)

/-- The number nearest to a natural number. -/
def ofNat (n : Nat) : Binary64 := ofQuotient false n 1

/-- The number nearest to `digits * 10 ^ exponent`. A decimal beyond `10 ^ 400` is infinite and one
below `10 ^ -400` is zero, which is decided before any large power is formed. -/
def ofDecimal (negative : Bool) (digits : Nat) (exponent : Int) : Binary64 :=
  if digits = 0 then ofRank negative 0
  else if exponent > 400 then infinite negative
  else if exponent + (Nat.toDigits 10 digits).length < -400 then ofRank negative 0
  else if exponent ≥ 0 then ofQuotient negative (digits * Nat.pow 10 exponent.toNat) 1
  else ofQuotient negative digits (Nat.pow 10 (-exponent).toNat)

/-! ### Classes of numbers -/

/-- Whether a number is neither infinite nor the value that is not a number. -/
def isFinite : Binary64 → Bool
  | finite _ _ => true
  | _ => false

/-- The name of a number that has no digits, as `NaN`, `inf` or `-inf`. -/
def nameOfNonFinite : Binary64 → Option String
  | finite _ _ => none
  | infinite false => some "inf"
  | infinite true => some "-inf"
  | nan => some "NaN"

/-! ### Bit patterns -/

/-- The weight of the sign in a bit pattern, `2 ^ 63`. -/
def signBit : Nat := 2048 * binadeSize

/-- The number that a 64-bit pattern stands for. -/
def ofBits (bits : UInt64) : Binary64 :=
  let negative := bits.toNat / signBit = 1
  let rank := bits.toNat % signBit
  if h : rank < finiteRanks then finite negative ⟨rank, h⟩
  else if rank = finiteRanks then infinite negative
  else nan

/-- The 64-bit pattern of a number; the value that is not a number gets its quiet pattern. -/
def toBits : Binary64 → UInt64
  | finite negative rank => .ofNat ((if negative then signBit else 0) + rank)
  | infinite negative => .ofNat ((if negative then signBit else 0) + finiteRanks)
  | nan => .ofNat (finiteRanks + binadeSize / 2)

end Binary64

end PackScope
