import PackScope.Json.Basic
import PackScope.Text.Reader

/-!
JSON numbers. A whole number of up to 64 bits is kept as it is. Any other number has as many of its
digits as fit into 64 bits, and these are scaled by a power of ten in double precision, so the
result may be off by a rounding.
-/

namespace PackScope.Json

/-! ### Scaling -/

/-- The rank of a power of ten. -/
def powerRank (n : Nat) : Nat := Binary64.rankOfUnits (Nat.pow 10 n * Binary64.unitsOfOne) 1

/-- The product of two magnitudes, rounded. -/
def productRank (a b : Nat) : Nat :=
  Binary64.rankOfUnits (Binary64.units a * Binary64.units b) Binary64.unitsOfOne

/-- The quotient of two magnitudes, rounded. -/
def quotientRank (a b : Nat) : Nat :=
  Binary64.rankOfUnits (Binary64.units a * Binary64.unitsOfOne) (Binary64.units b)

/-- Divides a magnitude so many times by the largest power of ten. -/
def divideRounds : Nat → Nat → Nat
  | 0, rank => rank
  | n + 1, rank => if rank = 0 then 0 else divideRounds n (quotientRank rank (powerRank 308))

/-- The magnitude of digits times a power of ten, scaled in double precision; nothing if it exceeds
all finite ones. No power of ten above `10 ^ 308` is finite, so a smaller exponent than `-308` takes
several divisions. -/
def scaledRank? (significand : Nat) (exponent : Int) : Option Nat :=
  let rank := Binary64.rankOfUnits (significand * Binary64.unitsOfOne) 1
  if exponent < 0 then
    let places := (-exponent).toNat
    let rounds := (places - 1) / 308
    some (quotientRank (divideRounds rounds rank) (powerRank (places - 308 * rounds)))
  else if rank = 0 then some 0
  else if exponent > 308 then none
  else
    let product := productRank rank (powerRank exponent.toNat)
    if product < Binary64.finiteRanks then some product else none

/-! ### Digits -/

/-- The digits taken so far and their power of ten. -/
structure Digits where
  significand : Nat
  exponent : Int
  /-- Whether a digit did not fit, so that no later one is taken. -/
  full : Bool := false
  deriving Repr, Inhabited

namespace Digits

/-- The least number that does not fit into 64 bits. -/
def limit : Nat := 0x10000000000000000

/-- The value of a decimal digit. -/
def valueOf (c : Char) : Nat := c.toNat - '0'.toNat

/-- Takes a digit in front of the point; one that does not fit counts for its place alone. -/
def takeWhole (d : Digits) (c : Char) : Digits :=
  let next := 10 * d.significand + valueOf c
  if d.full || next ≥ limit then { d with exponent := d.exponent + 1, full := true }
  else { d with significand := next }

/-- Takes a digit behind the point; one that does not fit is dropped. -/
def takeFraction (d : Digits) (c : Char) : Digits :=
  let next := 10 * d.significand + valueOf c
  if d.full || next ≥ limit then { d with full := true }
  else { d with significand := next, exponent := d.exponent - 1 }

/-- The digits of a whole number. -/
def ofWhole (whole : List Char) : Digits := whole.foldl takeWhole ⟨0, 0, false⟩

/-- Goes on with the digits of a fraction. -/
def withFraction (d : Digits) (fraction : List Char) : Digits :=
  fraction.foldl takeFraction { d with full := false }

end Digits

/-! ### Numbers -/

/-- A number with a fraction or an exponent, or of more digits than fit. -/
def floatOf? (negative : Bool) (d : Digits) (exponent : Int) : Option Json := do
  return .float (.ofRank negative (← scaledRank? d.significand (d.exponent + exponent)))

/-- A number of digits alone. A negative one keeps its value if 64 bits with a sign can hold it, and
minus zero is not whole. -/
def wholeOf? (negative : Bool) (d : Digits) : Option Json :=
  if d.full then floatOf? negative d 0
  else if !negative then some (.integer d.significand)
  else if 0 < d.significand ∧ 2 * d.significand ≤ Digits.limit then some (.integer (-d.significand))
  else some (.float (.ofQuotient true d.significand 1))

/-- At least one digit. -/
def digitRun : Reader (List Char) := do
  return (← .satisfying Char.isDigit) :: (← .run Char.isDigit)

/-- The digits in front of the point, without a zero in front of others. -/
def wholeDigits : Reader (List Char) := do
  match ← digitRun with
  | '0' :: _ :: _ => .fail
  | digits => return digits

/-- The digits behind a point, if there is one. -/
def fractionDigits : Reader (Option (List Char)) := do
  if ← .found '.' then return some (← digitRun) else return none

/-- Whether a minus comes next, or a plus, which may stand in an exponent. -/
def exponentSign : Reader Bool := do
  if ← .found '-' then return true
  let _ ← Reader.found '+'
  return false

/-- An exponent, if there is one. -/
def exponentDigits : Reader (Option Int) := do
  let lower ← .found 'e'
  let marked ← if lower then pure true else .found 'E'
  if !marked then return none
  let negative ← exponentSign
  let n : Int := Nat.ofDigitChars 10 (← digitRun) 0
  return some (if negative then -n else n)

/-- **A number.** -/
def number : Reader Json := do
  let negative ← .found '-'
  let whole ← wholeDigits
  let fraction ← fractionDigits
  let exponent ← exponentDigits
  let d := Digits.ofWhole whole
  match fraction, exponent with
  | none, none => wholeOf? negative d
  | _, _ => floatOf? negative (d.withFraction (fraction.getD [])) (exponent.getD 0)

end PackScope.Json
