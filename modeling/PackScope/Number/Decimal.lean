import PackScope.Number.Binary64

/-!
Decimal digits of a double-precision number: the fewest digits that read back as the number, and of
those the digits nearest to it. All comparisons are exact, in the natural numbers.
-/

namespace PackScope

/-- The decimal `digits * 10 ^ exponent`. -/
structure Decimal where
  digits : Nat
  exponent : Int
  deriving DecidableEq, Repr, Inhabited

namespace Decimal

/-- The decimal digits of the significant part, most significant first. -/
def digitChars (d : Decimal) : List Char := Nat.toDigits 10 d.digits

/-- The power of ten of the first digit. -/
def leading (d : Decimal) : Int := d.exponent + (d.digitChars.length - 1)

/-! ### The fewest digits -/

/-- Which of two decimals is taken when both are equally near. -/
inductive Tie
  | away
  | even
  deriving DecidableEq, Repr

/-- The numbers that round to a magnitude, in halves of a unit: from half way to the magnitude
below it, to half way to the one above. -/
structure Interval where
  low : Nat
  centre : Nat
  high : Nat
  /-- Whether the two ends round to the magnitude too, which is so for an even rank. -/
  closed : Bool
  deriving Repr

/-- The interval of the magnitude with a rank above zero. -/
def Interval.ofRank (rank : Nat) : Interval where
  low := Binary64.units (rank - 1) + Binary64.units rank
  centre := 2 * Binary64.units rank
  high := Binary64.units rank + Binary64.units (rank + 1)
  closed := rank % 2 = 0

/-- Whether a quotient of natural numbers lies in an interval. -/
def Interval.contains (i : Interval) (num den : Nat) : Bool :=
  if i.closed then i.low * den ≤ num ∧ num ≤ i.high * den
  else i.low * den < num ∧ num < i.high * den

/-- The power of ten of the first digit of a number of half units, above zero. -/
def leadingOf (centre : Nat) : Int :=
  ((Nat.toDigits 10 (centre * Nat.pow 10 400 / (2 * Binary64.unitsOfOne))).length : Int) - 401

/-- The multiple of `10 ^ exponent` in an interval that is nearest to its centre, if one of the
centre's two neighbours among these multiples lies in the interval. -/
def Interval.nearest? (i : Interval) (tie : Tie) (exponent : Int) : Option Nat :=
  let num := 2 * Binary64.unitsOfOne * Nat.pow 10 exponent.toNat
  let den := Nat.pow 10 (-exponent).toNat
  let below := i.centre * den / num
  let above := below + 1
  match i.contains (below * num) den, i.contains (above * num) den with
  | false, false => none
  | true, false => some below
  | false, true => some above
  | true, true =>
    match compare (2 * i.centre * den) ((below + above) * num) with
    | .lt => some below
    | .gt => some above
    | .eq => some (if tie = .even ∧ below % 2 = 0 then below else above)

/-- Drops the zeros at the end of a decimal that is a power of ten. -/
def trimPower (d : Decimal) : Decimal :=
  if d.digits = Nat.pow 10 (d.digitChars.length - 1) then ⟨1, d.leading⟩ else d

/-- **The fewest digits that read back as a magnitude**, and of those the nearest to it. Seventeen
digits always suffice. -/
def shortest (tie : Tie) (rank : Nat) : Decimal :=
  if rank = 0 then ⟨0, 0⟩
  else
    let i := Interval.ofRank rank
    let leading := leadingOf i.centre
    let found := (List.range 17).findSome? fun (k : Nat) =>
      (i.nearest? tie (leading - k)).map fun digits => trimPower ⟨digits, leading - k⟩
    found.getD ⟨0, 0⟩

/-! ### Positional notation -/

/-- Digits with a decimal point after the units, and at least one digit on each side of it. -/
def positional (d : Decimal) : List Char :=
  let digits := d.digitChars
  if d.exponent ≥ 0 then digits ++ List.replicate d.exponent.toNat '0' ++ ['.', '0']
  else
    let places := (-d.exponent).toNat
    let padded := List.replicate (places + 1 - digits.length) '0' ++ digits
    padded.take (padded.length - places) ++ '.' :: padded.drop (padded.length - places)

/-- The first digit, the others behind a point if there are any, and a power of ten whose sign is
always written. -/
def scientific (d : Decimal) : List Char :=
  let mantissa := match d.digitChars with
    | first :: second :: rest => first :: '.' :: second :: rest
    | digits => digits
  mantissa ++ 'e' :: (if d.leading < 0 then '-' else '+') :: Nat.toDigits 10 d.leading.natAbs

end Decimal

namespace Binary64

/-- A sign and the text of a magnitude. -/
def signed (negative : Bool) (magnitude : List Char) : List Char :=
  if negative then '-' :: magnitude else magnitude

/-- A number in full decimal digits without an exponent; a number that has no digits by name. -/
def plainText : Binary64 → List Char
  | finite negative rank => signed negative (Decimal.shortest .away rank).positional
  | x => (x.nameOfNonFinite.getD "").toList

end Binary64

end PackScope
