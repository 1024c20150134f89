import PackScope.Number.Signed64
import PackScope.Toml.Basic
import PackScope.Toml.Quoted

/-!
TOML numbers. Single underscores may stand between the digits of a run. A whole number has at most
64 bits with its sign, and a number with a fraction or an exponent may not exceed all finite ones.
-/

namespace PackScope.Toml

/-! ### Digits -/

/-- The digits of a run after its first one: digits, and underscores in front of digits. -/
def moreDigits (isDigit : Char → Bool) : Reader (List Char)
  | [] => some ([], [])
  | c :: rest =>
    if isDigit c then do
      let (ds, rest) ← moreDigits isDigit rest
      return (c :: ds, rest)
    else
      match c, rest with
      | '_', d :: rest =>
        if isDigit d then do
          let (ds, rest) ← moreDigits isDigit rest
          return (d :: ds, rest)
        else some ([], c :: d :: rest)
      | _, rest => some ([], c :: rest)

/-- A run of digits with at least one digit. -/
def digitRun (isDigit : Char → Bool) : Reader (List Char) := do
  return (← .satisfying isDigit) :: (← moreDigits isDigit)

/-- The digits of a decimal whole number, which starts with a zero only if it is zero. -/
def decimalRun : Reader (List Char) := do
  let first ← .satisfying Char.isDigit
  if first = '0' then return [first] else return first :: (← moreDigits Char.isDigit)

/-- The number that digits stand for in a base. -/
def digitsValue (base : Nat) (digits : List Char) : Nat :=
  digits.foldl (fun n c => base * n + (Text.hexValue? c).getD 0) 0

/-! ### Whole numbers -/

/-- A whole number, if 64 bits with a sign can hold it. -/
def wholeNumber? (n : Int) : Option Scalar :=
  (signed64? n).map .integer

/-- The digits behind the mark of a base. -/
def inBase (base : Nat) (isDigit : Char → Bool) : Reader Scalar := do
  let digits ← digitRun isDigit
  wholeNumber? (digitsValue base digits)

/-- Whether a character is a digit of base sixteen. -/
def isHexDigit (c : Char) : Bool := (Text.hexValue? c).isSome

/-- Whether a character is a digit of base eight. -/
def isOctalDigit (c : Char) : Bool := '0' ≤ c && c ≤ '7'

/-- Whether a character is a digit of base two. -/
def isBinaryDigit (c : Char) : Bool := c = '0' || c = '1'

/-! ### Decimal numbers -/

/-- A sign, if one comes next: whether it is a minus. -/
def sign : Reader (Option Bool)
  | '+' :: rest => some (some false, rest)
  | '-' :: rest => some (some true, rest)
  | cs => some (none, cs)

/-- A power of ten behind the letter that announces it. -/
def exponentPart : Reader Int := do
  let _ ← .satisfying fun c => c = 'e' || c = 'E'
  let negative := (← sign).getD false
  let n := digitsValue 10 (← digitRun Char.isDigit)
  return if negative then -n else n

/-- The digits of a fraction behind the point. -/
def fractionPart : Reader (List Char) := do
  .exactly '.'
  digitRun Char.isDigit

/-- The digits of a number, and its sign, as a number with a fraction or an exponent. A number above
all finite ones is refused. -/
def floatNumber? (negative : Bool) (whole fraction : List Char) (exponent : Int) : Option Scalar :=
  let x := Binary64.ofDecimal negative (digitsValue 10 (whole ++ fraction))
    (exponent - fraction.length)
  if x = .infinite false then none else some (.float x)

/-- A decimal number behind its sign. -/
def decimal (negative : Bool) : Reader Scalar := do
  let whole ← decimalRun
  let fraction ← Reader.optional fractionPart
  let exponent ← Reader.optional exponentPart
  match fraction, exponent with
  | none, none =>
    let n : Int := digitsValue 10 whole
    wholeNumber? (if negative then -n else n)
  | _, _ => floatNumber? negative whole (fraction.getD []) (exponent.getD 0)

/-- A number that has a name in place of digits, behind its sign. -/
def namedNumber (negative : Bool) : Reader Scalar
  | 'i' :: 'n' :: 'f' :: rest => some (.float (.infinite negative), rest)
  | 'n' :: 'a' :: 'n' :: rest => some (.float .nan, rest)
  | _ => none

/-- **A number.** -/
def numeral : Reader Scalar
  | '0' :: 'x' :: rest => inBase 16 isHexDigit rest
  | '0' :: 'o' :: rest => inBase 8 isOctalDigit rest
  | '0' :: 'b' :: rest => inBase 2 isBinaryDigit rest
  | cs => (do
    let negative := (← sign).getD false
    match ← Reader.optional (namedNumber negative) with
    | some x => return x
    | none => decimal negative : Reader _) cs

end PackScope.Toml
