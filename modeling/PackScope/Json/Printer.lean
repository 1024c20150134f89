import PackScope.Json.Basic
import PackScope.Number.Decimal
import PackScope.Text.Digits

/-!
JSON text, compact or laid out over lines with two blanks of indentation a level. The two layouts
differ in blanks alone.
-/

namespace PackScope

namespace Json

/-! ### Scalars -/

/-- A character inside a string: the quote, the backslash and the control characters below the
blank are escaped, and nothing else. -/
def escapeChar (c : Char) : List Char :=
  if c = '"' then ['\\', '"']
  else if c = '\\' then ['\\', '\\']
  else if c = '\n' then ['\\', 'n']
  else if c = '\t' then ['\\', 't']
  else if c = '\r' then ['\\', 'r']
  else if c = '\x08' then ['\\', 'b']
  else if c = '\x0c' then ['\\', 'f']
  else if c.toNat < 0x20 then '\\' :: 'u' :: Text.zeroPadded 4 (Nat.toDigits 16 c.toNat)
  else [c]

/-- A string in quotes. -/
def quoted (s : String) : List Char := '"' :: (s.toList.flatMap escapeChar ++ ['"'])

/-- The text of a magnitude in the fewest digits: positional from `10 ^ -5` up to `10 ^ 16`, with a
power of ten otherwise. -/
def magnitudeText (rank : Nat) : List Char :=
  let d := Decimal.shortest .even rank
  if -5 ≤ d.leading ∧ d.leading < 16 then d.positional else d.scientific

/-- The text of a number; one that has no digits is written as null. -/
def numberText : Binary64 → List Char
  | .finite negative rank => Binary64.signed negative (magnitudeText rank)
  | _ => "null".toList

/-- A whole number in decimal digits. -/
def integerText (n : Int) : List Char := (toString n).toList

/-! ### Compact text -/

mutual

/-- The text of a value without blanks. -/
def compact : Json → List Char
  | null => "null".toList
  | bool true => "true".toList
  | bool false => "false".toList
  | integer n => integerText n
  | float x => numberText x
  | string s => quoted s
  | array [] => ['[', ']']
  | array (item :: rest) => '[' :: (item.compact ++ compactItems rest)
  | object [] => ['\x7b', '\x7d']
  | object ((key, value) :: rest) =>
    '\x7b' :: (quoted key ++ ':' :: (value.compact ++ compactEntries rest))

/-- The items of an array after the first one, and the closing bracket. -/
def compactItems : List Json → List Char
  | [] => [']']
  | item :: rest => ',' :: (item.compact ++ compactItems rest)

/-- The entries of an object after the first one, and the closing brace. -/
def compactEntries : List (String × Json) → List Char
  | [] => ['\x7d']
  | (key, value) :: rest =>
    ',' :: (quoted key ++ ':' :: (value.compact ++ compactEntries rest))

end

/-! ### Text over lines -/

/-- The start of a line at a level of nesting. -/
def newLine (level : Nat) : List Char := '\n' :: List.replicate (2 * level) ' '

mutual

/-- The text of a value over lines; the lines after the first are indented for a level. -/
def prettyAt (level : Nat) : Json → List Char
  | null => "null".toList
  | bool true => "true".toList
  | bool false => "false".toList
  | integer n => integerText n
  | float x => numberText x
  | string s => quoted s
  | array [] => ['[', ']']
  | array (item :: rest) =>
    '[' :: (newLine (level + 1) ++ (item.prettyAt (level + 1) ++ prettyItems level rest))
  | object [] => ['\x7b', '\x7d']
  | object ((key, value) :: rest) =>
    '\x7b' :: (newLine (level + 1) ++ (quoted key ++ ':' :: ' ' ::
      (value.prettyAt (level + 1) ++ prettyEntries level rest)))

/-- The items of an array after the first one, and the closing bracket. -/
def prettyItems (level : Nat) : List Json → List Char
  | [] => newLine level ++ [']']
  | item :: rest =>
    ',' :: (newLine (level + 1) ++ (item.prettyAt (level + 1) ++ prettyItems level rest))

/-- The entries of an object after the first one, and the closing brace. -/
def prettyEntries (level : Nat) : List (String × Json) → List Char
  | [] => newLine level ++ ['\x7d']
  | (key, value) :: rest =>
    ',' :: (newLine (level + 1) ++ (quoted key ++ ':' :: ' ' ::
      (value.prettyAt (level + 1) ++ prettyEntries level rest)))

end

/-- The compact text of a value. -/
def text (j : Json) : String := .ofList j.compact

/-- The text of a value over lines. -/
def prettyText (j : Json) : String := .ofList (j.prettyAt 0)

end Json

end PackScope
