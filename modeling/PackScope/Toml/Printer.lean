import PackScope.Number.Decimal
import PackScope.Text.Digits
import PackScope.Toml.Basic

/-!
TOML text of a value on one line of its own, tables inline. A string is written in the first of
four plain forms that can hold it as it is, and with escapes if none can.
-/

namespace PackScope.Toml

/-! ### Strings -/

/-- Whether a character is a control character other than the tab and the line feed. -/
def isControl (c : Char) : Bool :=
  (c.toNat < 0x20 && c ≠ '\t' && c ≠ '\n') || c.toNat = 0x7f

/-- The length of the longest run of a character. -/
def longestRun (c : Char) (cs : List Char) : Nat :=
  (cs.foldl (fun (acc : Nat × Nat) d =>
    if d = c then (acc.1 + 1, max acc.2 (acc.1 + 1)) else (0, acc.2)) (0, 0)).2

/-- A character of a basic string, apart from the quote and the line feed. -/
def escapeChar (c : Char) : List Char :=
  if c = '\\' then ['\\', '\\']
  else if c = '\t' then ['\\', 't']
  else if c = '\r' then ['\\', 'r']
  else if c = '\x08' then ['\\', 'b']
  else if c = '\x0c' then ['\\', 'f']
  else if isControl c then
    '\\' :: 'u' :: Text.zeroPadded 4 ((Nat.toDigits 16 c.toNat).map Char.toUpper)
  else [c]

/-- The body of a basic string on one line. -/
def basicBody (cs : List Char) : List Char :=
  cs.flatMap fun c =>
    if c = '"' then ['\\', '"'] else if c = '\n' then ['\\', 'n'] else escapeChar c

/-- The body of a basic string over lines, after a number of quotes in a row: every third quote of
a run is escaped. -/
def linesBody : Nat → List Char → List Char
  | _, [] => []
  | quotes, c :: rest =>
    if c = '"' then
      if quotes = 2 then '\\' :: '"' :: linesBody 0 rest else '"' :: linesBody (quotes + 1) rest
    else if c = '\n' then '\n' :: linesBody 0 rest
    else escapeChar c ++ linesBody 0 rest

/-- A string in single quotes, as it is. -/
def literalString (cs : List Char) : List Char := '\'' :: (cs ++ ['\''])

/-- A basic string on one line. -/
def basicString (cs : List Char) : List Char := '"' :: (basicBody cs ++ ['"'])

/-- A line break that is no part of a string, in front of a string with line breaks of its own. -/
def leadingBreak (cs : List Char) : List Char := if cs.contains '\n' then ['\n'] else []

/-- A basic string between triple quotes. -/
def basicLines (cs : List Char) : List Char :=
  ['"', '"', '"'] ++ leadingBreak cs ++ linesBody 0 cs ++ ['"', '"', '"']

/-- A string between triple single quotes, as it is. -/
def literalLines (cs : List Char) : List Char :=
  ['\'', '\'', '\''] ++ leadingBreak cs ++ cs ++ ['\'', '\'', '\'']

/-- **A string as a value**, in the first form that holds it. -/
def stringText (cs : List Char) : List Char :=
  let control := cs.any isControl
  let lines := cs.contains '\n'
  if !control && !lines && !cs.contains '\\' && !cs.contains '"' then basicString cs
  else if !control && !lines && !cs.contains '\'' then literalString cs
  else if !control && !cs.contains '\\' && longestRun '"' cs < 3 then basicLines cs
  else if !control && longestRun '\'' cs < 3 then literalLines cs
  else if lines then basicLines cs
  else basicString cs

/-- A key inside a table: bare if it can be, in single quotes if that spares an escape, else in
double quotes. -/
def keyText (cs : List Char) : List Char :=
  let spares := cs.contains '\\' || cs.contains '"'
  let fits := !cs.any isControl && !cs.contains '\n' && !cs.contains '\''
  if isBareKey cs then cs
  else if spares && fits then literalString cs
  else basicString cs

/-! ### Values -/

/-- A number: all its digits, or `nan`, `inf`, `-inf`. -/
def floatText : Binary64 → List Char
  | .nan => "nan".toList
  | x => x.plainText

/-- The text of a value without parts. -/
def Scalar.chars : Scalar → List Char
  | string s => stringText s.toList
  | integer n => (toString n.toInt).toList
  | float x => floatText x
  | boolean true => "true".toList
  | boolean false => "false".toList
  | datetime d => d.chars

mutual

/-- The text of a value. -/
def Data.chars : Data → List Char
  | .scalar s => s.chars
  | .array [] => ['[', ']']
  | .array (item :: rest) => '[' :: (item.chars ++ itemsText rest)
  | .table [] => ['\x7b', '\x7d']
  | .table ((key, value) :: rest) =>
    '\x7b' :: ' ' ::
      (keyText key.toList ++ (' ' :: '=' :: ' ' :: (value.chars ++ entriesText rest)))

/-- The items of an array after the first one, and the closing bracket. -/
def itemsText : List Data → List Char
  | [] => [']']
  | item :: rest => ',' :: ' ' :: (item.chars ++ itemsText rest)

/-- The entries of a table after the first one, and the closing brace. -/
def entriesText : List (String × Data) → List Char
  | [] => [' ', '\x7d']
  | (key, value) :: rest =>
    ',' :: ' ' :: (keyText key.toList ++ (' ' :: '=' :: ' ' :: (value.chars ++ entriesText rest)))

end

/-- The text of a value. -/
def Data.text (d : Data) : String := .ofList d.chars

end PackScope.Toml
