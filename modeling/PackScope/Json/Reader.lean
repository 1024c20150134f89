import PackScope.Json.Number
import PackScope.Json.Printer
import PackScope.Mismatch

/-!
JSON values as they are read. A value is read from the front of a text, so that a mistake in the
data is found before a mistake in the text behind it. Arrays and objects nest up to a limit.
-/

namespace PackScope.Json

/-- **A reader of JSON**, which fails with a reason. -/
abbrev DataReader := StateT (List Char) (Except ReadError)

namespace DataReader

variable {α : Type}

/-- Fails because the text is no JSON. -/
def malformed : DataReader α := fun _ => .error .malformed

/-- Reads a part for whose failure there is one reason only. -/
def lexeme (r : Reader α) : DataReader α := fun cs =>
  match r cs with
  | some result => .ok result
  | none => .error .malformed

end DataReader

open DataReader

/-! ### Blanks and words -/

/-- Whether a character is a blank. -/
def isBlank (c : Char) : Bool := c = ' ' || c = '\n' || c = '\t' || c = '\r'

/-- Skips blanks. -/
def blanks : Reader Unit := .skip isBlank

/-- A given mark, with the blanks in front of it. -/
def mark (c : Char) : Reader Unit := do
  blanks
  .exactly c

/-! ### Strings -/

/-- The character that a backslash and one more character stand for. -/
def escaped? (c : Char) : Option Char :=
  if c = '"' then some '"'
  else if c = '\\' then some '\\'
  else if c = '/' then some '/'
  else if c = 'b' then some '\x08'
  else if c = 'f' then some '\x0c'
  else if c = 'n' then some '\n'
  else if c = 'r' then some '\r'
  else if c = 't' then some '\t'
  else none

/-- Whether a number is the first half of a pair that stands for one character. -/
def isHighHalf (n : Nat) : Bool := 0xd800 ≤ n && n < 0xdc00

/-- Whether a number is the second half of a pair that stands for one character. -/
def isLowHalf (n : Nat) : Bool := 0xdc00 ≤ n && n < 0xe000

/-- The rest of a string behind its opening quote. -/
def stringRest : Reader (List Char)
  | [] => none
  | c :: rest =>
    if c = '"' then some ([], rest)
    else if c = '\\' then
      match rest with
      | 'u' :: d₁ :: d₂ :: d₃ :: d₄ :: rest => do
        let n ← Text.hexNumber? [d₁, d₂, d₃, d₄]
        if isLowHalf n then none
        else if isHighHalf n then
          match rest with
          | '\\' :: 'u' :: e₁ :: e₂ :: e₃ :: e₄ :: rest => do
            let low ← Text.hexNumber? [e₁, e₂, e₃, e₄]
            if !isLowHalf low then none
            else do
              let (cs, rest) ← stringRest rest
              return (Char.ofNat (0x10000 + (n - 0xd800) * 0x400 + (low - 0xdc00)) :: cs, rest)
          | _ => none
        else do
          let (cs, rest) ← stringRest rest
          return (Char.ofNat n :: cs, rest)
      | d :: rest => do
        let e ← escaped? d
        let (cs, rest) ← stringRest rest
        return (e :: cs, rest)
      | [] => none
    else if c.toNat < 0x20 then none
    else do
      let (cs, rest) ← stringRest rest
      return (c :: cs, rest)

/-- A string. -/
def stringToken : Reader String := do
  .exactly '"'
  return .ofList (← stringRest)

/-! ### Values -/

/-- A value without parts. -/
def scalar : Reader Json := fun cs =>
  match cs with
  | 'n' :: _ => (do Reader.word "null".toList; return .null : Reader _) cs
  | 't' :: _ => (do Reader.word "true".toList; return .bool true : Reader _) cs
  | 'f' :: _ => (do Reader.word "false".toList; return .bool false : Reader _) cs
  | '"' :: _ => (do return .string (← stringToken) : Reader _) cs
  | _ => number cs

variable {α : Type}

/-- The items of an array and its closing bracket. There may be at most so many items. -/
def items (item : DataReader α) : Nat → DataReader (List α)
  | 0 => malformed
  | n + 1 => do
    let first ← item
    lexeme blanks
    if ← lexeme (.found ',') then return first :: (← items item n)
    lexeme (.exactly ']')
    return [first]

/-- An array behind its opening bracket. -/
def arrayRest (item : DataReader α) : DataReader (List α) := do
  lexeme blanks
  if ← lexeme (.found ']') then return []
  items item (← get).length

/-- The entries of an object and its closing brace. There may be at most so many entries. -/
def members (value : DataReader α) : Nat → DataReader (List (String × α))
  | 0 => malformed
  | n + 1 => do
    lexeme blanks
    let key ← lexeme stringToken
    lexeme (mark ':')
    let first ← value
    lexeme blanks
    if ← lexeme (.found ',') then return (key, first) :: (← members value n)
    lexeme (.exactly '\x7d')
    return [(key, first)]

/-- An object behind its opening brace. -/
def objectRest (value : DataReader α) : DataReader (List (String × α)) := do
  lexeme blanks
  if ← lexeme (.found '\x7d') then return []
  members value (← get).length

/-- **A value** that nests at most so many arrays and objects, with the blanks in front of it. -/
def nestedValue : Nat → DataReader Json
  | 0 => do
    lexeme blanks
    lexeme scalar
  | n + 1 => do
    lexeme blanks
    match ← get with
    | '[' :: rest => set rest; return .array (← arrayRest (nestedValue n))
    | '\x7b' :: rest => set rest; return .object (← objectRest (nestedValue n))
    | _ => lexeme scalar

/-! ### Shapes -/

/-- What a value is called where something else was expected. -/
def found : Json → Found
  | .null => .null
  | .bool b => .boolean b
  | .integer n => .integer n
  | .float x => .float (.ofList (numberText x))
  | .string s => .string s
  | .array _ => .sequence
  | .object _ => .map

end PackScope.Json
