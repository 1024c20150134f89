import PackScope.Text.Digits
import PackScope.Toml.Space

/-!
TOML strings in their four kinds of quotes. Double quotes allow escapes, single quotes take their
content as it is, and either kind may be tripled to go over several lines. Line breaks inside a
string are read as line feeds.
-/

namespace PackScope.Toml

/-- Whether a character may stand in a string as it is, quotes and backslashes apart. -/
def isTextChar (c : Char) : Bool := c = '\t' || (0x20 ≤ c.toNat && c.toNat ≠ 0x7f)

/-! ### Escapes -/

/-- The character with a number in hexadecimal digits, if there is such a character. -/
def charOfHex? (digits : List Char) : Option Char := do
  let n ← Text.hexNumber? digits
  if h : n.isValidChar then some (Char.ofNatAux n h) else none

/-- The character that a backslash and one more character stand for. -/
def escaped? (c : Char) : Option Char :=
  if c = 'b' then some '\x08'
  else if c = 't' then some '\t'
  else if c = 'n' then some '\n'
  else if c = 'f' then some '\x0c'
  else if c = 'r' then some '\r'
  else if c = '"' then some '"'
  else if c = '\\' then some '\\'
  else none

/-! ### Strings on one line -/

/-- The rest of a string in double quotes. -/
def basicRest : Reader (List Char)
  | [] => none
  | c :: rest =>
    if c = '"' then some ([], rest)
    else if c = '\\' then
      match rest with
      | 'u' :: d₁ :: d₂ :: d₃ :: d₄ :: rest => do
        let e ← charOfHex? [d₁, d₂, d₃, d₄]
        let (cs, rest) ← basicRest rest
        return (e :: cs, rest)
      | 'U' :: d₁ :: d₂ :: d₃ :: d₄ :: d₅ :: d₆ :: d₇ :: d₈ :: rest => do
        let e ← charOfHex? [d₁, d₂, d₃, d₄, d₅, d₆, d₇, d₈]
        let (cs, rest) ← basicRest rest
        return (e :: cs, rest)
      | d :: rest => do
        let e ← escaped? d
        let (cs, rest) ← basicRest rest
        return (e :: cs, rest)
      | [] => none
    else if isTextChar c then do
      let (cs, rest) ← basicRest rest
      return (c :: cs, rest)
    else none

/-- The rest of a string in single quotes. -/
def literalRest : Reader (List Char)
  | [] => none
  | c :: rest =>
    if c = '\'' then some ([], rest)
    else if isTextChar c then do
      let (cs, rest) ← literalRest rest
      return (c :: cs, rest)
    else none

/-! ### Strings over lines -/

/-- Whether blanks and a line break come next, so that a backslash in front of them joins lines. -/
def joinsLines (cs : List Char) : Bool := (lineBreak (cs.dropWhile isBlank)).isSome

/-- The rest of a string in triple double quotes. After a backslash at the end of a line all blanks
and line breaks are skipped, which the flag tells. Of up to five quotes at the end the last three
close the string. -/
def basicLinesRest : Bool → Reader (List Char)
  | _, [] => none
  | skipping, c :: rest =>
    if skipping && (isBlank c || c = '\n') then basicLinesRest true rest
    else if c = '\r' then
      match rest with
      | '\n' :: rest => do
        let (cs, rest) ← basicLinesRest skipping rest
        return (if skipping then cs else '\n' :: cs, rest)
      | _ => none
    else if c = '"' then
      match rest with
      | '"' :: '"' :: '"' :: '"' :: rest => some (['"', '"'], rest)
      | '"' :: '"' :: '"' :: rest => some (['"'], rest)
      | '"' :: '"' :: rest => some ([], rest)
      | rest => do
        let (cs, rest) ← basicLinesRest false rest
        return ('"' :: cs, rest)
    else if c = '\\' then
      match rest with
      | 'u' :: d₁ :: d₂ :: d₃ :: d₄ :: rest => do
        let e ← charOfHex? [d₁, d₂, d₃, d₄]
        let (cs, rest) ← basicLinesRest false rest
        return (e :: cs, rest)
      | 'U' :: d₁ :: d₂ :: d₃ :: d₄ :: d₅ :: d₆ :: d₇ :: d₈ :: rest => do
        let e ← charOfHex? [d₁, d₂, d₃, d₄, d₅, d₆, d₇, d₈]
        let (cs, rest) ← basicLinesRest false rest
        return (e :: cs, rest)
      | d :: rest =>
        if joinsLines (d :: rest) then basicLinesRest true (d :: rest)
        else do
          let e ← escaped? d
          let (cs, rest) ← basicLinesRest false rest
          return (e :: cs, rest)
      | [] => none
    else if isTextChar c || c = '\n' then do
      let (cs, rest) ← basicLinesRest false rest
      return (c :: cs, rest)
    else none

/-- The rest of a string in triple single quotes. Of up to five quotes at the end the last three
close the string. -/
def literalLinesRest : Reader (List Char)
  | [] => none
  | c :: rest =>
    if c = '\r' then
      match rest with
      | '\n' :: rest => do
        let (cs, rest) ← literalLinesRest rest
        return ('\n' :: cs, rest)
      | _ => none
    else if c = '\'' then
      match rest with
      | '\'' :: '\'' :: '\'' :: '\'' :: rest => some (['\'', '\''], rest)
      | '\'' :: '\'' :: '\'' :: rest => some (['\''], rest)
      | '\'' :: '\'' :: rest => some ([], rest)
      | rest => do
        let (cs, rest) ← literalLinesRest rest
        return ('\'' :: cs, rest)
    else if isTextChar c || c = '\n' then do
      let (cs, rest) ← literalLinesRest rest
      return (c :: cs, rest)
    else none

/-- Skips the line break that may follow the opening of a string over lines. -/
def openingBreak : Reader Unit := do
  let _ ← Reader.optional lineBreak

/-! ### Strings -/

/-- **A string on one line**, as it may stand in a key. -/
def lineString : Reader (List Char)
  | '"' :: rest => basicRest rest
  | '\'' :: rest => literalRest rest
  | _ => none

/-- **A string**, as it may stand as a value. -/
def anyString : Reader (List Char)
  | '"' :: '"' :: '"' :: rest => (do openingBreak; basicLinesRest false : Reader _) rest
  | '\'' :: '\'' :: '\'' :: rest => (do openingBreak; literalLinesRest : Reader _) rest
  | cs => lineString cs

end PackScope.Toml
