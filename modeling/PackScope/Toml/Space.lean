import PackScope.Text.Reader

/-!
What stands between the parts of a TOML document: blanks, line breaks and comments. A line break is
a line feed, or a carriage return and a line feed.
-/

namespace PackScope.Toml

/-- Whether a character is a blank, which is a space or a tab. -/
def isBlank (c : Char) : Bool := c = ' ' || c = '\t'

/-- Whether a character may stand in a comment. -/
def isCommentChar (c : Char) : Bool := c = '\t' || (0x20 ≤ c.toNat && c.toNat ≠ 0x7f)

/-- Skips blanks. -/
def blanks : Reader Unit := .skip isBlank

/-- A line break. -/
def lineBreak : Reader Unit
  | '\n' :: rest => some ((), rest)
  | '\r' :: '\n' :: rest => some ((), rest)
  | _ => none

/-- A line break or the end of the text. -/
def lineEnd : Reader Unit
  | [] => some ((), [])
  | cs => lineBreak cs

/-- Skips a comment, if one comes next, up to the end of its line. -/
def comment : Reader Unit
  | '#' :: rest => some ((), rest.dropWhile isCommentChar)
  | cs => some ((), cs)

/-- Blanks, a comment, and the end of a line. -/
def restOfLine : Reader Unit := do
  blanks
  comment
  lineEnd

/-- Skips blanks, line breaks and comments. The flag tells whether the text starts inside a
comment. -/
def dropFiller : Bool → List Char → List Char
  | _, [] => []
  | inComment, c :: rest =>
    if c = '\n' then dropFiller false rest
    else if c = '\r' then
      match rest with
      | '\n' :: rest => dropFiller false rest
      | _ => c :: rest
    else if inComment then
      if isCommentChar c then dropFiller true rest else c :: rest
    else if isBlank c then dropFiller false rest
    else if c = '#' then dropFiller true rest
    else c :: rest

/-- Skips what may stand between the items of an array. -/
def filler : Reader Unit := fun cs => some ((), dropFiller false cs)

end PackScope.Toml
