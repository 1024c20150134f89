import PackScope.Text.Extending
import PackScope.Text.Printable

/-!
Text quoted in a message: in double quotes, with everything escaped that would not show there as a
character of its own.
-/

namespace PackScope.Text

/-- A character by its number in lower-case hexadecimal digits, in braces. -/
def numbered (c : Char) : List Char := ['\\', 'u', '\x7b'] ++ Nat.toDigits 16 c.toNat ++ ['\x7d']

/-- A character in a quoted text. -/
def quotedChar (c : Char) : List Char :=
  if c.toNat = 0 then ['\\', '0']
  else if c = '\t' then ['\\', 't']
  else if c = '\r' then ['\\', 'r']
  else if c = '\n' then ['\\', 'n']
  else if c = '\\' then ['\\', '\\']
  else if c = '"' then ['\\', '"']
  else if isExtending c || !isPrintable c then numbered c
  else [c]

/-- **A text in quotes.** -/
def quoted (s : String) : String := .ofList ('"' :: (s.toList.flatMap quotedChar ++ ['"']))

end PackScope.Text
