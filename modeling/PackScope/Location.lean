/-!
Places in a source text. A position counts lines and columns from one and bytes from zero; columns
are counted in bytes, and lines are separated by line feeds.
-/

namespace PackScope

/-- A place in a text: line, column within the line, and byte offset. -/
structure Position where
  line : Nat := 1
  column : Nat := 1
  byte : Nat := 0
  deriving DecidableEq, Repr, Inhabited

/-- The bytes of a text in UTF-8. -/
def utf8Bytes (text : String) : List UInt8 := text.toByteArray.data.toList

namespace Position

/-- The place behind one more byte: a line feed ends its line. -/
def advance (p : Position) (byte : UInt8) : Position :=
  if byte = 10 then ⟨p.line + 1, 1, p.byte + 1⟩ else ⟨p.line, p.column + 1, p.byte + 1⟩

/-- The place reached from another by going over some bytes of a text, or to its end. -/
def walk (p : Position) : Nat → List UInt8 → Position
  | 0, _ => p
  | _ + 1, [] => p
  | n + 1, byte :: rest => (p.advance byte).walk n rest

/-- The place of a byte offset; an offset past the end is taken as the end. -/
def ofOffset (text : String) (offset : Nat) : Position := walk {} offset (utf8Bytes text)

end Position

/-- The part of a named file that a declaration covers. -/
structure Range where
  filename : String := ""
  start : Position := {}
  stop : Position := {}
  deriving DecidableEq, Repr, Inhabited

namespace Range

/-- The range between two offsets into the bytes of a file. -/
def ofBytes (filename : String) (bytes : List UInt8) (start stop : Nat) : Range :=
  ⟨filename, .walk {} start bytes, .walk {} stop bytes⟩

/-- The range between two byte offsets of a text. -/
def ofSpan (filename text : String) (start stop : Nat) : Range :=
  ofBytes filename (utf8Bytes text) start stop

/-- The start of a range as `file:line,column`. -/
def text (range : Range) : String :=
  s!"{range.filename}:{range.start.line},{range.start.column}"

end Range

end PackScope
