import PackScope.Toml.NodeReader

/-!
TOML documents. A document is read line by line into assignments and sections, and these define its
tree; a text that fails in either step is no TOML.
-/

namespace PackScope.Toml

/-- The lines of a document that say something: the assignments above the first header, and the
sections. -/
structure Outline where
  root : List Table.Assignment
  sections : List Table.Section
  deriving Repr, Inhabited

/-! ### Lines -/

/-- One line of a document. -/
inductive Line where
  | empty
  | header (way : List String) (key : String) (repeated : Bool) (extent : Extent)
  | assignment (a : Table.Assignment)
  deriving Repr, Inhabited

/-- The brackets of a header and the key between them: whether the brackets are doubled, and the
parts of the key. -/
def brackets : Reader (Bool × List String) := do
  .exactly '['
  let repeated ← .found '['
  let parts ← key
  .exactly ']'
  if repeated then .exactly ']'
  return (repeated, parts)

/-- One line of a document, with its end. -/
def line : Reader Line := do
  blanks
  let cs ← get
  match cs with
  | '[' :: _ =>
    let ((repeated, parts), extent) ← located brackets
    restOfLine
    return .header parts.dropLast (parts.getLastD "") repeated extent
  | [] | '#' :: _ | '\n' :: _ | '\r' :: _ =>
    restOfLine
    return .empty
  | _ =>
    let a ← assignment value
    restOfLine
    return .assignment a

/-- The lines of a document. There may be at most so many of them. -/
def lines : Nat → Reader (List Line)
  | 0 => do
    .atEnd
    return []
  | n + 1 => do
    if (← get).isEmpty then return []
    return (← line) :: (← lines n)

/-! ### Sections -/

/-- Adds a line in front of an outline. -/
def Outline.cons (outline : Outline) : Line → Outline
  | .empty => outline
  | .assignment a => { outline with root := a :: outline.root }
  | .header way key repeated extent =>
    ⟨[], ⟨way, key, repeated, extent, outline.root⟩ :: outline.sections⟩

/-- The outline of a list of lines. An assignment belongs to the last header above it. -/
def Outline.ofLines (ls : List Line) : Outline := ls.foldr (fun l o => o.cons l) ⟨[], []⟩

/-- The tree that an outline defines. -/
def Outline.tree? (outline : Outline) : Option Table := do
  outline.sections.foldlM Table.define (← Table.assignAll .header [] outline.root)

/-! ### Documents -/

/-- A text without the byte order mark that it may start with. -/
def withoutMark : List Char → List Char
  | '\ufeff' :: rest => rest
  | cs => cs

/-- The outline of a text. -/
def Outline.read? (cs : List Char) : Option Outline := do
  let cs := withoutMark cs
  return .ofLines (← Reader.readAll (lines cs.length) cs)

/-- **The tree of a text**, nothing if the text is no TOML. -/
def Table.read? (text : String) : Option Table := do
  (← Outline.read? text.toList).tree?

end PackScope.Toml
