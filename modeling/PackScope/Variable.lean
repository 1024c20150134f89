import PackScope.Identifier
import PackScope.Location
import PackScope.Toml.Printer
import PackScope.Value.Toml

/-!
Declared variables, and the block of an override file that restates one. A block is a header of
comments, a dotted assignment, and an empty line; a value that TOML cannot hold leaves a comment in
place of the assignment, so that the file can still be read.
-/

namespace PackScope

/-- **A declared variable.** -/
structure Variable where
  name : VariableId
  description : Option String := none
  kind : Option Kind := none
  value : Value
  range : Range := {}
  deriving DecidableEq, Repr, Inhabited

namespace Variable

/-- A line of text with its line feed. -/
def line (cs : List Char) : List Char := cs ++ ['\n']

/-- A name as a key of an assignment: bare if it can be, else as a string value. -/
def assignedKey (name : List Char) : List Char :=
  if Toml.isBareKey name then name else Toml.stringText name

/-- The pack and the variable as they are named in comments. -/
def label (v : Variable) (pack : PackId) : List Char :=
  pack.text.toList ++ '.' :: v.name.text.toList

/-- A description as a comment, each of its lines behind a comment mark. -/
def descriptionComment (description : List Char) : List Char :=
  line ("#   description: ".toList ++
    description.flatMap fun c => if c = '\n' then "\n#   ".toList else [c])

/-- The comments above the assignment. -/
def header (v : Variable) (pack : PackId) : List Char :=
  line ("# variable \"".toList ++ v.label pack ++ ['"']) ++
  (match v.description with
    | some text => if text.isEmpty then [] else descriptionComment text.toList
    | none => []) ++
  (match v.kind with
    | some kind => line ("#   type: ".toList ++ kind.text.toList)
    | none => [])

/-- The assignment of the value, or the comment that there is none. -/
def assignment (v : Variable) (pack : PackId) : List Char :=
  match v.value.toToml? with
  | some data =>
    line (assignedKey pack.text.toList ++ '.' :: assignedKey v.name.text.toList ++
      " = ".toList ++ data.chars)
  | none => line ("# ".toList ++ v.label pack ++ " is not set".toList)

/-- The characters of the block that restates a variable of a pack. -/
def blockChars (v : Variable) (pack : PackId) : List Char :=
  line (v.header pack ++ v.assignment pack)

/-- **The block that restates a variable of a pack.** -/
def block (v : Variable) (pack : PackId) : String := .ofList (v.blockChars pack)

end Variable

end PackScope
