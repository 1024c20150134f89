import PackScope.Toml.Document
import PackScope.Toml.Shape
import PackScope.VariableSet

/-!
Override files: TOML documents of two levels, packs and below them variables. The range of a
variable is the text of its value.
-/

namespace PackScope.OverrideFile

open Toml

/-- The entries of a node that stands for a pack. -/
def packEntries : Node → Except ReadError Table
  | .table _ entries => .ok entries
  | .scalar (.datetime d) => .error (.mismatch (.kind (.string d.text) "a spanned value"))
  | node => .error (.mismatch (.kind node.found "a map"))

/-- The first key of a table, for a node that is one. -/
def firstKey : Node → String
  | .table _ (e :: _) => e.key
  | _ => ""

/-- The variable of an entry. A table that is made only by the keys and headers inside it has no
place of its own, and is refused. -/
def variableOf (filename : String) (bytes : List UInt8) (e : Entry Node) :
    Except ReadError Variable := do
  match e.extent with
  | none => .error (.mismatch (.kind (.string (firstKey e.content)) "a borrowed string"))
  | some extent =>
    return { name := ⟨e.key⟩, value := .ofToml (← e.content.data),
             range := extent.range filename bytes }

/-- The variables of the entries of a pack. -/
def packVariables (filename : String) (bytes : List UInt8) (entries : Table) :
    Except ReadError PackVariables := do
  let vars ← entries.mapM fun e => do
    let v ← variableOf filename bytes e
    return (v.name, v)
  return .ofList vars

/-- The variables of a document. -/
def documentVariables (filename : String) (bytes : List UInt8) (root : Table) :
    Except ReadError VariableSet := do
  let packs ← root.mapM fun e => do
    return (⟨e.key⟩, ← packVariables filename bytes (← packEntries e.content))
  return .ofList packs

/-- **Reads an override file.** -/
def read (filename text : String) : Except ReadError VariableSet :=
  match Table.read? text with
  | none => .error .malformed
  | some root => documentVariables filename (utf8Bytes text) root

end PackScope.OverrideFile
