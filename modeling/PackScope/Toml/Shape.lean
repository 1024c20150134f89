import PackScope.Mismatch
import PackScope.Toml.DatetimeReader
import PackScope.Toml.Node
import PackScope.Toml.Printer

/-!
The nodes of a document as plain data, and what a node is called where something else was expected.
-/

namespace PackScope.Toml

/-! ### Names of what is found -/

/-- A value without parts, as something that was found. A date-time counts as a map. -/
def Scalar.found : Scalar → Found
  | string s => .string s
  | integer n => .integer n.toInt
  | float x => .float (.ofList x.plainText)
  | boolean b => .boolean b
  | datetime _ => .map

/-- A node, as something that was found. -/
def Node.found : Node → Found
  | scalar s => s.found
  | array _ | tables _ => .sequence
  | table _ _ => .map

/-! ### Data -/

/-- The key that makes a table stand for a date-time, if it is the first key of the table. -/
def datetimeKey : String := "$__toml_private_datetime"

/-- The date-time that the value of the reserved key spells, by the rules for those of documents: an
hour 24 or an offset of a whole day is none. A text that is no date-time is no TOML either. -/
def Node.spelledDatetime : Node → Except ReadError Data
  | scalar (.string s) =>
    match Reader.readAll datetime s.toList with
    | some d => .ok (.scalar (.datetime d))
    | none => .error .malformed
  | node => .error (.mismatch (.kind node.found "string containing a datetime"))

mutual

/-- **The data of a node**, without places and in key order. -/
def Node.data : Node → Except ReadError Data
  | .scalar s => .ok (.scalar s)
  | .array items => (dataOfItems items).map .array
  | .tables elements => (dataOfItems elements).map .array
  | .table _ [] => .ok (.table [])
  | .table _ (⟨key, _, content⟩ :: rest) =>
    if key = datetimeKey then content.spelledDatetime
    else do
      let first ← content.data
      return .table (Entries.ofList ((key, first) :: (← dataOfEntries rest)))

/-- The data of the items of an array. -/
def dataOfItems : List Node → Except ReadError (List Data)
  | [] => .ok []
  | item :: rest => do return (← item.data) :: (← dataOfItems rest)

/-- The data of the entries of a table, in their order in the document. -/
def dataOfEntries : List (Entry Node) → Except ReadError (List (String × Data))
  | [] => .ok []
  | ⟨key, _, content⟩ :: rest => do return (key, ← content.data) :: (← dataOfEntries rest)

end

end PackScope.Toml
