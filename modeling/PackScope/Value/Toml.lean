import PackScope.Toml.Basic
import PackScope.Value

/-!
Values as TOML data and back. TOML has no null and no unknown value, and this library writes no
infinite numbers; a value that contains one of these has no TOML form.
-/

namespace PackScope.Value

open Toml (Data Scalar)

mutual

/-- The TOML form of a value, if it has one. -/
def toToml? : Value → Option Data
  | null | unknown => none
  | bool b => some (.scalar (.boolean b))
  | integer n => some (.scalar (.integer n))
  | float x => if x.isFinite then some (.scalar (.float x)) else none
  | string s => some (.scalar (.string s))
  | list items => (itemsToToml? items).map .array
  | map entries => (entriesToToml? entries).map .table

/-- The TOML forms of the items of a list, if all have one. -/
def itemsToToml? : List Value → Option (List Data)
  | [] => some []
  | item :: rest => do return (← item.toToml?) :: (← itemsToToml? rest)

/-- The TOML forms of the entries of a map, if all have one. -/
def entriesToToml? : List (String × Value) → Option (List (String × Data))
  | [] => some []
  | (key, value) :: rest => do return (key, ← value.toToml?) :: (← entriesToToml? rest)

end

/-- The value of a TOML value without parts; a date-time becomes its text. -/
def ofScalar : Scalar → Value
  | .string s => string s
  | .integer n => integer n
  | .float x => float x
  | .boolean b => bool b
  | .datetime d => string d.text

mutual

/-- The value of TOML data. -/
def ofToml : Data → Value
  | .scalar s => ofScalar s
  | .array items => list (itemsOfToml items)
  | .table entries => map (entriesOfToml entries)

/-- The values of the items of an array. -/
def itemsOfToml : List Data → List Value
  | [] => []
  | item :: rest => ofToml item :: itemsOfToml rest

/-- The values of the entries of a table. -/
def entriesOfToml : List (String × Data) → List (String × Value)
  | [] => []
  | (key, data) :: rest => (key, ofToml data) :: entriesOfToml rest

end

end PackScope.Value
