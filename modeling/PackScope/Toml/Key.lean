import PackScope.Toml.Basic
import PackScope.Toml.Quoted

/-!
TOML keys. A dotted key names a way through tables; it may have at most seventy-nine parts.
-/

namespace PackScope.Toml

/-- The number of parts that a dotted key may have, and of levels that a value may nest. -/
def depthLimit : Nat := 79

/-- A key without quotes. -/
def bareKey : Reader (List Char) := do
  return (← .satisfying isBareChar) :: (← .run isBareChar)

/-- One part of a key, with the blanks around it. -/
def keyPart : Reader String := do
  blanks
  let cs ← Reader.optional lineString
  let key ← match cs with
    | some cs => pure cs
    | none => bareKey
  blanks
  return .ofList key

/-- The parts of a key behind its first one, of which there may be only so many. -/
def keyParts : Nat → Reader (List String)
  | 0 => do if ← .found '.' then .fail else return []
  | n + 1 => do
    if ← .found '.' then return (← keyPart) :: (← keyParts n) else return []

/-- **A key**, with one part or more. -/
def key : Reader (List String) := do
  return (← keyPart) :: (← keyParts (depthLimit - 1))

end PackScope.Toml
