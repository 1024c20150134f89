import PackScope.Json.Reader
import PackScope.Value.Json
import PackScope.VariableSet

/-!
Legacy files: JSON objects of two levels, packs and below them variables. JSON carries no places, so
the range of every variable is the start of its file.
-/

namespace PackScope.LegacyFile

open Json

variable {α : Type}

/-- An object of entries that are read by a given reader. Any other value is a mismatch; a value
without parts is read to its end first. -/
def objectOf (value : DataReader α) : DataReader (List (String × α)) := do
  .lexeme blanks
  match ← get with
  | '\x7b' :: rest => set rest; objectRest value
  | '[' :: _ => throw (.mismatch (.kind .sequence "a map"))
  | _ => throw (.mismatch (.kind (← .lexeme scalar).found "a map"))

/-- The number of levels that a value may nest: one less than 128 for a whole text, of which the
two levels of packs and variables take two. -/
def valueDepth : Nat := 125

/-- The two levels of a file, and nothing but blanks behind them. -/
def packs : DataReader (List (String × List (String × Json))) := do
  let packs ← objectOf (objectOf (nestedValue valueDepth))
  .lexeme blanks
  .lexeme .atEnd
  return packs

/-- The variable of an entry of a pack. -/
def variableOf (filename : String) (name : String) (json : Json) : Variable :=
  { name := ⟨name⟩, value := .ofJson json, range := { filename := filename } }

/-- The set of the entries of a file. Of two entries with one key the later one counts, for packs
as for variables. -/
def setOf (filename : String) (packs : List (String × List (String × Json))) : LegacySet :=
  .ofList (packs.map fun pack =>
    (pack.1, .ofList (pack.2.map fun e => (e.1, variableOf filename e.1 e.2))))

/-- **Reads a legacy file.** -/
def read (filename text : String) : Except ReadError LegacySet :=
  (packs.run' text.toList).map (setOf filename)

end PackScope.LegacyFile
