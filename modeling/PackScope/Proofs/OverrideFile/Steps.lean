import PackScope.OverrideFile
import PackScope.Proofs.Traversal

/-!
The steps of reading an override file: what an entry gives as a variable, and what the entries of a
document give under their keys.
-/

namespace PackScope.OverrideFile

open Toml (Entry Node Table)

variable {filename : String} {bytes : List UInt8} {e : Entry Node} {v : Variable}

/-- An entry gives a variable exactly if it has a place and data. -/
lemma variableOf_eq_ok :
    variableOf filename bytes e = .ok v ↔ ∃ extent data, e.extent = some extent ∧
      e.content.data = .ok data ∧
        v = { name := ⟨e.key⟩, value := .ofToml data, range := extent.range filename bytes } := by
  unfold variableOf
  cases he : e.extent with
  | none => exact iff_of_false (by rintro ⟨⟩) (by rintro ⟨_, _, ⟨⟩, -⟩)
  | some extent =>
    constructor
    · intro h
      obtain ⟨data, hdata, h⟩ := bind_eq_ok.1 h
      exact ⟨extent, data, rfl, hdata, pure_eq_ok.1 h⟩
    · rintro ⟨_, data, ⟨⟩, hdata, rfl⟩
      exact bind_eq_ok.2 ⟨data, hdata, rfl⟩

lemma name_of_variableOf (h : variableOf filename bytes e = .ok v) : v.name = ⟨e.key⟩ := by
  obtain ⟨extent, data, -, -, rfl⟩ := variableOf_eq_ok.1 h
  rfl

/-- The step of reading the variables of a pack. -/
def namedVariable (filename : String) (bytes : List UInt8) (e : Entry Node) :
    Except ReadError (VariableId × Variable) := do
  let v ← variableOf filename bytes e
  return (v.name, v)

lemma namedVariable_eq_ok {b : VariableId × Variable} :
    namedVariable filename bytes e = .ok b ↔
      ∃ v, variableOf filename bytes e = .ok v ∧ b = (v.name, v) := by
  simp only [namedVariable, bind_eq_ok, pure_eq_ok]

lemma key_of_namedVariable {b : VariableId × Variable}
    (h : namedVariable filename bytes e = .ok b) : b.1 = ⟨e.key⟩ := by
  obtain ⟨v, hv, rfl⟩ := namedVariable_eq_ok.1 h
  exact name_of_variableOf hv

lemma packEntries_eq_ok {node : Node} {t : Table} :
    packEntries node = .ok t ↔ ∃ origin, node = .table origin t := by
  unfold packEntries
  split
  next origin u =>
    constructor
    · rintro ⟨⟩
      exact ⟨origin, rfl⟩
    · rintro ⟨_, ⟨⟩⟩
      rfl
  next => exact iff_of_false (by rintro ⟨⟩) (by rintro ⟨_, ⟨⟩⟩)
  next hne _ => exact iff_of_false (by rintro ⟨⟩) (by rintro ⟨origin, rfl⟩; exact hne origin t rfl)

/-- The step of reading the packs of a document. -/
def namedPack (filename : String) (bytes : List UInt8) (e : Entry Node) :
    Except ReadError (PackId × PackVariables) := do
  return (⟨e.key⟩, ← packVariables filename bytes (← packEntries e.content))

lemma namedPack_eq_ok {b : PackId × PackVariables} :
    namedPack filename bytes e = .ok b ↔ ∃ origin t, e.content = .table origin t ∧
      ∃ vars, packVariables filename bytes t = .ok vars ∧ b = (⟨e.key⟩, vars) := by
  rw [exists_comm]
  simp only [namedPack, bind_eq_ok, pure_eq_ok, packEntries_eq_ok, exists_and_right]

lemma key_of_namedPack {b : PackId × PackVariables} (h : namedPack filename bytes e = .ok b) :
    b.1 = ⟨e.key⟩ := by
  obtain ⟨_, _, -, _, -, rfl⟩ := namedPack_eq_ok.1 h
  rfl

/-- A text is read as a set exactly if it has a tree whose variables are the set. -/
lemma read_eq_ok {text : String} {set : VariableSet} :
    read filename text = .ok set ↔ ∃ root, Table.read? text = some root ∧
      documentVariables filename (utf8Bytes text) root = .ok set := by
  unfold read
  split
  next h => exact iff_of_false (by rintro ⟨⟩) (by rintro ⟨_, hroot, -⟩; cases h.symm.trans hroot)
  next root h =>
    constructor
    · intro hset
      exact ⟨root, h, hset⟩
    · rintro ⟨_, hroot, hset⟩
      cases h.symm.trans hroot
      exact hset

end PackScope.OverrideFile
