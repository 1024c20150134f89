import PackScope.LegacyFile
import PackScope.Proofs.KeyMap.Merging
import PackScope.Proofs.Traversal

/-!
The declarations of a legacy file. Every variable of a set that was read is the one that the file
declares at its address: of several entries under one key the last one counts.
-/

namespace PackScope.LegacyFile

variable {filename text : String} {v : Variable}

/-- **Whether a file declares a variable** at an address. -/
def Declares (filename text : String) (pack : PackId) (key : VariableId) (v : Variable) : Prop :=
  ∃ ps vars json, packs.run' text.toList = .ok ps ∧
    Entries.get? pack.text ps.reverse = some vars ∧
      Entries.get? key.text vars.reverse = some json ∧ v = variableOf filename key.text json

/-- **Every variable of a file is declared at its address.** -/
theorem declares_of_read {set : LegacySet} {pack key : String}
    (h : read filename text = .ok set) (hv : (set.get? pack).bind (·.get? key) = some v) :
    Declares filename text ⟨pack⟩ ⟨key⟩ v := by
  obtain ⟨ps, hps, rfl⟩ := map_eq_ok.1 h
  obtain ⟨vars, hvars, hvar⟩ := Option.bind_eq_some_iff.1 hv
  rw [setOf, KeyMap.get?_ofList, ← List.map_reverse,
    Entries.get?_mapValues fun _ (es : List (String × Json)) =>
      KeyMap.ofList (es.map fun e => (e.1, variableOf filename e.1 e.2))] at hvars
  obtain ⟨es, hes, rfl⟩ := Option.map_eq_some_iff.1 hvars
  rw [KeyMap.get?_ofList, ← List.map_reverse, Entries.get?_mapValues (variableOf filename)] at hvar
  obtain ⟨json, hjson, rfl⟩ := Option.map_eq_some_iff.1 hvar
  exact ⟨ps, es, json, hps, hes, hjson, rfl⟩

end PackScope.LegacyFile
