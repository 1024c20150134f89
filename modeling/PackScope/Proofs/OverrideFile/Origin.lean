import PackScope.Proofs.OverrideFile.Declarations
import PackScope.Proofs.OverrideFile.Restated
import PackScope.Proofs.Value.FromToml

/-!
Variables that come from override files. Each stands under its own name and has a value that TOML
can hold, and nothing else is known of it but where it was read.
-/

namespace PackScope

/-- **Whether a variable is as one that is read under a key.** -/
structure Variable.IsRead (v : Variable) (key : VariableId) : Prop where
  name_eq : v.name = key
  description_eq : v.description = none
  kind_eq : v.kind = none
  ordered : v.value.Ordered
  isWritable_eq : v.value.isWritable = v.value.allFinite

namespace OverrideFile

variable {filename text : String} {pack : PackId} {key : VariableId} {v : Variable}

/-- **A variable that a file declares is as it is read.** -/
lemma Declares.isRead (h : Declares filename text pack key v) : v.IsRead key := by
  obtain ⟨root, e, -, he, hv⟩ := h
  obtain ⟨extent, data, -, hdata, rfl⟩ := variableOf_eq_ok.1 hv
  obtain ⟨d, origin, t, -, -, hat⟩ := Toml.exists_of_at? he
  have hkey : (⟨e.key⟩ : VariableId) = key := congrArg VariableId.mk (Toml.mem_of_entry_eq hat).2
  exact ⟨hkey, rfl, rfl, Value.ordered_data hdata, Value.isSome_toToml?_ofToml data⟩

/-- **All variables of a file are as they are read.** -/
theorem isRead_of_read {set : VariableSet} (h : read filename text = .ok set)
    (hv : set.lookup? pack key = some v) : v.IsRead key :=
  (declares_of_read h hv).isRead

end OverrideFile

end PackScope
