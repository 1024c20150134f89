import PackScope.Proofs.OverrideFile.Steps
import PackScope.Proofs.Toml.Apart

/-!
The declarations of an override file. Every variable of a set that was read is the one that the file
declares at its address: that of the entry in the tree of the file under the same two keys.
-/

namespace PackScope.OverrideFile

open Toml (Entry Node Table)

variable {filename text : String} {bytes : List UInt8} {pack : PackId} {key : VariableId}
  {v : Variable}

/-- **Whether a file declares a variable** at an address. -/
def Declares (filename text : String) (pack : PackId) (key : VariableId) (v : Variable) : Prop :=
  ∃ root e, Table.read? text = some root ∧ root.at? pack.text key.text = some e ∧
    variableOf filename (utf8Bytes text) e = .ok v

lemma entry?_eq_some_iff {t : Table} (hne : t.Pairwise fun d e => d.key ≠ e.key) {key : String}
    {e : Entry Node} : t.entry? key = some e ↔ e ∈ t ∧ e.key = key := by
  refine ⟨Toml.mem_of_entry_eq, fun ⟨he, hkey⟩ => ?_⟩
  match hentry : t.entry? key with
  | none => exact absurd hkey (Table.entry?_eq_none_iff.1 hentry e he)
  | some d =>
    obtain ⟨hd, hdkey⟩ := Toml.mem_of_entry_eq hentry
    by_contra hde
    have hsymm : Std.Symm fun d e : Entry Node => d.key ≠ e.key := ⟨fun _ _ h => h.symm⟩
    exact hne.forall hd he (fun h => hde (congrArg some h)) (hdkey.trans hkey.symm)

/-- The variables of a pack are those of its entries. -/
lemma entry?_of_packVariables {t : Table} {vars : PackVariables}
    (hne : t.Pairwise fun d e => d.key ≠ e.key) (h : packVariables filename bytes t = .ok vars)
    (hv : vars.get? key = some v) :
    ∃ e, t.entry? key.text = some e ∧ variableOf filename bytes e = .ok v := by
  obtain ⟨es, hes, h⟩ := bind_eq_ok.1 h
  obtain rfl := pure_eq_ok.1 h
  obtain ⟨e, he, hev⟩ := mem_of_mapM hes (KeyMap.mem_of_get?_ofList hv)
  obtain ⟨v', hv', hev⟩ := namedVariable_eq_ok.1 hev
  obtain ⟨rfl, rfl⟩ := Prod.mk.inj hev
  exact ⟨e, (entry?_eq_some_iff hne).2 ⟨he, by rw [name_of_variableOf hv']⟩, hv'⟩

/-- **Every variable of a file is declared at its address.** -/
theorem declares_of_read {set : VariableSet} (h : read filename text = .ok set)
    (hv : set.lookup? pack key = some v) : Declares filename text pack key v := by
  obtain ⟨root, hroot, h⟩ := read_eq_ok.1 h
  have hsound := Toml.sound_of_read hroot
  obtain ⟨packs, hpacks, h⟩ := bind_eq_ok.1 h
  obtain rfl := pure_eq_ok.1 h
  obtain ⟨vars, hvars, hvar⟩ := Option.bind_eq_some_iff.1 hv
  obtain ⟨d, hd, hpack⟩ := mem_of_mapM hpacks (KeyMap.mem_of_get?_ofList hvars)
  obtain ⟨origin, t, hcontent, vars', hvars', hpack⟩ := namedPack_eq_ok.1 hpack
  obtain ⟨rfl, rfl⟩ := Prod.mk.inj hpack
  have ht := hsound.contents d hd
  rw [hcontent, Toml.sound_table] at ht
  obtain ⟨e, he, hev⟩ := entry?_of_packVariables ht.keys_ne hvars' hvar
  refine ⟨root, e, hroot, ?_, hev⟩
  unfold Table.at?
  rw [(entry?_eq_some_iff hsound.keys_ne).2 ⟨hd, rfl⟩, Option.bind_some, hcontent]
  exact he

end PackScope.OverrideFile
