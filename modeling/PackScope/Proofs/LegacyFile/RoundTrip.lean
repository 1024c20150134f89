import PackScope.Proofs.LegacyFile.Reading
import PackScope.Proofs.Scope.Variables
import PackScope.Proofs.Value.JsonForm

/-!
The round trip of the flat map. Its text is read as a legacy file, and what comes back are the packs
and the variables that have a JSON form, under their keys and with their values.
-/

namespace PackScope

/-- **Whether a value comes back from its JSON form**: the entries of its maps ascend, it has no
floating-point numbers, and it nests no deeper than the reader of legacy files goes. -/
structure Value.IsRestorable (v : Value) : Prop where
  ordered : v.Ordered
  hasFloat_eq : v.hasFloat = false
  depth_le : v.depth ≤ 125

/-- **Whether all values of a set that have a JSON form come back from it.** -/
def VariableSet.IsRestorable (set : VariableSet) : Prop :=
  ∀ p ∈ set.entries, ∀ e ∈ p.2.entries, ∀ j, e.2.value.toJson = .ok j → e.2.value.IsRestorable

/-! ### What comes back -/

/-- A variable as it comes back under a key: its value, if that has a JSON form, and the file. -/
def Variable.reread (filename : String) (key : VariableId) (v : Variable) : Option Variable :=
  v.value.toJson.toOption.map fun _ =>
    { name := key, value := v.value, range := { filename := filename } }

/-- The variables of a pack as they come back. -/
def PackVariables.reread (filename : String) (vars : PackVariables) : PackVariables :=
  vars.filterMap (Variable.reread filename)

/-- **A set as it comes back**: its packs, and in each pack the variables with a JSON form. -/
def VariableSet.reread (filename : String) (set : VariableSet) : VariableSet :=
  set.map (PackVariables.reread filename)

section Reread

variable (filename : String)

lemma VariableSet.lookup?_reread (set : VariableSet) (pack : PackId) (key : VariableId) :
    (set.reread filename).lookup? pack key =
      (set.lookup? pack key).bind (Variable.reread filename key) :=
  lookup?_map (f := PackVariables.reread filename) (g := Variable.reread filename)
    (KeyMap.get?_filterMap _) set pack key

lemma VariableSet.keys_reread (set : VariableSet) : (set.reread filename).keys = set.keys := by
  rw [KeyMap.keys, KeyMap.keys]
  change List.map _ (List.map _ set.entries) = _
  rw [List.map_map]
  rfl

/-- What comes back has the same JSON forms. -/
lemma PackVariables.values_reread (vars : PackVariables) :
    (vars.reread filename).values = vars.values := by
  change List.filterMap _ (List.filterMap _ vars.entries) = List.filterMap _ vars.entries
  rw [List.filterMap_filterMap]
  refine List.filterMap_congr fun e _ => ?_
  cases hj : e.2.value.toJson with
  | error error => simp only [Variable.reread, hj]; rfl
  | ok json => simp only [Variable.reread, hj, Except.toOption, Option.map_some, Option.bind_some]

/-- What comes back has JSON forms throughout. -/
lemma PackVariables.failures_reread (vars : PackVariables) :
    (vars.reread filename).failures = [] := by
  change List.filterMap _ (List.filterMap _ vars.entries) = []
  rw [List.filterMap_filterMap, List.filterMap_eq_nil_iff]
  intro e _
  cases hj : e.2.value.toJson with
  | error error => simp only [Variable.reread, hj]; rfl
  | ok json => simp only [Variable.reread, hj, Except.toOption, Option.map_some, Option.bind_some]

lemma Store.flat_reread (store : Store) :
    (Store.unified (store.contents.reread filename)).flat = store.flat := by
  change Json.object (List.map _ (List.map _ store.contents.entries)) = _
  rw [List.map_map]
  refine congrArg Json.object (List.map_congr_left fun pack _ => ?_)
  rw [Function.comp_apply, PackVariables.values_reread]

lemma Store.flatFailures_reread (set : VariableSet) :
    (Store.unified (set.reread filename)).flatFailures = [] := by
  change List.flatMap _ (List.map _ set.entries) = []
  rw [List.flatMap_map, List.flatMap_eq_nil_iff]
  exact fun pack _ => PackVariables.failures_reread filename pack.2

end Reread

/-! ### Reading -/

/-- The entries of the flat map, pack by pack. -/
def VariableSet.flatEntries (set : VariableSet) : List (String × List (String × Json)) :=
  set.entries.map fun pack => (pack.1.text, pack.2.values)

lemma Store.flat_eq (store : Store) :
    store.flat = LegacyFile.fileForm store.contents.flatEntries := by
  rw [flat, LegacyFile.fileForm, Json.formEntries, VariableSet.flatEntries, List.map_map]
  rfl

/-- The entries of a pack in the flat map are its variables as they come back. -/
lemma PackVariables.typed_ofList_values (filename : String) {vars : PackVariables}
    (h : ∀ e ∈ vars.entries, ∀ j, e.2.value.toJson = .ok j → e.2.value.IsRestorable) :
    LegacySet.typed (.ofList (vars.values.map fun e =>
      (e.1, LegacyFile.variableOf filename e.1 e.2))) = vars.reread filename := by
  have hascending : Ascending (vars.values.map fun e =>
      (e.1, LegacyFile.variableOf filename e.1 e.2)) :=
    List.pairwise_map.2 vars.ascending_values
  refine KeyMap.ext ?_
  change (KeyMap.ofList _).entries.map _ = List.filterMap _ vars.entries
  rw [KeyMap.entries_ofList, hascending.ofList_eq, values, List.map_filterMap, List.map_filterMap]
  refine List.filterMap_congr fun e he => ?_
  cases hj : e.2.value.toJson with
  | error error => simp only [Variable.reread, hj]; rfl
  | ok json =>
    have hvalue : Value.ofJson json = e.2.value := Value.ofJson_toJson hj (h e he json hj).ordered
    simp only [Variable.reread, LegacyFile.variableOf, hj, Except.toOption, Option.map_some, hvalue]

namespace VariableSet.IsRestorable

variable {set : VariableSet} (h : set.IsRestorable)

include h

lemma readable : ∀ p ∈ set.flatEntries, ∀ e ∈ p.2, e.2.Readable LegacyFile.valueDepth := by
  intro p hp e he
  obtain ⟨pack, hpack, rfl⟩ := List.mem_map.1 hp
  obtain ⟨v, hv, hj⟩ := pack.2.mem_values_iff.1 he
  have hvalue := h pack hpack _ (pack.2.ascending.get?_eq_some_iff.1 hv) e.2 hj
  exact Value.readable_toJson hj hvalue.hasFloat_eq hvalue.depth_le

/-- The entries of the flat map are the set as it comes back. -/
lemma rekey_setOf (filename : String) :
    (LegacyFile.setOf filename set.flatEntries).rekey = set.reread filename := by
  have hentries : (LegacyFile.setOf filename set.flatEntries).entries =
      set.entries.map fun pack => (pack.1.text, .ofList (pack.2.values.map fun e =>
        (e.1, LegacyFile.variableOf filename e.1 e.2))) := by
    have hascending : Ascending (set.entries.map fun pack =>
        (pack.1.text, KeyMap.ofList (pack.2.values.map fun e =>
          (e.1, LegacyFile.variableOf filename e.1 e.2)))) :=
      List.pairwise_map.2 set.ascending
    rw [LegacyFile.setOf, flatEntries, List.map_map, KeyMap.entries_ofList]
    exact hascending.ofList_eq
  refine KeyMap.ext ?_
  rw [LegacySet.entries_rekey, hentries, List.map_map]
  refine List.map_congr_left fun pack hpack => ?_
  rw [Function.comp_apply, PackVariables.typed_ofList_values filename (h pack hpack)]

end VariableSet.IsRestorable

/-- **The flat map is read back as a legacy file**, from its compact text and from its text over
lines alike. What is read has the packs of the store, and in each pack the variables that have a
JSON form, under the same keys and with the same values; loaded again, it has the same flat map and
no reports. -/
theorem Store.flat_restores (store : Store) (filename : String)
    (h : store.contents.IsRestorable) :
    ∃ set : LegacySet,
      (∀ text ∈ [store.flat.text, store.flat.prettyText],
        LegacyFile.read filename text = .ok set) ∧
      set.keys = store.packIds.map PackId.text ∧
      (∀ pack key, (set.get? pack).bind (·.get? key) = (store.lookup? pack key).bind fun v =>
        v.value.toJson.toOption.map fun _ =>
          { name := ⟨key⟩, value := v.value, range := { filename := filename } }) ∧
      ∃ reloaded, Store.unloaded.loadLegacy set = .ok reloaded ∧
        reloaded.flat = store.flat ∧ reloaded.flatFailures = [] := by
  have hrekey := h.rekey_setOf filename
  refine ⟨LegacyFile.setOf filename store.contents.flatEntries, ?_, ?_, fun pack key => ?_,
    .legacy (LegacyFile.setOf filename store.contents.flatEntries), rfl, ?_, ?_⟩
  · rw [store.flat_eq]
    exact LegacyFile.read_fileForm filename h.readable
  · have hkeys := LegacySet.keys_rekey (LegacyFile.setOf filename store.contents.flatEntries)
    rw [hrekey, VariableSet.keys_reread] at hkeys
    rw [packIds, hkeys, List.map_map]
    exact (List.map_id _).symm
  · rw [← LegacySet.lookup?_rekey, hrekey, VariableSet.lookup?_reread, store.lookup?_contents]
    rfl
  · change (Store.unified (LegacyFile.setOf filename store.contents.flatEntries).rekey).flat = _
    rw [hrekey, flat_reread]
  · change (Store.unified
      (LegacyFile.setOf filename store.contents.flatEntries).rekey).flatFailures = []
    rw [hrekey, flatFailures_reread]

/-- A pack whose name needs escapes, with a variable under a key that is not its name and one
without a JSON form, and a pack without variables. -/
def LegacySet.escaped : LegacySet :=
  ((LegacySet.put .empty "a\"\n" "k"
    { name := ⟨"l"⟩, value := .map [("\\", .list [.integer (-1), .null])] }).put "a\"\n" "lost"
      { name := ⟨"lost"⟩, value := .unknown }).touch "bare"

theorem Store.flat_restores_escaped :
    (Store.legacy .escaped).contents.IsRestorable ∧
      ∃ set : LegacySet, LegacyFile.read "vars.json" (Store.legacy .escaped).flat.text = .ok set ∧
        LegacyFile.read "vars.json" (Store.legacy .escaped).flat.prettyText = .ok set ∧
        set.keys = ["a\"\n", "bare"] ∧ (set.get? "a\"\n").bind (·.get? "lost") = none := by
  have hrestorable : (Store.legacy .escaped).contents.IsRestorable := by
    intro p hp e he j hj
    have hvars : e.2.value = .unknown ∨
        e.2.value = .map [("\\", .list [.integer (-1), .null])] := by
      rcases List.mem_pair.1 hp with rfl | rfl
      · rcases List.mem_pair.1 he with rfl | rfl
        · exact .inr rfl
        · exact .inl rfl
      · cases he
    rcases hvars with hvalue | hvalue
    · rw [hvalue] at hj
      cases hj
    · rw [hvalue]
      exact ⟨⟨List.pairwise_singleton _ _, ⟨trivial, trivial, trivial⟩, trivial⟩, rfl, by decide⟩
  obtain ⟨set, hread, hkeys, hlookup, -⟩ :=
    Store.flat_restores (.legacy .escaped) "vars.json" hrestorable
  refine ⟨hrestorable, set, hread _ List.mem_cons_self, hread _ (by simp), hkeys, ?_⟩
  rw [hlookup]
  rfl

end PackScope
