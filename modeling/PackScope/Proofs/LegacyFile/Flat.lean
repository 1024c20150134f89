import PackScope.Proofs.Json.Documents
import PackScope.Proofs.LegacyFile.Declarations
import PackScope.Proofs.LegacyFile.RoundTrip
import PackScope.Proofs.Value.Normal

/-!
The flat map of a legacy file. It is the object of the file in normal form, and nothing is reported:
all that a legacy file can hold has a JSON form.
-/

namespace PackScope

namespace LegacyFile

open Json DataReader

/-! ### The variables of a pack -/

/-- The variables that the entries of a pack stand for, under typed names. -/
def varsOf (filename : String) (entries : List (String × Json)) : PackVariables :=
  LegacySet.typed (.ofList (entries.map fun e => (e.1, variableOf filename e.1 e.2)))

section Variables

variable (filename : String) {entries : List (String × Json)}

lemma entries_varsOf (entries : List (String × Json)) : (varsOf filename entries).entries =
    (Entries.ofList entries).map fun e => (⟨e.1⟩, variableOf filename e.1 e.2) := by
  change (KeyMap.ofList _).entries.map _ = _
  rw [KeyMap.entries_ofList, ← Entries.map_ofList (variableOf filename) (fun _ _ => rfl),
    List.map_map]
  rfl

lemma toJson_variableOf {j : Json} (h : j.InRange) (key : String) :
    (variableOf filename key j).value.toJson = .ok j.normal :=
  Value.toJson_ofJson h

variable (h : ∀ e ∈ entries, e.2.InRange)

include h

lemma values_varsOf :
    (varsOf filename entries).values = Entries.ofList (normalEntries entries) := by
  rw [PackVariables.values, entries_varsOf, List.filterMap_map, normalEntries_eq,
    ← Entries.map_ofList (fun _ => normal) (fun _ _ => rfl), ← List.filterMap_eq_map]
  refine List.filterMap_congr fun e he => ?_
  have hvalue := toJson_variableOf filename (h e (Entries.mem_of_mem_ofList he)) e.1
  rw [Function.comp_apply, hvalue]
  rfl

lemma failures_varsOf : (varsOf filename entries).failures = [] := by
  rw [PackVariables.failures, entries_varsOf, List.filterMap_map, List.filterMap_eq_nil_iff]
  intro e he
  have hvalue := toJson_variableOf filename (h e (Entries.mem_of_mem_ofList he)) e.1
  rw [Function.comp_apply, hvalue]

end Variables

/-! ### The object of a file -/

variable {filename text : String}

/-- The variables of a pack can be read as one value. -/
lemma readAsValue_vars :
    ReadAsValue (objectOf (nestedValue valueDepth)) Json.object (valueDepth + 1) := by
  have hvalue : ReadAsValue (nestedValue valueDepth) id valueDepth := fun _ _ _ h => h
  have hobject := readAsValue_objectOf hvalue
  simp only [formEntries_id] at hobject
  exact hobject

/-- **A legacy file is the text of a JSON object**, whose entries are the packs. -/
lemma read_of_packs {ps : List (String × List (String × Json))}
    (h : packs.run' text.toList = .ok ps) : Json.read text = .ok (fileForm ps) := by
  obtain ⟨⟨ps, rest⟩, h, rfl⟩ := map_eq_ok.1 h
  obtain ⟨ps, _, hps, h⟩ := bind_ok h
  obtain ⟨_, _, hblanks, h⟩ := bind_ok h
  obtain ⟨_, _, hend, h⟩ := bind_ok h
  cases h
  have hform : nestedValue 127 text.toList = .ok (fileForm ps, _) :=
    readAsValue_objectOf readAsValue_vars _ _ _ hps
  refine map_eq_ok.2 ⟨(fileForm ps, rest), ?_, rfl⟩
  rw [document, bind_of_eq _ hform, bind_of_eq _ hblanks, bind_of_eq _ hend]
  rfl

/-- All numbers of a legacy file are in range. -/
lemma inRange_of_packs {ps : List (String × List (String × Json))}
    (h : packs.run' text.toList = .ok ps) : ∀ p ∈ ps, ∀ e ∈ p.2, e.2.InRange := by
  intro p hp e he
  cases inRange_read (read_of_packs h) with
  | object hpacks =>
    cases hpacks (p.1, .object p.2) (List.mem_map_of_mem hp) with
    | object hvars => exact hvars e he

/-! ### Flattening -/

section Packs

variable {ps : List (String × List (String × Json))} (h : ∀ p ∈ ps, ∀ e ∈ p.2, e.2.InRange)

lemma entries_rekey_setOf (ps : List (String × List (String × Json))) :
    (setOf filename ps).rekey.entries =
      (Entries.ofList ps).map fun p => (⟨p.1⟩, varsOf filename p.2) := by
  rw [LegacySet.entries_rekey, setOf, KeyMap.entries_ofList,
    ← Entries.map_ofList (fun _ (es : List (String × Json)) =>
      KeyMap.ofList (es.map fun e => (e.1, variableOf filename e.1 e.2))) (fun _ _ => rfl),
    List.map_map]
  rfl

include h

/-- The flat map of a file is its object in normal form. -/
lemma flat_setOf : (Store.legacy (setOf filename ps)).flat = (fileForm ps).normal := by
  have hnormal : (fileForm ps).normal =
      .object ((Entries.ofList ps).map fun p => (p.1, (object p.2).normal)) := by
    rw [fileForm, normal, normalEntries_eq, formEntries, List.map_map,
      Entries.map_ofList (fun _ (es : List (String × Json)) => (object es).normal)
        (fun _ _ => rfl)]
    rfl
  change object (List.map _ (setOf filename ps).rekey.entries) = _
  rw [hnormal, entries_rekey_setOf, List.map_map]
  refine congrArg object (List.map_congr_left fun p hp => ?_)
  have hvars := h p (Entries.mem_of_mem_ofList hp)
  rw [Function.comp_apply, values_varsOf filename hvars, normal]

/-- No variable of a file is reported. -/
lemma flatFailures_setOf : (Store.legacy (setOf filename ps)).flatFailures = [] := by
  change List.flatMap _ (setOf filename ps).rekey.entries = _
  rw [entries_rekey_setOf, List.flatMap_map, List.flatMap_eq_nil_iff]
  intro p hp
  exact failures_varsOf filename (h p (Entries.mem_of_mem_ofList hp))

end Packs

/-- **A legacy file flattens to itself.** Whatever text is read as a legacy file is the text of a
JSON object, and the flat map of the file is the normal form of that object, without any reports:
every variable that it holds is known, and its numbers are finite, at every depth. -/
theorem flat_of_read {set : LegacySet} (h : read filename text = .ok set) :
    ∃ j store, Json.read text = .ok j ∧ Store.unloaded.loadLegacy set = .ok store ∧
      store.flat = j.normal ∧ store.flatFailures = [] ∧
      ∀ pack key v, store.lookup? pack key = some v →
        v.value.isKnown = true ∧ v.value.allFinite = true := by
  have hread := h
  obtain ⟨ps, hps, rfl⟩ := map_eq_ok.1 h
  have hrange := inRange_of_packs hps
  refine ⟨fileForm ps, .legacy (setOf filename ps), read_of_packs hps, rfl, flat_setOf hrange,
    flatFailures_setOf hrange, fun pack key v hv => ?_⟩
  obtain ⟨ps', vars, json, hps', hvars, hjson, rfl⟩ := declares_of_read hread hv
  rw [← KeyMap.get?_ofList] at hvars hjson
  have hj : json.InRange := inRange_of_packs hps' _ (KeyMap.mem_of_get?_ofList hvars) _
    (KeyMap.mem_of_get?_ofList hjson)
  exact (Value.exists_toJson_iff _).1 ⟨_, toJson_variableOf filename hj key⟩

/-- A file that repeats a pack, with a number that does not fit into 64 bits with a sign and a nested
object that repeats a key. -/
def repeatedText : String :=
  "\x7b\"a\":\x7b\"l\":1\x7d,\"a\":\x7b\"k\":[9223372036854775808,\x7b\"x\":1,\"x\":2\x7d]\x7d\x7d"

/-- Its entries. -/
def repeatedPacks : List (String × List (String × Json)) :=
  [("a", [("l", .integer 1)]),
    ("a", [("k", .array [.integer 9223372036854775808,
      .object [("x", .integer 1), ("x", .integer 2)]])])]

theorem flat_of_read_repeated :
    ∃ set store, read "vars.json" repeatedText = .ok set ∧
      Store.unloaded.loadLegacy set = .ok store ∧ store.flatFailures = [] ∧
      store.flat = .object [("a", .object [("k", .array [.float (.ofQuotient false (2 ^ 63) 1),
        .object [("x", .integer 2)]])])] := by
  have hpacks : packs.run' repeatedText.toList = .ok repeatedPacks := by decide +kernel
  have hread : read "vars.json" repeatedText = .ok (setOf "vars.json" repeatedPacks) :=
    map_eq_ok.2 ⟨_, hpacks, rfl⟩
  obtain ⟨j, store, hj, hload, hflat, hreports, -⟩ := flat_of_read hread
  obtain rfl := Except.ok.inj (hj.symm.trans (read_of_packs hpacks))
  exact ⟨_, store, hread, hload, hreports, hflat.trans rfl⟩

end LegacyFile

end PackScope
