import Mathlib.Data.Set.Card
import PackScope.Proofs.Scope.Rendering
import PackScope.Proofs.Scope.Reports

/-!
The flat map as a partition of the stored variables. Each variable either stands in the flat map, in
its JSON form, or has one report of its own, so entries and reports are as many as variables.
-/

namespace PackScope

/-! ### One pack -/

namespace PackVariables

variable (vars : PackVariables)

/-- **A variable of a pack is either among the values or among the failures.** -/
lemma length_values_add_failures :
    vars.values.length + vars.failures.length = vars.entries.length := by
  rw [values, failures]
  induction vars.entries with
  | nil => rfl
  | cons e entries ih =>
    rw [List.length_cons, ← ih]
    cases hjson : e.2.value.toJson with
    | error error =>
      rw [List.filterMap_cons_none (by rw [hjson]), List.filterMap_cons_some (by rw [hjson]),
        List.length_cons, Nat.add_assoc]
    | ok json =>
      rw [List.filterMap_cons_some (by rw [hjson]), List.filterMap_cons_none (by rw [hjson]),
        List.length_cons, Nat.add_right_comm]

end PackVariables

namespace Store

variable (store : Store)

/-! ### All packs -/

/-- The packs of the flat map, each with its entries. -/
def flatPacks : List (String × List (String × Json)) :=
  store.contents.entries.map fun p => (p.1.text, p.2.values)

/-- **The stored variables that have no JSON form**, in the order of packs and keys. -/
def failed : List FailedVariable := store.failedUnder store.packIds

/-- The addresses at which a variable is stored. -/
def addresses : Set (String × String) := {a | (store.lookup? a.1 a.2).isSome}

lemma flatFailures_eq : store.flatFailures = store.failed.map FailedVariable.report := by
  rw [flatFailures, failed, failedUnder, packIds, KeyMap.keys, List.flatMap_map, List.map_flatMap]
  refine List.flatMap_congr fun p hp => ?_
  rw [VariableSet.ofPack_of_mem hp, PackVariables.failures_eq]

lemma mem_failed {f : FailedVariable} : f ∈ store.failed ↔ f.HeldBy store := by
  rw [failed, mem_failedUnder, and_iff_right_iff_imp]
  rintro ⟨hlookup, -⟩
  rw [lookup?_contents, VariableSet.lookup?, Option.bind_eq_some_iff] at hlookup
  obtain ⟨vars, hvars, -⟩ := hlookup
  exact store.mem_packIds_iff.2 (Option.isSome_iff_exists.2 ⟨vars, hvars⟩)

lemma pairwise_failed : store.failed.Pairwise fun f g =>
    compare f.pack g.pack = .lt ∨ f.pack = g.pack ∧ compare f.key g.key = .lt := by
  have hpack {path : PackId} {f : FailedVariable}
      (hf : f ∈ (store.contents.ofPack path).failed path) : f.pack = path :=
    ((PackVariables.mem_failed _ _).1 hf).1
  have hids : store.packIds.Pairwise fun a b => compare a b = .lt :=
    ascending_iff_keys.1 store.contents.ascending
  refine List.pairwise_flatMap.2 ⟨fun path _ => ?_, hids.imp fun hlt f hf g hg => ?_⟩
  · refine (PackVariables.failed_ascending _ _).imp_of_mem fun hf hg hlt => .inr ⟨?_, hlt⟩
    rw [hpack hf, hpack hg]
  · rw [hpack hf, hpack hg]
    exact .inl hlt

lemma mem_flatPacks_entries {p : String × List (String × Json)} (hp : p ∈ store.flatPacks)
    (key : String) (json : Json) :
    (key, json) ∈ p.2 ↔ ∃ v, store.lookup? p.1 key = some v ∧ v.value.toJson = .ok json := by
  obtain ⟨q, hq, rfl⟩ := List.mem_map.1 hp
  rw [PackVariables.mem_values_iff, lookup?_eq, VariableSet.ofPack_of_mem hq]

/-! ### Counting -/

/-- Addresses are as many as the variables of all packs. -/
lemma ncard_addresses : store.addresses.ncard = store.contents.stored.length := by
  -- The list of stored variables repeats no address, so its length counts the set of addresses.
  let texts (a : VariableSet.Stored) : String × String := (a.pack.text, a.key.text)
  have hnodup : (store.contents.stored.map texts).Nodup := by
    refine List.pairwise_map.2 (store.contents.pairwise_stored.imp fun {a b} hlt heq => ?_)
    have hpack : a.pack = b.pack := congrArg (fun p => (⟨p.1⟩ : PackId)) heq
    have hkey : a.key = b.key := congrArg (fun p => (⟨p.2⟩ : VariableId)) heq
    simp [hpack, hkey] at hlt
  have haddresses : store.addresses = (store.contents.stored.map texts).toFinset := by
    ext ⟨pack, key⟩
    rw [addresses, Set.mem_ofPred_eq, lookup?_contents, Option.isSome_iff_exists,
      List.coe_toFinset, Set.mem_ofPred_eq, List.mem_map]
    constructor
    · rintro ⟨v, hv⟩
      exact ⟨⟨⟨pack⟩, ⟨key⟩, v⟩, VariableSet.mem_stored.2 hv, rfl⟩
    · rintro ⟨a, ha, heq⟩
      obtain ⟨rfl, rfl⟩ := Prod.mk.inj heq
      exact ⟨a.entry, VariableSet.mem_stored.1 ha⟩
  rw [haddresses, Set.ncard_coe_finset, List.toFinset_card_of_nodup hnodup, List.length_map]

/-- **Entries and reports are together as many as variables.** -/
lemma length_entries_add_failures :
    (store.flatPacks.map fun p => p.2.length).sum + store.flatFailures.length =
      store.addresses.ncard := by
  rw [ncard_addresses, flatPacks, flatFailures, VariableSet.stored, List.map_map]
  induction store.contents.entries with
  | nil => rfl
  | cons p packs ih =>
    rw [List.map_cons, List.sum_cons, List.flatMap_cons, List.flatMap_cons, List.length_append,
      List.length_append, List.length_map, ← ih, ← p.2.length_values_add_failures]
    exact Nat.add_add_add_comm _ _ _ _

/-! ### The partition -/

/-- **Whether a store is partitioned** into the entries of some packs and variables without a JSON
form, as its flat map and the reports on it. -/
structure IsPartitioned (packs : List (String × List (String × Json)))
    (failed : List FailedVariable) : Prop where
  flat_eq : store.flat = .object (packs.map fun p => (p.1, .object p.2))
  packs_eq : packs.map Prod.fst = store.packIds.map PackId.text
  ascending : ∀ p ∈ packs, Ascending p.2
  mem_entries : ∀ p ∈ packs, ∀ key json,
    (key, json) ∈ p.2 ↔ ∃ v, store.lookup? p.1 key = some v ∧ v.value.toJson = .ok json
  reports_eq : store.flatFailures = failed.map fun f => {
    severity := .error
    summary := "Failed to convert variable value"
    detail := "variable '" ++ f.key.text ++ "': " ++ f.error.message
    subject := some f.var.range }
  failed_ascending : failed.Pairwise fun f g =>
    compare f.pack g.pack = .lt ∨ f.pack = g.pack ∧ compare f.key g.key = .lt
  mem_failed : ∀ f, f ∈ failed ↔ f.HeldBy store
  length_eq : (packs.map fun p => p.2.length).sum + store.flatFailures.length =
    store.addresses.ncard

lemma isPartitioned : store.IsPartitioned store.flatPacks store.failed where
  flat_eq := by
    rw [flatPacks, List.map_map]
    rfl
  packs_eq := by
    rw [flatPacks, packIds, KeyMap.keys, List.map_map, List.map_map]
    rfl
  ascending := by
    intro p hp
    obtain ⟨q, -, rfl⟩ := List.mem_map.1 hp
    exact q.2.ascending_values
  mem_entries _ hp := store.mem_flatPacks_entries hp
  reports_eq := store.flatFailures_eq
  failed_ascending := store.pairwise_failed
  mem_failed _ := store.mem_failed
  length_eq := store.length_entries_add_failures

/-- **Flattening partitions the variables.** The flat map has all loaded packs, and in each pack all
variables that have a JSON form; every other variable has one report, and what becomes of a variable
depends on no other one. -/
theorem flat_partitions_variables (store : Store) :
    store.IsPartitioned store.flatPacks store.failed ∧
    ∀ (other : Store) (pack key : String), store.lookup? pack key = other.lookup? pack key →
      store.flat.at? [pack, key] = other.flat.at? [pack, key] ∧
      ∀ f : FailedVariable, f.pack.text = pack → f.key.text = key →
        (f ∈ store.failed ↔ f ∈ other.failed) := by
  refine ⟨store.isPartitioned, fun other pack key hlookup => ⟨?_, ?_⟩⟩
  · rw [at?_flat, at?_flat, hlookup]
  · rintro f rfl rfl
    rw [mem_failed, mem_failed, FailedVariable.HeldBy, FailedVariable.HeldBy, hlookup]

/-- A variable that has a JSON form and two that have none, and a pack without variables. -/
def mixed : Store :=
  .unified ((((VariableSet.put .empty ⟨"a"⟩ ⟨"port"⟩
    { name := ⟨"port"⟩, value := .integer 8080 }).put
    ⟨"a"⟩ ⟨"token"⟩ { name := ⟨"token"⟩, value := .unknown }).put
    ⟨"b"⟩ ⟨"token"⟩ { name := ⟨"token"⟩, value := .unknown }).touch ⟨"c"⟩)

/-- The variable that has a JSON form alone, in the older layout. -/
def portOnly : Store :=
  .legacy (.put .empty "a" "port" { name := ⟨"port"⟩, value := .integer 8080 })

theorem flat_partitions_variables_mixed :
    mixed.flat = .object [("a", .object [("port", .integer 8080)]), ("b", .object []),
      ("c", .object [])] ∧
    mixed.flatFailures.length = 2 ∧ mixed.addresses.ncard = 3 ∧
    mixed.lookup? "a" "port" = portOnly.lookup? "a" "port" ∧
    mixed.flat.at? ["a", "port"] = portOnly.flat.at? ["a", "port"] := by
  obtain ⟨hpartitioned, hagree⟩ := flat_partitions_variables mixed
  refine ⟨rfl, rfl, ?_, rfl, (hagree portOnly "a" "port" rfl).1⟩
  rw [← hpartitioned.length_eq]
  rfl

end Store

end PackScope
