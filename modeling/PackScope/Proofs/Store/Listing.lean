import PackScope.Proofs.KeyMap.Listing
import PackScope.Proofs.Scope.Variables

/-!
Reads over hash tables. What is read of a store can be read off any listing of its contents: each
reader sorts the keys that it meets, so that the order in which a table holds them is never seen.
-/

namespace PackScope

/-! ### Reads -/

namespace Listing

section Variables

variable (vars : Listing VariableId Variable)

/-- The JSON forms of the variables of a pack, put under their names one after another. -/
def values : List (String × Json) :=
  Entries.ofList (vars.inOrder.filterMap fun e =>
    match e.2.value.toJson with
    | .ok json => some (e.1.text, json)
    | .error _ => none)

/-- The reports of the variables of a pack, by name. -/
def failures : Diagnostics :=
  vars.inOrder.filterMap fun e =>
    match e.2.value.toJson with
    | .ok _ => none
    | .error error => some (conversionFailure e.1 e.2 error)

variable {vars} {m : PackVariables}

lemma values_eq (h : vars.Perm m.entries) : vars.values = m.values := by
  rw [values, inOrder_eq h]
  exact m.ascending_values.ofList_eq

lemma failures_eq (h : vars.Perm m.entries) : vars.failures = m.failures := by
  rw [failures, inOrder_eq h]
  rfl

end Variables

variable (packs : Listing PackId (Listing VariableId Variable))

/-- The blocks of all variables, pack by pack and name by name. -/
def dump : String :=
  String.join (packs.inOrder.flatMap fun pack => pack.2.inOrder.map fun e => e.2.block pack.1)

/-- The flat map of all packs, put under their names one after another. -/
def flat : Json :=
  .object (Entries.ofList (packs.inOrder.map fun pack => (pack.1.text, .object pack.2.values)))

/-- The reports of the flat map, pack by pack. -/
def flatFailures : Diagnostics := packs.inOrder.flatMap fun pack => pack.2.failures

/-- The scope of a pack, with the variables that are listed for each path. -/
def scope (p : Pack) : Scope × Diagnostics :=
  Scope.ofPack (fun path =>
    match Entries.get? path packs with
    | some vars => (vars.values, vars.failures)
    | none => ([], [])) p

end Listing

/-- **Whether every read of a store can be read off a listing.** -/
structure Store.ReadsFrom (store : Store) (packs : Listing PackId (Listing VariableId Variable)) :
    Prop where
  packIds_eq : store.packIds = packs.sortedKeys
  dump_eq : store.dump = packs.dump
  flat_eq : store.flat = packs.flat
  flatFailures_eq : store.flatFailures = packs.flatFailures
  scope_eq : ∀ p, store.scope p = packs.scope p

namespace Store

variable {store : Store} {packs : Listing PackId (Listing VariableId Variable)}

/-- **The order of the tables is never seen**: whatever is read of a store is read off any listing
of its contents. -/
lemma readsFrom (h : packs.Lists store.contents) : store.ReadsFrom packs where
  packIds_eq :=
    (sortKeys_eq (ascending_iff_keys.1 store.contents.ascending) h.keys).symm
  dump_eq := by
    have hblocks := h.map_inOrder
      (f := fun pack => pack.2.inOrder.map fun e => e.2.block pack.1)
      (g := fun pack => pack.2.entries.map fun e => e.2.block pack.1)
      fun key l n hl => by rw [Listing.inOrder_eq hl]
    rw [VariableSet.dump_eq_join, VariableSet.stored, List.map_flatMap, Listing.dump,
      List.flatMap_def, List.flatMap_def, hblocks]
    simp only [List.map_map]
    rfl
  flat_eq := by
    have hflat := h.map_inOrder (f := fun pack => (pack.1.text, Json.object pack.2.values))
      (g := fun pack => (pack.1.text, Json.object (PackVariables.values pack.2)))
      fun key l n hl => by rw [Listing.values_eq hl]
    have hascending : Ascending (store.contents.entries.map fun pack =>
        (pack.1.text, Json.object pack.2.values)) :=
      List.pairwise_map.2 store.contents.ascending
    rw [flat, Listing.flat, hflat, hascending.ofList_eq]
  flatFailures_eq := by
    have hfailures := h.map_inOrder (f := fun pack => pack.2.failures)
      (g := fun pack => PackVariables.failures pack.2) fun key l n hl => Listing.failures_eq hl
    rw [flatFailures, Listing.flatFailures, List.flatMap_def, List.flatMap_def, hfailures]
  scope_eq p := by
    rw [scope, Listing.scope]
    congr 1
    funext path
    have hrel := h.get? path
    rw [VariableSet.converted, VariableSet.ofPack]
    generalize Entries.get? path packs = l, store.contents.get? path = n at hrel
    cases hrel with
    | none => rfl
    | some hl =>
      rw [Option.getD_some, ← Listing.values_eq hl, ← Listing.failures_eq hl]

end Store

end PackScope
