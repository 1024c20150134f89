import Mathlib.Data.List.Basic
import PackScope.Proofs.VariableSet.Addresses
import PackScope.Proofs.VariableSet.Rekey
import PackScope.Scope

/-!
The variables that a scope shows. They are the JSON forms of the variables that the store holds
under the path of the pack, key by key, whatever the layout in which the store was loaded; those
that have no JSON form are reported one by one, in the order of their keys.
-/

namespace PackScope

/-! ### Layouts -/

/-- **Lookups in a store are lookups in its contents**, in either layout. -/
lemma Store.lookup?_contents (store : Store) (pack key : String) :
    store.lookup? pack key = store.contents.lookup? ⟨pack⟩ ⟨key⟩ := by
  cases store with
  | unloaded => rfl
  | legacy set => exact (LegacySet.lookup?_rekey set pack key).symm
  | unified set => rfl

lemma Store.lookup?_eq (store : Store) (pack key : String) :
    store.lookup? pack key = (store.contents.ofPack ⟨pack⟩).get? ⟨key⟩ := by
  rw [lookup?_contents, VariableSet.lookup?_eq]

/-! ### Variables of a pack -/

namespace PackVariables

variable (vars : PackVariables)

lemma values_eq : vars.values =
    (vars.filterMap fun _ v => v.value.toJson.toOption).entries.map fun e => (e.1.text, e.2) := by
  change _ = (vars.entries.filterMap fun e => e.2.value.toJson.toOption.map fun c => (e.1, c)).map _
  rw [List.map_filterMap]
  refine List.filterMap_congr fun e _ => ?_
  cases e.2.value.toJson with
  | error error => rfl
  | ok json => rfl

lemma ascending_values : Ascending vars.values := by
  rw [values_eq]
  exact List.pairwise_map.2 (KeyMap.ascending _)

lemma get?_values (key : String) :
    Entries.get? key vars.values = (vars.get? ⟨key⟩).bind fun v => v.value.toJson.toOption := by
  rw [values_eq]
  refine (Entries.get?_map (f := VariableId.text) (g := id) (fun _ _ => rfl) ⟨key⟩ _).trans ?_
  rw [Option.map_id_fun]
  exact KeyMap.get?_filterMap _ vars _

lemma mem_values_iff {e : String × Json} :
    e ∈ vars.values ↔ ∃ v, vars.get? ⟨e.1⟩ = some v ∧ v.value.toJson = .ok e.2 := by
  rw [← vars.ascending_values.get?_eq_some_iff, get?_values, Option.bind_eq_some_iff]
  refine exists_congr fun v => and_congr_right fun _ => ?_
  cases v.value.toJson with
  | error error => simp [Except.toOption]
  | ok json => simp [Except.toOption]

end PackVariables

/-! ### Variables without a JSON form -/

/-- A variable that a pack holds under a key and that has no JSON form. -/
structure FailedVariable where
  pack : PackId
  key : VariableId
  var : Variable
  error : ConversionError

namespace FailedVariable

/-- The report on a variable that has no JSON form. -/
def report (f : FailedVariable) : Diagnostic := conversionFailure f.key f.var f.error

/-- **Whether a store holds the variable**, and it has no JSON form. -/
def HeldBy (f : FailedVariable) (store : Store) : Prop :=
  store.lookup? f.pack.text f.key.text = some f.var ∧ f.var.value.toJson = .error f.error

end FailedVariable

namespace PackVariables

variable (vars : PackVariables) (pack : PackId)

/-- The variable of an entry, if it has no JSON form. -/
def failed? (e : VariableId × Variable) : Option FailedVariable :=
  match e.2.value.toJson with
  | .ok _ => none
  | .error error => some ⟨pack, e.1, e.2, error⟩

/-- The variables of a pack that have no JSON form, in key order. -/
def failed : List FailedVariable := vars.entries.filterMap (failed? pack)

lemma failed?_eq_some_iff {e : VariableId × Variable} {f : FailedVariable} :
    failed? pack e = some f ↔
      f.pack = pack ∧ e = (f.key, f.var) ∧ f.var.value.toJson = .error f.error := by
  unfold failed?
  constructor
  · intro h
    split at h
    · cases h
    · next error herror =>
      cases h
      exact ⟨rfl, rfl, herror⟩
  · rintro ⟨rfl, rfl, herror⟩
    simp only [herror]

lemma failures_eq : vars.failures = (vars.failed pack).map FailedVariable.report := by
  rw [failures, failed, List.map_filterMap]
  refine List.filterMap_congr fun e _ => ?_
  unfold failed?
  cases e.2.value.toJson with
  | ok json => rfl
  | error error => rfl

lemma mem_failed {f : FailedVariable} : f ∈ vars.failed pack ↔
    f.pack = pack ∧ vars.get? f.key = some f.var ∧ f.var.value.toJson = .error f.error := by
  have hget : vars.get? f.key = some f.var ↔ (f.key, f.var) ∈ vars.entries :=
    vars.ascending.get?_eq_some_iff
  rw [failed, List.mem_filterMap, hget]
  constructor
  · rintro ⟨e, he, hf⟩
    obtain ⟨hpack, rfl, herror⟩ := (failed?_eq_some_iff pack).1 hf
    exact ⟨hpack, he, herror⟩
  · rintro ⟨hpack, he, herror⟩
    exact ⟨_, he, (failed?_eq_some_iff pack).2 ⟨hpack, rfl, herror⟩⟩

/-- Variables without a JSON form stand in ascending order of their keys. -/
lemma failed_ascending : (vars.failed pack).Pairwise fun f g => compare f.key g.key = .lt := by
  refine List.Pairwise.filterMap _ (fun e e' hlt f hf g hg => ?_) vars.ascending
  obtain ⟨-, rfl, -⟩ := (failed?_eq_some_iff pack).1 hf
  obtain ⟨-, rfl, -⟩ := (failed?_eq_some_iff pack).1 hg
  exact hlt

end PackVariables

namespace Store

variable {store : Store} {paths : List PackId}

/-- **The variables that a store holds under some paths** and that have no JSON form. -/
def failedUnder (store : Store) (paths : List PackId) : List FailedVariable :=
  paths.flatMap fun path => (store.contents.ofPack path).failed path

lemma failedUnder_cons (path : PackId) (paths : List PackId) :
    store.failedUnder (path :: paths) = store.failedUnder [path] ++ store.failedUnder paths := by
  rw [failedUnder, failedUnder, List.flatMap_cons, List.flatMap_singleton]
  rfl

lemma failedUnder_flatMap {α : Type} (xs : List α) (paths : α → List PackId) :
    store.failedUnder (xs.flatMap paths) = xs.flatMap fun x => store.failedUnder (paths x) :=
  List.flatMap_assoc

lemma mem_failedUnder {f : FailedVariable} :
    f ∈ store.failedUnder paths ↔ f.pack ∈ paths ∧ f.HeldBy store := by
  rw [failedUnder, List.mem_flatMap, FailedVariable.HeldBy, lookup?_eq]
  constructor
  · rintro ⟨path, hpath, hf⟩
    obtain ⟨rfl, hheld⟩ := (PackVariables.mem_failed _ _).1 hf
    exact ⟨hpath, hheld⟩
  · rintro ⟨hpath, hheld⟩
    exact ⟨_, hpath, (PackVariables.mem_failed _ _).2 ⟨rfl, hheld⟩⟩

lemma nodup_failedUnder (h : paths.Nodup) :
    ((store.failedUnder paths).map fun f => (f.pack, f.key)).Nodup := by
  refine List.pairwise_map.2 (List.pairwise_flatMap.2 ⟨fun path _ => ?_, h.imp ?_⟩)
  · refine (PackVariables.failed_ascending _ _).imp fun {f g} hlt heq => ?_
    have hkey : f.key = g.key := congrArg Prod.snd heq
    simp [hkey] at hlt
  · intro path path' hne f hf g hg heq
    refine hne ?_
    rw [← ((PackVariables.mem_failed _ _).1 hf).1, ← ((PackVariables.mem_failed _ _).1 hg).1]
    exact congrArg Prod.fst heq

end Store

end PackScope
