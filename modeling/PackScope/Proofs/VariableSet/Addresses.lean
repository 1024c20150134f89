import Mathlib.Data.List.Basic
import Mathlib.Tactic.Lemma
import PackScope.Proofs.KeyMap.OfList
import PackScope.Store

/-!
Variables and the addresses at which they stand: a pack and a key below it. A set is known by its
packs and by what stands at each address.
-/

namespace PackScope.VariableSet

variable {set : VariableSet} {pack : PackId} {key : VariableId}

lemma lookup?_eq (set : VariableSet) (pack : PackId) (key : VariableId) :
    set.lookup? pack key = (set.ofPack pack).get? key := by
  rw [lookup?, ofPack]
  cases set.get? pack with
  | none => rfl
  | some vars => rfl

lemma ofPack_of_mem {p : PackId × PackVariables} (hp : p ∈ set.entries) : set.ofPack p.1 = p.2 := by
  have hget : set.get? p.1 = some p.2 := set.ascending.get?_eq_some_iff.2 hp
  rw [ofPack, hget]
  rfl

lemma lookup?_of_mem {p : PackId × PackVariables} (hp : p ∈ set.entries)
    {e : VariableId × Variable} (he : e ∈ p.2.entries) : set.lookup? p.1 e.1 = some e.2 := by
  rw [lookup?_eq, ofPack_of_mem hp]
  exact p.2.ascending.get?_eq_some_iff.2 he

lemma mem_of_lookup? {v : Variable} (h : set.lookup? pack key = some v) :
    ∃ vars, (pack, vars) ∈ set.entries ∧ (key, v) ∈ vars.entries := by
  obtain ⟨vars, hvars, hv⟩ := Option.bind_eq_some_iff.1 h
  exact ⟨vars, set.ascending.get?_eq_some_iff.1 hvars, vars.ascending.get?_eq_some_iff.1 hv⟩

/-- Sets with the same packs and the same variables are equal. -/
lemma ext_lookup? {set other : VariableSet}
    (hpacks : ∀ pack, (set.get? pack).isSome ↔ (other.get? pack).isSome)
    (hvars : ∀ pack key, set.lookup? pack key = other.lookup? pack key) : set = other := by
  refine KeyMap.ext_get? fun pack => ?_
  have hvars := hvars pack
  have hpack := hpacks pack
  unfold lookup? at hvars
  generalize set.get? pack = s, other.get? pack = t at hvars hpack
  cases s with
  | none => exact (Option.not_isSome_iff_eq_none.1 fun h => by simpa using hpack.2 h).symm
  | some s =>
    obtain ⟨t, rfl⟩ := Option.isSome_iff_exists.1 (hpack.1 rfl)
    exact congrArg some (KeyMap.ext_get? hvars)

/-! ### Changes -/

/-- What is found in a set whose packs are changed variable by variable. -/
lemma lookup?_map {f : PackVariables → PackVariables} {g : VariableId → Variable → Option Variable}
    (h : ∀ vars key, (f vars).get? key = (vars.get? key).bind (g key)) (set : VariableSet)
    (pack : PackId) (key : VariableId) :
    VariableSet.lookup? (set.map f) pack key = (set.lookup? pack key).bind (g key) := by
  rw [lookup?, KeyMap.get?_map, lookup?]
  cases set.get? pack with
  | none => rfl
  | some vars => exact h vars key

lemma get?_touch (set : VariableSet) (pack other : PackId) :
    (set.touch pack).get? other =
      if other = pack then some (set.ofPack pack) else set.get? other := by
  rw [touch, KeyMap.get?_insert]
  simp only [Std.LawfulEqOrd.compare_eq_iff_eq]

lemma get?_put (set : VariableSet) (pack other : PackId) (key : VariableId) (v : Variable) :
    (set.put pack key v).get? other =
      if other = pack then some ((set.ofPack pack).insert key v) else set.get? other := by
  rw [put, KeyMap.get?_insert]
  simp only [Std.LawfulEqOrd.compare_eq_iff_eq]

lemma lookup?_touch (set : VariableSet) (pack other : PackId) (key : VariableId) :
    (set.touch pack).lookup? other key = set.lookup? other key := by
  rw [lookup?, get?_touch]
  split_ifs with h
  · rw [h, lookup?_eq]
    rfl
  · rfl

lemma lookup?_put (set : VariableSet) (pack other : PackId) (key last : VariableId) (v : Variable) :
    (set.put pack key v).lookup? other last =
      if other = pack ∧ last = key then some v else set.lookup? other last := by
  rw [lookup?, get?_put]
  by_cases hpack : other = pack
  · subst hpack
    rw [if_pos rfl, lookup?_eq]
    change ((set.ofPack other).insert key v).get? last = _
    rw [KeyMap.get?_insert]
    simp only [Std.LawfulEqOrd.compare_eq_iff_eq, true_and]
  · rw [if_neg hpack, if_neg fun h => hpack h.1]
    rfl

/-! ### Traversals -/

/-- A variable at its address. -/
structure Stored where
  pack : PackId
  key : VariableId
  entry : Variable

/-- All variables of a set, in the order of packs and of keys below them. -/
def stored (set : VariableSet) : List Stored :=
  set.entries.flatMap fun pack => pack.2.entries.map fun e => ⟨pack.1, e.1, e.2⟩

lemma mem_stored {a : Stored} : a ∈ set.stored ↔ set.lookup? a.pack a.key = some a.entry := by
  rw [stored, List.mem_flatMap]
  constructor
  · rintro ⟨pack, hpack, ha⟩
    obtain ⟨e, he, rfl⟩ := List.mem_map.1 ha
    exact lookup?_of_mem hpack he
  · intro h
    obtain ⟨vars, hvars, he⟩ := mem_of_lookup? h
    exact ⟨_, hvars, List.mem_map.2 ⟨_, he, rfl⟩⟩

/-- All variables of a set are at different addresses, in ascending order. -/
lemma pairwise_stored (set : VariableSet) : set.stored.Pairwise fun a b =>
    compare a.pack b.pack = .lt ∨ a.pack = b.pack ∧ compare a.key b.key = .lt := by
  refine List.pairwise_flatMap.2 ⟨fun pack _ => ?_, set.ascending.imp fun {p q} hpq a ha b hb => ?_⟩
  · exact List.pairwise_map.2 (pack.2.ascending.imp fun h => .inr ⟨rfl, h⟩)
  · obtain ⟨e, -, rfl⟩ := List.mem_map.1 ha
    obtain ⟨e', -, rfl⟩ := List.mem_map.1 hb
    exact .inl hpq

/-- **The dump is one block for each variable**, in the order of their addresses. -/
lemma dump_eq_join (store : Store) :
    store.dump = String.join (store.contents.stored.map fun a => a.entry.block a.pack) := by
  refine String.toList_inj.1 ?_
  rw [Store.dump, String.toList_ofList, String.toList_join, List.flatMap_map, stored,
    List.flatMap_assoc]
  refine List.flatMap_congr fun pack _ => ?_
  rw [List.flatMap_map]
  refine List.flatMap_congr fun e _ => ?_
  exact String.toList_ofList.symm

end PackScope.VariableSet
