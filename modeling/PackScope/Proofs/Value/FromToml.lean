import PackScope.Proofs.KeyMap.Merging
import PackScope.Proofs.Traversal
import PackScope.Proofs.Value.Shape

/-!
Values that come from TOML. Their maps stand in key order at every depth, and they have a TOML form
again exactly if all their numbers are finite.
-/

namespace PackScope.Value

open Toml (Data Entry Node)

/-! ### Finite numbers -/

mutual

/-- **Whether all numbers in a value are finite.** -/
def allFinite : Value → Bool
  | float x => x.isFinite
  | list items => allItemsFinite items
  | map entries => allEntriesFinite entries
  | _ => true

/-- Whether all numbers in the items of a list are finite. -/
def allItemsFinite : List Value → Bool
  | [] => true
  | item :: rest => item.allFinite && allItemsFinite rest

/-- Whether all numbers in the values of a map are finite. -/
def allEntriesFinite : List (String × Value) → Bool
  | [] => true
  | (_, value) :: rest => value.allFinite && allEntriesFinite rest

end

lemma isSome_bind_some {α β γ : Type} (x : Option α) (y : Option β) (f : α → β → γ) :
    (x.bind fun a => y.bind fun b => some (f a b)).isSome = (x.isSome && y.isSome) := by
  cases x with
  | none => rfl
  | some a =>
    cases y with
    | none => rfl
    | some b => rfl

mutual

/-- **A value from TOML has a TOML form exactly if all its numbers are finite.** -/
theorem isSome_toToml?_ofToml : ∀ d : Data,
    (ofToml d).toToml?.isSome = (ofToml d).allFinite
  | .scalar (.string s) => rfl
  | .scalar (.integer n) => rfl
  | .scalar (.float x) => by
    rw [ofToml, ofScalar, toToml?, allFinite]
    cases x.isFinite with
    | false => rfl
    | true => rfl
  | .scalar (.boolean b) => rfl
  | .scalar (.datetime d) => rfl
  | .array items => by
    rw [ofToml, toToml?, allFinite, Option.isSome_map, isSome_itemsToToml?_itemsOfToml]
  | .table entries => by
    rw [ofToml, toToml?, allFinite, Option.isSome_map, isSome_entriesToToml?_entriesOfToml]

theorem isSome_itemsToToml?_itemsOfToml : ∀ ds : List Data,
    (itemsToToml? (itemsOfToml ds)).isSome = allItemsFinite (itemsOfToml ds)
  | [] => rfl
  | d :: ds => by
    rw [itemsOfToml, itemsToToml?, allItemsFinite, ← isSome_toToml?_ofToml d,
      ← isSome_itemsToToml?_itemsOfToml ds]
    exact isSome_bind_some _ _ _

theorem isSome_entriesToToml?_entriesOfToml : ∀ es : List (String × Data),
    (entriesToToml? (entriesOfToml es)).isSome = allEntriesFinite (entriesOfToml es)
  | [] => rfl
  | (key, d) :: es => by
    rw [entriesOfToml, entriesToToml?, allEntriesFinite, ← isSome_toToml?_ofToml d,
      ← isSome_entriesToToml?_entriesOfToml es]
    exact isSome_bind_some _ _ _

end

/-! ### Order -/

lemma allOrdered_itemsOfToml {ds : List Data} (h : ∀ d ∈ ds, (ofToml d).Ordered) :
    AllOrdered (itemsOfToml ds) := by
  induction ds with
  | nil => trivial
  | cons d ds ih =>
    rw [itemsOfToml]
    exact ⟨h d List.mem_cons_self, ih fun x hx => h x (List.mem_cons_of_mem _ hx)⟩

lemma allEntriesOrdered_entriesOfToml {es : List (String × Data)}
    (h : ∀ e ∈ es, (ofToml e.2).Ordered) : AllEntriesOrdered (entriesOfToml es) := by
  induction es with
  | nil => trivial
  | cons e es ih =>
    rw [entriesOfToml]
    exact ⟨h e List.mem_cons_self, ih fun x hx => h x (List.mem_cons_of_mem _ hx)⟩

lemma ordered_table {es : List (String × Data)} (h : ∀ e ∈ es, (ofToml e.2).Ordered) :
    (ofToml (.table (Entries.ofList es))).Ordered := by
  rw [ofToml]
  refine ⟨?_, allEntriesOrdered_entriesOfToml fun e he => h e (Entries.mem_of_mem_ofList he)⟩
  rw [ascending_iff_keys, keys_entriesOfToml, ← ascending_iff_keys]
  exact ascending_ofList es

lemma ordered_spelledDatetime {node : Node} {d : Data} (h : node.spelledDatetime = .ok d) :
    (ofToml d).Ordered := by
  unfold Node.spelledDatetime at h
  split at h
  · split at h
    · cases h
      trivial
    · cases h
  · cases h

mutual

/-- **The data of a node stands in key order**, at every depth. -/
theorem ordered_data : ∀ {node : Node} {d : Data}, node.data = .ok d → (ofToml d).Ordered
  | .scalar s, d, h => by
    rw [Node.data] at h
    cases h
    cases s <;> trivial
  | .array items, d, h => by
    rw [Node.data] at h
    obtain ⟨ds, hds, rfl⟩ := map_eq_ok.1 h
    rw [ofToml]
    exact allOrdered_itemsOfToml (ordered_dataOfItems hds)
  | .tables elements, d, h => by
    rw [Node.data] at h
    obtain ⟨ds, hds, rfl⟩ := map_eq_ok.1 h
    rw [ofToml]
    exact allOrdered_itemsOfToml (ordered_dataOfItems hds)
  | .table _ [], d, h => by
    rw [Node.data] at h
    cases h
    exact ordered_table fun e he => absurd he List.not_mem_nil
  | .table _ (⟨key, extent, content⟩ :: rest), d, h => by
    rw [Node.data] at h
    split_ifs at h
    · exact ordered_spelledDatetime h
    · obtain ⟨first, hfirst, h⟩ := bind_eq_ok.1 h
      obtain ⟨es, hes, h⟩ := bind_eq_ok.1 h
      obtain rfl := pure_eq_ok.1 h
      refine ordered_table (List.forall_mem_cons.2 ⟨ordered_data hfirst, ?_⟩)
      exact ordered_dataOfEntries hes

theorem ordered_dataOfItems : ∀ {nodes : List Node} {ds : List Data},
    Toml.dataOfItems nodes = .ok ds → ∀ d ∈ ds, (ofToml d).Ordered
  | [], ds, h => by
    rw [Toml.dataOfItems] at h
    cases h
    simp
  | node :: rest, ds, h => by
    rw [Toml.dataOfItems] at h
    obtain ⟨d, hd, h⟩ := bind_eq_ok.1 h
    obtain ⟨ds', hds, h⟩ := bind_eq_ok.1 h
    obtain rfl := pure_eq_ok.1 h
    exact List.forall_mem_cons.2 ⟨ordered_data hd, ordered_dataOfItems hds⟩

theorem ordered_dataOfEntries : ∀ {entries : List (Entry Node)} {es : List (String × Data)},
    Toml.dataOfEntries entries = .ok es → ∀ e ∈ es, (ofToml e.2).Ordered
  | [], es, h => by
    rw [Toml.dataOfEntries] at h
    cases h
    simp
  | ⟨key, extent, content⟩ :: rest, es, h => by
    rw [Toml.dataOfEntries] at h
    obtain ⟨d, hd, h⟩ := bind_eq_ok.1 h
    obtain ⟨es', hes, h⟩ := bind_eq_ok.1 h
    obtain rfl := pure_eq_ok.1 h
    exact List.forall_mem_cons.2 ⟨ordered_data hd, ordered_dataOfEntries hes⟩

end

end PackScope.Value
