import Mathlib.Data.List.Basic
import PackScope.Proofs.KeyMap.Merging

/-!
Listings of maps. A hash table lists the entries of a map in an order of its own; once its keys are
sorted, looking them up one by one gives the entries of the map, whatever that order was.
-/

namespace PackScope

universe u v w

/-- The entries of a map, in the order in which a hash table happens to hold them. -/
abbrev Listing (κ : Type u) (β : Type v) := List (κ × β)

namespace Listing

section Sorting

variable {κ : Type u} {β : Type v} [Ord κ]

/-- The keys of a listing, sorted. -/
def sortedKeys (listing : Listing κ β) : List κ := sortKeys (listing.map Prod.fst)

/-- The entries of a listing, looked up by its sorted keys. -/
def inOrder (listing : Listing κ β) : List (κ × β) :=
  listing.sortedKeys.filterMap fun key => (Entries.get? key listing).map fun value => (key, value)

variable [Std.TransOrd κ] [Std.LawfulEqOrd κ] {listing : Listing κ β} {m : KeyMap κ β}

lemma get?_eq (h : listing.Perm m.entries) (key : κ) : Entries.get? key listing = m.get? key := by
  refine Option.ext fun value => ?_
  rw [Entries.get?_eq_some_iff ((h.pairwise_iff Ne.symm).2 m.ascending.keys_ne), h.mem_iff]
  exact m.ascending.get?_eq_some_iff.symm

/-- A map that is put together from a listing holds what the listing holds. -/
lemma get?_ofList (h : listing.Pairwise fun a b => a.1 ≠ b.1) (key : κ) :
    (KeyMap.ofList listing).get? key = Entries.get? key listing := by
  cases hl : (KeyMap.ofList listing).get? key with
  | some value =>
    exact ((Entries.get?_eq_some_iff h).2 (KeyMap.mem_of_get?_ofList hl)).symm
  | none =>
    have hkey : key ∉ listing.map Prod.fst := by
      rw [← mem_keys_ofList, ← KeyMap.entries_ofList, Entries.mem_keys_iff]
      exact fun hsome => Option.not_isSome_iff_eq_none.2 hl hsome
    exact (Option.not_isSome_iff_eq_none.1 fun hsome => hkey (Entries.mem_keys_iff.2 hsome)).symm

/-- **The sorted entries of a listing are the entries of its map.** -/
lemma inOrder_eq (h : listing.Perm m.entries) : listing.inOrder = m.entries := by
  have hkeys : listing.sortedKeys = m.keys :=
    sortKeys_eq (ascending_iff_keys.1 m.ascending) (h.map Prod.fst)
  have hfound : ∀ e ∈ m.entries,
      ((Entries.get? e.1 listing).map fun value => (e.1, value)) = some e := by
    intro e he
    have hget : m.get? e.1 = some e.2 := m.ascending.get?_eq_some_iff.2 he
    rw [get?_eq h, hget]
    rfl
  rw [inOrder, hkeys, KeyMap.keys, List.filterMap_map]
  exact (List.filterMap_congr hfound).trans List.filterMap_some

end Sorting

/-! ### Maps of maps -/

section Nested

variable {κ : Type u} {κ' : Type v} {β : Type w} [Ord κ] [Ord κ']

/-- **A listing of a map of maps** has its keys in any order, and with each of them the entries that
stand below it in any order. -/
structure Lists (listing : Listing κ (Listing κ' β)) (m : KeyMap κ (KeyMap κ' β)) : Prop where
  keys : (listing.map Prod.fst).Perm m.keys
  entries : ∀ e ∈ listing, ∃ inner, m.get? e.1 = some inner ∧ e.2.Perm inner.entries

variable [Std.TransOrd κ] {listing : Listing κ (Listing κ' β)} {m : KeyMap κ (KeyMap κ' β)}

lemma Lists.keys_ne (h : listing.Lists m) : listing.Pairwise fun a b => a.1 ≠ b.1 := by
  have hkeys : m.keys.Pairwise fun a b => a ≠ b := List.pairwise_map.2 m.ascending.keys_ne
  exact List.pairwise_map.1 ((h.keys.pairwise_iff Ne.symm).2 hkeys)

variable [Std.LawfulEqOrd κ]

/-- What stands below a key of a listing lists what stands below it in the map. -/
lemma Lists.get? (h : listing.Lists m) (key : κ) :
    Option.Rel (fun l n => l.Perm n.entries) (Entries.get? key listing) (m.get? key) := by
  cases hl : Entries.get? key listing with
  | none =>
    have hkey : key ∉ m.keys := by
      rw [← h.keys.mem_iff, Entries.mem_keys_iff, hl]
      exact Bool.false_ne_true
    have hnone : m.get? key = none :=
      Option.not_isSome_iff_eq_none.1 fun hsome => hkey (Entries.mem_keys_iff.2 hsome)
    rw [hnone]
    exact .none
  | some l =>
    obtain ⟨n, hn, hperm⟩ := h.entries _ ((Entries.get?_eq_some_iff h.keys_ne).1 hl)
    rw [hn]
    exact .some hperm

/-- **The sorted entries of a listing are those of its map**, for every reader that does not see the
order of what stands below a key. -/
lemma Lists.map_inOrder {γ : Type*} (h : listing.Lists m) {f : κ × Listing κ' β → γ}
    {g : κ × KeyMap κ' β → γ} (hfg : ∀ key {l n}, l.Perm n.entries → f (key, l) = g (key, n)) :
    listing.inOrder.map f = m.entries.map g := by
  have hkeys : listing.sortedKeys = m.keys :=
    sortKeys_eq (ascending_iff_keys.1 m.ascending) h.keys
  have hfound : ∀ e ∈ m.entries,
      ((Entries.get? e.1 listing).map fun l => (e.1, l)).map f = some (g e) := by
    intro e he
    have hget : m.get? e.1 = some e.2 := m.ascending.get?_eq_some_iff.2 he
    have hrel := h.get? e.1
    rw [hget] at hrel
    -- What the map holds is listed, so the lookup cannot fail.
    generalize Entries.get? e.1 listing = l at hrel
    cases hrel with
    | some hperm => rw [Option.map_some, Option.map_some, hfg e.1 hperm]
  rw [inOrder, hkeys, KeyMap.keys, List.filterMap_map, List.map_filterMap]
  exact (List.filterMap_congr hfound).trans (congrFun List.filterMap_eq_map _)

/-- The map of maps that is put together from a listing, entry by entry. -/
def collect [Std.TransOrd κ'] (listing : Listing κ (Listing κ' β)) : KeyMap κ (KeyMap κ' β) :=
  .ofList (listing.map fun e => (e.1, .ofList e.2))

/-- **Whatever the order in which its entries are put together, the map is the same.** -/
lemma Lists.collect_eq [Std.TransOrd κ'] [Std.LawfulEqOrd κ'] (h : listing.Lists m) :
    listing.collect = m := by
  have hperm : ∀ {l : Listing κ' β} {n : KeyMap κ' β}, l.Perm n.entries → .ofList l = n := by
    intro l n hl
    refine KeyMap.ext_get? fun key => ?_
    rw [get?_ofList ((hl.pairwise_iff Ne.symm).2 n.ascending.keys_ne), get?_eq hl]
  have hne : (listing.map fun e => (e.1, KeyMap.ofList e.2)).Pairwise fun a b => a.1 ≠ b.1 :=
    List.pairwise_map.2 h.keys_ne
  refine KeyMap.ext_get? fun key => ?_
  have hmap := Entries.get?_map (f := id) (g := KeyMap.ofList) (fun _ _ => rfl) key listing
  have hget : listing.collect.get? key = (Entries.get? key listing).map KeyMap.ofList :=
    (get?_ofList hne key).trans hmap
  have hrel := h.get? key
  rw [hget]
  generalize Entries.get? key listing = l, m.get? key = n at hrel
  cases hrel with
  | none => rfl
  | some hl => rw [Option.map_some, hperm hl]

end Nested

end Listing

end PackScope
