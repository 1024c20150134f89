import PackScope.Proofs.KeyMap.OfList
import PackScope.Proofs.Toml.Values
import PackScope.Toml.Shape
import PackScope.Value.Toml

/-!
The shape of values: how deep they nest, whether all their maps stand in key order, and whether one
of their maps starts with the key that is reserved for date-times. A value that has a TOML form is
the value of that form.
-/

namespace PackScope.Value

open Toml (Data Scalar)

/-! ### Depth -/

mutual

/-- **The number of levels** of lists and maps. -/
def depth : Value → ℕ
  | list items => depthOfItems items + 1
  | map entries => depthOfEntries entries + 1
  | _ => 0

/-- The number of levels of the items of a list. -/
def depthOfItems : List Value → ℕ
  | [] => 0
  | item :: rest => max item.depth (depthOfItems rest)

/-- The number of levels of the values of a map. -/
def depthOfEntries : List (String × Value) → ℕ
  | [] => 0
  | (_, value) :: rest => max value.depth (depthOfEntries rest)

end

/-! ### Order -/

mutual

/-- **Whether the entries of all maps ascend**, at every depth. -/
def Ordered : Value → Prop
  | list items => AllOrdered items
  | map entries => Ascending entries ∧ AllEntriesOrdered entries
  | _ => True

/-- Whether all items of a list are ordered. -/
def AllOrdered : List Value → Prop
  | [] => True
  | item :: rest => item.Ordered ∧ AllOrdered rest

/-- Whether all values of a map are ordered. -/
def AllEntriesOrdered : List (String × Value) → Prop
  | [] => True
  | (_, value) :: rest => value.Ordered ∧ AllEntriesOrdered rest

end

/-! ### The reserved key -/

mutual

/-- **Whether a map starts with the key that is reserved for date-times**, at any depth. -/
def startsReserved : Value → Bool
  | list items => anyStartsReserved items
  | map entries =>
    (entries.head?.any fun e => e.1 = Toml.datetimeKey) || anyEntryStartsReserved entries
  | _ => false

/-- Whether a map in some item of a list starts with the reserved key. -/
def anyStartsReserved : List Value → Bool
  | [] => false
  | item :: rest => item.startsReserved || anyStartsReserved rest

/-- Whether a map in some value of a map starts with the reserved key. -/
def anyEntryStartsReserved : List (String × Value) → Bool
  | [] => false
  | (_, value) :: rest => value.startsReserved || anyEntryStartsReserved rest

end

/-! ### TOML forms -/

mutual

/-- **A value with a TOML form is the value of that form.** -/
theorem ofToml_toToml? : ∀ {v : Value} {d : Data}, v.toToml? = some d → ofToml d = v
  | null, _, h => by cases h
  | unknown, _, h => by cases h
  | bool b, _, h => by cases h; rfl
  | integer n, _, h => by cases h; rfl
  | float x, _, h => by
    rw [toToml?] at h
    split_ifs at h
    cases h
    rfl
  | string s, _, h => by cases h; rfl
  | list items, _, h => by
    rw [toToml?, Option.map_eq_some_iff] at h
    obtain ⟨ds, hds, rfl⟩ := h
    rw [ofToml, itemsOfToml_itemsToToml? hds]
  | map entries, _, h => by
    rw [toToml?, Option.map_eq_some_iff] at h
    obtain ⟨es, hes, rfl⟩ := h
    rw [ofToml, entriesOfToml_entriesToToml? hes]

theorem itemsOfToml_itemsToToml? : ∀ {items : List Value} {ds : List Data},
    itemsToToml? items = some ds → itemsOfToml ds = items
  | [], _, h => by cases h; rfl
  | item :: rest, _, h => by
    rw [itemsToToml?] at h
    obtain ⟨d, hd, h⟩ := Option.bind_eq_some_iff.1 h
    obtain ⟨ds, hds, h⟩ := Option.bind_eq_some_iff.1 h
    cases h
    rw [itemsOfToml, ofToml_toToml? hd, itemsOfToml_itemsToToml? hds]

theorem entriesOfToml_entriesToToml? : ∀ {entries : List (String × Value)}
    {es : List (String × Data)}, entriesToToml? entries = some es → entriesOfToml es = entries
  | [], _, h => by cases h; rfl
  | (key, value) :: rest, _, h => by
    rw [entriesToToml?] at h
    obtain ⟨d, hd, h⟩ := Option.bind_eq_some_iff.1 h
    obtain ⟨es, hes, h⟩ := Option.bind_eq_some_iff.1 h
    cases h
    rw [entriesOfToml, ofToml_toToml? hd, entriesOfToml_entriesToToml? hes]

end

lemma keys_entriesOfToml (es : List (String × Data)) :
    (entriesOfToml es).map Prod.fst = es.map Prod.fst := by
  induction es with
  | nil => rfl
  | cons e es ih => rw [entriesOfToml, List.map_cons, List.map_cons, ih]

mutual

/-- **The TOML form of an ordered value can be written.** -/
theorem writable_toToml? : ∀ {v : Value} {d : Data} {n : ℕ}, v.toToml? = some d → v.Ordered →
    v.depth ≤ n → d.Writable n
  | null, _, _, h, _, _ => by cases h
  | unknown, _, _, h, _, _ => by cases h
  | bool b, _, _, h, _, _ => by cases h; exact .scalar trivial
  | integer n, _, _, h, _, _ => by cases h; exact .scalar trivial
  | float x, _, _, h, _, _ => by
    rw [toToml?] at h
    split_ifs at h with hx
    cases h
    exact .scalar hx
  | string s, _, _, h, _, _ => by cases h; exact .scalar trivial
  | list items, _, n, h, ho, hn => by
    rw [toToml?, Option.map_eq_some_iff] at h
    obtain ⟨ds, hds, rfl⟩ := h
    rw [depth] at hn
    obtain ⟨n, rfl⟩ : ∃ m, n = m + 1 := ⟨n - 1, by omega⟩
    exact .array (writable_itemsToToml? hds ho (by omega))
  | map entries, _, n, h, ho, hn => by
    rw [toToml?, Option.map_eq_some_iff] at h
    obtain ⟨es, hes, rfl⟩ := h
    rw [depth] at hn
    obtain ⟨n, rfl⟩ : ∃ m, n = m + 1 := ⟨n - 1, by omega⟩
    refine .table ?_ (writable_entriesToToml? hes ho.2 (by omega))
    rw [ascending_iff_keys, ← keys_entriesOfToml, entriesOfToml_entriesToToml? hes,
      ← ascending_iff_keys]
    exact ho.1

theorem writable_itemsToToml? : ∀ {items : List Value} {ds : List Data} {n : ℕ},
    itemsToToml? items = some ds → AllOrdered items → depthOfItems items ≤ n →
    ∀ d ∈ ds, d.Writable n
  | [], _, _, h, _, _ => by cases h; simp
  | item :: rest, _, _, h, ho, hn => by
    rw [itemsToToml?] at h
    obtain ⟨d, hd, h⟩ := Option.bind_eq_some_iff.1 h
    obtain ⟨ds, hds, h⟩ := Option.bind_eq_some_iff.1 h
    cases h
    rw [depthOfItems] at hn
    refine List.forall_mem_cons.2 ⟨writable_toToml? hd ho.1 (by omega), ?_⟩
    exact writable_itemsToToml? hds ho.2 (by omega)

theorem writable_entriesToToml? : ∀ {entries : List (String × Value)}
    {es : List (String × Data)} {n : ℕ}, entriesToToml? entries = some es →
    AllEntriesOrdered entries → depthOfEntries entries ≤ n → ∀ e ∈ es, e.2.Writable n
  | [], _, _, h, _, _ => by cases h; simp
  | (key, value) :: rest, _, _, h, ho, hn => by
    rw [entriesToToml?] at h
    obtain ⟨d, hd, h⟩ := Option.bind_eq_some_iff.1 h
    obtain ⟨es, hes, h⟩ := Option.bind_eq_some_iff.1 h
    cases h
    rw [depthOfEntries] at hn
    refine List.forall_mem_cons.2 ⟨writable_toToml? hd ho.1 (by omega), ?_⟩
    exact writable_entriesToToml? hes ho.2 (by omega)

end

end PackScope.Value
