import PackScope.Proofs.Value.Normal

/-!
The order of keys in JSON data. An object that is put together entry by entry has its keys in
order, and data whose objects are in order already stay as they are.
-/

namespace PackScope

namespace Json

mutual

/-- **The data that are put together from data as they are written.** The entries of each object are
put under their keys one after another, which gives key order; of entries with one key the last one
counts. -/
def inOrder : Json → Json
  | null => .null
  | bool b => .bool b
  | integer n => .integer n
  | float x => .float x
  | string s => .string s
  | array items => .array (itemsInOrder items)
  | object entries => .object (Entries.ofList (entriesInOrder entries))

/-- The items of an array, put together. -/
def itemsInOrder : List Json → List Json
  | [] => []
  | item :: rest => item.inOrder :: itemsInOrder rest

/-- The entries of an object, with their values put together. -/
def entriesInOrder : List (String × Json) → List (String × Json)
  | [] => []
  | (key, json) :: rest => (key, json.inOrder) :: entriesInOrder rest

end

/-- **Whether no object repeats a key**, at any depth. -/
inductive HasDistinctKeys : Json → Prop
  | null : HasDistinctKeys .null
  | bool (b : Bool) : HasDistinctKeys (.bool b)
  | integer (n : ℤ) : HasDistinctKeys (.integer n)
  | float (x : Binary64) : HasDistinctKeys (.float x)
  | string (s : String) : HasDistinctKeys (.string s)
  | array {items : List Json} (below : ∀ j ∈ items, HasDistinctKeys j) :
    HasDistinctKeys (.array items)
  | object {entries : List (String × Json)} (keys_nodup : (entries.map Prod.fst).Nodup)
    (below : ∀ e ∈ entries, HasDistinctKeys e.2) : HasDistinctKeys (.object entries)

/-- **Whether the keys of every object ascend**, at every depth. -/
inductive IsInOrder : Json → Prop
  | null : IsInOrder .null
  | bool (b : Bool) : IsInOrder (.bool b)
  | integer (n : ℤ) : IsInOrder (.integer n)
  | float (x : Binary64) : IsInOrder (.float x)
  | string (s : String) : IsInOrder (.string s)
  | array {items : List Json} (below : ∀ j ∈ items, IsInOrder j) : IsInOrder (.array items)
  | object {entries : List (String × Json)} (ascending : Ascending entries)
    (below : ∀ e ∈ entries, IsInOrder e.2) : IsInOrder (.object entries)

section

variable {j : Json}

lemma itemsInOrder_eq (items : List Json) : itemsInOrder items = items.map inOrder := by
  induction items with
  | nil => rfl
  | cons item rest ih => rw [itemsInOrder, ih, List.map_cons]

lemma entriesInOrder_eq (entries : List (String × Json)) :
    entriesInOrder entries = entries.map fun e => (e.1, e.2.inOrder) := by
  induction entries with
  | nil => rfl
  | cons e rest ih => rw [entriesInOrder, ih, List.map_cons]

/-- Data in order have distinct keys. -/
lemma IsInOrder.hasDistinctKeys (h : j.IsInOrder) : j.HasDistinctKeys := by
  induction h with
  | null => exact .null
  | bool b => exact .bool b
  | integer n => exact .integer n
  | float x => exact .float x
  | string s => exact .string s
  | array _ ih => exact .array ih
  | object ascending _ ih => exact .object (List.pairwise_map.2 ascending.keys_ne) ih

/-- **Data in order stay as they are.** -/
lemma IsInOrder.inOrder_eq (h : j.IsInOrder) : j.inOrder = j := by
  induction h with
  | null => rfl
  | bool b => rfl
  | integer n => rfl
  | float x => rfl
  | string s => rfl
  | array _ ih => rw [inOrder, itemsInOrder_eq, List.map_congr_left ih, List.map_id']
  | @object entries ascending _ ih =>
    have hentries : entries.map (fun e => (e.1, e.2.inOrder)) = entries.map id :=
      List.map_congr_left fun e he => Prod.ext rfl (ih e he)
    rw [inOrder, entriesInOrder_eq, hentries, List.map_id, ascending.ofList_eq]

end

end Json

namespace Value

mutual

/-- **The JSON form of an ordered value is in order.** -/
theorem isInOrder_toJson : ∀ {v : Value} {j : Json}, v.toJson = .ok j → v.Ordered → j.IsInOrder
  | null, _, h, _ => by cases h; exact .null
  | unknown, _, h, _ => by cases h
  | bool b, _, h, _ => by cases h; exact .bool b
  | integer n, _, h, _ => by cases h; exact .integer n.toInt
  | float x, _, h, _ => by
    rw [toJson] at h
    split_ifs at h
    cases h
    exact .float x
  | string s, _, h, _ => by cases h; exact .string s
  | list items, _, h, ho => by
    obtain ⟨js, hjs, rfl⟩ := map_eq_ok.1 h
    exact .array (isInOrder_itemsToJson hjs ho)
  | map entries, _, h, ho => by
    obtain ⟨es, hes, rfl⟩ := map_eq_ok.1 h
    have hkeys : entries.map Prod.fst = es.map Prod.fst := by
      rw [← entriesOfJson_entriesToJson hes ho.2, entriesOfJson_eq, List.map_map]
      rfl
    refine .object ?_ (isInOrder_entriesToJson hes ho.2)
    rw [ascending_iff_keys, ← hkeys, ← ascending_iff_keys]
    exact ho.1

theorem isInOrder_itemsToJson : ∀ {index : ℕ} {items : List Value} {js : List Json},
    itemsToJson index items = .ok js → AllOrdered items → ∀ j ∈ js, j.IsInOrder
  | _, [], _, h, _ => by cases h; simp
  | _, item :: rest, _, h, ho => by
    obtain ⟨j, js, hj, hjs, rfl⟩ := itemsToJson_cons.1 h
    exact List.forall_mem_cons.2
      ⟨isInOrder_toJson hj ho.1, isInOrder_itemsToJson hjs ho.2⟩

theorem isInOrder_entriesToJson : ∀ {entries : List (String × Value)} {es : List (String × Json)},
    entriesToJson entries = .ok es → AllEntriesOrdered entries → ∀ e ∈ es, e.2.IsInOrder
  | [], _, h, _ => by cases h; simp
  | (key, value) :: rest, _, h, ho => by
    obtain ⟨j, es, hj, hes, rfl⟩ := entriesToJson_cons.1 h
    exact List.forall_mem_cons.2
      ⟨isInOrder_toJson hj ho.1, isInOrder_entriesToJson hes ho.2⟩

end

end Value

end PackScope
