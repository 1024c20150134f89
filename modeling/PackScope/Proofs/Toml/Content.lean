import PackScope.Proofs.KeyMap.Merging
import PackScope.Proofs.Traversal
import PackScope.Proofs.Value.Shape

/-!
The data of a node beside the data that it shows. They differ only where a table starts with the
reserved key, and there the value is lost: what is read instead is a date-time or nothing.
-/

namespace PackScope.Toml

open Value (ofToml itemsOfToml entriesOfToml)

/-- Whether the value that some data stand for has a map that starts with the reserved key. -/
def Data.startsReserved (d : Data) : Bool := (ofToml d).startsReserved

/-! ### Key order -/

mutual

/-- **Data with the entries of all tables in key order.** -/
def Data.inOrder : Data → Data
  | .scalar s => .scalar s
  | .array items => .array (itemsInOrder items)
  | .table entries => .table (Entries.ofList (entriesInOrder entries))

/-- The items of an array, each in key order. -/
def itemsInOrder : List Data → List Data
  | [] => []
  | item :: rest => item.inOrder :: itemsInOrder rest

/-- The entries of a table where they are, each in key order. -/
def entriesInOrder : List (String × Data) → List (String × Data)
  | [] => []
  | (key, data) :: rest => (key, data.inOrder) :: entriesInOrder rest

end

/-- **Whether no table has a key twice**, at any depth. -/
inductive Data.Distinct : Data → Prop
  | scalar (s : Scalar) : Distinct (.scalar s)
  | array {items : List Data} (items_distinct : ∀ x ∈ items, Distinct x) : Distinct (.array items)
  | table {entries : List (String × Data)} (keys_ne : entries.Pairwise fun a b => a.1 ≠ b.1)
    (entries_distinct : ∀ e ∈ entries, Distinct e.2) : Distinct (.table entries)

lemma itemsInOrder_eq_map (ds : List Data) : itemsInOrder ds = ds.map Data.inOrder := by
  induction ds with
  | nil => rfl
  | cons d ds ih => rw [itemsInOrder, ih, List.map_cons]

lemma entriesInOrder_eq_map (es : List (String × Data)) :
    entriesInOrder es = es.map fun e => (e.1, e.2.inOrder) := by
  induction es with
  | nil => rfl
  | cons e es ih => rw [entriesInOrder, ih, List.map_cons]

lemma entriesOfToml_eq_map (es : List (String × Data)) :
    entriesOfToml es = es.map fun e => (e.1, ofToml e.2) := by
  induction es with
  | nil => rfl
  | cons e es ih => rw [entriesOfToml, ih, List.map_cons]

lemma shownItems_eq_map (nodes : List Node) : shownItems nodes = nodes.map Node.shown := by
  induction nodes with
  | nil => rfl
  | cons node nodes ih => rw [shownItems, ih, List.map_cons]

lemma shownEntries_eq_map (t : Table) :
    shownEntries t = t.map fun e => (e.key, e.content.shown) := by
  induction t with
  | nil => rfl
  | cons e t ih => rw [shownEntries, ih, List.map_cons]

lemma keys_entriesInOrder (es : List (String × Data)) :
    (entriesInOrder es).map Prod.fst = es.map Prod.fst := by
  rw [entriesInOrder_eq_map, List.map_map]
  rfl

/-! ### Tables -/

section Tables

variable {t : Table} {es : List (String × Data)}

lemma keys_dataOfEntries (h : dataOfEntries t = .ok es) :
    es.map Prod.fst = (shownEntries t).map Prod.fst := by
  induction t generalizing es with
  | nil => cases h; rfl
  | cons e t ih =>
    obtain ⟨d, hd, h⟩ := bind_eq_ok.1 h
    obtain ⟨es', hes, h⟩ := bind_eq_ok.1 h
    obtain rfl := pure_eq_ok.1 h
    rw [shownEntries, List.map_cons, List.map_cons, ih hes]

/-- What the reserved key spells is no table. -/
lemma not_table_of_spelledDatetime {node : Node} {d : Data} (h : node.spelledDatetime = .ok d)
    (es : List (String × Data)) : ofToml d ≠ ofToml (.table es) := by
  unfold Node.spelledDatetime at h
  split at h
  · split at h
    · cases h
      rw [ofToml, ofToml, Value.ofScalar]
      exact Value.noConfusion
    · cases h
  · cases h

lemma data_table_cons {origin : Origin} {e : Entry Node} (hkey : e.key ≠ datetimeKey) :
    (Node.table origin (e :: t)).data =
      (dataOfEntries (e :: t)).map fun es => .table (Entries.ofList es) := by
  rw [Node.data, if_neg hkey, dataOfEntries]
  cases e.content.data with
  | error e => rfl
  | ok d =>
    cases dataOfEntries t with
    | error e => rfl
    | ok es => rfl

lemma startsReserved_table_cons (origin : Origin) (e : Entry Node) (t : Table) :
    (Node.table origin (e :: t)).shown.startsReserved = false ↔ e.key ≠ datetimeKey ∧
      Value.anyEntryStartsReserved (entriesOfToml (shownEntries (e :: t))) = false := by
  have hstart : (Node.table origin (e :: t)).shown.startsReserved =
      (decide (e.key = datetimeKey) ||
        Value.anyEntryStartsReserved (entriesOfToml (shownEntries (e :: t)))) := rfl
  rw [hstart, Bool.or_eq_false_iff, decide_eq_false_iff_not]

/-- Tables of the same different keys have the same value only if their entries have. -/
lemma entriesOfToml_injective {es' : List (String × Data)}
    (hne : es.Pairwise fun a b => a.1 ≠ b.1) (hkeys : es.map Prod.fst = es'.map Prod.fst)
    (h : ofToml (.table (Entries.ofList es)) = ofToml (.table (Entries.ofList es'))) :
    entriesOfToml es = entriesOfToml es' := by
  have hmap (xs : List (String × Data)) : entriesOfToml (Entries.ofList xs) =
      (KeyMap.ofList (entriesOfToml xs)).entries := by
    rw [entriesOfToml_eq_map, entriesOfToml_eq_map, KeyMap.entries_ofList]
    exact Entries.map_ofList (f := id) (fun _ => ofToml) (fun _ _ => rfl) xs
  rw [ofToml, ofToml, Value.map.injEq, hmap, hmap] at h
  refine KeyMap.ofList_injective ?_ ?_ (KeyMap.ext h)
  · rw [entriesOfToml_eq_map, List.pairwise_map]
    exact hne
  · rw [Value.keys_entriesOfToml, hkeys, Value.keys_entriesOfToml]

end Tables

/-! ### Nodes without the reserved key -/

mutual

/-- **A node has the data that it shows**, in key order, unless a table starts with the reserved
key. -/
theorem data_of_shown : ∀ node : Node, node.shown.startsReserved = false →
    node.data = .ok node.shown.inOrder
  | .scalar s, _ => rfl
  | .array nodes, h => by
    rw [Node.data, dataOfItems_of_shown nodes h]
    rfl
  | .tables elements, h => by
    rw [Node.data, dataOfItems_of_shown elements h]
    rfl
  | .table origin t, h => by
    have hentries := dataOfEntries_of_shown t
    match t with
    | [] => rfl
    | e :: t =>
      obtain ⟨hkey, hfree⟩ := (startsReserved_table_cons origin e t).1 h
      rw [data_table_cons hkey, hentries hfree]
      rfl

theorem dataOfItems_of_shown : ∀ nodes : List Node,
    Value.anyStartsReserved (itemsOfToml (shownItems nodes)) = false →
      dataOfItems nodes = .ok (itemsInOrder (shownItems nodes))
  | [], _ => rfl
  | node :: rest, h => by
    rw [shownItems, itemsOfToml, Value.anyStartsReserved, Bool.or_eq_false_iff] at h
    rw [dataOfItems, data_of_shown node h.1, dataOfItems_of_shown rest h.2]
    rfl

theorem dataOfEntries_of_shown : ∀ t : List (Entry Node),
    Value.anyEntryStartsReserved (entriesOfToml (shownEntries t)) = false →
      dataOfEntries t = .ok (entriesInOrder (shownEntries t))
  | [], _ => rfl
  | ⟨key, extent, content⟩ :: rest, h => by
    rw [shownEntries, entriesOfToml, Value.anyEntryStartsReserved, Bool.or_eq_false_iff] at h
    rw [dataOfEntries, data_of_shown content h.1, dataOfEntries_of_shown rest h.2]
    rfl

end

/-! ### Values that are kept -/

mutual

/-- **A node whose data have the value that it shows has no table that starts with the reserved
key**, if no table has a key twice. -/
theorem not_startsReserved_of_data : ∀ (node : Node) (d : Data), node.shown.Distinct →
    node.data = .ok d → ofToml d = ofToml node.shown.inOrder → node.shown.startsReserved = false
  | .scalar s, _, _, _, _ => by cases s <;> rfl
  | .array nodes, d, hdistinct, hd, h => by
    obtain ⟨ds, hds, rfl⟩ := map_eq_ok.1 hd
    rw [Node.shown, Data.inOrder, ofToml, ofToml, Value.list.injEq] at h
    obtain _ | hitems := hdistinct
    exact not_anyStartsReserved_of_data nodes ds hitems hds h
  | .tables elements, d, hdistinct, hd, h => by
    obtain ⟨ds, hds, rfl⟩ := map_eq_ok.1 hd
    rw [Node.shown, Data.inOrder, ofToml, ofToml, Value.list.injEq] at h
    obtain _ | hitems := hdistinct
    exact not_anyStartsReserved_of_data elements ds hitems hds h
  | .table origin t, d, hdistinct, hd, h => by
    have hentries := not_anyEntryStartsReserved_of_data t
    obtain _ | _ | ⟨hne, hdistinct⟩ := hdistinct
    match t with
    | [] => rfl
    | e :: t =>
      rw [Node.shown, Data.inOrder] at h
      by_cases hkey : e.key = datetimeKey
      · rw [Node.data, if_pos hkey] at hd
        exact absurd h (not_table_of_spelledDatetime hd _)
      · rw [data_table_cons hkey] at hd
        obtain ⟨es, hes, rfl⟩ := map_eq_ok.1 hd
        have hkeys := keys_dataOfEntries hes
        have hne' : es.Pairwise fun a b => a.1 ≠ b.1 := by
          rw [← List.pairwise_map (f := Prod.fst) (R := (· ≠ ·)), hkeys, List.pairwise_map]
          exact hne
        have hvalues := entriesOfToml_injective hne' (hkeys.trans (keys_entriesInOrder _).symm) h
        exact (startsReserved_table_cons origin e t).2 ⟨hkey, hentries es hdistinct hes hvalues⟩

theorem not_anyStartsReserved_of_data : ∀ (nodes : List Node) (ds : List Data),
    (∀ x ∈ shownItems nodes, x.Distinct) → dataOfItems nodes = .ok ds →
      itemsOfToml ds = itemsOfToml (itemsInOrder (shownItems nodes)) →
        Value.anyStartsReserved (itemsOfToml (shownItems nodes)) = false
  | [], _, _, _, _ => rfl
  | node :: rest, ds, hdistinct, hds, h => by
    obtain ⟨d, hd, hds⟩ := bind_eq_ok.1 hds
    obtain ⟨ds', hds', hds⟩ := bind_eq_ok.1 hds
    obtain rfl := pure_eq_ok.1 hds
    rw [shownItems, List.forall_mem_cons] at hdistinct
    rw [shownItems, itemsInOrder, itemsOfToml, itemsOfToml, List.cons.injEq] at h
    rw [shownItems, itemsOfToml, Value.anyStartsReserved, Bool.or_eq_false_iff]
    exact ⟨not_startsReserved_of_data node d hdistinct.1 hd h.1,
      not_anyStartsReserved_of_data rest ds' hdistinct.2 hds' h.2⟩

theorem not_anyEntryStartsReserved_of_data : ∀ (t : List (Entry Node)) (es : List (String × Data)),
    (∀ e ∈ shownEntries t, e.2.Distinct) → dataOfEntries t = .ok es →
      entriesOfToml es = entriesOfToml (entriesInOrder (shownEntries t)) →
        Value.anyEntryStartsReserved (entriesOfToml (shownEntries t)) = false
  | [], _, _, _, _ => rfl
  | ⟨key, extent, content⟩ :: rest, es, hdistinct, hes, h => by
    obtain ⟨d, hd, hes⟩ := bind_eq_ok.1 hes
    obtain ⟨es', hes', hes⟩ := bind_eq_ok.1 hes
    obtain rfl := pure_eq_ok.1 hes
    rw [shownEntries, List.forall_mem_cons] at hdistinct
    rw [shownEntries, entriesInOrder, entriesOfToml, entriesOfToml, List.cons.injEq,
      Prod.mk.injEq] at h
    rw [shownEntries, entriesOfToml, Value.anyEntryStartsReserved, Bool.or_eq_false_iff]
    exact ⟨not_startsReserved_of_data content d hdistinct.1 hd h.1.2,
      not_anyEntryStartsReserved_of_data rest es' hdistinct.2 hes' h.2⟩

end

/-! ### Data that can be written -/

/-- Data that can be written are in key order. -/
lemma Data.Writable.inOrder_eq {n : ℕ} {d : Data} (h : d.Writable n) : d.inOrder = d := by
  induction h with
  | scalar _ => rfl
  | array _ ih =>
    rw [inOrder, itemsInOrder_eq_map, List.map_congr_left ih, List.map_id']
  | table hasc _ ih =>
    rw [inOrder, entriesInOrder_eq_map, List.map_congr_left fun e he => by rw [ih e he],
      List.map_id', hasc.ofList_eq]

end PackScope.Toml
