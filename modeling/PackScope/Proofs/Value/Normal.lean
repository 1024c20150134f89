import PackScope.Proofs.Json.Magnitudes
import PackScope.Proofs.KeyMap.Merging
import PackScope.Proofs.Value.FromToml
import PackScope.Proofs.Value.JsonForm

/-!
JSON data as values keep them. Data with numbers in range come back from their value in normal form,
and a value has a JSON form exactly if it is known and finite throughout.
-/

namespace PackScope

/-! ### The normal form -/

namespace Json

/-- A whole number as values keep it: it stays one if it fits into 64 bits with a sign, and becomes
the nearest double-precision number otherwise. -/
def normalInteger (n : ℤ) : Json :=
  if -2 ^ 63 ≤ n ∧ n < 2 ^ 63 then .integer n else .float (.ofQuotient (n < 0) n.natAbs 1)

mutual

/-- **The normal form of JSON data**: an object has its keys in ascending order and the last value
of each of them, and whole numbers fit into 64 bits with a sign, at every depth. -/
def normal : Json → Json
  | null => .null
  | bool b => .bool b
  | integer n => normalInteger n
  | float x => .float x
  | string s => .string s
  | array items => .array (normalItems items)
  | object entries => .object (Entries.ofList (normalEntries entries))

/-- The normal forms of the items of an array. -/
def normalItems : List Json → List Json
  | [] => []
  | item :: rest => item.normal :: normalItems rest

/-- The entries of an object with the normal forms of their values. -/
def normalEntries : List (String × Json) → List (String × Json)
  | [] => []
  | (key, json) :: rest => (key, json.normal) :: normalEntries rest

end

lemma normalEntries_eq (entries : List (String × Json)) :
    normalEntries entries = entries.map fun e => (e.1, e.2.normal) := by
  induction entries with
  | nil => rfl
  | cons e rest ih => rw [normalEntries, ih, List.map_cons]

end Json

namespace Value

/-! ### Values of data -/

lemma entriesOfJson_eq (entries : List (String × Json)) :
    entriesOfJson entries = entries.map fun e => (e.1, ofJson e.2) := by
  induction entries with
  | nil => rfl
  | cons e rest ih => rw [entriesOfJson, ih, List.map_cons]

lemma toJson_ofInt {n : ℤ} (h : n.natAbs ≤ Json.Digits.limit) :
    (ofInt n).toJson = .ok (Json.normalInteger n) := by
  have hmin : Int64.minValue.toInt = -2 ^ 63 := by decide
  have hmax : Int64.maxValue.toInt = 2 ^ 63 - 1 := by decide
  unfold ofInt signed64? Json.normalInteger
  split_ifs with hsigned hrange hrange
  · exact congrArg (Except.ok ∘ Json.integer) (Int64.toInt_ofInt_of_le hsigned.1 (by omega))
  · omega
  · omega
  · have hfinite := Json.isFinite_ofQuotient h (n < 0)
    rw [toJson, if_pos hfinite]

lemma itemsToJson_itemsOfJson {items : List Json}
    (h : ∀ j ∈ items, (ofJson j).toJson = .ok j.normal) (index : ℕ) :
    itemsToJson index (itemsOfJson items) = .ok (Json.normalItems items) := by
  induction items generalizing index with
  | nil => rfl
  | cons item rest ih =>
    rw [List.forall_mem_cons] at h
    exact itemsToJson_cons.2 ⟨_, _, h.1, ih h.2 _, rfl⟩

lemma entriesToJson_map {entries : List (String × Json)}
    (h : ∀ e ∈ entries, (ofJson e.2).toJson = .ok e.2.normal) :
    entriesToJson (entries.map fun e => (e.1, ofJson e.2)) =
      .ok (entries.map fun e => (e.1, e.2.normal)) := by
  induction entries with
  | nil => rfl
  | cons e rest ih =>
    rw [List.forall_mem_cons] at h
    exact entriesToJson_cons.2 ⟨_, _, h.1, ih h.2, rfl⟩

/-- **JSON data with numbers in range come back in normal form** from their value. -/
theorem toJson_ofJson {j : Json} (h : j.InRange) : (ofJson j).toJson = .ok j.normal := by
  induction h with
  | null => rfl
  | bool b => rfl
  | integer hn => exact toJson_ofInt hn
  | float hx =>
    rw [ofJson, toJson, if_pos hx, Json.normal]
  | string s => rfl
  | array _ ih =>
    rw [ofJson, toJson, itemsToJson_itemsOfJson ih, Json.normal]
    rfl
  | @object entries _ ih =>
    -- Both forms are taken entry by entry, so the entries may be put in order first.
    have hvalues := Entries.map_ofList (fun _ => ofJson) (fun _ _ => rfl) entries
    have hforms := Entries.map_ofList (fun _ => Json.normal) (fun _ _ => rfl) entries
    have hentries := entriesToJson_map fun e he => ih e (Entries.mem_of_mem_ofList he)
    rw [hvalues, hforms] at hentries
    rw [ofJson, toJson, entriesOfJson_eq, hentries, Json.normal, Json.normalEntries_eq]
    rfl

/-! ### Values with a JSON form -/

mutual

/-- **A value has a JSON form exactly if it is known and all its numbers are finite**, at every
depth. -/
theorem exists_toJson_iff : ∀ v : Value,
    (∃ j, v.toJson = .ok j) ↔ v.isKnown = true ∧ v.allFinite = true
  | null => iff_of_true ⟨_, rfl⟩ ⟨rfl, rfl⟩
  | unknown => iff_of_false (by rintro ⟨_, ⟨⟩⟩) (by rintro ⟨⟨⟩, _⟩)
  | bool b => iff_of_true ⟨_, rfl⟩ ⟨rfl, rfl⟩
  | integer n => iff_of_true ⟨_, rfl⟩ ⟨rfl, rfl⟩
  | float x => by
    rw [toJson, allFinite]
    split_ifs with hx
    · exact iff_of_true ⟨_, rfl⟩ ⟨rfl, hx⟩
    · exact iff_of_false (by rintro ⟨_, ⟨⟩⟩) (hx ·.2)
  | string s => iff_of_true ⟨_, rfl⟩ ⟨rfl, rfl⟩
  | list items => by
    rw [toJson, isKnown, allFinite, ← exists_itemsToJson_iff 0 items, exists_map_eq_ok]
  | map entries => by
    rw [toJson, isKnown, allFinite, ← exists_entriesToJson_iff entries, exists_map_eq_ok]

theorem exists_itemsToJson_iff : ∀ (index : ℕ) (items : List Value),
    (∃ js, itemsToJson index items = .ok js) ↔
      allKnown items = true ∧ allItemsFinite items = true
  | _, [] => iff_of_true ⟨_, rfl⟩ ⟨rfl, rfl⟩
  | index, item :: rest => by
    rw [allKnown, allItemsFinite, Bool.and_eq_true, Bool.and_eq_true, and_and_and_comm,
      ← exists_toJson_iff item, ← exists_itemsToJson_iff (index + 1) rest]
    constructor
    · rintro ⟨_, h⟩
      obtain ⟨j, js, hj, hjs, -⟩ := itemsToJson_cons.1 h
      exact ⟨⟨j, hj⟩, js, hjs⟩
    · rintro ⟨⟨j, hj⟩, js, hjs⟩
      exact ⟨j :: js, itemsToJson_cons.2 ⟨j, js, hj, hjs, rfl⟩⟩

theorem exists_entriesToJson_iff : ∀ entries : List (String × Value),
    (∃ es, entriesToJson entries = .ok es) ↔
      allEntriesKnown entries = true ∧ allEntriesFinite entries = true
  | [] => iff_of_true ⟨_, rfl⟩ ⟨rfl, rfl⟩
  | (key, value) :: rest => by
    rw [allEntriesKnown, allEntriesFinite, Bool.and_eq_true, Bool.and_eq_true, and_and_and_comm,
      ← exists_toJson_iff value, ← exists_entriesToJson_iff rest]
    constructor
    · rintro ⟨_, h⟩
      obtain ⟨j, es, hj, hes, -⟩ := entriesToJson_cons.1 h
      exact ⟨⟨j, hj⟩, es, hes⟩
    · rintro ⟨⟨j, hj⟩, es, hes⟩
      exact ⟨(key, j) :: es, entriesToJson_cons.2 ⟨j, es, hj, hes, rfl⟩⟩

end

end Value

end PackScope
