import PackScope.Proofs.Json.Reading
import PackScope.Proofs.Traversal
import PackScope.Proofs.Value.Shape
import PackScope.Value.Json

/-!
The JSON forms of values. A value is the value of its JSON form; without floating-point numbers the
form can be read back as deep as the value nests.
-/

namespace PackScope.Value

/-! ### Floating-point numbers -/

mutual

/-- **Whether a value is or contains a floating-point number.** -/
def hasFloat : Value → Bool
  | float _ => true
  | list items => anyHasFloat items
  | map entries => anyEntryHasFloat entries
  | _ => false

/-- Whether some item of a list contains a floating-point number. -/
def anyHasFloat : List Value → Bool
  | [] => false
  | item :: rest => item.hasFloat || anyHasFloat rest

/-- Whether some value of a map contains a floating-point number. -/
def anyEntryHasFloat : List (String × Value) → Bool
  | [] => false
  | (_, value) :: rest => value.hasFloat || anyEntryHasFloat rest

end

/-! ### Parts -/

lemma itemsToJson_cons {index : ℕ} {item : Value} {rest : List Value} {js : List Json} :
    itemsToJson index (item :: rest) = .ok js ↔
      ∃ j js', item.toJson = .ok j ∧ itemsToJson (index + 1) rest = .ok js' ∧ js = j :: js' := by
  simp only [itemsToJson, bind_eq_ok, pure_eq_ok, mapError_eq_ok, exists_and_left]

lemma entriesToJson_cons {key : String} {value : Value} {rest : List (String × Value)}
    {es : List (String × Json)} :
    entriesToJson ((key, value) :: rest) = .ok es ↔
      ∃ j es', value.toJson = .ok j ∧ entriesToJson rest = .ok es' ∧ es = (key, j) :: es' := by
  simp only [entriesToJson, bind_eq_ok, pure_eq_ok, mapError_eq_ok, exists_and_left]

/-! ### Back from JSON -/

mutual

/-- **A value with a JSON form is the value of that form**, if the entries of its maps ascend. -/
theorem ofJson_toJson : ∀ {v : Value} {j : Json}, v.toJson = .ok j → v.Ordered → ofJson j = v
  | null, _, h, _ => by cases h; rfl
  | unknown, _, h, _ => by cases h
  | bool b, _, h, _ => by cases h; rfl
  | integer n, _, h, _ => by
    cases h
    rw [ofJson, ofInt, signed64?_toInt]
  | float x, _, h, _ => by
    rw [toJson] at h
    split_ifs at h
    cases h
    rfl
  | string s, _, h, _ => by cases h; rfl
  | list items, _, h, ho => by
    obtain ⟨js, hjs, rfl⟩ := map_eq_ok.1 h
    rw [ofJson, itemsOfJson_itemsToJson hjs ho]
  | map entries, _, h, ho => by
    obtain ⟨es, hes, rfl⟩ := map_eq_ok.1 h
    rw [ofJson, entriesOfJson_entriesToJson hes ho.2, ho.1.ofList_eq]

theorem itemsOfJson_itemsToJson : ∀ {index : ℕ} {items : List Value} {js : List Json},
    itemsToJson index items = .ok js → AllOrdered items → itemsOfJson js = items
  | _, [], _, h, _ => by cases h; rfl
  | _, item :: rest, _, h, ho => by
    obtain ⟨j, js, hj, hjs, rfl⟩ := itemsToJson_cons.1 h
    rw [itemsOfJson, ofJson_toJson hj ho.1, itemsOfJson_itemsToJson hjs ho.2]

theorem entriesOfJson_entriesToJson : ∀ {entries : List (String × Value)}
    {es : List (String × Json)}, entriesToJson entries = .ok es → AllEntriesOrdered entries →
    entriesOfJson es = entries
  | [], _, h, _ => by cases h; rfl
  | (key, value) :: rest, _, h, ho => by
    obtain ⟨j, es, hj, hes, rfl⟩ := entriesToJson_cons.1 h
    rw [entriesOfJson, ofJson_toJson hj ho.1, entriesOfJson_entriesToJson hes ho.2]

end

/-! ### Reading -/

mutual

/-- **The JSON form of a value without floating-point numbers can be read back.** -/
theorem readable_toJson : ∀ {v : Value} {j : Json} {n : ℕ}, v.toJson = .ok j →
    v.hasFloat = false → v.depth ≤ n → j.Readable n
  | null, _, _, h, _, _ => by cases h; exact .null
  | unknown, _, _, h, _, _ => by cases h
  | bool b, _, _, h, _, _ => by cases h; exact .bool b
  | integer i, _, _, h, _, _ => by cases h; exact .integer i
  | float x, _, _, _, hf, _ => by cases hf
  | string s, _, _, h, _, _ => by cases h; exact .string s
  | list items, _, n, h, hf, hn => by
    obtain ⟨js, hjs, rfl⟩ := map_eq_ok.1 h
    rw [depth] at hn
    obtain ⟨n, rfl⟩ : ∃ m, n = m + 1 := ⟨n - 1, by omega⟩
    exact .array (readable_itemsToJson hjs hf (by omega))
  | map entries, _, n, h, hf, hn => by
    obtain ⟨es, hes, rfl⟩ := map_eq_ok.1 h
    rw [depth] at hn
    obtain ⟨n, rfl⟩ : ∃ m, n = m + 1 := ⟨n - 1, by omega⟩
    exact .object (readable_entriesToJson hes hf (by omega))

theorem readable_itemsToJson : ∀ {index : ℕ} {items : List Value} {js : List Json} {n : ℕ},
    itemsToJson index items = .ok js → anyHasFloat items = false → depthOfItems items ≤ n →
    ∀ j ∈ js, j.Readable n
  | _, [], _, _, h, _, _ => by cases h; simp
  | _, item :: rest, _, _, h, hf, hn => by
    obtain ⟨j, js, hj, hjs, rfl⟩ := itemsToJson_cons.1 h
    obtain ⟨hitem, hrest⟩ := Bool.or_eq_false_iff.1 hf
    rw [depthOfItems] at hn
    refine List.forall_mem_cons.2 ⟨readable_toJson hj hitem (by omega), ?_⟩
    exact readable_itemsToJson hjs hrest (by omega)

theorem readable_entriesToJson : ∀ {entries : List (String × Value)}
    {es : List (String × Json)} {n : ℕ}, entriesToJson entries = .ok es →
    anyEntryHasFloat entries = false → depthOfEntries entries ≤ n → ∀ e ∈ es, e.2.Readable n
  | [], _, _, h, _, _ => by cases h; simp
  | (key, value) :: rest, _, _, h, hf, hn => by
    obtain ⟨j, es, hj, hes, rfl⟩ := entriesToJson_cons.1 h
    obtain ⟨hvalue, hrest⟩ := Bool.or_eq_false_iff.1 hf
    rw [depthOfEntries] at hn
    refine List.forall_mem_cons.2 ⟨readable_toJson hj hvalue (by omega), ?_⟩
    exact readable_entriesToJson hes hrest (by omega)

end

end PackScope.Value
