import PackScope.Proofs.Value.Normal

/-!
The parts of a value, at any depth, and what they say of its conversions. A value has a JSON form
exactly if no part of it is unknown and no number in it is infinite or no number, and it has a TOML
form exactly if no part is null either. From each form the value comes back, so no two values share
one.
-/

namespace PackScope.Value

/-! ### Induction over parts -/

/-- A property of values holds if it passes from the items of a list and the values of a map to the
list and the map, and holds of all values without parts. -/
@[elab_as_elim]
theorem induction_on {motive : Value → Prop} (v : Value) (null : motive .null)
    (unknown : motive .unknown) (bool : ∀ b, motive (.bool b)) (integer : ∀ n, motive (.integer n))
    (float : ∀ x, motive (.float x)) (string : ∀ s, motive (.string s))
    (list : ∀ items, (∀ item ∈ items, motive item) → motive (.list items))
    (map : ∀ entries, (∀ e ∈ entries, motive e.2) → motive (.map entries)) : motive v := by
  cases v with
  | null => exact null
  | unknown => exact unknown
  | bool b => exact bool b
  | integer n => exact integer n
  | float x => exact float x
  | string s => exact string s
  | list items =>
    apply list
    intro item hitem
    exact induction_on item null unknown bool integer float string list map
  | map entries =>
    apply map
    intro e he
    exact induction_on e.2 null unknown bool integer float string list map
termination_by v
decreasing_by
  · simp_wf
    have := List.sizeOf_lt_of_mem hitem
    omega
  · simp_wf
    have := List.sizeOf_lt_of_mem he
    have : sizeOf e.2 < sizeOf e := by
      cases e
      simp
    omega

/-- **Whether a value is a part of another one**: that value itself, or a part of an item of a list
or of a value of a map. -/
inductive IsPart (w : Value) : Value → Prop
  | self : IsPart w w
  | item {items : List Value} {item : Value} (mem : item ∈ items) (part : IsPart w item) :
    IsPart w (.list items)
  | entry {entries : List (String × Value)} {e : String × Value} (mem : e ∈ entries)
    (part : IsPart w e.2) : IsPart w (.map entries)

section Parts

variable {v w : Value} {items : List Value} {entries : List (String × Value)}

lemma isPart_list : IsPart w (.list items) ↔ w = .list items ∨ ∃ item ∈ items, IsPart w item := by
  constructor
  · intro h
    cases h with
    | self => exact .inl rfl
    | item mem part => exact .inr ⟨_, mem, part⟩
  · rintro (rfl | ⟨item, mem, part⟩)
    · exact .self
    · exact .item mem part

lemma isPart_map :
    IsPart w (.map entries) ↔ w = .map entries ∨ ∃ e ∈ entries, IsPart w e.2 := by
  constructor
  · intro h
    cases h with
    | self => exact .inl rfl
    | entry mem part => exact .inr ⟨_, mem, part⟩
  · rintro (rfl | ⟨e, mem, part⟩)
    · exact .self
    · exact .entry mem part

/-- The items of an ordered list are ordered. -/
lemma ordered_list : (list items).Ordered ↔ ∀ item ∈ items, item.Ordered := by
  change AllOrdered items ↔ _
  induction items with
  | nil => simp [AllOrdered]
  | cons item rest ih => rw [AllOrdered, ih, List.forall_mem_cons]

/-- An ordered map has ascending keys and ordered values. -/
lemma ordered_map :
    (map entries).Ordered ↔ Ascending entries ∧ ∀ e ∈ entries, e.2.Ordered := by
  refine and_congr_right' ?_
  induction entries with
  | nil => simp [AllEntriesOrdered]
  | cons e rest ih => rw [AllEntriesOrdered, ih, List.forall_mem_cons]

end Parts

/-! ### What conversions ask of the parts -/

lemma allKnown_iff (items : List Value) :
    allKnown items = true ↔ ∀ item ∈ items, item.isKnown = true := by
  induction items with
  | nil => simp [allKnown]
  | cons item rest ih => rw [allKnown, Bool.and_eq_true, ih, List.forall_mem_cons]

lemma allEntriesKnown_iff (entries : List (String × Value)) :
    allEntriesKnown entries = true ↔ ∀ e ∈ entries, e.2.isKnown = true := by
  induction entries with
  | nil => simp [allEntriesKnown]
  | cons e rest ih => rw [allEntriesKnown, Bool.and_eq_true, ih, List.forall_mem_cons]

/-- **A value is known exactly if no part of it is unknown.** -/
lemma isKnown_iff (v : Value) : v.isKnown = true ↔ ¬ IsPart .unknown v := by
  induction v using induction_on with
  | null => exact iff_of_true rfl (by rintro ⟨⟩)
  | unknown => exact iff_of_false (by rintro ⟨⟩) (not_not_intro .self)
  | bool b => exact iff_of_true rfl (by rintro ⟨⟩)
  | integer n => exact iff_of_true rfl (by rintro ⟨⟩)
  | float x => exact iff_of_true rfl (by rintro ⟨⟩)
  | string s => exact iff_of_true rfl (by rintro ⟨⟩)
  | list items ih =>
    rw [isKnown, allKnown_iff, isPart_list]
    simp only [reduceCtorEq, false_or, not_exists, not_and]
    exact forall₂_congr ih
  | map entries ih =>
    rw [isKnown, allEntriesKnown_iff, isPart_map]
    simp only [reduceCtorEq, false_or, not_exists, not_and]
    exact forall₂_congr ih

lemma allItemsFinite_iff (items : List Value) :
    allItemsFinite items = true ↔ ∀ item ∈ items, item.allFinite = true := by
  induction items with
  | nil => simp [allItemsFinite]
  | cons item rest ih => rw [allItemsFinite, Bool.and_eq_true, ih, List.forall_mem_cons]

lemma allEntriesFinite_iff (entries : List (String × Value)) :
    allEntriesFinite entries = true ↔ ∀ e ∈ entries, e.2.allFinite = true := by
  induction entries with
  | nil => simp [allEntriesFinite]
  | cons e rest ih => rw [allEntriesFinite, Bool.and_eq_true, ih, List.forall_mem_cons]

/-- **All numbers in a value are finite exactly if every number that is a part of it is.** -/
lemma allFinite_iff (v : Value) :
    v.allFinite = true ↔ ∀ x, IsPart (.float x) v → x.isFinite = true := by
  induction v using induction_on with
  | null => exact iff_of_true rfl (by rintro x ⟨⟩)
  | unknown => exact iff_of_true rfl (by rintro x ⟨⟩)
  | bool b => exact iff_of_true rfl (by rintro x ⟨⟩)
  | integer n => exact iff_of_true rfl (by rintro x ⟨⟩)
  | float x =>
    constructor
    · rintro h _ ⟨⟩
      exact h
    · intro h
      exact h x .self
  | string s => exact iff_of_true rfl (by rintro x ⟨⟩)
  | list items ih =>
    rw [allFinite, allItemsFinite_iff]
    simp only [isPart_list, reduceCtorEq, false_or]
    constructor
    · rintro h x ⟨item, hitem, hx⟩
      exact (ih item hitem).1 (h item hitem) x hx
    · intro h item hitem
      exact (ih item hitem).2 fun x hx => h x ⟨item, hitem, hx⟩
  | map entries ih =>
    rw [allFinite, allEntriesFinite_iff]
    simp only [isPart_map, reduceCtorEq, false_or]
    constructor
    · rintro h x ⟨e, he, hx⟩
      exact (ih e he).1 (h e he) x hx
    · intro h e he
      exact (ih e he).2 fun x hx => h x ⟨e, he, hx⟩

/-- A value has a JSON form exactly if no part of it is unknown and all its numbers are finite. -/
lemma exists_toJson_iff_parts (v : Value) : (∃ j, v.toJson = .ok j) ↔
    ¬ IsPart .unknown v ∧ ∀ x, IsPart (.float x) v → x.isFinite = true := by
  rw [exists_toJson_iff, isKnown_iff, allFinite_iff]

lemma isSome_itemsToToml?_iff (items : List Value) :
    (itemsToToml? items).isSome = true ↔ ∀ item ∈ items, item.toToml?.isSome = true := by
  induction items with
  | nil => simp [itemsToToml?]
  | cons item rest ih =>
    rw [List.forall_mem_cons, ← ih, ← Bool.and_eq_true, itemsToToml?]
    exact iff_of_eq (congrArg (· = true) (isSome_bind_some _ _ _))

lemma isSome_entriesToToml?_iff (entries : List (String × Value)) :
    (entriesToToml? entries).isSome = true ↔ ∀ e ∈ entries, e.2.toToml?.isSome = true := by
  induction entries with
  | nil => simp [entriesToToml?]
  | cons e rest ih =>
    rw [List.forall_mem_cons, ← ih, ← Bool.and_eq_true, entriesToToml?]
    exact iff_of_eq (congrArg (· = true) (isSome_bind_some _ _ _))

/-- **A value has a TOML form exactly if it has a JSON form and no part of it is null.** -/
lemma isSome_toToml?_iff (v : Value) :
    v.toToml?.isSome = true ↔ (∃ j, v.toJson = .ok j) ∧ ¬ IsPart .null v := by
  rw [exists_toJson_iff]
  induction v using induction_on with
  | null => exact iff_of_false (by rintro ⟨⟩) fun h => h.2 .self
  | unknown => exact iff_of_false (by rintro ⟨⟩) fun h => by cases h.1.1
  | bool b => exact iff_of_true rfl ⟨⟨rfl, rfl⟩, by rintro ⟨⟩⟩
  | integer n => exact iff_of_true rfl ⟨⟨rfl, rfl⟩, by rintro ⟨⟩⟩
  | float x =>
    have hform : (float x).toToml?.isSome = x.isFinite := by
      rw [toToml?]
      split_ifs with hx
      · exact hx.symm
      · exact (Bool.eq_false_iff.2 hx).symm
    rw [hform]
    exact ⟨fun hx => ⟨⟨rfl, hx⟩, by rintro ⟨⟩⟩, fun h => h.1.2⟩
  | string s => exact iff_of_true rfl ⟨⟨rfl, rfl⟩, by rintro ⟨⟩⟩
  | list items ih =>
    rw [toToml?, Option.isSome_map, isSome_itemsToToml?_iff, isKnown, allFinite, allKnown_iff,
      allItemsFinite_iff]
    simp only [isPart_list, reduceCtorEq, false_or, not_exists, not_and, ← forall₂_and]
    exact forall₂_congr ih
  | map entries ih =>
    rw [toToml?, Option.isSome_map, isSome_entriesToToml?_iff, isKnown, allFinite,
      allEntriesKnown_iff, allEntriesFinite_iff]
    simp only [isPart_map, reduceCtorEq, false_or, not_exists, not_and, ← forall₂_and]
    exact forall₂_congr ih

/-! ### Exactness -/

/-- **The conversions of values are exact.** What has a JSON form and what has a TOML form is told by
the parts alone, and a value comes back from each of its forms, so that no other value has the same
form. -/
theorem conversions_exact (v : Value) :
    ((∃ j, v.toJson = .ok j) ↔
      ¬ IsPart .unknown v ∧ ∀ x, IsPart (.float x) v → x.isFinite = true) ∧
    (v.toToml?.isSome = true ↔ (∃ j, v.toJson = .ok j) ∧ ¬ IsPart .null v) ∧
    (v.isKnown = false ↔ IsPart .unknown v) ∧
    (∀ j, v.toJson = .ok j → v.Ordered →
      ofJson j = v ∧ ∀ w : Value, w.Ordered → w.toJson = .ok j → w = v) ∧
    ∀ d, v.toToml? = some d → ofToml d = v ∧ ∀ w : Value, w.toToml? = some d → w = v := by
  refine ⟨exists_toJson_iff_parts v, isSome_toToml?_iff v, ?_, fun j hj ho => ⟨?_, ?_⟩,
    fun d hd => ⟨?_, ?_⟩⟩
  · rw [← Bool.not_eq_true, isKnown_iff, not_not]
  · exact ofJson_toJson hj ho
  · intro w hw hjw
    exact (ofJson_toJson hjw hw).symm.trans (ofJson_toJson hj ho)
  · exact ofToml_toToml? hd
  · intro w hw
    exact (ofToml_toToml? hw).symm.trans (ofToml_toToml? hd)

/-- A map of the negative zero and of a list with an item at its end. -/
def zeroAnd (last : Value) : Value :=
  .map [("max", .float (.ofRank true 0)), ("min", .list [.integer 3, last])]

theorem conversions_exact_zeroAnd :
    (zeroAnd .null).Ordered ∧ (∃ j, (zeroAnd .null).toJson = .ok j ∧ ofJson j = zeroAnd .null) ∧
      (zeroAnd .null).toToml? = none ∧
      ∃ d, (zeroAnd (.bool true)).toToml? = some d ∧ ofToml d = zeroAnd (.bool true) := by
  obtain ⟨-, -, -, hjson, -⟩ := conversions_exact (zeroAnd .null)
  obtain ⟨-, -, -, -, htoml⟩ := conversions_exact (zeroAnd (.bool true))
  have ho : (zeroAnd .null).Ordered :=
    ⟨List.pairwise_pair.2 (by decide), trivial, ⟨trivial, trivial, trivial⟩, trivial⟩
  exact ⟨ho, ⟨_, rfl, (hjson _ rfl ho).1⟩, rfl, _, rfl, (htoml _ rfl).1⟩

end PackScope.Value
