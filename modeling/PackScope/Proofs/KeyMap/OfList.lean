import Mathlib.Tactic.Lemma
import Mathlib.Tactic.SplitIfs
import PackScope.KeyMap.Lookup

/-!
Maps of lists. A list whose keys ascend already is the list of entries of its map, and a map may
keep some of its entries only. Keys that are sorted ascend strictly unless one of them is repeated.
-/

namespace PackScope

universe u u' v w

/-- Lookups do not see changes of all keys that keep their order, nor of the values. -/
lemma Entries.get?_map {κ : Type u} {κ' : Type u'} {β : Type v} {γ : Type w} [Ord κ] [Ord κ']
    {f : κ → κ'} {g : β → γ} (hf : ∀ a b, compare (f a) (f b) = compare a b) (key : κ)
    (entries : List (κ × β)) :
    Entries.get? (f key) (entries.map fun e => (f e.1, g e.2)) =
      (Entries.get? key entries).map g := by
  induction entries with
  | nil => rfl
  | cons e entries ih =>
    rw [List.map_cons, Entries.get?, Entries.get?, hf, ih]
    split_ifs
    · rfl
    · rfl

section Entries

variable {κ : Type u} {β : Type v} [Ord κ] [Std.OrientedOrd κ]

lemma Entries.insert_of_forall_lt {entries : List (κ × β)} {key : κ} (value : β)
    (h : ∀ e ∈ entries, compare e.1 key = .lt) :
    Entries.insert key value entries = entries ++ [(key, value)] := by
  induction entries with
  | nil => rfl
  | cons e entries ih =>
    have hgt : compare key e.1 = .gt := Std.OrientedCmp.gt_iff_lt.2 (h e (by simp))
    rw [Entries.insert, hgt, List.cons_append, ih fun x hx => h x (List.mem_cons_of_mem _ hx)]

lemma Entries.foldl_insert {entries : List (κ × β)} (acc : List (κ × β))
    (h : Ascending (acc ++ entries)) :
    entries.foldl (fun acc e => Entries.insert e.1 e.2 acc) acc = acc ++ entries := by
  induction entries generalizing acc with
  | nil => rw [List.foldl_nil, List.append_nil]
  | cons e entries ih =>
    have hlt : ∀ x ∈ acc, compare x.1 e.1 = .lt := fun x hx =>
      (List.pairwise_append.1 h).2.2 x hx e (by simp)
    have e' : acc ++ e :: entries = acc ++ [e] ++ entries := by simp
    rw [List.foldl_cons, Entries.insert_of_forall_lt e.2 hlt, ih, e']
    rwa [← e']

/-- An ascending list is the list of entries of its map. -/
lemma Ascending.ofList_eq {entries : List (κ × β)} (h : Ascending entries) :
    Entries.ofList entries = entries :=
  Entries.foldl_insert [] h

omit [Std.OrientedOrd κ] in
lemma Entries.mem_keys_iff [Std.LawfulEqOrd κ] {key : κ} {entries : List (κ × β)} :
    key ∈ entries.map Prod.fst ↔ (Entries.get? key entries).isSome := by
  induction entries with
  | nil => simp [Entries.get?]
  | cons e entries ih =>
    rw [List.map_cons, List.mem_cons, ih, Entries.get?]
    by_cases h : compare key e.1 = .eq
    · rw [if_pos h]
      simp [Std.LawfulEqOrd.eq_of_compare h]
    · have hne : key ≠ e.1 := fun he => h (he ▸ Std.ReflCmp.compare_self)
      rw [if_neg h]
      simp [hne]

omit [Std.OrientedOrd κ] in
lemma ascending_iff_keys {entries : List (κ × β)} :
    Ascending entries ↔ (entries.map Prod.fst).Pairwise fun a b => compare a b = .lt := by
  rw [List.pairwise_map]
  rfl

lemma Ascending.keys_ne {entries : List (κ × β)} (h : Ascending entries) :
    entries.Pairwise fun a b => a.1 ≠ b.1 :=
  h.imp fun hab heq => by simp [heq] at hab

omit [Std.OrientedOrd κ] in
/-- What a lookup finds is an entry of its key. -/
lemma Entries.mem_of_get? [Std.LawfulEqOrd κ] {entries : List (κ × β)} {key : κ} {value : β}
    (h : Entries.get? key entries = some value) : (key, value) ∈ entries := by
  induction entries with
  | nil => cases h
  | cons e entries ih =>
    rw [Entries.get?] at h
    split_ifs at h with hk
    · rw [Std.LawfulEqOrd.eq_of_compare hk, ← Option.some.inj h]
      exact List.mem_cons_self
    · exact List.mem_cons_of_mem _ (ih h)

omit [Std.OrientedOrd κ] in
/-- In a list without repeated keys a lookup finds the one entry of its key. -/
lemma Entries.get?_eq_some_iff [Std.LawfulEqOrd κ] {entries : List (κ × β)}
    (h : entries.Pairwise fun a b => a.1 ≠ b.1) {key : κ} {value : β} :
    Entries.get? key entries = some value ↔ (key, value) ∈ entries := by
  refine ⟨Entries.mem_of_get?, fun hmem => ?_⟩
  induction entries with
  | nil => cases hmem
  | cons e entries ih =>
    obtain ⟨hne, hentries⟩ := List.pairwise_cons.1 h
    rw [Entries.get?]
    rcases List.mem_cons.1 hmem with rfl | hmem
    · rw [if_pos Std.ReflCmp.compare_self]
    · have hk : compare key e.1 ≠ .eq := by
        intro hk
        exact hne _ hmem (Std.LawfulEqOrd.eq_of_compare hk).symm
      rw [if_neg hk, ih hentries hmem]

lemma Ascending.get?_eq_some_iff [Std.LawfulEqOrd κ] {entries : List (κ × β)}
    (h : Ascending entries) {key : κ} {value : β} :
    Entries.get? key entries = some value ↔ (key, value) ∈ entries :=
  Entries.get?_eq_some_iff h.keys_ne

end Entries

/-! ### Sorted keys -/

section Sorting

variable {κ : Type u} [Ord κ]

lemma sortKeys_perm (keys : List κ) : (sortKeys keys).Perm keys := List.mergeSort_perm ..

variable [Std.TransOrd κ]

lemma pairwise_sortKeys (keys : List κ) :
    (sortKeys keys).Pairwise fun a b => (compare a b).isLE :=
  List.pairwise_mergeSort (fun _ _ _ => Std.TransCmp.isLE_trans) (fun a b => by
    rw [Std.OrientedOrd.eq_swap]
    cases compare b a <;> rfl) keys

variable [Std.LawfulEqOrd κ] {keys : List κ}

/-- Keys of which none is repeated ascend strictly once they are sorted. -/
lemma ascending_sortKeys (h : keys.Nodup) :
    (sortKeys keys).Pairwise fun a b => compare a b = .lt := by
  have hne : (sortKeys keys).Pairwise fun a b => a ≠ b := (sortKeys_perm keys).nodup_iff.2 h
  refine ((pairwise_sortKeys keys).and hne).imp fun {a b} ⟨hle, hne⟩ => ?_
  rcases Ordering.isLE_iff_eq_lt_or_eq_eq.1 hle with hlt | heq
  · exact hlt
  · exact absurd (Std.LawfulEqOrd.eq_of_compare heq) hne

/-- Keys that ascend strictly are what their permutations are sorted to. -/
lemma sortKeys_eq {others : List κ} (hkeys : keys.Pairwise fun a b => compare a b = .lt)
    (h : others.Perm keys) : sortKeys others = keys := by
  have hle : keys.Pairwise fun a b => (compare a b).isLE := hkeys.imp fun h => by rw [h]; rfl
  exact ((sortKeys_perm others).trans h).eq_of_pairwise (fun a b _ _ hab hba =>
    Std.LawfulEqOrd.eq_of_compare (Std.OrientedCmp.isLE_antisymm hab hba))
    (pairwise_sortKeys others) hle

end Sorting

section OfList

variable {κ : Type u} {β : Type v} [Ord κ] [Std.TransOrd κ]

/-- In an ascending list the first key is met once. -/
lemma Ascending.get?_cons {key : κ} {e : κ × β} {entries : List (κ × β)}
    (h : Ascending (e :: entries)) (hkey : compare key e.1 = .eq) :
    Entries.get? key entries = none :=
  Entries.get?_eq_none fun x hx =>
    Std.TransCmp.lt_of_eq_of_lt hkey ((List.pairwise_cons.1 h).1 x hx)

lemma ascending_ofList (entries : List (κ × β)) : Ascending (Entries.ofList entries) := by
  suffices h : ∀ acc : List (κ × β), Ascending acc →
      Ascending (entries.foldl (fun acc e => Entries.insert e.1 e.2 acc) acc) from
    h [] List.Pairwise.nil
  induction entries with
  | nil => exact fun acc h => h
  | cons e entries ih => exact fun acc h => ih _ (h.insert e.1 e.2)

lemma mem_keys_ofList [Std.LawfulEqOrd κ] {key : κ} {entries : List (κ × β)} :
    key ∈ (Entries.ofList entries).map Prod.fst ↔ key ∈ entries.map Prod.fst := by
  suffices h : ∀ acc : List (κ × β),
      key ∈ (entries.foldl (fun acc e => Entries.insert e.1 e.2 acc) acc).map Prod.fst ↔
        key ∈ acc.map Prod.fst ∨ key ∈ entries.map Prod.fst from
    (h []).trans (or_iff_right List.not_mem_nil)
  induction entries with
  | nil => simp
  | cons e entries ih =>
    intro acc
    rw [List.foldl_cons, ih, List.map_cons, List.mem_cons, ← or_assoc]
    refine or_congr_left ?_
    rw [Entries.mem_keys_iff, Entries.mem_keys_iff]
    by_cases h : key = e.1
    · subst h
      rw [Entries.get?_insert_self]
      simp
    · have hne : compare key e.1 ≠ .eq := fun he => h (Std.LawfulEqOrd.eq_of_compare he)
      rw [Entries.get?_insert_of_ne hne]
      simp [h]

end OfList

namespace KeyMap

variable {κ : Type u} {β : Type v} {γ : Type w} [Ord κ]

section

variable [Std.TransOrd κ]

lemma entries_insertAll (m : KeyMap κ β) (entries : List (κ × β)) :
    (m.insertAll entries).entries =
      entries.foldl (fun acc e => Entries.insert e.1 e.2 acc) m.entries := by
  induction entries generalizing m with
  | nil => rfl
  | cons e entries ih => exact ih (m.insert e.1 e.2)

lemma entries_ofList (entries : List (κ × β)) : (ofList entries).entries = Entries.ofList entries :=
  entries_insertAll empty entries

lemma ofList_entries (m : KeyMap κ β) : ofList m.entries = m :=
  ext ((entries_ofList m.entries).trans m.ascending.ofList_eq)

end

lemma get?_map (f : β → γ) (m : KeyMap κ β) (key : κ) :
    (m.map f).get? key = (m.get? key).map f :=
  Entries.get?_map (f := id) (fun _ _ => rfl) key m.entries

/-- The entries of a map that a function keeps, with their new values. -/
def filterMap (f : κ → β → Option γ) (m : KeyMap κ β) : KeyMap κ γ where
  entries := m.entries.filterMap fun e => (f e.1 e.2).map fun c => (e.1, c)
  ascending := by
    refine List.Pairwise.filterMap _ (fun a a' h b hb b' hb' => ?_) m.ascending
    obtain ⟨c, -, rfl⟩ := Option.map_eq_some_iff.1 hb
    obtain ⟨c', -, rfl⟩ := Option.map_eq_some_iff.1 hb'
    exact h

lemma get?_filterMap [Std.TransOrd κ] [Std.LawfulEqOrd κ] (f : κ → β → Option γ)
    (m : KeyMap κ β) (key : κ) : (m.filterMap f).get? key = (m.get? key).bind (f key) := by
  obtain ⟨entries, hasc⟩ := m
  change Entries.get? key (entries.filterMap fun e => (f e.1 e.2).map fun c => (e.1, c)) =
    (Entries.get? key entries).bind (f key)
  induction entries with
  | nil => rfl
  | cons e entries ih =>
    have ih := ih (List.pairwise_cons.1 hasc).2
    rw [List.filterMap_cons, Entries.get?]
    by_cases hkey : compare key e.1 = .eq
    · rw [if_pos hkey, Option.bind_some, Std.LawfulEqOrd.eq_of_compare hkey]
      cases hf : f e.1 e.2 with
      | some c => exact if_pos Std.ReflCmp.compare_self
      | none =>
        -- No later entry has the key of one that is left out.
        rw [← Std.LawfulEqOrd.eq_of_compare hkey, Option.map_none, ih, hasc.get?_cons hkey]
        rfl
    · rw [if_neg hkey, ← ih]
      cases f e.1 e.2 with
      | some c => exact if_neg hkey
      | none => rfl

end KeyMap

end PackScope
