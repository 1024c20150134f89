import Mathlib.Data.List.Basic
import PackScope.Proofs.KeyMap.OfList

/-!
Maps that are changed in many places. Lookups see what was bound last, and whatever stands in a map
of a list comes from the list.
-/

namespace PackScope

universe u u' v w

section Entries

variable {κ : Type u} {β : Type v} [Ord κ]

/-- Insertions do not see changes of all keys that keep their order. -/
lemma Entries.map_insert {κ' : Type u'} {γ : Type w} [Ord κ'] {f : κ → κ'} (g : κ → β → γ)
    (hf : ∀ a b, compare (f a) (f b) = compare a b) (key : κ) (value : β) (entries : List (κ × β)) :
    (Entries.insert key value entries).map (fun e => (f e.1, g e.1 e.2)) =
      Entries.insert (f key) (g key value) (entries.map fun e => (f e.1, g e.1 e.2)) := by
  induction entries with
  | nil => rfl
  | cons e entries ih =>
    rw [List.map_cons, Entries.insert, Entries.insert, hf]
    cases compare key e.1 with
    | lt => rfl
    | eq => rfl
    | gt => rw [List.map_cons, ih]

/-- A map of a list does not see such changes either. -/
lemma Entries.map_ofList {κ' : Type u'} {γ : Type w} [Ord κ'] {f : κ → κ'} (g : κ → β → γ)
    (hf : ∀ a b, compare (f a) (f b) = compare a b) (entries : List (κ × β)) :
    (Entries.ofList entries).map (fun e => (f e.1, g e.1 e.2)) =
      Entries.ofList (entries.map fun e => (f e.1, g e.1 e.2)) := by
  suffices h : ∀ acc : List (κ × β),
      (entries.foldl (fun acc e => Entries.insert e.1 e.2 acc) acc).map
          (fun e => (f e.1, g e.1 e.2)) =
        (entries.map fun e => (f e.1, g e.1 e.2)).foldl (fun acc e => Entries.insert e.1 e.2 acc)
          (acc.map fun e => (f e.1, g e.1 e.2)) from h []
  induction entries with
  | nil => exact fun acc => rfl
  | cons e entries ih =>
    intro acc
    rw [List.foldl_cons, ih, Entries.map_insert g hf, List.map_cons, List.foldl_cons]

lemma Entries.get?_mapValues [Std.LawfulEqOrd κ] {γ : Type w} (f : κ → β → γ) (key : κ)
    (entries : List (κ × β)) :
    Entries.get? key (entries.map fun e => (e.1, f e.1 e.2)) =
      (Entries.get? key entries).map (f key) := by
  induction entries with
  | nil => rfl
  | cons e entries ih =>
    rw [List.map_cons, Entries.get?, Entries.get?, ih]
    split_ifs with hkey
    · rw [Std.LawfulEqOrd.eq_of_compare hkey, Option.map_some]
    · rfl

lemma Entries.get?_append (key : κ) (entries others : List (κ × β)) :
    Entries.get? key (entries ++ others) =
      (Entries.get? key entries).or (Entries.get? key others) := by
  induction entries with
  | nil => rfl
  | cons e entries ih =>
    rw [List.cons_append, Entries.get?, Entries.get?, ih]
    split_ifs
    · rfl
    · rfl

lemma Entries.mem_of_mem_ofList {entries : List (κ × β)} {e : κ × β}
    (h : e ∈ Entries.ofList entries) : e ∈ entries := by
  suffices hacc : ∀ acc : List (κ × β),
      e ∈ entries.foldl (fun acc x => Entries.insert x.1 x.2 acc) acc → e ∈ acc ∨ e ∈ entries by
    exact (hacc [] h).resolve_left List.not_mem_nil
  clear h
  induction entries with
  | nil => exact fun acc h => .inl h
  | cons x entries ih =>
    intro acc h
    rcases ih _ h with h | h
    · rcases Entries.mem_insert h with rfl | h
      · exact .inr List.mem_cons_self
      · exact .inl h
    · exact .inr (List.mem_cons_of_mem _ h)

end Entries

namespace KeyMap

variable {κ : Type u} {β : Type v} [Ord κ] [Std.TransOrd κ]

lemma mem_of_get?_ofList [Std.LawfulEqOrd κ] {entries : List (κ × β)} {key : κ} {value : β}
    (h : (ofList entries).get? key = some value) : (key, value) ∈ entries := by
  have hmem := (ofList entries).ascending.get?_eq_some_iff.1 h
  rw [entries_ofList] at hmem
  exact Entries.mem_of_mem_ofList hmem

lemma get?_insertAll (m : KeyMap κ β) {entries : List (κ × β)} (h : Ascending entries) (key : κ) :
    (m.insertAll entries).get? key = (Entries.get? key entries).or (m.get? key) := by
  induction entries generalizing m with
  | nil => rfl
  | cons e entries ih =>
    change ((m.insert e.1 e.2).insertAll entries).get? key = _
    rw [ih _ (List.pairwise_cons.1 h).2, get?_insert, Entries.get?]
    split_ifs with hkey
    · rw [h.get?_cons hkey]
      rfl
    · rfl

/-- Of several entries with one key the last one counts. -/
lemma get?_ofList (entries : List (κ × β)) (key : κ) :
    (ofList entries).get? key = Entries.get? key entries.reverse := by
  have hstep (m : KeyMap κ β) (es : List (κ × β)) :
      (m.insertAll es).get? key = (Entries.get? key es.reverse).or (m.get? key) := by
    induction es generalizing m with
    | nil => rfl
    | cons e es ih =>
      change ((m.insert e.1 e.2).insertAll es).get? key = _
      rw [ih, get?_insert, List.reverse_cons, Entries.get?_append, Option.or_assoc, Entries.get?]
      split_ifs
      · rfl
      · rfl
  exact (hstep empty entries).trans Option.or_none

lemma map_ofList {γ : Type w} (g : β → γ) (entries : List (κ × β)) :
    (ofList entries).map g = ofList (entries.map fun e => (e.1, g e.2)) := by
  have h := Entries.map_ofList (f := id) (fun _ => g) (fun _ _ => rfl) entries
  refine ext ?_
  rw [entries_ofList]
  refine Eq.trans ?_ h
  rw [← entries_ofList]
  rfl

omit [Std.TransOrd κ] in
/-- A list may be put in order before its keys are renamed and its values changed. -/
lemma ofList_map_ofList {κ' : Type u'} {γ : Type w} [Ord κ'] [Std.TransOrd κ'] {f : κ → κ'}
    (g : κ → β → γ) (hf : ∀ a b, compare (f a) (f b) = compare a b) (entries : List (κ × β)) :
    ofList ((Entries.ofList entries).map fun e => (f e.1, g e.1 e.2)) =
      ofList (entries.map fun e => (f e.1, g e.1 e.2)) := by
  refine ext ?_
  rw [entries_ofList, entries_ofList, Entries.map_ofList g hf, (ascending_ofList _).ofList_eq]

/-- In a list without repeated keys every entry counts. -/
lemma get?_ofList_of_mem [Std.LawfulEqOrd κ] {entries : List (κ × β)}
    (h : entries.Pairwise fun a b => a.1 ≠ b.1) {e : κ × β} (he : e ∈ entries) :
    (ofList entries).get? e.1 = some e.2 := by
  have hreverse : entries.reverse.Pairwise fun a b => a.1 ≠ b.1 :=
    List.pairwise_reverse.2 (h.imp Ne.symm)
  rw [get?_ofList]
  exact (Entries.get?_eq_some_iff hreverse).2 (List.mem_reverse.2 he)

lemma mem_ofList_iff [Std.LawfulEqOrd κ] {entries : List (κ × β)}
    (h : entries.Pairwise fun a b => a.1 ≠ b.1) {e : κ × β} :
    e ∈ (ofList entries).entries ↔ e ∈ entries := by
  constructor
  · intro he
    rw [entries_ofList] at he
    exact Entries.mem_of_mem_ofList he
  · exact fun he => (ofList entries).ascending.get?_eq_some_iff.1 (get?_ofList_of_mem h he)

/-- **Lists with the same keys, none of them repeated, are known by their maps.** -/
lemma ofList_injective [Std.LawfulEqOrd κ] {entries entries' : List (κ × β)}
    (h : entries.Pairwise fun a b => a.1 ≠ b.1)
    (hkeys : entries.map Prod.fst = entries'.map Prod.fst)
    (hmaps : ofList entries = ofList entries') : entries = entries' := by
  have h' : entries'.Pairwise fun a b => a.1 ≠ b.1 := by
    rw [← List.pairwise_map (f := Prod.fst) (R := (· ≠ ·)), ← hkeys, List.pairwise_map]
    exact h
  -- Each list is told by its keys and what its map finds for them.
  have hfound {es : List (κ × β)} (hes : es.Pairwise fun a b => a.1 ≠ b.1) :
      es.map (fun e => (e.1, some e.2)) =
        (es.map Prod.fst).map fun key => (key, (ofList es).get? key) := by
    rw [List.map_map]
    refine List.map_congr_left fun e he => ?_
    rw [Function.comp_apply, get?_ofList_of_mem hes he]
  have hmap := hfound h
  rw [hkeys, hmaps, ← hfound h'] at hmap
  refine List.map_injective_iff.2 (fun a b hab => ?_) hmap
  obtain ⟨hkey, hvalue⟩ := Prod.mk.inj hab
  exact Prod.ext hkey (Option.some.inj hvalue)

lemma insertAll_empty (m : KeyMap κ β) : empty.insertAll m.entries = m := ofList_entries m

end KeyMap

/-- Entries in key order may be searched from either end. -/
lemma Ascending.get?_reverse {κ : Type u} {β : Type v} [Ord κ] [Std.TransOrd κ]
    {entries : List (κ × β)} (h : Ascending entries) (key : κ) :
    Entries.get? key entries.reverse = Entries.get? key entries := by
  rw [← KeyMap.get?_ofList, KeyMap.get?, KeyMap.entries_ofList, h.ofList_eq]

end PackScope
