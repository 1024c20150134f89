/-!
Finite maps kept as lists of entries. `Entries` holds the operations on a list in which the keys
ascend strictly, and `KeyMap` bundles such a list with the fact that its keys ascend, so that two
maps with the same bindings are equal and every traversal goes in key order.
-/

namespace PackScope

universe u v w

/-- Entries in strictly ascending key order, so no key occurs twice. -/
def Ascending {κ : Type u} {β : Type v} [Ord κ] (entries : List (κ × β)) : Prop :=
  entries.Pairwise fun a b => compare a.1 b.1 = .lt

namespace Entries

variable {κ : Type u} {β : Type v} [Ord κ]

/-- The value bound to a key. -/
def get? (key : κ) : List (κ × β) → Option β
  | [] => none
  | (k, b) :: rest => if compare key k = .eq then some b else get? key rest

/-- Binds a key, in place of an earlier binding of the same key. -/
def insert (key : κ) (value : β) : List (κ × β) → List (κ × β)
  | [] => [(key, value)]
  | (k, b) :: rest =>
    match compare key k with
    | .lt => (key, value) :: (k, b) :: rest
    | .eq => (key, value) :: rest
    | .gt => (k, b) :: insert key value rest

/-- The entries of a list in key order; of two entries with one key the later one counts. -/
def ofList (entries : List (κ × β)) : List (κ × β) :=
  entries.foldl (fun acc e => insert e.1 e.2 acc) []

end Entries

/-- Keys in ascending order, each as often as it occurs. -/
def sortKeys {κ : Type u} [Ord κ] (keys : List κ) : List κ :=
  keys.mergeSort fun a b => (compare a b).isLE

/-! ### Ascending lists stay ascending -/

section Ascending

variable {κ : Type u} {β : Type v} [Ord κ]

theorem Entries.mem_insert {key : κ} {value : β} {entries : List (κ × β)} {e : κ × β}
    (h : e ∈ Entries.insert key value entries) : e = (key, value) ∨ e ∈ entries := by
  induction entries with
  | nil => simpa [Entries.insert] using h
  | cons head rest ih =>
    obtain ⟨k, b⟩ := head
    simp only [Entries.insert] at h
    split at h
    · simpa using h
    · simp only [List.mem_cons] at h ⊢
      exact h.imp_right .inr
    · simp only [List.mem_cons] at h ⊢
      rcases h with h | h
      · exact .inr (.inl h)
      · exact (ih h).imp_right .inr

theorem Ascending.insert [Std.TransOrd κ] {entries : List (κ × β)} (h : Ascending entries)
    (key : κ) (value : β) : Ascending (Entries.insert key value entries) := by
  induction entries with
  | nil => exact List.pairwise_singleton _ _
  | cons head rest ih =>
    obtain ⟨k, b⟩ := head
    obtain ⟨hk, hrest⟩ := List.pairwise_cons.1 h
    simp only [Entries.insert]
    split
    next hlt =>
      refine List.pairwise_cons.2 ⟨fun e he => ?_, h⟩
      rcases List.mem_cons.1 he with rfl | he
      · exact hlt
      · exact Std.TransCmp.lt_trans hlt (hk e he)
    next heq =>
      exact List.pairwise_cons.2
        ⟨fun e he => Std.TransCmp.lt_of_eq_of_lt heq (hk e he), hrest⟩
    next hgt =>
      refine List.pairwise_cons.2 ⟨fun e he => ?_, ih hrest⟩
      rcases Entries.mem_insert he with rfl | he
      · exact Std.OrientedCmp.gt_iff_lt.1 hgt
      · exact hk e he

end Ascending

/-- **A finite map**, as its entries in strictly ascending key order. -/
structure KeyMap (κ : Type u) (β : Type v) [Ord κ] where
  entries : List (κ × β)
  ascending : Ascending entries

namespace KeyMap

variable {κ : Type u} {β : Type v} [Ord κ]

theorem ext {m n : KeyMap κ β} (h : m.entries = n.entries) : m = n := by
  cases m; cases n; cases h; rfl

instance [DecidableEq κ] [DecidableEq β] : DecidableEq (KeyMap κ β) := fun m n =>
  decidable_of_iff (m.entries = n.entries) ⟨ext, congrArg entries⟩

/-- The map without entries. -/
def empty : KeyMap κ β := ⟨[], List.Pairwise.nil⟩

instance : Inhabited (KeyMap κ β) := ⟨empty⟩

/-- The value bound to a key. -/
def get? (m : KeyMap κ β) (key : κ) : Option β := Entries.get? key m.entries

/-- The bound keys, in ascending order. -/
def keys (m : KeyMap κ β) : List κ := m.entries.map Prod.fst

/-- Changes every value and no key. -/
def map {γ : Type w} (f : β → γ) (m : KeyMap κ β) : KeyMap κ γ where
  entries := m.entries.map fun e => (e.1, f e.2)
  ascending := by rw [Ascending, List.pairwise_map]; exact m.ascending

/-- Renames the keys by a function that keeps their order. -/
def mapKeys {κ' : Type w} [Ord κ'] (f : κ → κ')
    (mono : ∀ a b, compare a b = .lt → compare (f a) (f b) = .lt) (m : KeyMap κ β) :
    KeyMap κ' β where
  entries := m.entries.map fun e => (f e.1, e.2)
  ascending := List.pairwise_map.2 (m.ascending.imp fun h => mono _ _ h)

variable [Std.TransOrd κ]

/-- Binds a key, in place of an earlier binding of the same key. -/
def insert (m : KeyMap κ β) (key : κ) (value : β) : KeyMap κ β where
  entries := Entries.insert key value m.entries
  ascending := m.ascending.insert key value

/-- Binds the keys of a list one after another. -/
def insertAll (m : KeyMap κ β) (entries : List (κ × β)) : KeyMap κ β :=
  entries.foldl (fun acc e => acc.insert e.1 e.2) m

/-- The map of a list of entries; of two entries with one key the later one counts. -/
def ofList (entries : List (κ × β)) : KeyMap κ β := empty.insertAll entries

end KeyMap

end PackScope
