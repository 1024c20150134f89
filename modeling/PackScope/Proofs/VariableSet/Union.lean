import PackScope.Proofs.VariableSet.Addresses
import PackScope.Proofs.VariableSet.Layers

/-!
Layering as a union. A layered set has the packs of both sets and, of two variables at one address,
the upper one. The laws of layering follow from that: it does not matter how several sets are
grouped, and sets without a common variable may change places.
-/

namespace PackScope.VariableSet

variable {base upper a b c : VariableSet} {pack : PackId} {key : VariableId} {v : Variable}

/-! ### The packs of layered sets -/

lemma isSome_get?_overlay :
    ((base.overlay upper).get? pack).isSome ↔
      (base.get? pack).isSome ∨ (upper.get? pack).isSome := by
  rw [get?_overlay]
  cases upper.get? pack with
  | none => simp
  | some vars => simp

/-! ### Laws -/

/-- Layered sets are told from others by their packs and variables. -/
lemma overlay_eq_overlay
    (hpacks : ∀ pack, (a.get? pack).isSome ∨ (b.get? pack).isSome ↔
      (base.get? pack).isSome ∨ (upper.get? pack).isSome)
    (hvars : ∀ pack key, (b.lookup? pack key).or (a.lookup? pack key) =
      (upper.lookup? pack key).or (base.lookup? pack key)) :
    a.overlay b = base.overlay upper := by
  apply ext_lookup?
  · intro pack
    rw [isSome_get?_overlay, isSome_get?_overlay]
    exact hpacks pack
  · intro pack key
    rw [lookup?_overlay, lookup?_overlay]
    exact hvars pack key

lemma overlay_empty_right (set : VariableSet) : set.overlay .empty = set := rfl

lemma overlay_assoc (a b c : VariableSet) :
    (a.overlay b).overlay c = a.overlay (b.overlay c) := by
  apply overlay_eq_overlay
  · intro pack
    rw [isSome_get?_overlay, isSome_get?_overlay, or_assoc]
  · intro pack key
    rw [lookup?_overlay, lookup?_overlay, Option.or_assoc]

lemma overlay_self (set : VariableSet) : set.overlay set = set := by
  apply ext_lookup?
  · intro pack
    rw [isSome_get?_overlay, or_self]
  · intro pack key
    rw [lookup?_overlay, Option.or_self]

/-- **Whether two sets have no variable in common**; they may have packs in common. -/
def Apart (a b : VariableSet) : Prop :=
  ∀ pack key, a.lookup? pack key = none ∨ b.lookup? pack key = none

lemma overlay_comm (h : a.Apart b) : a.overlay b = b.overlay a := by
  apply overlay_eq_overlay
  · intro pack
    exact or_comm
  · intro pack key
    rcases h pack key with ha | hb
    · rw [ha, Option.or_none, Option.none_or]
    · rw [hb, Option.or_none, Option.none_or]

lemma overlay_right_comm (h : a.Apart b) (base : VariableSet) :
    (base.overlay a).overlay b = (base.overlay b).overlay a := by
  rw [overlay_assoc, overlay_assoc, overlay_comm h]

/-! ### Several sets -/

/-- **A way to layer several sets two by two.** -/
inductive Grouping where
  | none
  | one (set : VariableSet)
  | both (lower upper : Grouping)

/-- The sets that are grouped, the lowest one first. -/
def Grouping.sets : Grouping → List VariableSet
  | none => []
  | one set => [set]
  | both lower upper => lower.sets ++ upper.sets

/-- What comes of layering the sets as they are grouped. -/
def Grouping.merged : Grouping → VariableSet
  | none => .empty
  | one set => set
  | both lower upper => lower.merged.overlay upper.merged

lemma foldl_overlay (base : VariableSet) (sets : List VariableSet) :
    sets.foldl overlay base = base.overlay (layers sets) := by
  induction sets generalizing base with
  | nil => rfl
  | cons set sets ih =>
    rw [layers, List.foldl_cons, List.foldl_cons, overlay_empty, ih, ih set, overlay_assoc]

lemma layers_append (lower upper : List VariableSet) :
    layers (lower ++ upper) = (layers lower).overlay (layers upper) := by
  rw [layers, List.foldl_append, foldl_overlay]
  rfl

/-- **Any grouping of several sets gives the same.** -/
lemma Grouping.merged_eq (g : Grouping) : g.merged = layers g.sets := by
  induction g with
  | none => rfl
  | one set => exact (overlay_empty set).symm
  | both lower upper ihlower ihupper => rw [merged, ihlower, ihupper, sets, layers_append]

lemma isSome_get?_layers (sets : List VariableSet) :
    ((layers sets).get? pack).isSome ↔ ∃ set ∈ sets, (set.get? pack).isSome := by
  induction sets with
  | nil =>
    apply iff_of_false
    · exact Bool.false_ne_true
    · rintro ⟨set, hset, -⟩
      exact List.not_mem_nil hset
  | cons set sets ih =>
    rw [layers, List.foldl_cons, overlay_empty, foldl_overlay, isSome_get?_overlay, ih]
    simp

/-- The last set that holds a variable has none behind it that does. -/
lemma last?_eq_some_iff (sets : List VariableSet) :
    last? sets pack key = some v ↔ ∃ before set after, sets = before ++ set :: after ∧
      set.lookup? pack key = some v ∧ ∀ other ∈ after, other.lookup? pack key = none := by
  rw [last?, List.findSome?_eq_some_iff]
  constructor
  · rintro ⟨after, set, before, hsets, hv, hafter⟩
    refine ⟨before.reverse, set, after.reverse, ?_, hv, fun other hother => ?_⟩
    · rw [← List.reverse_reverse sets, hsets]
      simp
    · exact hafter other (List.mem_reverse.1 hother)
  · rintro ⟨before, set, after, rfl, hv, hafter⟩
    refine ⟨after.reverse, set, before.reverse, by simp, hv, fun other hother => ?_⟩
    exact hafter other (List.mem_reverse.1 hother)

/-- **Whether a set holds what several sets hold together**: their packs, at each address the
variable of the last of them that holds one there, and nothing else, however they are grouped. -/
structure IsLayered (sets : List VariableSet) (merged : VariableSet) : Prop where
  pack_iff : ∀ pack, (merged.get? pack).isSome ↔ ∃ set ∈ sets, (set.get? pack).isSome
  lookup?_iff : ∀ pack key v, merged.lookup? pack key = some v ↔
    ∃ before set after, sets = before ++ set :: after ∧ set.lookup? pack key = some v ∧
      ∀ other ∈ after, other.lookup? pack key = none
  grouped : ∀ g : Grouping, g.sets = sets → g.merged = merged

lemma isLayered_layers (sets : List VariableSet) : IsLayered sets (layers sets) where
  pack_iff _ := isSome_get?_layers sets
  lookup?_iff _ _ _ := by
    rw [lookup?_layers]
    exact last?_eq_some_iff sets
  grouped g hg := by
    rw [g.merged_eq, hg]

end PackScope.VariableSet
