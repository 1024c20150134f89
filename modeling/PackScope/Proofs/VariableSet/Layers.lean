import PackScope.Proofs.KeyMap.Merging
import PackScope.VariableSet

/-!
Layered sets of variables. Of several sets, each layered over those before it, the last one that
holds a variable tells its value.
-/

namespace PackScope.VariableSet

variable {base upper : VariableSet} {pack : PackId} {key : VariableId}

/-- The variables that one set holds for a pack are bound over those that another one holds. -/
lemma get?_overlay (base upper : VariableSet) (pack : PackId) :
    (base.overlay upper).get? pack = match upper.get? pack with
      | none => base.get? pack
      | some vars => some ((base.ofPack pack).insertAll vars.entries) := by
  obtain ⟨entries, hasc⟩ := upper
  unfold overlay KeyMap.get?
  change KeyMap.get? (entries.foldl _ base) pack = match Entries.get? pack entries with
    | none => base.get? pack
    | some vars => some ((base.ofPack pack).insertAll vars.entries)
  induction entries generalizing base with
  | nil => rfl
  | cons e entries ih =>
    rw [List.foldl_cons, ih _ (List.pairwise_cons.1 hasc).2, Entries.get?]
    by_cases hpack : compare pack e.1 = .eq
    · have hmem : (KeyMap.insert base e.1 ((base.ofPack e.1).insertAll e.2.entries)).get? pack =
          some ((base.ofPack e.1).insertAll e.2.entries) := by
        rw [KeyMap.get?_insert, if_pos hpack]
      rw [if_pos hpack, hasc.get?_cons hpack, hmem, Std.LawfulEqOrd.eq_of_compare hpack]
    · have hget : (KeyMap.insert base e.1 ((base.ofPack e.1).insertAll e.2.entries)).get? pack =
          base.get? pack := by
        rw [KeyMap.get?_insert, if_neg hpack]
      have hof : ofPack (KeyMap.insert base e.1 ((base.ofPack e.1).insertAll e.2.entries)) pack =
          base.ofPack pack := congrArg (·.getD .empty) hget
      rw [if_neg hpack, hof, hget]

/-- Where both sets hold a variable, the upper one's counts. -/
lemma lookup?_overlay : (base.overlay upper).lookup? pack key =
    (upper.lookup? pack key).or (base.lookup? pack key) := by
  rw [lookup?, get?_overlay, lookup?, lookup?]
  cases upper.get? pack with
  | none => rfl
  | some vars =>
    change ((base.ofPack pack).insertAll vars.entries).get? key = (vars.get? key).or _
    rw [KeyMap.get?_insertAll _ vars.ascending, ofPack]
    cases base.get? pack with
    | none => rfl
    | some vars' => rfl

lemma overlay_empty (set : VariableSet) : overlay .empty set = set := by
  refine KeyMap.ext_get? fun pack => ?_
  rw [get?_overlay]
  cases set.get? pack with
  | none => rfl
  | some vars => exact congrArg some vars.insertAll_empty

/-- **Several sets, each layered over those before it.** -/
def layers (sets : List VariableSet) : VariableSet := sets.foldl overlay .empty

/-- The variable that the last of several sets holds that holds it at all. -/
def last? (sets : List VariableSet) (pack : PackId) (key : VariableId) : Option Variable :=
  sets.reverse.findSome? fun set => set.lookup? pack key

/-- **Layered sets hold what the last of them holds.** -/
lemma lookup?_layers (sets : List VariableSet) :
    (layers sets).lookup? pack key = last? sets pack key := by
  suffices h : ∀ base : VariableSet, (sets.foldl overlay base).lookup? pack key =
      (last? sets pack key).or (base.lookup? pack key) by
    exact (h .empty).trans Option.or_none
  induction sets with
  | nil => exact fun base => rfl
  | cons set sets ih =>
    intro base
    rw [List.foldl_cons, ih, lookup?_overlay, last?, last?, List.reverse_cons,
      List.findSome?_append, Option.or_assoc]
    congr 1
    rw [List.findSome?_cons, List.findSome?_nil]
    cases set.lookup? pack key with
    | none => rfl
    | some v => rfl

end PackScope.VariableSet
