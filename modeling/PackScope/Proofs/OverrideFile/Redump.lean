import PackScope.Proofs.OverrideFile.Origin
import PackScope.Proofs.OverrideFile.Reading
import PackScope.Proofs.VariableSet.Addresses
import PackScope.Store

/-!
Dumps of what is read from dumps. The blocks of variables that come from override files are the same
again, and only those of values with a number that is not finite are gone.
-/

namespace PackScope

variable {set : VariableSet} {pack : PackId} {key : VariableId}

/-! ### Lookups -/

lemma VariableSet.lookup?_restated (set : VariableSet) :
    set.restated.lookup? pack key = (set.lookup? pack key).bind (Variable.restated key) := by
  have hpack : set.restated.get? pack = (set.get? pack).bind fun vars =>
      if vars.restated.entries.isEmpty then none else some vars.restated :=
    KeyMap.get?_filterMap _ set pack
  rw [VariableSet.lookup?, hpack, VariableSet.lookup?]
  cases set.get? pack with
  | none => rfl
  | some vars =>
    have hkey : vars.restated.get? key = (vars.get? key).bind (Variable.restated key) :=
      KeyMap.get?_filterMap _ vars key
    rw [Option.bind_some, Option.bind_some, ← hkey]
    split_ifs with hempty
    · have hnone : vars.restated.get? key = none := by
        rw [KeyMap.get?, List.isEmpty_iff.1 hempty]
        rfl
      rw [hnone]
      rfl
    · rfl

lemma VariableSet.lookup?_forgetRanges (set : VariableSet) :
    set.forgetRanges.lookup? pack key = (set.lookup? pack key).map Variable.forgetRange := by
  rw [Option.map_eq_bind]
  refine lookup?_map (f := KeyMap.map Variable.forgetRange)
    (g := fun _ => some ∘ Variable.forgetRange) (fun vars key => ?_) set pack key
  rw [KeyMap.get?_map, Option.map_eq_bind]

/-! ### Blocks -/

/-- **The blocks of the variables of a set whose values pass a test**, one after another. -/
def VariableSet.blocks (set : VariableSet) (test : Value → Bool) : String :=
  String.join (set.entries.flatMap fun p =>
    (p.2.entries.filter fun e => test e.2.value).map fun e => e.2.block p.1)

lemma VariableSet.toList_blocks (set : VariableSet) (test : Value → Bool) :
    (set.blocks test).toList = set.entries.flatMap fun p =>
      (p.2.entries.filter fun e => test e.2.value).flatMap fun e => e.2.blockChars p.1 := by
  rw [blocks, String.toList_join, List.flatMap_assoc]
  refine List.flatMap_congr fun p _ => ?_
  rw [List.flatMap_map]
  refine List.flatMap_congr fun e _ => ?_
  exact String.toList_ofList

lemma dump_eq_blocks (set : VariableSet) : (Store.unified set).dump = set.blocks fun _ => true := by
  rw [VariableSet.dump_eq_join, VariableSet.stored, List.map_flatMap, VariableSet.blocks]
  simp only [List.map_map, List.filter_true]
  rfl

lemma dump_forgetRanges (set : VariableSet) :
    (Store.unified set.forgetRanges).dump = (Store.unified set).dump := by
  refine congrArg String.ofList ?_
  change (List.map _ set.entries).flatMap _ = set.entries.flatMap _
  rw [List.flatMap_map]
  refine List.flatMap_congr fun p _ => ?_
  change (List.map _ p.2.entries).flatMap _ = _
  rw [List.flatMap_map]
  rfl

lemma Variable.IsRead.blockChars_eq {v : Variable} (h : v.IsRead key) (pack : PackId) :
    ({ name := key, value := v.value } : Variable).blockChars pack = v.blockChars pack := by
  obtain ⟨rfl, hdescription, hkind, -, -⟩ := h
  unfold Variable.blockChars Variable.header
  rw [hdescription, hkind]
  rfl

lemma PackVariables.flatMap_restated (pack : PackId) {vars : PackVariables}
    (h : ∀ e ∈ vars.entries, e.2.IsRead e.1) :
    (vars.restated.entries.flatMap fun e => e.2.blockChars pack) =
      (vars.entries.filter fun e => e.2.value.allFinite).flatMap fun e => e.2.blockChars pack := by
  change (vars.entries.filterMap fun e => (e.2.restated e.1).map fun v => (e.1, v)).flatMap _ = _
  generalize vars.entries = es at h ⊢
  induction es with
  | nil => rfl
  | cons e es ih =>
    have ih := ih fun x hx => h x (List.mem_cons_of_mem _ hx)
    have he := h e List.mem_cons_self
    rw [List.filterMap_cons, List.filter_cons, ← he.isWritable_eq, Variable.restated]
    by_cases hw : e.2.value.isWritable = true
    · rw [if_pos hw, if_pos hw, Option.map_some, List.flatMap_cons, List.flatMap_cons, ih,
        he.blockChars_eq]
    · rw [if_neg hw, if_neg hw, Option.map_none, ih]

/-- **What a set restates has the blocks of its finite values**, if the set comes from files. -/
lemma dump_restated (h : ∀ p ∈ set.entries, ∀ e ∈ p.2.entries, e.2.IsRead e.1) :
    (Store.unified set.restated).dump = set.blocks Value.allFinite := by
  refine String.toList_inj.1 ?_
  rw [VariableSet.toList_blocks, Store.dump, String.toList_ofList]
  change set.restated.entries.flatMap _ = _
  rw [VariableSet.entries_restated, List.flatMap_map, VariableSet.kept]
  generalize set.entries = ps at h ⊢
  induction ps with
  | nil => rfl
  | cons p ps ih =>
    have ih := ih fun x hx => h x (List.mem_cons_of_mem _ hx)
    have hp := PackVariables.flatMap_restated p.1 (h p List.mem_cons_self)
    rw [List.filter_cons, List.flatMap_cons, ← hp, ← ih]
    by_cases hw : p.2.written.isEmpty = true
    · rw [if_neg (by simpa using hw), PackVariables.entries_restated, List.isEmpty_iff.1 hw]
      rfl
    · rw [if_pos (by simpa using hw), List.flatMap_cons]

end PackScope
