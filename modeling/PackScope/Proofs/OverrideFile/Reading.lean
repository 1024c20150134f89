import PackScope.Proofs.OverrideFile.Denotation
import PackScope.Proofs.OverrideFile.Restated

/-!
Dumps read back. A text of settings is read as the set of its tables exactly if no value has a map
that starts with the key reserved for date-times, and so the dump of a set whose variables can all be
restated is read as what it restates, up to the ranges.
-/

namespace PackScope

open Toml (Data Entry Node ReadsLines Sheet Table)

/-! ### Texts of settings -/

/-- **The set of the tables of a sheet.** -/
def Toml.Sheet.variables (sheet : Sheet) : VariableSet :=
  .ofList (sheet.map fun x => (⟨x.1⟩, .ofList (x.2.map restatedEntry)))

section Sheets

variable {sheet : Sheet} {root : Table} {n : ℕ}

lemma isTable_of_sheet (h : List.Forall₂ Entry.IsTableOf sheet root) :
    ∀ d ∈ root, d.content.shown.isTable = true := by
  intro d hd
  obtain ⟨x, -, -, u, hcontent, -⟩ := exists_of_forall₂ h hd
  rw [hcontent]
  rfl

/-- The tables of a sheet stand for its set. -/
lemma ofData?_of_sheet (h : List.Forall₂ Entry.IsTableOf sheet root)
    (hne : root.Pairwise fun d e => d.key ≠ e.key)
    (hw : ∀ x ∈ sheet, ∀ y ∈ x.2, y.2.Writable n) :
    VariableSet.ofData? root.denoted = some sheet.variables := by
  rw [ofData?_denoted hne, if_pos (isTable_of_sheet h), Sheet.variables]
  refine congrArg (fun ps => some (KeyMap.ofList ps)) ?_
  refine map_eq_of_forall₂ (fun x d hx => ?_) ((List.forall₂_and_left _ _).2 ⟨hw, h⟩)
  obtain ⟨hw, hkey, u, hcontent, hholds⟩ := hx
  rw [hkey, hcontent, ofData_table]
  refine congrArg (fun es => (PackId.mk x.1, KeyMap.ofList es)) ?_
  refine map_eq_of_forall₂ (fun y e hy => ?_) ((List.forall₂_and_left _ _).2 ⟨hw, hholds⟩)
  obtain ⟨hw, hkey, -, hshown⟩ := hy
  rw [hkey, hshown, hw.inOrder_eq]

/-- Only the reserved key is in the way of the entries of a sheet: each has a place of its own. -/
lemma isSpelledOut_of_sheet {whole : List Char} {left : ℕ}
    (hroot : root.Sound (Entry.Placed whole left)) (h : List.Forall₂ Entry.IsTableOf sheet root) :
    (∀ x ∈ sheet, ∀ y ∈ x.2, y.2.startsReserved = false) ↔ root.IsSpelledOut := by
  have hpack : ∀ d ∈ root, ∀ x, d.IsTableOf x →
      ((∀ y ∈ x.2, y.2.startsReserved = false) ↔ ∀ e ∈ d.content.entries, e.IsSpelledOut) := by
    rintro d hd x ⟨-, u, hcontent, hholds⟩
    have hu := hroot.contents d hd
    rw [hcontent, Toml.sound_table] at hu
    rw [hcontent, Node.entries]
    refine forall_mem_iff_of_forall₂ hholds fun e he y hy => ?_
    obtain ⟨-, ⟨extent, hextent⟩, hshown⟩ := hy
    have himplicit : e.content.isImplicit = false := by
      rw [← Bool.not_eq_true, ← (hu.entries e he).extent_eq_none, hextent]
      exact Option.some_ne_none extent
    rw [Entry.IsSpelledOut, himplicit, hshown, and_iff_right rfl]
  rw [forall_mem_iff_of_forall₂ h hpack]
  exact ⟨fun hspelled _ => hspelled, fun hspelled => hspelled (isTable_of_sheet h)⟩

/-- **A text of settings is read as the set of its tables** exactly if the reserved key is in the way
of no value. -/
theorem exists_read_of_settings {text : List Char} (h : ReadsLines text sheet.settings)
    (hmark : '\ufeff' ∉ text.head?) (hsheet : sheet.Proper)
    (hw : ∀ x ∈ sheet, ∀ y ∈ x.2, y.2.Writable n) (filename : String) :
    (∃ result, OverrideFile.read filename (.ofList text) = .ok result ∧
      result.forgetRanges = sheet.variables) ↔
      ∀ x ∈ sheet, ∀ y ∈ x.2, y.2.startsReserved = false := by
  obtain ⟨root, hroot, htables⟩ := h.table hmark hsheet
  have hsound := Toml.sound_of_read hroot
  rw [← OverrideFile.said?_eq_some_iff, ← ofData?_of_sheet htables hsound.keys_ne hw,
    OverrideFile.said?_iff hroot, isSpelledOut_of_sheet hsound htables]

end Sheets

/-! ### Dumps -/

section Dumps

variable {set : VariableSet}

lemma PackVariables.entries_restated (vars : PackVariables) :
    vars.restated.entries = vars.written.map restatedEntry := by
  change (vars.entries.filterMap fun e => (e.2.restated e.1).map fun v => (e.1, v)) = _
  rw [PackVariables.written, List.map_filterMap]
  refine List.filterMap_congr fun e _ => ?_
  unfold Variable.restated Value.isWritable
  cases hd : e.2.value.toToml? with
  | none => rfl
  | some d =>
    change some (e.1, _) = some (e.1, _)
    rw [Value.ofToml_toToml? hd]

lemma PackVariables.isEmpty_restated (vars : PackVariables) :
    vars.restated.entries.isEmpty = vars.written.isEmpty := by
  rw [PackVariables.entries_restated, List.isEmpty_map]

lemma VariableSet.entries_restated (set : VariableSet) :
    set.restated.entries = set.kept.map fun p => (p.1, p.2.restated) := by
  change (set.entries.filterMap fun p =>
    (if p.2.restated.entries.isEmpty then none else some p.2.restated).map fun v => (p.1, v)) = _
  unfold VariableSet.kept
  induction set.entries with
  | nil => rfl
  | cons p ps ih =>
    rw [List.filterMap_cons, List.filter_cons, ih, PackVariables.isEmpty_restated]
    by_cases hp : p.2.written.isEmpty = true
    · rw [if_pos hp, if_neg (by simpa using hp)]
      rfl
    · rw [if_neg hp, if_pos (by simpa using hp)]
      rfl

/-- **What a set restates is the set of its tables.** -/
lemma VariableSet.restated_eq (set : VariableSet) : set.restated = set.sheet.variables := by
  have hpack (vars : PackVariables) : vars.restated = .ofList (vars.written.map restatedEntry) := by
    rw [← PackVariables.entries_restated, KeyMap.ofList_entries]
  rw [Sheet.variables, VariableSet.sheet, List.map_map, ← KeyMap.ofList_entries set.restated,
    VariableSet.entries_restated]
  exact congrArg KeyMap.ofList
    (List.map_congr_left fun p _ => congrArg (Prod.mk p.1) (hpack p.2))

/-- Whether the reserved key is in the way of no value of a set that has a TOML form. -/
def VariableSet.SparesReserved (set : VariableSet) : Prop :=
  ∀ p ∈ set.entries, ∀ e ∈ p.2.entries, e.2.value.isWritable = true →
    e.2.value.startsReserved = false

lemma sparesReserved_iff :
    set.SparesReserved ↔ ∀ x ∈ set.sheet, ∀ y ∈ x.2, y.2.startsReserved = false := by
  rw [VariableSet.sheet, List.forall_mem_map]
  constructor
  · intro h p hp x hx
    obtain ⟨e, he, hx⟩ := List.mem_filterMap.1 hx
    obtain ⟨d, hd, rfl⟩ := Option.map_eq_some_iff.1 hx
    rw [Data.startsReserved, Value.ofToml_toToml? hd]
    exact h p (List.mem_filter.1 hp).1 e he (by rw [Value.isWritable, hd]; rfl)
  · intro h p hp e he hw
    obtain ⟨d, hd⟩ := Option.isSome_iff_exists.1 hw
    have hx : (e.1.text, d) ∈ p.2.written :=
      List.mem_filterMap.2 ⟨e, he, by rw [hd]; rfl⟩
    have hkept : p ∈ set.kept :=
      List.mem_filter.2 ⟨hp, by simpa using List.ne_nil_of_mem hx⟩
    rw [← Value.ofToml_toToml? hd]
    exact h p hkept _ hx

/-- **A dump that can be read again restates the set** exactly if the reserved key is in the way of
no value. -/
theorem VariableSet.Readable.exists_read_iff (h : set.Readable) (filename : String) :
    (∃ result, OverrideFile.read filename (Store.unified set).dump = .ok result ∧
      result.forgetRanges = set.restated) ↔ set.SparesReserved := by
  have hlines := readsLines_dumpChars h.readable
  have hw := writable_namedSheet h.readable
  rw [namedSheet_eq h.name_eq] at hlines hw
  rw [VariableSet.restated_eq, sparesReserved_iff]
  exact exists_read_of_settings hlines (not_marked set) (sheet_proper set) hw filename

end Dumps

end PackScope
