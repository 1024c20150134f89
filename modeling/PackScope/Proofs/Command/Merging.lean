import PackScope.Command.Run
import PackScope.Proofs.OverrideFile.Redump
import PackScope.Proofs.OverrideFile.RoundTrip
import PackScope.Proofs.VariableSet.Layers

/-!
Merging override files. What is printed for several files is read as the variables that the last of
them hold, but for values with a number that is not finite, and is printed again without the blocks
of these.
-/

namespace PackScope

open Toml (isTextChar)

/-! ### What can be spelled -/

/-- **Whether a value can be spelled for a variable of a pack**: the names have no control
characters but tabs, and if there is an assignment at all then its keys are on one line and its
value is in the range of the reader. -/
structure Value.IsSpelled (value : Value) (pack : PackId) (key : VariableId) : Prop where
  pack_text : ∀ c ∈ pack.text.toList, isTextChar c = true
  key_text : ∀ c ∈ key.text.toList, isTextChar c = true
  pack_line : value.allFinite = true → OnOneLine pack.text
  key_line : value.allFinite = true → OnOneLine key.text
  depth_le : value.allFinite = true → value.depth ≤ Toml.depthLimit
  free : value.allFinite = true → value.startsReserved = false

lemma Value.isSpelled_of_plain {value : Value} {pack : PackId} {key : VariableId}
    (hpack : IsPlainName pack.text) (hkey : IsPlainName key.text)
    (hdepth : value.depth ≤ Toml.depthLimit) (hfree : value.startsReserved = false) :
    value.IsSpelled pack key where
  pack_text := hpack.1
  key_text := hkey.1
  pack_line _ := hpack.onOneLine
  key_line _ := hkey.onOneLine
  depth_le _ := hdepth
  free _ := hfree

section Sets

variable {set : VariableSet}

/-- **Whether all variables of a set are as they are read**, and can be spelled. -/
def VariableSet.IsSpelled (set : VariableSet) : Prop :=
  ∀ pack key v, set.lookup? pack key = some v → v.IsRead key ∧ v.value.IsSpelled pack key

lemma VariableSet.IsSpelled.isRead (h : set.IsSpelled) :
    ∀ p ∈ set.entries, ∀ e ∈ p.2.entries, e.2.IsRead e.1 :=
  fun p hp e he => (h p.1 e.1 e.2 (VariableSet.lookup?_of_mem hp he)).1

lemma VariableSet.IsSpelled.readable (h : set.IsSpelled) : set.Readable where
  name_eq p hp e he := (h.isRead p hp e he).name_eq
  readable p hp e he := by
    obtain ⟨hread, hspelled⟩ := h p.1 e.1 e.2 (VariableSet.lookup?_of_mem hp he)
    have hfinite : e.2.value.isWritable = true → e.2.value.allFinite = true := fun hw =>
      hread.isWritable_eq.symm.trans hw
    have hname : e.1 = e.2.name := hread.name_eq.symm
    rw [hname] at hspelled
    exact
      { pack_text := hspelled.pack_text
        name_text := hspelled.key_text
        description_text := fun s hs => by
          rw [hread.description_eq] at hs
          cases hs
        pack_line := fun hw => hspelled.pack_line (hfinite hw)
        name_line := fun hw => hspelled.key_line (hfinite hw)
        ordered := fun _ => hread.ordered
        depth_le := fun hw => hspelled.depth_le (hfinite hw) }

lemma VariableSet.IsSpelled.sparesReserved (h : set.IsSpelled) : set.SparesReserved := by
  intro p hp e he hw
  obtain ⟨hread, hspelled⟩ := h p.1 e.1 e.2 (VariableSet.lookup?_of_mem hp he)
  exact hspelled.free (hread.isWritable_eq.symm.trans hw)

lemma VariableSet.IsSpelled.exists_read (h : set.IsSpelled) (filename : String) :
    ∃ again, OverrideFile.read filename (Store.unified set).dump = .ok again ∧
      again.forgetRanges = set.restated :=
  (h.readable.exists_read_iff filename).2 h.sparesReserved

lemma VariableSet.IsSpelled.value_restated (h : set.IsSpelled) (pack : PackId) (key : VariableId) :
    (set.restated.lookup? pack key).map Variable.value =
      ((set.lookup? pack key).map Variable.value).filter Value.allFinite := by
  rw [VariableSet.lookup?_restated]
  cases hv : set.lookup? pack key with
  | none => rfl
  | some v =>
    rw [Option.bind_some, Option.map_some, Option.filter_some, Variable.restated,
      (h pack key v hv).1.isWritable_eq]
    split_ifs
    · rfl
    · rfl

lemma VariableSet.blocks_of_allFinite
    (h : ∀ pack key v, set.lookup? pack key = some v → v.value.allFinite = true) :
    set.blocks Value.allFinite = set.blocks fun _ => true := by
  unfold VariableSet.blocks
  congr 1
  refine List.flatMap_congr fun p hp => congrArg _ (List.filter_congr fun e he => ?_)
  exact h _ _ _ (VariableSet.lookup?_of_mem hp he)

end Sets

namespace Command

/-! ### Reading several files -/

/-- Whether there is an override file at a path, and some variables are read from it. -/
def Holds (files : Files) (path : String) (set : VariableSet) : Prop :=
  ∃ text, files.read path = .ok text ∧ OverrideFile.read path text = .ok set

section Reading

variable {files : Files} {paths : List String} {sets : List VariableSet}

lemma readOverrides_eq {path : String} {set : VariableSet} (h : Holds files path set) :
    readOverrides files path = .ok set := by
  obtain ⟨text, htext, hset⟩ := h
  unfold readOverrides
  rw [htext]
  change (OverrideFile.read path text).mapError _ = _
  rw [hset]
  rfl

lemma readLayers_eq (h : List.Forall₂ (Holds files) paths sets) :
    readLayers files paths = .ok (VariableSet.layers sets) := by
  suffices hbase : ∀ base : VariableSet,
      paths.foldlM (fun set path => do return set.overlay (← readOverrides files path)) base =
        .ok (sets.foldl VariableSet.overlay base) from hbase .empty
  induction h with
  | nil => exact fun base => rfl
  | cons hpath _ ih =>
    intro base
    rw [List.foldlM_cons, readOverrides_eq hpath]
    exact ih _

lemma run_varfile {set : VariableSet} (h : readLayers files paths = .ok set) :
    run files (.varfile paths none) = { stdout := (Store.unified set).dump } := by
  have hperform : (varfile paths none).perform files =
      .ok { stdout := (Store.unified set).dump } :=
    bind_eq_ok.2 ⟨set, h, rfl⟩
  rw [run, hperform]

lemma isRead_of_last? (h : List.Forall₂ (Holds files) paths sets) {pack : PackId}
    {key : VariableId} {v : Variable} (hv : VariableSet.last? sets pack key = some v) :
    v.IsRead key := by
  have hholds : ∀ set ∈ sets, ∃ path, Holds files path set := by
    clear hv
    induction h with
    | nil => simp
    | @cons path set paths sets hpath _ ih => exact List.forall_mem_cons.2 ⟨⟨path, hpath⟩, ih⟩
  obtain ⟨set, hset, hv⟩ := List.exists_of_findSome?_eq_some hv
  obtain ⟨path, text, -, hread⟩ := hholds set (List.mem_reverse.1 hset)
  exact OverrideFile.isRead_of_read hread hv

end Reading

/-- **What merging files gives**: the printed blocks are those of the variables that the last files
hold, they are read as the finite values of these, and merging them again leaves the blocks of the
finite values, which are all blocks if all values are finite. -/
structure Restates (files : Files) (paths : List String) (sets : List VariableSet)
    (merged : VariableSet) : Prop where
  lookup?_eq : ∀ pack key, merged.lookup? pack key = VariableSet.last? sets pack key
  run_eq : run files (.varfile paths none) = { stdout := merged.blocks fun _ => true }
  exists_read : ∀ filename, ∃ again,
    OverrideFile.read filename (merged.blocks fun _ => true) = .ok again ∧
      ∀ pack key, (again.lookup? pack key).map Variable.value =
        ((VariableSet.last? sets pack key).map Variable.value).filter Value.allFinite
  run_again : ∀ files' path, files'.read path = .ok (merged.blocks fun _ => true) →
    run files' (.varfile [path] none) = { stdout := merged.blocks Value.allFinite }
  blocks_eq : (∀ pack key v, VariableSet.last? sets pack key = some v → v.value.allFinite = true) →
    merged.blocks Value.allFinite = merged.blocks fun _ => true

/-- **Merging override files loses only values with a number that is not finite**, if the names and
the values that the last files hold can be spelled. -/
theorem varfile_restates {files : Files} {paths : List String} {sets : List VariableSet}
    (hread : List.Forall₂ (Holds files) paths sets)
    (hspelled : ∀ pack key v, VariableSet.last? sets pack key = some v →
      v.value.IsSpelled pack key) :
    Restates files paths sets (VariableSet.layers sets) := by
  have hlast (pack : PackId) (key : VariableId) :
      (VariableSet.layers sets).lookup? pack key = VariableSet.last? sets pack key :=
    VariableSet.lookup?_layers sets
  have hmerged : (VariableSet.layers sets).IsSpelled := by
    intro pack key v hv
    rw [hlast] at hv
    exact ⟨isRead_of_last? hread hv, hspelled pack key v hv⟩
  have hdump := dump_eq_blocks (VariableSet.layers sets)
  refine ⟨hlast, ?_, fun filename => ?_, fun files' path htext => ?_, fun hfinite => ?_⟩
  · rw [← hdump]
    exact run_varfile (readLayers_eq hread)
  · obtain ⟨again, hagain, hrestated⟩ := hmerged.exists_read filename
    rw [hdump] at hagain
    refine ⟨again, hagain, fun pack key => ?_⟩
    have hvalue : (again.lookup? pack key).map Variable.value =
        (again.forgetRanges.lookup? pack key).map Variable.value := by
      rw [VariableSet.lookup?_forgetRanges, Option.map_map]
      rfl
    rw [hvalue, hrestated, hmerged.value_restated, hlast]
  · obtain ⟨again, hagain, hrestated⟩ := hmerged.exists_read path
    rw [hdump] at hagain
    have hlayers : readLayers files' [path] = .ok again := by
      rw [readLayers_eq (.cons ⟨_, htext, hagain⟩ .nil), VariableSet.layers, List.foldl_cons,
        List.foldl_nil, VariableSet.overlay_empty]
    rw [run_varfile hlayers, ← dump_forgetRanges, hrestated, dump_restated hmerged.isRead]
  · refine VariableSet.blocks_of_allFinite fun pack key v hv => hfinite pack key v ?_
    rw [← hlast]
    exact hv

/-- Two files that hold one variable both; the lower one holds an infinite number as well. -/
def twoFiles : Files where
  read path :=
    if path = "a.toml" then .ok "a.b = 1\na.c = inf\n"
    else if path = "b.toml" then .ok "a.b = 2\n"
    else .error .missing
  writeFault? _ := none

/-- What the lower file holds. -/
def lower : VariableSet :=
  (VariableSet.put .empty ⟨"a"⟩ ⟨"b"⟩
    { name := ⟨"b"⟩, value := .integer 1, range := ⟨"a.toml", ⟨1, 7, 6⟩, ⟨1, 8, 7⟩⟩ }).put
    ⟨"a"⟩ ⟨"c"⟩
    { name := ⟨"c"⟩, value := .float (.infinite false),
      range := ⟨"a.toml", ⟨2, 7, 14⟩, ⟨2, 10, 17⟩⟩ }

/-- What the upper file holds. -/
def upper : VariableSet :=
  VariableSet.put .empty ⟨"a"⟩ ⟨"b"⟩
    { name := ⟨"b"⟩, value := .integer 2, range := ⟨"b.toml", ⟨1, 7, 6⟩, ⟨1, 8, 7⟩⟩ }

theorem varfile_restates_twoFiles :
    List.Forall₂ (Holds twoFiles) ["a.toml", "b.toml"] [lower, upper] ∧
      Restates twoFiles ["a.toml", "b.toml"] [lower, upper]
        (VariableSet.layers [lower, upper]) := by
  have hread : List.Forall₂ (Holds twoFiles) ["a.toml", "b.toml"] [lower, upper] := by
    have hlower : OverrideFile.read "a.toml" "a.b = 1\na.c = inf\n" = .ok lower := by decide +kernel
    have hupper : OverrideFile.read "b.toml" "a.b = 2\n" = .ok upper := by decide +kernel
    exact .cons ⟨_, rfl, hlower⟩ (.cons ⟨_, rfl, hupper⟩ .nil)
  have hplain : ∀ set ∈ [lower, upper], ∀ p ∈ set.entries, ∀ e ∈ p.2.entries,
      IsPlainName p.1.text ∧ IsPlainName e.1.text ∧ e.2.value.depth ≤ Toml.depthLimit ∧
        e.2.value.startsReserved = false := by decide
  refine ⟨hread, varfile_restates hread fun pack key v hv => ?_⟩
  obtain ⟨set, hset, hv⟩ := List.exists_of_findSome?_eq_some hv
  obtain ⟨vars, hvars, he⟩ := VariableSet.mem_of_lookup? hv
  obtain ⟨hpack, hkey, hdepth, hfree⟩ := hplain set (List.mem_reverse.1 hset) _ hvars _ he
  exact Value.isSpelled_of_plain hpack hkey hdepth hfree

/-! ### What is lost -/

/-- The only file. -/
def oneFile (text : String) : Files where
  read path := if path = "a.toml" then .ok text else .error .missing
  writeFault? _ := none

/-- The text that merging prints for one file. -/
def mergedText (text : String) : String :=
  (run (oneFile text) (.varfile ["a.toml"] none)).stdout

/-- Texts that hold a name with a control character, a name that needs several lines, a map under
the reserved key, and a value that nests too deep. -/
def unspelledTexts : List String :=
  ["a.\"\\u0001\" = 1\n", "a.\"'\\\"\" = 1\n",
    "a.b = \x7bz = 1, \"$__toml_private_datetime\" = \"x\"\x7d\n",
    "[a.b]\nx = " ++ .ofList (List.replicate 79 '[' ++ List.replicate 79 ']') ++ "\n"]

/-- **Merging loses infinite numbers without a failure**, and what it prints for one of
`unspelledTexts` is not accepted. -/
theorem varfile_loses :
    (∃ set again, OverrideFile.read "a.toml" "a.b = inf\n" = .ok set ∧
      (set.lookup? ⟨"a"⟩ ⟨"b"⟩).isSome = true ∧
      OverrideFile.read "a.toml" (mergedText "a.b = inf\n") = .ok again ∧
      again.lookup? ⟨"a"⟩ ⟨"b"⟩ = none) ∧
    ∀ text ∈ unspelledTexts, (OverrideFile.read "a.toml" text).isOk = true ∧
      (OverrideFile.read "a.toml" (mergedText text)).isOk = false := by
  constructor
  · refine ⟨VariableSet.put .empty ⟨"a"⟩ ⟨"b"⟩
        { name := ⟨"b"⟩, value := .float (.infinite false),
          range := ⟨"a.toml", ⟨1, 7, 6⟩, ⟨1, 10, 9⟩⟩ },
      .empty, ?_, rfl, ?_, rfl⟩
    · decide +kernel
    · decide +kernel
  · decide +kernel

end Command

end PackScope
