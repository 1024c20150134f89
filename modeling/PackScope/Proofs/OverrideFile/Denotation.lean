import PackScope.Proofs.OverrideFile.Steps
import PackScope.Proofs.Toml.Content
import PackScope.Proofs.Toml.Outlines

/-!
Override files that spell the same data in different ways. A document is read as what its data say,
however its tables are spelled, exactly if every variable has a place of its own and no table in its
value starts with the key that is reserved for date-times.
-/

namespace PackScope

open Toml (Data Entry Node Table shownEntries entriesInOrder)

/-! ### Sets without ranges -/

/-- A variable without the range that it was read from. -/
def Variable.forgetRange (v : Variable) : Variable := { v with range := {} }

/-- **The variables of a set without the ranges that they were read from.** -/
def VariableSet.forgetRanges (set : VariableSet) : VariableSet :=
  set.map fun vars => vars.map Variable.forgetRange

/-! ### What data say -/

section

variable {t root : Table} {whole : List Char} {left : ℕ}

/-- Whether data are a table. -/
def Toml.Data.isTable : Data → Bool
  | .table _ => true
  | _ => false

/-- **The data of a document**, in key order. They do not tell how its tables are spelled. -/
def Toml.Table.denoted (root : Table) : List (String × Data) :=
  Entries.ofList (entriesInOrder (shownEntries root))

/-- A variable as it is restated with some data. -/
def restatedEntry (x : String × Data) : VariableId × Variable :=
  (⟨x.1⟩, { name := ⟨x.1⟩, value := .ofToml x.2 })

/-- The variables that data stand for below a pack. -/
def PackVariables.ofData : Data → PackVariables
  | .table es => .ofList (es.map restatedEntry)
  | _ => .empty

/-- **The variables that the data of a document stand for**, if all data at its top level are
tables. -/
def VariableSet.ofData? (es : List (String × Data)) : Option VariableSet :=
  if es.all (·.2.isTable) then some (.ofList (es.map fun e => (⟨e.1⟩, .ofData e.2))) else none

/-! ### How data are spelled -/

/-- The entries of a node, if it is a table. -/
def Toml.Node.entries : Node → Table
  | .table _ t => t
  | _ => []

/-- Whether the value of an entry is read for what its data say: the entry has a place of its own,
and no table in it starts with the reserved key. -/
def Toml.Entry.IsSpelledOut (e : Entry Node) : Prop :=
  e.content.isImplicit = false ∧ e.content.shown.startsReserved = false

instance (e : Entry Node) : Decidable e.IsSpelledOut :=
  inferInstanceAs (Decidable (e.content.isImplicit = false ∧
    e.content.shown.startsReserved = false))

/-- **Whether a document is read for what its data say.** If something else than tables stands at
its top level it is refused in any spelling. -/
def Toml.Table.IsSpelledOut (root : Table) : Prop :=
  (∀ d ∈ root, d.content.shown.isTable = true) →
    ∀ d ∈ root, ∀ e ∈ d.content.entries, e.IsSpelledOut

/-! ### Data of sound trees -/

lemma Toml.Node.Sound.distinct {E : Entry Node → Prop} {node : Node} (h : node.Sound E) :
    node.shown.Distinct := by
  induction h with
  | scalar s => exact .scalar s
  | array _ ih =>
    refine .array ?_
    rw [shownItems_eq_map]
    exact List.forall_mem_map.2 ih
  | table keys_ne _ _ ih =>
    refine .table ?_ ?_
    · rw [shownEntries_eq_map, List.pairwise_map]
      exact keys_ne
    · rw [shownEntries_eq_map]
      exact List.forall_mem_map.2 ih
  | tables _ _ ih =>
    refine .array ?_
    rw [shownItems_eq_map]
    exact List.forall_mem_map.2 ih

/-- The data of the entries of a table where they are. -/
lemma entriesInOrder_shown (t : Table) :
    entriesInOrder (shownEntries t) = t.map fun e => (e.key, e.content.shown.inOrder) := by
  rw [Toml.shownEntries_eq_map, Toml.entriesInOrder_eq_map, List.map_map]
  rfl

lemma isTable_inOrder (d : Data) : d.inOrder.isTable = d.isTable := by
  cases d <;> rfl

lemma exists_table_of_isTable {node : Node} (h : node.shown.isTable = true) :
    ∃ origin t, node = .table origin t := by
  cases node with
  | table origin t => exact ⟨origin, t, rfl⟩
  | scalar s => cases h
  | array items => cases h
  | tables elements => cases h

/-- The variables of a table are those of its entries, in any order. -/
lemma ofData_table (origin : Toml.Origin) (t : Table) :
    PackVariables.ofData (Node.table origin t).shown.inOrder =
      .ofList (t.map fun e => restatedEntry (e.key, e.content.shown.inOrder)) := by
  rw [Node.shown, Data.inOrder, PackVariables.ofData]
  have h := KeyMap.ofList_map_ofList (f := VariableId.mk)
    (fun key d => ({ name := ⟨key⟩, value := .ofToml d } : Variable)) (fun _ _ => rfl)
    (entriesInOrder (shownEntries t))
  rw [entriesInOrder_shown, List.map_map] at h
  rw [entriesInOrder_shown]
  exact h

/-- A document that has tables only at its top level stands for the variables of its entries. -/
lemma ofData?_denoted (hne : root.Pairwise fun d e => d.key ≠ e.key) :
    VariableSet.ofData? root.denoted =
      if ∀ d ∈ root, d.content.shown.isTable = true then
        some (.ofList (root.map fun d => (⟨d.key⟩, .ofData d.content.shown.inOrder)))
      else none := by
  have hmem (x : String × Data) : x ∈ root.denoted ↔
      ∃ d ∈ root, (d.key, d.content.shown.inOrder) = x := by
    have hpairs : (entriesInOrder (shownEntries root)).Pairwise fun a b => a.1 ≠ b.1 := by
      rw [entriesInOrder_shown, List.pairwise_map]
      exact hne
    rw [Toml.Table.denoted, ← KeyMap.entries_ofList, KeyMap.mem_ofList_iff hpairs,
      entriesInOrder_shown, List.mem_map]
  have hall : (root.denoted.all (·.2.isTable) = true) ↔
      ∀ d ∈ root, d.content.shown.isTable = true := by
    rw [List.all_eq_true]
    constructor
    · intro h d hd
      rw [← isTable_inOrder]
      exact h _ ((hmem _).2 ⟨d, hd, rfl⟩)
    · intro h x hx
      obtain ⟨d, hd, rfl⟩ := (hmem x).1 hx
      exact (isTable_inOrder _).trans (h d hd)
  have hset := KeyMap.ofList_map_ofList (f := PackId.mk) (fun _ d => PackVariables.ofData d)
    (fun _ _ => rfl) (entriesInOrder (shownEntries root))
  refine if_congr hall (congrArg some (hset.trans ?_)) rfl
  rw [entriesInOrder_shown, List.map_map]
  rfl

end

/-! ### What is read -/

namespace OverrideFile

variable {filename : String} {bytes : List UInt8} {whole : List Char} {left : ℕ} {t root : Table}

/-- A variable is read from an entry as its data say exactly if the entry is spelled out. -/
lemma namedVariable_iff {e : Entry Node} (he : e.Placed whole left)
    (hcontent : e.content.Sound (Entry.Placed whole left)) :
    (∃ b, namedVariable filename bytes e = .ok b ∧
      (b.1, b.2.forgetRange) = restatedEntry (e.key, e.content.shown.inOrder)) ↔
      e.IsSpelledOut := by
  constructor
  · rintro ⟨b, hb, hforget⟩
    obtain ⟨v, hv, rfl⟩ := namedVariable_eq_ok.1 hb
    obtain ⟨extent, data, hextent, hdata, rfl⟩ := variableOf_eq_ok.1 hv
    have hvalue : Value.ofToml data = .ofToml e.content.shown.inOrder :=
      congrArg (fun p => p.2.value) hforget
    refine ⟨?_, Toml.not_startsReserved_of_data _ data hcontent.distinct hdata hvalue⟩
    rw [← Bool.not_eq_true, ← he.extent_eq_none, hextent]
    exact Option.some_ne_none extent
  · rintro ⟨himplicit, hfree⟩
    match hextent : e.extent with
    | none =>
      rw [he.extent_eq_none.1 hextent] at himplicit
      cases himplicit
    | some extent =>
      have hdata := Toml.data_of_shown e.content hfree
      have hv : variableOf filename bytes e = .ok _ :=
        variableOf_eq_ok.2 ⟨extent, _, hextent, hdata, rfl⟩
      exact ⟨_, namedVariable_eq_ok.2 ⟨_, hv, rfl⟩, rfl⟩

/-- A pack is read from a table as its data say exactly if all its entries are spelled out. -/
lemma packVariables_iff (ht : t.Sound (Entry.Placed whole left)) (origin : Toml.Origin) :
    (∃ vars, packVariables filename bytes t = .ok vars ∧
      vars.map Variable.forgetRange = PackVariables.ofData (Node.table origin t).shown.inOrder) ↔
      ∀ e ∈ t, e.IsSpelledOut := by
  have hkeys : t.Pairwise fun d e => (⟨d.key⟩ : VariableId) ≠ ⟨e.key⟩ :=
    ht.keys_ne.imp fun h he => h (VariableId.mk.inj he)
  rw [ofData_table]
  exact exists_map_ofList_mapM_iff (fun _ _ => key_of_namedVariable) hkeys Variable.forgetRange
    (fun e he => namedVariable_iff (ht.entries e he) (ht.contents e he)) fun e => rfl

/-- A document of tables is read as its data say exactly if all its entries are spelled out. -/
lemma documentVariables_iff (hroot : root.Sound (Entry.Placed whole left))
    (htables : ∀ d ∈ root, d.content.shown.isTable = true) :
    (∃ set, documentVariables filename bytes root = .ok set ∧
      set.forgetRanges =
        .ofList (root.map fun d => (⟨d.key⟩, PackVariables.ofData d.content.shown.inOrder))) ↔
      ∀ d ∈ root, ∀ e ∈ d.content.entries, e.IsSpelledOut := by
  have hkeys : root.Pairwise fun d e => (⟨d.key⟩ : PackId) ≠ ⟨e.key⟩ :=
    hroot.keys_ne.imp fun h he => h (PackId.mk.inj he)
  have hpack : ∀ d ∈ root, (∃ b, namedPack filename bytes d = .ok b ∧
      (b.1, b.2.map Variable.forgetRange) =
        (⟨d.key⟩, PackVariables.ofData d.content.shown.inOrder)) ↔
      ∀ e ∈ d.content.entries, e.IsSpelledOut := by
    intro d hd
    obtain ⟨origin, t, hcontent⟩ := exists_table_of_isTable (htables d hd)
    have ht := hroot.contents d hd
    rw [hcontent, Toml.sound_table] at ht
    rw [hcontent, Node.entries, ← @packVariables_iff filename bytes _ _ t ht origin]
    constructor
    · rintro ⟨b, hb, hforget⟩
      obtain ⟨_, u, hu, vars, hvars, rfl⟩ := namedPack_eq_ok.1 hb
      cases hcontent.symm.trans hu
      exact ⟨vars, hvars, congrArg Prod.snd hforget⟩
    · rintro ⟨vars, hvars, hforget⟩
      exact ⟨_, namedPack_eq_ok.2 ⟨origin, t, hcontent, vars, hvars, rfl⟩,
        congrArg (Prod.mk _) hforget⟩
  exact exists_map_ofList_mapM_iff (fun _ _ => key_of_namedPack) hkeys
    (KeyMap.map Variable.forgetRange) hpack fun d => rfl

/-- A document with something else than a table at its top level is refused. -/
lemma isTable_of_documentVariables {set : VariableSet}
    (h : documentVariables filename bytes root = .ok set) :
    ∀ d ∈ root, d.content.shown.isTable = true := by
  intro d hd
  obtain ⟨packs, hpacks, -⟩ := bind_eq_ok.1 h
  obtain ⟨b, hb⟩ := ok_of_mapM hpacks hd
  obtain ⟨origin, t, hcontent, -⟩ := namedPack_eq_ok.1 hb
  rw [hcontent]
  rfl

/-- What a file is read as but for the places of its variables, nothing if it is refused. -/
def said? (filename text : String) : Option VariableSet :=
  (read filename text).toOption.map VariableSet.forgetRanges

lemma said?_eq_some_iff {text : String} {set : VariableSet} :
    said? filename text = some set ↔ ∃ result, read filename text = .ok result ∧
      result.forgetRanges = set := by
  unfold said?
  cases read filename text with
  | error e => exact iff_of_false (by rintro ⟨⟩) (by rintro ⟨_, ⟨⟩, _⟩)
  | ok result => simp [Except.toOption]

/-- **A file is read for what its data say exactly if it is spelled out.** -/
theorem said?_iff {text : String} (h : Table.read? text = some root) (filename : String) :
    said? filename text = VariableSet.ofData? root.denoted ↔ root.IsSpelledOut := by
  have hsound := Toml.sound_of_read h
  have hread {set : VariableSet} : read filename text = .ok set ↔
      documentVariables filename (utf8Bytes text) root = .ok set := by
    rw [read, h]
  rw [ofData?_denoted hsound.keys_ne]
  by_cases htables : ∀ d ∈ root, d.content.shown.isTable = true
  · simp only [if_pos htables, said?_eq_some_iff, hread, documentVariables_iff hsound htables]
    exact ⟨fun h _ => h, fun h => h htables⟩
  · rw [if_neg htables]
    refine iff_of_true ?_ fun h => absurd h htables
    rw [Option.eq_none_iff_forall_ne_some]
    intro set hset
    obtain ⟨result, hresult, -⟩ := said?_eq_some_iff.1 hset
    exact htables (isTable_of_documentVariables (hread.1 hresult))

end OverrideFile

end PackScope
