import PackScope.Proofs.OverrideFile.Denotation
import PackScope.Proofs.Toml.Silent

/-!
What a file says beside how it says it. The places of the values in the text decide the ranges of the
variables and nothing else, not even why a file is refused; and the files that say nothing are those
that are blanks, comments and line breaks from start to end.
-/

namespace PackScope.OverrideFile

open Toml (Entry Node Table dropFiller withoutMark)

/-! ### Places -/

section Places

variable {filename filename' : String} {bytes bytes' : List UInt8} {root root' : Table}

lemma firstKey_unplaced (node : Node) : firstKey node.unplaced = firstKey node := by
  match node with
  | .scalar _ => rfl
  | .array _ => rfl
  | .tables _ => rfl
  | .table _ [] => rfl
  | .table _ (_ :: _) => rfl

lemma variableOf_unplaced (e : Entry Node) :
    (variableOf filename bytes e).map Variable.forgetRange =
      (variableOf filename' bytes' e.unplaced).map Variable.forgetRange := by
  obtain ⟨key, extent, content⟩ := e
  cases extent with
  | none =>
    have hkey := firstKey_unplaced content
    unfold variableOf Entry.unplaced
    dsimp only [Option.map_none]
    rw [hkey]
  | some extent =>
    unfold variableOf Entry.unplaced
    dsimp only [Option.map_some]
    rw [Toml.data_unplaced]
    cases content.data with
    | error e => rfl
    | ok d => rfl

lemma packVariables_unplaced (t : Table) :
    (packVariables filename bytes t).map (KeyMap.map Variable.forgetRange) =
      (packVariables filename' bytes' (t.map Entry.unplaced)).map
        (KeyMap.map Variable.forgetRange) := by
  have hnamed (e : Entry Node) :
      (namedVariable filename bytes e).map (fun b => (b.1, b.2.forgetRange)) =
        (namedVariable filename' bytes' e.unplaced).map fun b => (b.1, b.2.forgetRange) := by
    apply map_bind_congr (variableOf_unplaced e)
    intro v v' hv
    have hname : v.forgetRange.name = v'.forgetRange.name := congrArg Variable.name hv
    show Except.ok (v.forgetRange.name, v.forgetRange) =
      Except.ok (v'.forgetRange.name, v'.forgetRange)
    rw [hname, hv]
  apply map_bind_congr (mapM_map_congr hnamed t)
  intro vars vars' hvars
  show Except.ok (KeyMap.map _ (.ofList vars)) = Except.ok (KeyMap.map _ (.ofList vars'))
  rw [KeyMap.map_ofList, KeyMap.map_ofList, hvars]

lemma packEntries_unplaced (node : Node) :
    (packEntries node).map (List.map Entry.unplaced) = packEntries node.unplaced := by
  cases node with
  | scalar s => cases s <;> rfl
  | array items => rfl
  | tables elements => rfl
  | table origin t =>
    rw [Toml.unplaced_table]
    rfl

lemma documentVariables_unplaced (root : Table) :
    (documentVariables filename bytes root).map VariableSet.forgetRanges =
      (documentVariables filename' bytes' (root.map Entry.unplaced)).map
        VariableSet.forgetRanges := by
  have hnamed (e : Entry Node) :
      (namedPack filename bytes e).map (fun b => (b.1, b.2.map Variable.forgetRange)) =
        (namedPack filename' bytes' e.unplaced).map
          fun b => (b.1, b.2.map Variable.forgetRange) := by
    have hentries : (packEntries e.content).map (List.map Entry.unplaced) =
        (packEntries e.unplaced.content).map id := by
      rw [packEntries_unplaced]
      show packEntries e.content.unplaced = (packEntries e.content.unplaced).map id
      cases packEntries e.content.unplaced <;> rfl
    apply map_bind_congr hentries
    rintro t _ rfl
    apply map_bind_congr (packVariables_unplaced t)
    intro vars vars' hvars
    show Except.ok (_, _) = Except.ok (_, _)
    rw [hvars]
    rfl
  apply map_bind_congr (mapM_map_congr hnamed root)
  intro packs packs' hpacks
  show Except.ok (KeyMap.map _ (.ofList packs)) = Except.ok (KeyMap.map _ (.ofList packs'))
  rw [KeyMap.map_ofList, KeyMap.map_ofList, hpacks]

/-- **What a document says does not depend on where its values stand**, and why it is refused does
not either. -/
theorem documentVariables_congr (h : root.map Entry.unplaced = root'.map Entry.unplaced) :
    (documentVariables filename bytes root).map VariableSet.forgetRanges =
      (documentVariables filename' bytes' root').map VariableSet.forgetRanges := by
  have hroot : (documentVariables filename bytes root).map VariableSet.forgetRanges =
      (documentVariables filename' bytes' (root.map Entry.unplaced)).map
        VariableSet.forgetRanges := documentVariables_unplaced root
  rw [hroot, h]
  exact (documentVariables_unplaced root').symm

/-- **Files whose trees differ in places only say the same**, or are refused for the same reason. -/
theorem read_congr {text text' : String} (h : (Table.read? text).map (List.map Entry.unplaced) =
    (Table.read? text').map (List.map Entry.unplaced)) :
    (read filename text).map VariableSet.forgetRanges =
      (read filename' text').map VariableSet.forgetRanges := by
  unfold read
  cases hroot : Table.read? text with
  | none =>
    cases hroot' : Table.read? text' with
    | none => rfl
    | some root' =>
      rw [hroot, hroot'] at h
      cases h
  | some root =>
    cases hroot' : Table.read? text' with
    | none =>
      rw [hroot, hroot'] at h
      cases h
    | some root' =>
      rw [hroot, hroot'] at h
      exact documentVariables_congr (Option.some.inj h)

end Places

/-! ### Files that say nothing -/

section Nothing

variable {filename text : String} {bytes : List UInt8} {root : Table}

lemma eq_nil_of_ofList {packs : List (PackId × PackVariables)} (h : KeyMap.ofList packs = .empty) :
    packs = [] := by
  match packs with
  | [] => rfl
  | p :: packs =>
    have hmem : p.1 ∈ (Entries.ofList (p :: packs)).map Prod.fst := mem_keys_ofList.2 (by simp)
    rw [← KeyMap.entries_ofList, h] at hmem
    cases hmem

lemma documentVariables_eq_empty : documentVariables filename bytes root = .ok .empty ↔ root = [] := by
  constructor
  · intro h
    obtain ⟨packs, hpacks, h⟩ := bind_eq_ok.1 h
    have hnil := eq_nil_of_ofList (pure_eq_ok.1 h).symm
    match root with
    | [] => rfl
    | e :: root =>
      obtain ⟨_, _, _, _, rfl⟩ := mapM_cons_ok.1 hpacks
      cases hnil
  · rintro rfl
    rfl

/-- **A file is read as the set without packs exactly if it is filler** from its start to its end,
behind the byte order mark that it may start with. -/
theorem read_eq_empty_iff :
    read filename text = .ok .empty ↔ dropFiller false (withoutMark text.toList) = [] := by
  rw [← Toml.read?_eq_nil_iff, read_eq_ok]
  constructor
  · rintro ⟨root, hroot, h⟩
    rw [hroot, documentVariables_eq_empty.1 h]
  · intro h
    exact ⟨[], h, documentVariables_eq_empty.2 rfl⟩

end Nothing

end PackScope.OverrideFile
