import PackScope.Proofs.OverrideFile.Restated
import PackScope.Proofs.OverrideFile.Said
import PackScope.Proofs.Toml.Comments

/-!
What the comments of a block say. The names and the description of a variable are written into
comments as they are. They say nothing, and the block is read as its assignment alone, exactly if the
names stay in the comments that they are written in and the description fits into its own.
-/

namespace PackScope

open Toml (Data Node Outline Table Spells dropFiller isCommentChar isBareKey fitsComments
  StaysComment StartsControl)

namespace Variable

/-! ### The parts of a header -/

/-- The comment of the description, if there is one that is not empty. -/
def descriptionLines (v : Variable) : List Char :=
  match v.description with
  | some text => if text.isEmpty then [] else descriptionComment text.toList
  | none => []

/-- The comment of the type, if there is one. -/
def kindLines (v : Variable) : List Char :=
  match v.kind with
  | some kind => line ("#   type: ".toList ++ kind.text.toList)
  | none => []

/-- **Whether the description of a variable fits into comments.** -/
def DescriptionFits (v : Variable) : Prop :=
  ∀ s, v.description = some s → fitsComments s.toList = true

section Header

variable {v : Variable} {pack : PackId}

lemma header_eq (v : Variable) (pack : PackId) : v.header pack =
    line ("# variable \"".toList ++ v.label pack ++ ['"']) ++ v.descriptionLines ++ v.kindLines :=
  rfl

/-- A comment around a text that stays in it says nothing. -/
lemma dropFiller_comment {front cs back : List Char} (hfront : ∀ c ∈ front, isCommentChar c = true)
    (hcs : StaysComment cs) (hback : ∀ c ∈ back, isCommentChar c = true) (rest : List Char) :
    dropFiller false (line ('#' :: front ++ cs ++ back) ++ rest) = dropFiller false rest := by
  have htext : line ('#' :: front ++ cs ++ back) ++ rest =
      '#' :: (front ++ (cs ++ (back ++ '\n' :: rest))) := by
    simp [line]
  rw [htext, Toml.dropFiller_mark, Toml.dropFiller_append_text hfront, hcs.dropFiller,
    Toml.dropFiller_append_text hback, Toml.dropFiller_lineFeed]

lemma dropFiller_kindLines (v : Variable) (rest : List Char) :
    dropFiller false (v.kindLines ++ rest) = dropFiller false rest := by
  unfold kindLines
  split
  next kind _ =>
    have hfront : ∀ c ∈ "   type: ".toList, isCommentChar c = true :=
      List.all_eq_true.1 (by decide)
    have hback : ∀ c ∈ ([] : List Char), isCommentChar c = true := by simp
    rw [← List.append_nil ("#   type: ".toList ++ kind.text.toList)]
    exact dropFiller_comment hfront (.text (text_kind kind)) hback rest
  next => rfl

lemma descriptionComment_append (text rest : List Char) :
    descriptionComment text ++ rest =
      '#' :: ("   description: ".toList ++ (Toml.marked text ++ '\n' :: rest)) := by
  rw [descriptionComment, line, List.append_assoc, List.append_assoc]
  rfl

lemma dropFiller_descriptionComment (text rest : List Char) :
    dropFiller false (descriptionComment text ++ rest) =
      dropFiller true (Toml.marked text ++ '\n' :: rest) := by
  have hfront : ∀ c ∈ "   description: ".toList, isCommentChar c = true :=
    List.all_eq_true.1 (by decide)
  rw [descriptionComment_append, Toml.dropFiller_mark, Toml.dropFiller_append_text hfront]

lemma dropFiller_descriptionLines (h : v.DescriptionFits) (rest : List Char) :
    dropFiller false (v.descriptionLines ++ rest) = dropFiller false rest := by
  unfold descriptionLines
  split
  next text htext =>
    split_ifs
    · rfl
    · rw [dropFiller_descriptionComment, Toml.dropFiller_marked (h text htext)]
  next => rfl

lemma startsControl_descriptionLines (h : ¬ v.DescriptionFits) (rest : List Char) :
    StartsControl (dropFiller false (v.descriptionLines ++ rest)) := by
  obtain ⟨text, h⟩ := not_forall.1 h
  obtain ⟨htext, hfits⟩ := Classical.not_imp.1 h
  have hne : text.isEmpty = false := by
    rw [← Bool.not_eq_true, String.isEmpty_iff]
    rintro rfl
    exact hfits rfl
  unfold descriptionLines
  rw [htext]
  dsimp only
  rw [if_neg (by simp [hne]), dropFiller_descriptionComment]
  exact Toml.startsControl_marked (Bool.eq_false_iff.2 hfits) rest

lemma dropFiller_nameLine (hlabel : StaysComment (v.label pack)) (rest : List Char) :
    dropFiller false (line ("# variable \"".toList ++ v.label pack ++ ['"']) ++ rest) =
      dropFiller false rest := by
  have hfront : ∀ c ∈ " variable \"".toList, isCommentChar c = true :=
    List.all_eq_true.1 (by decide)
  have hback : ∀ c ∈ ['"'], isCommentChar c = true := List.all_eq_true.1 (by decide)
  exact dropFiller_comment hfront hlabel hback rest

/-- A header that says nothing leaves what follows it as it is. -/
lemma dropFiller_header (hlabel : StaysComment (v.label pack)) (h : v.DescriptionFits)
    (rest : List Char) : dropFiller false (v.header pack ++ rest) = dropFiller false rest := by
  rw [header_eq, List.append_assoc, List.append_assoc, dropFiller_nameLine hlabel,
    dropFiller_descriptionLines h, dropFiller_kindLines]

lemma startsControl_header (hlabel : StaysComment (v.label pack)) (h : ¬ v.DescriptionFits)
    (rest : List Char) : StartsControl (dropFiller false (v.header pack ++ rest)) := by
  rw [header_eq, List.append_assoc, List.append_assoc, dropFiller_nameLine hlabel]
  exact startsControl_descriptionLines h _

/-- The names stay in the comment of a header that is followed by filler and filler itself. -/
lemma staysComment_of_header {rest : List Char}
    (h : dropFiller false (v.header pack ++ rest) = []) : StaysComment (v.label pack) := by
  have hfront : ∀ c ∈ " variable \"".toList, isCommentChar c = true :=
    List.all_eq_true.1 (by decide)
  have htext : v.header pack ++ rest = '#' :: (" variable \"".toList ++ (v.label pack ++
      '"' :: '\n' :: (v.descriptionLines ++ (v.kindLines ++ rest)))) := by
    simp [header_eq, line]
  rw [htext, Toml.dropFiller_mark, Toml.dropFiller_append_text hfront] at h
  exact Toml.leadsToComment_of_dropFiller h

end Header

/-! ### Blocks without an assignment -/

section Unset

variable {v : Variable} {pack : PackId}

lemma blockChars_eq (v : Variable) (pack : PackId) :
    v.blockChars pack = v.header pack ++ (v.assignment pack ++ ['\n']) := by
  rw [blockChars, line, List.append_assoc]

lemma dropFiller_unset (hw : v.value.isWritable = false) (hlabel : StaysComment (v.label pack)) :
    dropFiller false (v.assignment pack ++ ['\n']) = [] := by
  have hnone : v.value.toToml? = none := by
    rw [← Option.not_isSome_iff_eq_none, ← Value.isWritable, hw]
    exact Bool.false_ne_true
  have hfront : ∀ c ∈ [' '], isCommentChar c = true := List.all_eq_true.1 (by decide)
  have hback : ∀ c ∈ " is not set".toList, isCommentChar c = true :=
    List.all_eq_true.1 (by decide)
  unfold assignment
  rw [hnone]
  refine (dropFiller_comment hfront hlabel hback ['\n']).trans ?_
  rw [Toml.dropFiller_lineFeed, Toml.dropFiller_nil]

/-- **A block without an assignment is filler** exactly if the names and the description leave its
comments as they are. -/
lemma dropFiller_blockChars_iff (hw : v.value.isWritable = false) :
    dropFiller false (v.blockChars pack) = [] ↔
      StaysComment (v.label pack) ∧ v.DescriptionFits := by
  rw [blockChars_eq]
  constructor
  · intro h
    have hlabel := staysComment_of_header h
    refine ⟨hlabel, ?_⟩
    by_contra hfits
    obtain ⟨c, tail, he, -⟩ := startsControl_header hlabel hfits (v.assignment pack ++ ['\n'])
    rw [h] at he
    cases he
  · rintro ⟨hlabel, hfits⟩
    rw [dropFiller_header hlabel hfits, dropFiller_unset hw hlabel]

end Unset

end Variable

/-! ### Blocks with an assignment -/

namespace Toml

section Assignments

variable {table key tail mid : List Char} {name : String} {d : Data} {node : Node} {n m : ℕ}

/-- What is read off the text of data on a line is that text, to any depth, and the same is read if
the text behind the line is cut short. -/
lemma nestedValue_chars (hd : d.Writable m) (hnm : n ≤ m)
    (h : nestedValue n (d.chars ++ '\n' :: tail) = some (node, mid)) :
    mid = '\n' :: tail ∧ ∀ rest, CutShort ('\n' :: tail) rest → ∃ node',
      nestedValue n (d.chars ++ rest) = some (node', rest) ∧ node.unplaced = node'.unplaced := by
  have hmid : mid = '\n' :: tail := by
    obtain ⟨text, htext, hread⟩ := steady_nestedValue hnm h
    obtain ⟨node', hnode', -⟩ := hread (mid ++ ['\n']) ⟨mid, List.prefix_rfl, rfl⟩
    -- A reader that goes deep enough takes the text of the data and nothing else.
    obtain ⟨node'', hnode'', -⟩ := reads_chars hd ('\n' :: tail ++ ['\n']) (by simp [Ends])
    rw [← List.append_assoc, htext, List.append_assoc, hnode'] at hnode''
    exact List.append_cancel_right (Prod.mk.inj (Option.some.inj hnode'')).2
  refine ⟨hmid, fun rest hcut => ?_⟩
  obtain ⟨text, htext, hread⟩ := steady_nestedValue le_rfl h
  rw [hmid] at htext hread
  rw [List.append_cancel_right htext]
  exact hread rest hcut

/-- A line that assigns data to a dotted key of two parts. -/
def assignedLine (table key : List Char) (d : Data) (rest : List Char) : List Char :=
  table ++ '.' :: (key ++ ' ' :: '=' :: ' ' :: (d.chars ++ '\n' :: rest))

section Lines

variable {name' : String} (htable : Spells table name.toList) (hkey : Spells key name'.toList)
  (hd : d.Writable m)
include htable hkey hd

/-- The assignment of data is read as their value is. -/
lemma assignment_assignedLine (rest : List Char) : assignment value (assignedLine table key d rest) =
    (located value (d.chars ++ '\n' :: rest)).map fun p => (⟨[name], name', p.1.2, p.1.1⟩, p.2) := by
  have hparts := key_pair htable hkey (' ' :: (d.chars ++ '\n' :: rest))
  have hblank : blanks (' ' :: (d.chars ++ '\n' :: rest)) = some ((), d.chars ++ '\n' :: rest) :=
    hd.startsValue.blanks _
  rw [String.ofList_toList, String.ofList_toList] at hparts
  rw [assignment, assignedLine, Reader.bind_of_eq _ hparts,
    Reader.bind_of_eq _ (Reader.exactly_cons '=' _), Reader.bind_of_eq _ hblank, Reader.bind_apply]
  cases located value (d.chars ++ '\n' :: rest) with
  | none => rfl
  | some p => rfl

/-- A line with data that are read is an assignment. -/
lemma line_assignedLine (h : value (d.chars ++ '\n' :: tail) = some (node, '\n' :: tail)) :
    ∃ extent, line (assignedLine table key d tail) =
      some (.assignment ⟨[name], name', extent, node⟩, tail) := by
  obtain ⟨extent, hlocated⟩ := located_of_eq h
  refine ⟨extent, line_of_assignment htable ?_⟩
  refine (assignment_assignedLine htable hkey hd tail).trans ?_
  rw [hlocated]
  rfl

/-- A line with data that are not read is no line. -/
lemma line_assignedLine_of_none (h : value (d.chars ++ '\n' :: tail) = none) :
    line (assignedLine table key d tail) = none := by
  refine (line_of_spells htable _).trans ?_
  apply Reader.bind_of_none
  refine (assignment_assignedLine htable hkey hd tail).trans ?_
  rw [located, Reader.bind_of_eq _ (Reader.get_apply _), Reader.bind_of_none _ h]
  rfl

/-- A line with data that are read makes one table, with filler behind it. -/
lemma tree_assignedLine (h : value (d.chars ++ '\n' :: tail) = some (node, '\n' :: tail))
    (htail : dropFiller false tail = []) :
    ∃ extent, (Outline.ofText? (assignedLine table key d tail)).bind Outline.tree? =
      some [⟨name, none, .table .dotted [⟨name', some extent, node⟩]⟩] := by
  obtain ⟨extent, hline⟩ := line_assignedLine htable hkey hd h
  have hne : assignedLine table key d tail ≠ [] := by simp [assignedLine]
  refine ⟨extent, ?_⟩
  rw [ofText?_of_line hne hline, ofText?_eq_empty_iff.2 htail]
  show (Table.assignAll .header [] [⟨[name], name', extent, node⟩]).bind some = _
  rw [assignAll_cons (assign_first rfl rfl)]
  rfl

/-- **An empty line behind an assignment changes nothing but places.** -/
lemma tree_assignedLine_lineFeed (hdeep : depthLimit ≤ m) :
    ((Outline.ofText? (assignedLine table key d ['\n'])).bind Outline.tree?).map
        (List.map Entry.unplaced) =
      ((Outline.ofText? (assignedLine table key d [])).bind Outline.tree?).map
        (List.map Entry.unplaced) := by
  have hfiller : dropFiller false ['\n'] = [] := rfl
  have hfiller' : dropFiller false [] = [] := rfl
  have hne (tail : List Char) : assignedLine table key d tail ≠ [] := by simp [assignedLine]
  cases hvalue : value (d.chars ++ '\n' :: ['\n']) with
  | some p =>
    obtain ⟨node, mid⟩ := p
    obtain ⟨rfl, hcut⟩ := nestedValue_chars hd hdeep hvalue
    obtain ⟨node', hvalue', hunplaced⟩ := hcut ['\n'] ⟨[], List.nil_prefix, rfl⟩
    obtain ⟨extent, htree⟩ := tree_assignedLine htable hkey hd hvalue hfiller
    obtain ⟨extent', htree'⟩ := tree_assignedLine htable hkey hd hvalue' hfiller'
    rw [htree, htree']
    simp [Entry.unplaced, unplaced_table, hunplaced]
  | none =>
    have hvalue' : value (d.chars ++ '\n' :: []) = none := by
      rw [Option.eq_none_iff_forall_ne_some]
      rintro ⟨node, mid⟩ h
      obtain ⟨-, hcut⟩ := nestedValue_chars hd hdeep h
      obtain ⟨node', h', -⟩ := hcut ['\n', '\n'] ⟨['\n'], List.prefix_rfl, rfl⟩
      cases hvalue.symm.trans h'
    rw [ofText?_of_none (hne _) (line_assignedLine_of_none htable hkey hd hvalue),
      ofText?_of_none (hne _) (line_assignedLine_of_none htable hkey hd hvalue')]

end Lines

end Assignments

end Toml

namespace Variable

section Set

variable {v : Variable} {pack : PackId} {d : Data}

lemma assignment_append (hd : v.value.toToml? = some d)
    (hpack : isBareKey pack.text.toList = true) (hname : isBareKey v.name.text.toList = true)
    (rest : List Char) : v.assignment pack ++ rest =
      Toml.assignedLine pack.text.toList v.name.text.toList d rest := by
  unfold assignment
  rw [hd]
  dsimp only
  rw [assignedKey, assignedKey, if_pos hpack, if_pos hname]
  simp [line, Toml.assignedLine]

lemma staysComment_label (hpack : isBareKey pack.text.toList = true)
    (hname : isBareKey v.name.text.toList = true) : StaysComment (v.label pack) := by
  have htext {key : List Char} (hkey : isBareKey key = true) :
      ∀ c ∈ key, isCommentChar c = true :=
    fun c hc => Toml.isTextChar_of_isBareChar (Toml.isBareChar_of_mem hkey c hc)
  exact .text (text_append (htext hpack) (List.forall_mem_cons.2 ⟨rfl, htext hname⟩))

/-- The head of a block is a comment mark. -/
lemma not_marked_blockChars (v : Variable) (pack : PackId) :
    '\ufeff' ∉ (v.blockChars pack).head? := by
  have hhead : (v.blockChars pack).head? = some '#' := rfl
  rw [hhead]
  decide

/-- The tree of a block is that of its assignment, but for the places. -/
lemma read?_block (hd : v.value.toToml? = some d) (ho : v.value.Ordered)
    (hpack : isBareKey pack.text.toList = true) (hname : isBareKey v.name.text.toList = true)
    (hfits : v.DescriptionFits) :
    (Table.read? (v.block pack)).map (List.map Toml.Entry.unplaced) =
      (Table.read? (.ofList (v.assignment pack))).map (List.map Toml.Entry.unplaced) := by
  have hwritable := Value.writable_toToml? hd ho (le_max_right Toml.depthLimit v.value.depth)
  have hpackSpells : Spells pack.text.toList pack.text.toList := .inl ⟨rfl, hpack⟩
  have hnameSpells : Spells v.name.text.toList v.name.text.toList := .inl ⟨rfl, hname⟩
  have hline : v.assignment pack =
      Toml.assignedLine pack.text.toList v.name.text.toList d [] := by
    rw [← assignment_append hd hpack hname, List.append_nil]
  have hmark : '\ufeff' ∉ (v.assignment pack).head? := by
    rw [hline]
    exact hpackSpells.not_mem_head (by decide) (by decide) _
  have hblock : Outline.ofText? (v.blockChars pack) =
      Outline.ofText? (Toml.assignedLine pack.text.toList v.name.text.toList d ['\n']) := by
    rw [← Toml.ofText?_dropFiller, blockChars_eq,
      dropFiller_header (staysComment_label hpack hname) hfits, Toml.ofText?_dropFiller,
      assignment_append hd hpack hname]
  rw [block, Toml.read?_ofList (v.not_marked_blockChars pack), Toml.read?_ofList hmark, hblock,
    hline]
  exact Toml.tree_assignedLine_lineFeed hpackSpells hnameSpells hwritable (le_max_left _ _)

end Set

end Variable

namespace OverrideFile

/-- **The comments of a block say nothing exactly if the names and the description fit into them.** A
block without an assignment is read as no packs exactly if the names stay in the comments that they
are written in and the description fits into its own. A block that assigns to keys without quotes is
read as its assignment alone, or refused for the same reason, if the description fits, and is no TOML
if it does not. -/
theorem block_inert_iff (v : Variable) (pack : PackId) (filename : String) :
    (v.value.isWritable = false →
      (read filename (v.block pack) = .ok .empty ↔
        StaysComment (v.label pack) ∧ v.DescriptionFits)) ∧
    (v.value.isWritable = true → v.value.Ordered → isBareKey pack.text.toList = true →
      isBareKey v.name.text.toList = true →
      (v.DescriptionFits → ∀ filename', (read filename (v.block pack)).map VariableSet.forgetRanges =
        (read filename' (.ofList (v.assignment pack))).map VariableSet.forgetRanges) ∧
      (¬ v.DescriptionFits → read filename (v.block pack) = .error .malformed)) := by
  constructor
  · intro hw
    rw [read_eq_empty_iff, Variable.block, String.toList_ofList,
      Toml.withoutMark_eq (v.not_marked_blockChars pack)]
    exact v.dropFiller_blockChars_iff hw
  · intro hw ho hpack hname
    obtain ⟨d, hd⟩ := Option.isSome_iff_exists.1 hw
    have hlabel := v.staysComment_label hpack hname
    constructor
    · intro hfits filename'
      exact read_congr (Variable.read?_block hd ho hpack hname hfits)
    · intro hfits
      have hroot : Table.read? (v.block pack) = none := by
        rw [Variable.block, Toml.read?_ofList (v.not_marked_blockChars pack),
          Toml.ofText?_of_startsControl]
        · rfl
        · rw [v.blockChars_eq]
          exact Variable.startsControl_header hlabel hfits _
      rw [read, hroot]

/-- A variable whose description a carriage return breaks. -/
def brokenComment (value : Value) : Variable :=
  { name := ⟨"b"⟩, description := some "x\ry", value := value }

/-- A variable without a value whose name goes on behind the comments that it is written in. -/
def speakingName : Variable := { name := ⟨"x\na.b = ''' #"⟩, value := .null }

theorem block_inert_iff_twoLines :
    let unset : Variable := { name := ⟨"b"⟩, description := some "x\ny", value := .null }
    let set : Variable := { name := ⟨"b"⟩, description := some "x\r\ny", value := .bool true }
    read "vars.toml" (unset.block ⟨"a"⟩) = .ok .empty ∧
      (read "vars.toml" (set.block ⟨"a"⟩)).map VariableSet.forgetRanges =
        (read "line.toml" (.ofList (set.assignment ⟨"a"⟩))).map VariableSet.forgetRanges ∧
      read "vars.toml" ((brokenComment (.bool true)).block ⟨"a"⟩) = .error .malformed := by
  intro unset set
  obtain ⟨hunset, -⟩ := block_inert_iff unset ⟨"a"⟩ "vars.toml"
  obtain ⟨-, hset⟩ := block_inert_iff set ⟨"a"⟩ "vars.toml"
  obtain ⟨-, hbroken⟩ := block_inert_iff (brokenComment (.bool true)) ⟨"a"⟩ "vars.toml"
  refine ⟨(hunset rfl).2 ⟨?_, ?_⟩, (hset rfl trivial (by decide) (by decide)).1 ?_ _,
    (hbroken rfl trivial (by decide) (by decide)).2 ?_⟩
  · exact .text (List.all_eq_true.1 (by decide))
  · rintro s ⟨⟩
    decide
  · rintro s ⟨⟩
    decide
  · intro h
    exact absurd (h _ rfl) (by decide)

theorem block_speaks :
    read "vars.toml" ((brokenComment .null).block ⟨"a"⟩) = .error .malformed ∧
    read "vars.toml" ((brokenComment (.bool true)).block ⟨"a"⟩) = .error .malformed ∧
    (said? "vars.toml" (.ofList ((brokenComment (.bool true)).assignment ⟨"a"⟩))).isSome = true ∧
    (said? "vars.toml" (speakingName.block ⟨"p"⟩)).map (·.lookup? ⟨"a"⟩ ⟨"b"⟩) =
      some (some { name := ⟨"b"⟩, value := .string " #\"\n# p.x\na.b = " }) := by
  refine ⟨?_, ?_, ?_, ?_⟩
  · decide +kernel
  · decide +kernel
  · decide +kernel
  · decide +kernel

end OverrideFile

end PackScope
