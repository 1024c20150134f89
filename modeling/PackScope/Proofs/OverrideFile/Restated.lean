import PackScope.Proofs.Toml.Sheet
import PackScope.Proofs.Toml.SimpleKeys
import PackScope.Proofs.Value.Shape
import PackScope.Store

/-!
What the dump of a variable set restates. Of the variables only those with a TOML form leave more
than comments behind, and of these the name and the value; packs without such a variable disappear.
Under conditions on its names the dump is a text of settings.
-/

namespace PackScope

open Toml (isTextChar stringText basicString literalString FitsLine Spells ReadsLines Setting
  Sheet)

/-! ### What is restated -/

/-- Whether a value has a TOML form. -/
def Value.isWritable (v : Value) : Bool := v.toToml?.isSome

/-- A variable as it is restated under a key: its value alone, if it has a TOML form. -/
def Variable.restated (key : VariableId) (v : Variable) : Option Variable :=
  if v.value.isWritable then some { name := key, value := v.value } else none

/-- The variables of a pack as they are restated. -/
def PackVariables.restated (vars : PackVariables) : PackVariables :=
  vars.filterMap Variable.restated

/-- **The variables of a set as its dump restates them.** -/
def VariableSet.restated (set : VariableSet) : VariableSet :=
  set.filterMap fun _ vars => if vars.restated.entries.isEmpty then none else some vars.restated

/-! ### What can be spelled -/

/-- Whether a name that is written as a string is written on one line. -/
def OnOneLine (name : String) : Prop :=
  stringText name.toList = basicString name.toList ∨
    stringText name.toList = literalString name.toList

/-- **Whether a variable can be restated so that it can be read again**: no control characters break
a comment, and the key and the value are in the range of the reader. -/
structure Variable.Readable (v : Variable) (pack : PackId) : Prop where
  pack_text : ∀ c ∈ pack.text.toList, isTextChar c = true
  name_text : ∀ c ∈ v.name.text.toList, isTextChar c = true
  description_text : ∀ s, v.description = some s → ∀ c ∈ s.toList, isTextChar c = true ∨ c = '\n'
  pack_line : v.value.isWritable = true → OnOneLine pack.text
  name_line : v.value.isWritable = true → OnOneLine v.name.text
  ordered : v.value.isWritable = true → v.value.Ordered
  depth_le : v.value.isWritable = true → v.value.depth ≤ Toml.depthLimit

/-- The characters of a name tell whether it is written on one line. -/
lemma onOneLine_iff {name : String} : OnOneLine name ↔ FitsLine name.toList := by
  obtain ⟨hfits, e | ⟨e, -⟩⟩ | ⟨hfits, hlines⟩ := Toml.stringText_cases name.toList
  · exact iff_of_true (.inl e) hfits
  · exact iff_of_true (.inr e) hfits
  refine iff_of_false ?_ hfits
  obtain ⟨q, tail, hq, htripled⟩ := Toml.stringText_tripled hfits
  rintro (e | e)
  · -- A string in one pair of double quotes is a key, and one in three pairs is not.
    refine Toml.not_simpleKey_tripled hq tail name.toList ?_
    rw [← htripled, e]
    exact .quoted (.basic (Toml.basicText_basicBody _))
  · rcases hlines with h | h
    · cases h.symm.trans e
    · have hlen := congrArg List.length (h.symm.trans e)
      simp [Toml.literalLines, literalString] at hlen
      omega

lemma OnOneLine.spells {name : String} (h : OnOneLine name) :
    Spells (Variable.assignedKey name.toList) name.toList := by
  unfold Variable.assignedKey
  split_ifs with hb
  · exact .inl ⟨rfl, hb⟩
  · exact .inr (Toml.lineString_stringText (onOneLine_iff.1 h)).reads

/-! ### Blocks -/

section Blocks

variable {v : Variable} {pack : PackId}

/-- The setting that a variable is restated by, if its value has a TOML form. -/
def Variable.setting? (v : Variable) (pack : PackId) : Option Setting :=
  v.value.toToml?.map fun d => ⟨pack.text, v.name.text, d⟩

lemma text_append {cs ds : List Char} (hcs : ∀ c ∈ cs, isTextChar c = true)
    (hds : ∀ c ∈ ds, isTextChar c = true) : ∀ c ∈ cs ++ ds, isTextChar c = true :=
  fun c hc => (List.mem_append.1 hc).elim (hcs c) (hds c)

lemma text_kind (kind : Kind) : ∀ c ∈ kind.text.toList, isTextChar c = true := by
  induction kind with
  | any => exact List.all_eq_true.1 (by decide)
  | bool => exact List.all_eq_true.1 (by decide)
  | number => exact List.all_eq_true.1 (by decide)
  | string => exact List.all_eq_true.1 (by decide)
  | list item ih =>
    rw [Kind.text, String.toList_append, String.toList_append]
    exact text_append (text_append (List.all_eq_true.1 (by decide)) ih)
      (List.all_eq_true.1 (by decide))
  | map value ih =>
    rw [Kind.text, String.toList_append, String.toList_append]
    exact text_append (text_append (List.all_eq_true.1 (by decide)) ih)
      (List.all_eq_true.1 (by decide))

lemma Variable.Readable.label_text (h : v.Readable pack) :
    ∀ c ∈ v.label pack, isTextChar c = true :=
  text_append h.pack_text (List.forall_mem_cons.2 ⟨by decide, h.name_text⟩)

lemma readsLines_marked (marked : List Char) {cs : List Char}
    (hmarked : ∀ c ∈ marked, isTextChar c = true) (hcs : ∀ c ∈ cs, isTextChar c = true) :
    ReadsLines (Variable.line ('#' :: marked ++ cs)) [] :=
  Toml.readsLines_comment (text_append hmarked hcs)

lemma Variable.Readable.header (h : v.Readable pack) : ReadsLines (v.header pack) [] := by
  have hname : ReadsLines (Variable.line ("# variable \"".toList ++ v.label pack ++ ['"'])) [] := by
    rw [List.append_assoc]
    exact readsLines_marked " variable \"".toList (List.all_eq_true.1 (by decide))
      (text_append h.label_text (List.all_eq_true.1 (by decide)))
  have hkind (kind : Kind) :
      ReadsLines (Variable.line ("#   type: ".toList ++ kind.text.toList)) [] :=
    readsLines_marked "   type: ".toList (List.all_eq_true.1 (by decide)) (text_kind kind)
  show ReadsLines (v.header pack) ([] ++ [] ++ [])
  refine (hname.append ?_).append ?_
  · split
    next text htext =>
      split_ifs
      · exact Toml.readsLines_nil
      · exact Toml.readsLines_comments "   description: ".toList (List.all_eq_true.1 (by decide))
          (h.description_text text htext)
    next => exact Toml.readsLines_nil
  · split
    next kind _ => exact hkind kind
    next => exact Toml.readsLines_nil

lemma Variable.Readable.assignment (h : v.Readable pack) :
    ReadsLines (v.assignment pack) (v.setting? pack).toList := by
  unfold Variable.assignment Variable.setting?
  split
  next d hd =>
    have hw : v.value.isWritable = true := by rw [Value.isWritable, hd]; rfl
    have hs := Toml.readsLines_setting (s := ⟨pack.text, v.name.text, d⟩)
      (h.pack_line hw).spells (h.name_line hw).spells
      (Value.writable_toToml? hd (h.ordered hw) (h.depth_le hw))
    rw [hd]
    simpa [Variable.line] using hs
  next hd =>
    rw [hd, List.append_assoc]
    exact readsLines_marked [' '] (List.all_eq_true.1 (by decide))
      (text_append h.label_text (List.all_eq_true.1 (by decide)))

/-- **A block says the setting of its variable.** -/
lemma Variable.Readable.blockChars (h : v.Readable pack) :
    ReadsLines (v.blockChars pack) (v.setting? pack).toList := by
  have hs := (h.header.append h.assignment).append Toml.readsLines_empty
  rwa [List.nil_append, List.append_nil] at hs

end Blocks

/-! ### Dumps -/

section Dumps

variable {set : VariableSet}

/-- The entries of the table of a pack in a dump: the variables with a TOML form, under their
names. -/
def PackVariables.named (vars : PackVariables) : List (String × Toml.Data) :=
  vars.entries.filterMap fun e => e.2.value.toToml?.map fun d => (e.2.name.text, d)

/-- **The tables of a dump**, one for each pack with a variable that has a TOML form. -/
def VariableSet.namedSheet (set : VariableSet) : Sheet :=
  (set.entries.map fun p => (p.1.text, p.2.named)).filter fun p => !p.2.isEmpty

lemma settingsOf_named (pack : PackId) (vars : PackVariables) :
    vars.entries.flatMap (fun e => (e.2.setting? pack).toList) =
      Toml.settingsOf (pack.text, vars.named) := by
  unfold Toml.settingsOf PackVariables.named
  induction vars.entries with
  | nil => rfl
  | cons e es ih =>
    rw [List.flatMap_cons, ih, Variable.setting?, List.filterMap_cons]
    cases e.2.value.toToml? with
    | none => rfl
    | some d => rfl

lemma settings_namedSheet (set : VariableSet) :
    (set.entries.flatMap fun p => p.2.entries.flatMap fun e => (e.2.setting? p.1).toList) =
      set.namedSheet.settings := by
  unfold VariableSet.namedSheet Sheet.settings
  induction set.entries with
  | nil => rfl
  | cons p ps ih =>
    rw [List.flatMap_cons, ih, settingsOf_named, List.map_cons, List.filter_cons]
    by_cases hp : p.2.named.isEmpty = true
    · rw [if_neg (by simpa using hp), Toml.settingsOf, List.isEmpty_iff.1 hp]
      rfl
    · rw [if_pos (by simpa using hp)]
      rfl

/-- **A dump says the settings of its tables**, whatever the keys of the variables are. -/
lemma readsLines_dumpChars
    (h : ∀ p ∈ set.entries, ∀ e ∈ p.2.entries, Variable.Readable e.2 p.1) :
    ReadsLines (Store.unified set).dumpChars set.namedSheet.settings := by
  rw [← settings_namedSheet]
  exact Toml.readsLines_flatMap fun p hp => Toml.readsLines_flatMap fun e he =>
    (h p hp e he).blockChars

lemma writable_namedSheet
    (h : ∀ p ∈ set.entries, ∀ e ∈ p.2.entries, Variable.Readable e.2 p.1) :
    ∀ x ∈ set.namedSheet, ∀ y ∈ x.2, y.2.Writable Toml.depthLimit := by
  intro x hx y hy
  obtain ⟨p, hp, rfl⟩ := List.mem_map.1 (List.mem_filter.1 hx).1
  obtain ⟨e, he, hy⟩ := List.mem_filterMap.1 hy
  obtain ⟨d, hd, rfl⟩ := Option.map_eq_some_iff.1 hy
  have hw : e.2.value.isWritable = true := by
    rw [Value.isWritable, hd]
    rfl
  exact Value.writable_toToml? hd ((h p hp e he).ordered hw) ((h p hp e he).depth_le hw)

lemma head?_flatMap {α : Type} {xs : List α} {f : α → List Char} {c : Char}
    (h : ∀ x ∈ xs, ∀ d ∈ (f x).head?, d = c) : ∀ d ∈ (xs.flatMap f).head?, d = c := by
  induction xs with
  | nil => simp
  | cons x xs ih =>
    intro d hd
    rw [List.flatMap_cons] at hd
    match hf : f x with
    | [] =>
      rw [hf, List.nil_append] at hd
      exact ih (fun y hy => h y (List.mem_cons_of_mem _ hy)) d hd
    | e :: es =>
      rw [hf] at hd
      exact h x (by simp) d (by rw [hf]; exact hd)

/-- A dump starts with a comment mark, if it is not empty. -/
lemma head?_dumpChars (set : VariableSet) :
    ∀ c ∈ (Store.unified set).dumpChars.head?, c = '#' := by
  refine head?_flatMap fun p _ => head?_flatMap fun e _ c hc => ?_
  have hhead : (e.2.blockChars p.1).head? = some '#' := rfl
  rw [hhead] at hc
  exact (Option.some.inj hc).symm

/-- A dump starts with no byte order mark. -/
lemma not_marked (set : VariableSet) : '\ufeff' ∉ (Store.unified set).dumpChars.head? := fun hm =>
  absurd (head?_dumpChars set _ hm) (by decide)

/-! ### Dumps of variables under their own names -/

/-- The entries of the table of a pack: the variables with a TOML form, under their keys. -/
def PackVariables.written (vars : PackVariables) : List (String × Toml.Data) :=
  vars.entries.filterMap fun e => e.2.value.toToml?.map fun d => (e.1.text, d)

/-- The packs with a variable that has a TOML form. -/
def VariableSet.kept (set : VariableSet) : List (PackId × PackVariables) :=
  set.entries.filter fun p => !p.2.written.isEmpty

/-- The tables of a dump, one for each pack that is kept. -/
def VariableSet.sheet (set : VariableSet) : Sheet :=
  set.kept.map fun p => (p.1.text, p.2.written)

/-- **Whether all variables of a set can be restated so that they can be read again**, each under
its own name. -/
structure VariableSet.Readable (set : VariableSet) : Prop where
  name_eq : ∀ p ∈ set.entries, ∀ e ∈ p.2.entries, e.2.name = e.1
  readable : ∀ p ∈ set.entries, ∀ e ∈ p.2.entries, e.2.Readable p.1

/-- Where names are keys, the tables of the dump are those under the keys. -/
lemma namedSheet_eq (h : ∀ p ∈ set.entries, ∀ e ∈ p.2.entries, e.2.name = e.1) :
    set.namedSheet = set.sheet := by
  have hnamed : ∀ p ∈ set.entries, p.2.named = p.2.written := fun p hp =>
    List.filterMap_congr fun e he => by rw [h p hp e he]
  have hmap : (set.entries.map fun p => (p.1.text, p.2.named)) =
      set.entries.map fun p => (p.1.text, p.2.written) :=
    List.map_congr_left fun p hp => by rw [hnamed p hp]
  rw [VariableSet.namedSheet, hmap, List.filter_map]
  rfl

lemma ascending_written (vars : PackVariables) : Ascending vars.written := by
  refine List.Pairwise.filterMap _ (fun a a' h b hb b' hb' => ?_) vars.ascending
  obtain ⟨c, -, rfl⟩ := Option.map_eq_some_iff.1 hb
  obtain ⟨c', -, rfl⟩ := Option.map_eq_some_iff.1 hb'
  exact h

lemma ascending_kept (set : VariableSet) : Ascending set.kept :=
  List.Pairwise.filter _ set.ascending

lemma ascending_sheet (set : VariableSet) : Ascending set.sheet :=
  List.pairwise_map.2 (ascending_kept set)

lemma sheet_proper (set : VariableSet) : set.sheet.Proper where
  tables := (ascending_sheet set).keys_ne
  keys x hx := by
    obtain ⟨p, -, rfl⟩ := List.mem_map.1 hx
    exact (ascending_written p.2).keys_ne
  nonempty x hx := by
    obtain ⟨p, hp, rfl⟩ := List.mem_map.1 hx
    simpa using (List.mem_filter.1 hp).2

end Dumps

end PackScope
