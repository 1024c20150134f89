import Mathlib.Data.List.Basic
import PackScope.Command.FileTree
import PackScope.Command.Outcome
import PackScope.Proofs.Traversal

/-!
Writing into a tree of files. A text that is written to a path is read back from it, and no other
file and no directory changes.
-/

namespace PackScope

namespace FileTree

/-- A tree with a text in the file at a place, whether a file was there before or not. -/
def put (t : FileTree) (place : Place) (text : String) : FileTree :=
  { t with files := (place, text.toUTF8) :: t.files.filter fun f => f.1 ≠ place }

/-- **The tree that is left behind** by an outcome. -/
def after (t : FileTree) (o : Outcome) : FileTree :=
  match o.written with
  | none => t
  | some (path, text) =>
    match t.target path with
    | .ok place => t.put place text
    | .error _ => t

variable {t : FileTree} {path text : String} {place : Place}

/-! ### Places -/

lemma file?_put_self : (t.put place text).file? place = some text.toUTF8 := by
  rw [file?, put, List.lookup_cons, beq_self_eq_true]

lemma file?_put_of_ne {other : Place} (h : other ≠ place) :
    (t.put place text).file? other = t.file? other := by
  rw [file?, put, List.lookup_cons, beq_false_of_ne h, file?]
  dsimp only
  induction t.files with
  | nil => rfl
  | cons f files ih =>
    obtain ⟨name, bytes⟩ := f
    rw [List.filter_cons, List.lookup_cons]
    by_cases hname : name = place
    · rw [if_neg (by simpa using hname), ih, hname, beq_false_of_ne h]
    · rw [if_pos (by simpa using hname), List.lookup_cons, ih]

lemma isDirectory_iff {a : Place} : t.isDirectory a = true ↔
    a <+: t.current ∨ (∃ d ∈ t.directories, a <+: d) ∨ ∃ f ∈ t.files, a <+: f.1.dropLast := by
  simp only [isDirectory, Bool.or_eq_true, List.any_eq_true, List.isPrefixOf_iff_prefix, or_assoc]

/-- What is in front of a directory is a directory. -/
lemma isDirectory_of_prefix {a b : Place} (hab : a <+: b) (h : t.isDirectory b = true) :
    t.isDirectory a = true := by
  rw [isDirectory_iff] at h ⊢
  rcases h with h | ⟨d, hd, h⟩ | ⟨f, hf, h⟩
  · exact .inl (hab.trans h)
  · exact .inr (.inl ⟨d, hd, hab.trans h⟩)
  · exact .inr (.inr ⟨f, hf, hab.trans h⟩)

/-- A file that is put into a directory makes no other directories. -/
lemma isDirectory_put (h : t.isDirectory place.dropLast = true) (a : Place) :
    (t.put place text).isDirectory a = t.isDirectory a := by
  rw [Bool.eq_iff_iff]
  constructor
  · intro ha
    rcases isDirectory_iff.1 ha with ha | ha | ⟨f, hf, ha⟩
    · exact isDirectory_iff.2 (.inl ha)
    · exact isDirectory_iff.2 (.inr (.inl ha))
    · rcases List.mem_cons.1 hf with rfl | hf
      · exact isDirectory_of_prefix ha h
      · exact isDirectory_iff.2 (.inr (.inr ⟨f, List.mem_of_mem_filter hf, ha⟩))
  · intro ha
    rw [isDirectory_iff]
    rcases isDirectory_iff.1 ha with ha | ha | ⟨f, hf, ha⟩
    · exact .inl ha
    · exact .inr (.inl ha)
    · by_cases hplace : f.1 = place
      -- The file that is replaced was in the same directory.
      · rw [hplace] at ha
        exact .inr (.inr ⟨_, List.mem_cons_self, ha⟩)
      · have hkept : f ∈ t.files.filter fun f => f.1 ≠ place := by simp [hf, hplace]
        exact .inr (.inr ⟨f, List.mem_cons_of_mem _ hkept, ha⟩)

/-! ### Paths -/

section Following

variable (h : t.isDirectory place.dropLast = true)

include h

/-- A step that leads somewhere still leads there. -/
lemma step_put {a b : Place} {name : String} (hstep : t.step a name = .ok b) :
    (t.put place text).step a name = .ok b := by
  unfold step at hstep ⊢
  dsimp only at hstep ⊢
  rw [isDirectory_put h, isDirectory_put h]
  split_ifs at hstep with hdir hdot hdots hlong hnext
  · rw [if_neg hdir, if_pos hdot]
    exact hstep
  · rw [if_neg hdir, if_neg hdot, if_pos hdots]
    exact hstep
  · rw [if_neg hdir, if_neg hdot, if_neg hdots, if_neg hlong, if_pos]
    · exact hstep
    · rw [Bool.or_eq_true] at hnext ⊢
      refine hnext.imp_left fun hfile => ?_
      by_cases hplace : a ++ [name] = place
      · rw [hplace, file?_put_self]
        rfl
      · rw [file?_put_of_ne hplace]
        exact hfile

/-- Names that lead somewhere still lead there. -/
lemma follow_put {p : PathParts} {names : List String} {b : Place}
    (hfollow : t.follow p names = .ok b) : (t.put place text).follow p names = .ok b := by
  unfold follow at hfollow ⊢
  change names.foldlM _ (if p.fromRoot then [] else t.current) = _
  generalize (if p.fromRoot then [] else t.current : Place) = a at *
  induction names generalizing a with
  | nil => exact hfollow
  | cons name names ih =>
    rw [List.foldlM_cons] at hfollow ⊢
    obtain ⟨next, hstep, hfollow⟩ := bind_eq_ok.1 hfollow
    exact bind_eq_ok.2 ⟨next, step_put h hstep, ih next hfollow⟩

end Following

/-! ### Writing -/

lemma guard_eq_ok {α : Type} {c : Prop} [Decidable c] {fault : FileFault}
    {x : Except FileFault α} {a : α} :
    (if c then (do throw fault; x) else x) = .ok a ↔ ¬ c ∧ x = .ok a := by
  split_ifs with hc
  · exact iff_of_false (by rintro ⟨⟩) (fun h => h.1 hc)
  · exact ⟨fun h => ⟨hc, h⟩, And.right⟩

/-- What a path needs so that a file can be written to it: it has no slash at its end, and its last
name is a proper one in a directory. -/
lemma target_eq_ok (h : t.target path = .ok place) : ∃ p name parent,
    parts path = .ok p ∧ p.names.getLast? = some name ∧
      t.follow p p.names.dropLast = .ok parent ∧ t.isDirectory parent = true ∧
      p.slash = false ∧ name ≠ "." ∧ name ≠ ".." ∧ name.utf8ByteSize ≤ nameLimit ∧
      place = parent ++ [name] := by
  obtain ⟨p, hp, h⟩ := bind_eq_ok.1 h
  cases hname : p.names.getLast? with
  | none =>
    rw [hname] at h
    cases h
  | some name =>
    rw [hname] at h
    obtain ⟨parent, hparent, h⟩ := bind_eq_ok.1 h
    obtain ⟨hparentDir, h⟩ := guard_eq_ok.1 h
    obtain ⟨hproper, h⟩ := guard_eq_ok.1 h
    obtain ⟨hsize, h⟩ := guard_eq_ok.1 h
    obtain ⟨-, h⟩ := guard_eq_ok.1 h
    obtain rfl := pure_eq_ok.1 h
    simp only [Bool.or_eq_true, decide_eq_true_eq, not_or] at hproper
    obtain ⟨⟨hslash, hdot⟩, hdots⟩ := hproper
    exact ⟨p, name, parent, hp, hname, hparent, by simpa using hparentDir, by simpa using hslash,
      hdot, hdots, by omega, rfl⟩

lemma fromUTF8?_toUTF8 (s : String) : String.fromUTF8? s.toUTF8 = some s :=
  dif_pos s.isValidUTF8

/-- **What is written to a path is read back from it.** -/
theorem read_put (h : t.target path = .ok place) : (t.put place text).read path = .ok text := by
  obtain ⟨p, name, parent, hp, hname, hparent, hdir, hslash, hdot, hdots, hsize, rfl⟩ :=
    target_eq_ok h
  have hdir' : t.isDirectory (parent ++ [name]).dropLast = true := by
    rwa [List.dropLast_concat]
  have hstep : (t.put (parent ++ [name]) text).step parent name = .ok (parent ++ [name]) := by
    have hfile : ((t.put (parent ++ [name]) text).file? (parent ++ [name])).isSome = true := by
      rw [file?_put_self]
      rfl
    unfold step
    dsimp only
    rw [isDirectory_put hdir', hdir, if_neg (by decide), if_neg hdot, if_neg hdots,
      if_neg (by omega), hfile, Bool.true_or, if_pos rfl]
  have hsource : (t.put (parent ++ [name]) text).source path = .ok (parent ++ [name]) := by
    have hnames : p.names = p.names.dropLast ++ [name] :=
      (List.dropLast_append_getLast? name hname).symm
    refine bind_eq_ok.2 ⟨p, hp, ?_⟩
    rw [hslash, if_neg (by decide), follow, hnames, List.foldlM_append]
    refine bind_eq_ok.2 ⟨parent, follow_put hdir' hparent, ?_⟩
    rw [List.foldlM_cons, hstep]
    rfl
  refine bind_eq_ok.2 ⟨parent ++ [name], hsource, ?_⟩
  rw [file?_put_self]
  dsimp only
  rw [fromUTF8?_toUTF8]
  rfl

/-! ### What is left behind -/

variable {o : Outcome}

lemma after_eq_self (h : o.written = none) : t.after o = t := by
  rw [after, h]

/-- **What a text written to a path changes**: the text is in the file there, and all other files
and all directories are as they were. -/
structure Rewrites (t after : FileTree) (path text : String) : Prop where
  read_eq : after.read path = .ok text
  exists_place : ∃ place, t.target path = .ok place ∧
    ∀ other, other ≠ place → after.file? other = t.file? other
  isDirectory_eq : ∀ place, after.isDirectory place = t.isDirectory place

lemma rewrites_after (h : o.written = some (path, text)) (hwrite : t.writeFault? path = none) :
    t.Rewrites (t.after o) path text := by
  unfold writeFault? at hwrite
  cases htarget : t.target path with
  | error fault =>
    rw [htarget] at hwrite
    cases hwrite
  | ok place =>
    have hafter : t.after o = t.put place text := by
      rw [after, h]
      dsimp only
      rw [htarget]
    rw [hafter]
    refine ⟨read_put htarget, ⟨place, htarget, fun _ => file?_put_of_ne⟩, fun a => ?_⟩
    obtain ⟨_, _, parent, -, -, -, hdir, -, -, -, -, rfl⟩ := target_eq_ok htarget
    apply isDirectory_put
    rwa [List.dropLast_concat]

end FileTree

end PackScope
