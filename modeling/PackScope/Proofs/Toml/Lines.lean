import Mathlib.Data.List.Forall2
import PackScope.Proofs.Toml.Values
import PackScope.Toml.Document

/-!
Printed lines read back. Comments and empty lines say nothing, and a line with a dotted key of two
parts says one setting; a text made of such lines is read as its settings, in order.
-/

namespace PackScope.Toml

/-- What a line says: a table, a key in it, and the data under the key. -/
structure Setting where
  table : String
  key : String
  data : Data

/-- Whether an assignment makes a setting. -/
def Setting.MadeBy (s : Setting) (a : Table.Assignment) : Prop :=
  a.way = [s.table] ∧ a.key = s.key ∧ a.content.shown = s.data

/-- Whether lines without headers make some settings, in order. -/
def MakeSettings (ls : List Line) (ss : List Setting) : Prop :=
  ∃ as, Outline.ofLines ls = ⟨as, []⟩ ∧ List.Forall₂ Setting.MadeBy ss as

/-- **Whether a text is made of lines that say some settings**, whatever follows it. -/
def ReadsLines (text : List Char) (ss : List Setting) : Prop :=
  ∀ rest, ∃ ls, ls.length ≤ text.length ∧ MakeSettings ls ss ∧
    ∀ n ls' rest', lines n rest = some (ls', rest') →
      lines (ls.length + n) (text ++ rest) = some (ls ++ ls', rest')

/-! ### Texts of several lines -/

section Composition

variable {text text' : List Char} {ss ss' : List Setting}

/-- Lines without headers in front of others add their assignments. -/
lemma ofLines_append {ls : List Line} {as : List Table.Assignment}
    (h : Outline.ofLines ls = ⟨as, []⟩) (ls' : List Line) :
    Outline.ofLines (ls ++ ls') =
      ⟨as ++ (Outline.ofLines ls').root, (Outline.ofLines ls').sections⟩ := by
  induction ls generalizing as with
  | nil =>
    obtain rfl : [] = as := congrArg Outline.root h
    rfl
  | cons l ls ih =>
    change (Outline.ofLines ls).cons l = _ at h
    change (Outline.ofLines (ls ++ ls')).cons l = _
    match hls : Outline.ofLines ls, l with
    | outline, .empty =>
      rw [hls] at h
      exact ih (hls.trans h)
    | outline, .header way key repeated extent =>
      rw [Outline.cons] at h
      exact absurd (congrArg Outline.sections h) (List.cons_ne_nil _ _)
    | outline, .assignment a =>
      rw [hls] at h
      obtain ⟨hroot, hsections⟩ := Outline.mk.inj h
      rw [ih (hls.trans (congrArg (Outline.mk outline.root) hsections)), ← hroot]
      rfl

lemma MakeSettings.append {ls ls' : List Line} (h : MakeSettings ls ss)
    (h' : MakeSettings ls' ss') : MakeSettings (ls ++ ls') (ss ++ ss') := by
  obtain ⟨as, has, hss⟩ := h
  obtain ⟨as', has', hss'⟩ := h'
  exact ⟨as ++ as', by rw [ofLines_append has, has'], List.rel_append hss hss'⟩

lemma readsLines_nil : ReadsLines [] [] := by
  intro rest
  refine ⟨[], le_rfl, ⟨[], rfl, .nil⟩, fun n ls' rest' h => ?_⟩
  rw [List.length_nil, Nat.zero_add]
  exact h

lemma ReadsLines.append (h : ReadsLines text ss) (h' : ReadsLines text' ss') :
    ReadsLines (text ++ text') (ss ++ ss') := by
  intro rest
  obtain ⟨ls₂, hlen₂, hss₂, hread₂⟩ := h' rest
  obtain ⟨ls₁, hlen₁, hss₁, hread₁⟩ := h (text' ++ rest)
  refine ⟨ls₁ ++ ls₂, ?_, hss₁.append hss₂, fun n ls rest' hrest => ?_⟩
  · rw [List.length_append, List.length_append]
    omega
  · rw [List.length_append, Nat.add_assoc, List.append_assoc, List.append_assoc]
    exact hread₁ _ _ _ (hread₂ n ls rest' hrest)

lemma readsLines_flatMap {α : Type} {xs : List α} {f : α → List Char} {g : α → List Setting}
    (h : ∀ x ∈ xs, ReadsLines (f x) (g x)) : ReadsLines (xs.flatMap f) (xs.flatMap g) := by
  induction xs with
  | nil => exact readsLines_nil
  | cons x xs ih =>
    rw [List.flatMap_cons, List.flatMap_cons]
    exact (h x (by simp)).append (ih fun y hy => h y (List.mem_cons_of_mem _ hy))

/-- A text that one line takes, whatever follows it. -/
lemma readsLines_line {c : Char}
    (h : ∀ rest, ∃ l, MakeSettings [l] ss ∧ line (c :: (text ++ rest)) = some (l, rest)) :
    ReadsLines (c :: text) ss := by
  intro rest
  obtain ⟨l, hss, hread⟩ := h rest
  refine ⟨[l], by simp, hss, fun n ls' rest' hrest => ?_⟩
  change lines (0 + 1 + n) _ = _
  rw [show 0 + 1 + n = n + 1 by omega, List.cons_append, lines,
    Reader.bind_of_eq _ (Reader.get_apply _), if_neg (by simp), Reader.bind_of_eq _ hread,
    Reader.bind_of_eq _ hrest]
  rfl

end Composition

/-! ### Single lines -/

section Lines

variable {cs : List Char}

lemma readsLines_empty : ReadsLines ['\n'] [] :=
  readsLines_line fun _ => ⟨.empty, ⟨[], rfl, .nil⟩, rfl⟩

lemma readsLines_comment (h : ∀ c ∈ cs, isTextChar c = true) :
    ReadsLines ('#' :: (cs ++ ['\n'])) [] := by
  refine readsLines_line fun rest => ⟨.empty, ⟨[], rfl, .nil⟩, ?_⟩
  have hcomment : comment ('#' :: (cs ++ '\n' :: rest)) = some ((), '\n' :: rest) :=
    Reader.skip_append h (by simp [isCommentChar])
  have hblank : blanks ('#' :: (cs ++ '\n' :: rest)) = some ((), '#' :: (cs ++ '\n' :: rest)) := rfl
  have hrest : restOfLine ('#' :: (cs ++ '\n' :: rest)) = some ((), rest) := by
    rw [restOfLine, Reader.bind_of_eq _ hblank, Reader.bind_of_eq _ hcomment]
    rfl
  rw [List.append_assoc, List.singleton_append, line, Reader.bind_of_eq _ hblank,
    Reader.bind_of_eq _ (Reader.get_apply _)]
  exact Reader.bind_of_eq _ hrest

lemma readsLines_comments (marked : List Char) (hmarked : ∀ c ∈ marked, isTextChar c = true)
    (hcs : ∀ c ∈ cs, isTextChar c = true ∨ c = '\n') :
    ReadsLines ('#' :: (marked ++ cs.flatMap (fun c =>
      if c = '\n' then "\n#   ".toList else [c]) ++ ['\n'])) [] := by
  induction cs generalizing marked with
  | nil =>
    rw [List.flatMap_nil, List.append_nil]
    exact readsLines_comment hmarked
  | cons c cs ih =>
    have ih := fun marked hm => ih marked hm fun d hd => hcs d (List.mem_cons_of_mem _ hd)
    by_cases hc : c = '\n'
    · subst hc
      have h := (readsLines_comment hmarked).append
        (ih "   ".toList (List.all_eq_true.1 (by decide)))
      rw [List.flatMap_cons, if_pos rfl]
      simp only [List.append_assoc, List.cons_append, List.nil_append] at h ⊢
      exact h
    · have htext : isTextChar c = true := (hcs c (by simp)).resolve_right hc
      have h := ih (marked ++ [c]) fun d hd => by
        rcases List.mem_append.1 hd with hd | hd
        · exact hmarked d hd
        · rw [List.mem_singleton.1 hd]
          exact htext
      rw [List.flatMap_cons, if_neg hc]
      simp only [List.append_assoc] at h ⊢
      exact h

/-- A line that starts as a key does is an assignment. -/
lemma line_of_startsKey {c : Char} (h : StartsKey c) (rest : List Char) :
    line (c :: rest) = (assignment value >>= fun a => restOfLine >>= fun _ =>
      pure (Line.assignment a)) (c :: rest) := by
  rw [line, Reader.bind_of_eq _ (h.blanks rest), Reader.bind_of_eq _ (Reader.get_apply _)]
  -- What comes first tells which kind of line it is.
  refine congrFun ?_ _
  split
  next e => exact absurd (List.cons.inj e).1 (h.ne (by decide) (by decide))
  next e => cases e
  next e => exact absurd (List.cons.inj e).1 (h.ne (by decide) (by decide))
  next e => exact absurd (List.cons.inj e).1 (h.ne (by decide) (by decide))
  next e => exact absurd (List.cons.inj e).1 (h.ne (by decide) (by decide))
  next => rfl

lemma line_of_spells {text key : List Char} (h : Spells text key) (rest : List Char) :
    line (text ++ rest) = (assignment value >>= fun a => restOfLine >>= fun _ =>
      pure (Line.assignment a)) (text ++ rest) := by
  obtain ⟨c, cs, rfl, hc⟩ := h.exists_cons
  exact line_of_startsKey hc (cs ++ rest)

lemma line_of_assignment {text key : List Char} (h : Spells text key) {rest rest' : List Char}
    {a : Table.Assignment} (hread : assignment value (text ++ rest) = some (a, '\n' :: rest')) :
    line (text ++ rest) = some (.assignment a, rest') := by
  rw [line_of_spells h, Reader.bind_of_eq _ hread]
  rfl

lemma readsLines_setting {table key : List Char} {s : Setting}
    (htable : Spells table s.table.toList) (hkey : Spells key s.key.toList)
    (hdata : s.data.Writable depthLimit) :
    ReadsLines (table ++ '.' :: (key ++ (' ' :: '=' :: ' ' :: (s.data.chars ++ ['\n'])))) [s] := by
  obtain ⟨c, cs, htext, -⟩ := htable.exists_cons
  rw [htext, List.cons_append]
  refine readsLines_line fun rest => ?_
  have hends : Ends ('\n' :: rest) := by simp [Ends]
  have hparts := key_pair htable hkey (' ' :: (s.data.chars ++ '\n' :: rest))
  rw [String.ofList_toList, String.ofList_toList] at hparts
  obtain ⟨extent, node, hshown, hread⟩ :=
    assignment_of_key (reads_chars hdata) hdata.startsValue hends hparts
  refine ⟨.assignment ⟨[s.table], s.key, extent, node⟩, ⟨_, rfl, .cons ⟨rfl, rfl, hshown⟩ .nil⟩, ?_⟩
  have e : c :: (cs ++ '.' :: (key ++ (' ' :: '=' :: ' ' :: (s.data.chars ++ ['\n']))) ++ rest) =
      table ++ '.' :: (key ++ ' ' :: '=' :: ' ' :: (s.data.chars ++ '\n' :: rest)) := by
    simp [htext]
  rw [e]
  exact line_of_assignment htable hread

end Lines

/-! ### Whole texts -/

lemma lines_nil (n : ℕ) : lines n [] = some ([], []) := by
  cases n <;> rfl

lemma withoutMark_eq {text : List Char} (h : '\ufeff' ∉ text.head?) : withoutMark text = text := by
  unfold withoutMark
  split
  · exact absurd rfl h
  · rfl

/-- **A text of settings is read as assignments that make them.** -/
theorem ReadsLines.outline {text : List Char} {ss : List Setting} (h : ReadsLines text ss)
    (hmark : '\ufeff' ∉ text.head?) :
    ∃ as, Outline.read? text = some ⟨as, []⟩ ∧ List.Forall₂ Setting.MadeBy ss as := by
  obtain ⟨ls, hlen, ⟨as, has, hss⟩, hread⟩ := h []
  have hread := hread (text.length - ls.length) [] [] (lines_nil _)
  rw [List.append_nil, List.append_nil, Nat.add_sub_cancel' hlen] at hread
  refine ⟨as, ?_, hss⟩
  rw [Outline.read?, withoutMark_eq hmark, Reader.readAll_of_eq hread, ← has]
  rfl

end PackScope.Toml
