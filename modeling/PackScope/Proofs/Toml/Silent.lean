import PackScope.Proofs.Toml.Lines
import PackScope.Proofs.Toml.Outlines

/-!
Filler at the front of a document. Blanks, comments and line breaks in front of the first line that
says something change nothing about what a document says, and a document that says nothing is filler
from its start to its end.
-/

namespace PackScope.Toml

open Reader

/-! ### What is skipped -/

section Skipped

variable {c : Char} {cs rest : List Char} {inComment : Bool}

lemma dropFiller_nil (inComment : Bool) : dropFiller inComment [] = [] := by
  rw [dropFiller.eq_def]

lemma dropFiller_lineFeed (inComment : Bool) (rest : List Char) :
    dropFiller inComment ('\n' :: rest) = dropFiller false rest := by
  rw [dropFiller.eq_def]
  exact if_pos rfl

lemma dropFiller_return (inComment : Bool) (rest : List Char) :
    dropFiller inComment ('\r' :: '\n' :: rest) = dropFiller false rest := by
  rw [dropFiller.eq_def]
  rfl

lemma dropFiller_mark (rest : List Char) : dropFiller false ('#' :: rest) = dropFiller true rest := by
  rw [dropFiller.eq_def]
  rfl

lemma isCommentChar_of_blank (h : isBlank c = true) : isCommentChar c = true := by
  rw [isBlank, Bool.or_eq_true, decide_eq_true_eq, decide_eq_true_eq] at h
  rcases h with rfl | rfl <;> rfl

/-- What stands in no comment is no blank and starts no comment. -/
lemma isBlank_of_not_commentChar (h : isCommentChar c = false) : isBlank c = false ∧ c ≠ '#' := by
  constructor
  · rw [← Bool.not_eq_true]
    intro hblank
    rw [isCommentChar_of_blank hblank] at h
    cases h
  · rintro rfl
    cases h

lemma ne_lineFeed_of_commentChar (h : isCommentChar c = true) : c ≠ '\n' ∧ c ≠ '\r' := by
  constructor
  · rintro rfl
    cases h
  · rintro rfl
    cases h

lemma dropFiller_text (h : isCommentChar c = true) (rest : List Char) :
    dropFiller true (c :: rest) = dropFiller true rest := by
  obtain ⟨hline, hreturn⟩ := ne_lineFeed_of_commentChar h
  rw [dropFiller.eq_def]
  simp [hline, hreturn, h]

lemma dropFiller_of_blank (h : isBlank c = true) (rest : List Char) :
    dropFiller false (c :: rest) = dropFiller false rest := by
  obtain ⟨hline, hreturn⟩ := ne_lineFeed_of_commentChar (isCommentChar_of_blank h)
  rw [dropFiller.eq_def]
  simp [hline, hreturn, h]

/-- Nothing is skipped in front of a character that breaks no line and is neither filler nor, behind
a comment mark, a character of a comment. -/
lemma dropFiller_stop (hbreak : lineBreak (c :: rest) = none)
    (hc : isCommentChar c = false ∨ inComment = false ∧ isBlank c = false ∧ c ≠ '#') :
    dropFiller inComment (c :: rest) = c :: rest := by
  have hline : c ≠ '\n' := by
    rintro rfl
    cases hbreak
  rw [dropFiller.eq_def]
  by_cases hreturn : c = '\r'
  · subst hreturn
    cases rest with
    | nil => rfl
    | cons d rest =>
      have hd : d ≠ '\n' := by
        rintro rfl
        cases hbreak
      simp [hd]
  · rcases hc with hc | ⟨rfl, hblank, hmark⟩
    · obtain ⟨hblank, hmark⟩ := isBlank_of_not_commentChar hc
      cases inComment <;> simp [hline, hreturn, hc, hblank, hmark]
    · simp [hline, hreturn, hblank, hmark]

lemma dropFiller_dropBlanks (cs : List Char) :
    dropFiller false (cs.dropWhile isBlank) = dropFiller false cs := by
  induction cs with
  | nil => rfl
  | cons c cs ih =>
    rw [List.dropWhile_cons]
    split_ifs with hc
    · rw [ih, dropFiller_of_blank hc]
    · rfl

lemma dropFiller_dropComment (cs : List Char) :
    dropFiller true (cs.dropWhile isCommentChar) = dropFiller true cs := by
  induction cs with
  | nil => rfl
  | cons c cs ih =>
    rw [List.dropWhile_cons]
    split_ifs with hc
    · rw [ih, dropFiller_text hc]
    · rfl

lemma dropFiller_of_lineEnd (inComment : Bool) (h : lineEnd cs = some ((), rest)) :
    dropFiller inComment cs = dropFiller false rest := by
  unfold lineEnd at h
  split at h
  · cases h
    rw [dropFiller_nil, dropFiller_nil]
  · unfold lineBreak at h
    split at h
    · cases h
      exact dropFiller_lineFeed inComment rest
    · cases h
      exact dropFiller_return inComment rest
    · cases h

end Skipped

/-! ### The rest of a line -/

section Ends

variable {c : Char} {cs rest : List Char}

/-- What a skipped class stops at is not of the class. -/
lemma head_dropWhile {p : Char → Bool} (h : cs.dropWhile p = c :: rest) : p c = false := by
  have hhead := List.head?_dropWhile_not p cs
  rw [h] at hhead
  simpa using hhead

lemma dropBlanks_cons (h : isBlank c = false) (rest : List Char) :
    (c :: rest).dropWhile isBlank = c :: rest :=
  List.dropWhile_cons_of_neg (by simp [h])

lemma restOfLine_eq (cs : List Char) :
    restOfLine cs = (comment >>= fun _ => lineEnd) (cs.dropWhile isBlank) := rfl

lemma restOfLine_mark (rest : List Char) :
    restOfLine ('#' :: rest) = lineEnd (rest.dropWhile isCommentChar) := rfl

lemma restOfLine_of_not_mark (hblank : isBlank c = false) (hmark : c ≠ '#') (rest : List Char) :
    restOfLine (c :: rest) = lineBreak (c :: rest) := by
  have hcomment : comment (c :: rest) = some ((), c :: rest) := by
    unfold comment
    split
    next e => cases e; exact absurd rfl hmark
    next => rfl
  rw [restOfLine_eq, dropBlanks_cons hblank, bind_of_eq _ hcomment, lineEnd]
  exact List.cons_ne_nil _ _

/-- What is skipped in front of a text starts with its first line, if that line is filler. -/
lemma dropFiller_of_restOfLine (h : restOfLine cs = some ((), rest)) :
    dropFiller false cs = dropFiller false rest := by
  rw [← dropFiller_dropBlanks]
  rw [← restOfLine_dropBlanks] at h
  match hds : cs.dropWhile isBlank with
  | [] =>
    rw [hds] at h
    cases h
    rfl
  | c :: ds =>
    rw [hds] at h
    have hblank := head_dropWhile hds
    by_cases hmark : c = '#'
    · subst hmark
      rw [restOfLine_mark] at h
      rw [dropFiller_mark, ← dropFiller_dropComment, dropFiller_of_lineEnd _ h]
    · rw [restOfLine_of_not_mark hblank hmark] at h
      exact dropFiller_of_lineEnd _ h

end Ends

/-! ### Lines -/

section Lines

variable {c : Char} {cs rest : List Char} {l : Line}

lemma line_dropBlanks (cs : List Char) : line (cs.dropWhile isBlank) = line cs := by
  rw [line, bind_of_eq _ (blanks_apply _), bind_of_eq _ (blanks_apply _),
    List.dropWhile_idempotent]

/-- A line of filler says nothing. -/
lemma line_of_restOfLine (h : restOfLine cs = some ((), rest)) :
    line cs = some (.empty, rest) := by
  rw [← restOfLine_dropBlanks] at h
  rw [line, bind_of_eq _ (blanks_apply cs), bind_of_eq _ (get_apply _)]
  have hblank : ∀ {c : Char} {ds : List Char}, cs.dropWhile isBlank = c :: ds →
      isBlank c = false := head_dropWhile
  generalize cs.dropWhile isBlank = ds at h hblank
  dsimp only
  split
  next => cases h
  iterate 4
    next => exact bind_of_eq _ h
  next hmark hline hreturn =>
    cases ds with
    | nil => contradiction
    | cons c ds =>
      have hc : c ≠ '#' := by
        rintro rfl
        exact hmark _ rfl
      rw [restOfLine_of_not_mark (hblank rfl) hc] at h
      unfold lineBreak at h
      split at h
      next e => exact absurd e (hline _)
      next e => exact absurd e (hreturn _)
      next => cases h

/-- No key starts with a control character. -/
lemma key_control (h : isCommentChar c = false) (rest : List Char) : key (c :: rest) = none := by
  have hblank : blanks (c :: rest) = some ((), c :: rest) := by
    rw [blanks_apply, dropBlanks_cons (isBlank_of_not_commentChar h).1]
  have hstring : lineString (c :: rest) = none := by
    unfold lineString
    split
    next e => cases e; cases h
    next e => cases e; cases h
    next => rfl
  have hoptional : Reader.optional lineString (c :: rest) = some (none, c :: rest) := by
    rw [Reader.optional, hstring]
  have hbare : bareKey (c :: rest) = none := by
    apply bind_of_none
    apply satisfying_none
    intro d hd
    obtain rfl : c = d := by simpa using hd
    rw [← Bool.not_eq_true]
    intro hb
    exact absurd (isTextChar_of_isBareChar hb) (Bool.eq_false_iff.1 h)
  apply bind_of_none
  rw [keyPart, bind_of_eq _ hblank, bind_of_eq _ hoptional]
  exact bind_of_none _ hbare

/-- **No line starts with a control character** other than a tab, unless a line break starts it. -/
lemma line_control (hc : isCommentChar c = false) (hbreak : lineBreak (c :: rest) = none) :
    line (c :: rest) = none := by
  obtain ⟨hblank, hmark⟩ := isBlank_of_not_commentChar hc
  rw [Option.eq_none_iff_forall_ne_some]
  rintro ⟨l, tail⟩ h
  rcases line_cases h with ⟨-, hend⟩ | ⟨p, extent, mid, hbrackets, -⟩ | ⟨a, mid, ha, -⟩
  · rw [restOfLine_of_not_mark hblank hmark, hbreak] at hend
    cases hend
  · rw [dropBlanks_cons hblank] at hbrackets
    obtain ⟨_, _, hopen, -⟩ := bind_eq_some (eq_of_located hbrackets).1
    cases eq_cons_of_exactly hopen
    cases hc
  · rw [dropBlanks_cons hblank] at ha
    obtain ⟨_, _, hkey, -⟩ := bind_eq_some ha
    rw [key_control hc] at hkey
    cases hkey

/-- A first line that is no filler starts, up to filler in front of it, where the filler ends. -/
lemma line_dropFiller (h : restOfLine cs = none) :
    line (dropFiller false cs) = line cs ∧ dropFiller false cs ≠ [] := by
  rw [← dropFiller_dropBlanks, ← line_dropBlanks cs]
  rw [← restOfLine_dropBlanks] at h
  match hds : cs.dropWhile isBlank with
  | [] =>
    rw [hds] at h
    cases h
  | c :: ds =>
    rw [hds] at h
    have hblank := head_dropWhile hds
    by_cases hmark : c = '#'
    · subst hmark
      have hline : line ('#' :: ds) = none := by
        rw [line, bind_of_eq _ (show blanks ('#' :: ds) = some ((), '#' :: ds) from rfl),
          bind_of_eq _ (get_apply _)]
        exact bind_of_none _ h
      rw [restOfLine_mark] at h
      rw [dropFiller_mark, ← dropFiller_dropComment, hline]
      match htail : ds.dropWhile isCommentChar with
      | [] =>
        rw [htail] at h
        cases h
      | d :: tail =>
        rw [htail] at h
        have hd := head_dropWhile htail
        rw [dropFiller_stop h (.inl hd)]
        exact ⟨line_control hd h, List.cons_ne_nil _ _⟩
    · rw [restOfLine_of_not_mark hblank hmark] at h
      rw [dropFiller_stop h (.inr ⟨rfl, hblank, hmark⟩)]
      exact ⟨rfl, List.cons_ne_nil _ _⟩

lemma length_lt_of_lineEnd (h : lineEnd cs = some ((), rest)) :
    rest = [] ∨ rest.length < cs.length := by
  unfold lineEnd at h
  split at h
  · cases h
    exact .inl rfl
  · unfold lineBreak at h
    split at h
    · cases h
      exact .inr (by simp)
    · cases h
      simp only [List.length_cons]
      omega
    · cases h

lemma length_lt_of_restOfLine (hne : cs ≠ []) (h : restOfLine cs = some ((), rest)) :
    rest.length < cs.length := by
  rw [restOfLine_eq] at h
  obtain ⟨_, mid, hcomment, hend⟩ := bind_eq_some h
  have hmid : mid.length ≤ cs.length := by
    unfold comment at hcomment
    have hblanks := List.length_dropWhile_le isBlank cs
    split at hcomment
    next tail htail =>
      cases hcomment
      have htail := congrArg List.length htail
      have := List.length_dropWhile_le isCommentChar tail
      simp only [List.length_cons] at htail
      omega
    next =>
      cases hcomment
      exact hblanks
  rcases length_lt_of_lineEnd hend with rfl | hlt
  · exact List.length_pos_iff.2 hne
  · omega

/-- A line takes something off a text. -/
lemma length_lt_of_line (hne : cs ≠ []) (h : line cs = some (l, rest)) :
    rest.length < cs.length := by
  have hblanks := List.length_dropWhile_le isBlank cs
  rcases line_cases h with ⟨-, hend⟩ | ⟨p, extent, mid, hbrackets, hend, -⟩ | ⟨a, mid, ha, hend, -⟩
  · exact length_lt_of_restOfLine hne hend
  · have hrest := (forward_restOfLine hend).length_le
    obtain ⟨hmid, hlt⟩ := suffix_of_brackets (eq_of_located hbrackets).1
    have hne : mid.length ≠ (cs.dropWhile isBlank).length := by
      intro he
      rw [hmid.eq_of_length he] at hlt
      omega
    have := hmid.length_le
    omega
  · have hrest := (forward_restOfLine hend).length_le
    obtain ⟨parts, sign, hkey, ha⟩ := bind_eq_some ha
    obtain ⟨_, behind, hsign, ha⟩ := bind_eq_some ha
    have hkey := (steady_key.forward hkey).length_le
    have hmid : mid.length ≤ behind.length := by
      refine List.IsSuffix.length_le ?_
      exact (forward_blanks.bind fun _ =>
        (forward_located (forward_nestedValue depthLimit)).bind fun _ => .pure _) ha
    rw [eq_cons_of_exactly hsign, List.length_cons] at hkey
    omega

lemma lines_succ (n : ℕ) (hne : cs ≠ []) :
    lines (n + 1) cs = (line cs).bind fun p => (lines n p.2).map fun q => (p.1 :: q.1, q.2) := by
  rw [lines, bind_of_eq _ (get_apply cs), if_neg (by simpa using hne), bind_apply]
  refine congrArg (line cs).bind (funext fun p => ?_)
  rw [bind_apply]
  cases lines n p.2 with
  | none => rfl
  | some q => rfl

/-- More lines than there are characters are never read. -/
lemma lines_congr {n m : ℕ} (hn : cs.length ≤ n) (hm : cs.length ≤ m) :
    lines n cs = lines m cs := by
  induction n generalizing cs m with
  | zero =>
    obtain rfl : cs = [] := List.length_eq_zero_iff.1 (by omega)
    rw [lines_nil, lines_nil]
  | succ n ih =>
    match cs with
    | [] => rw [lines_nil, lines_nil]
    | c :: cs =>
      have hne : c :: cs ≠ [] := List.cons_ne_nil c cs
      obtain ⟨m, rfl⟩ : ∃ k, m = k + 1 := ⟨m - 1, by rw [List.length_cons] at hm; omega⟩
      rw [lines_succ _ hne, lines_succ _ hne]
      refine Option.bind_congr fun p hp => ?_
      have hlt := length_lt_of_line hne hp
      rw [ih (m := m) (by omega) (by omega)]

end Lines

/-! ### Outlines -/

/-- The outline of a text without a byte order mark. -/
def Outline.ofText? (cs : List Char) : Option Outline :=
  (lines cs.length cs).map fun p => .ofLines p.1

section Outlines

variable {cs ds rest : List Char} {l : Line}

lemma rest_of_lines {n : ℕ} {ls : List Line} (h : lines n cs = some (ls, rest)) : rest = [] := by
  induction n generalizing cs ls with
  | zero =>
    match cs with
    | [] =>
      cases h
      rfl
    | c :: cs => cases h
  | succ n ih =>
    match cs with
    | [] =>
      cases h
      rfl
    | c :: cs =>
      rw [lines_succ _ (List.cons_ne_nil c cs)] at h
      obtain ⟨p, -, h⟩ := Option.bind_eq_some_iff.1 h
      obtain ⟨q, hq, h⟩ := Option.map_eq_some_iff.1 h
      cases h
      exact ih hq

lemma outline_read? (cs : List Char) : Outline.read? cs = Outline.ofText? (withoutMark cs) := by
  rw [Outline.read?, Outline.ofText?, readAll]
  generalize withoutMark cs = ds
  cases h : lines ds.length ds with
  | none => rfl
  | some p =>
    obtain ⟨ls, rest⟩ := p
    obtain rfl := rest_of_lines h
    rfl

lemma ofText?_of_none (hne : cs ≠ []) (h : line cs = none) : Outline.ofText? cs = none := by
  obtain ⟨n, hn⟩ : ∃ n, cs.length = n + 1 := ⟨_, (Nat.succ_pred (by simpa using hne)).symm⟩
  rw [Outline.ofText?, hn, lines_succ n hne, h]
  rfl

/-- The outline of a text is that of its first line and of the text behind it. -/
lemma ofText?_of_line (hne : cs ≠ []) (h : line cs = some (l, rest)) :
    Outline.ofText? cs = (Outline.ofText? rest).map (·.cons l) := by
  obtain ⟨n, hn⟩ : ∃ n, cs.length = n + 1 := ⟨_, (Nat.succ_pred (by simpa using hne)).symm⟩
  have hlt := length_lt_of_line hne h
  rw [Outline.ofText?, hn, lines_succ n hne, h, Option.bind_some,
    lines_congr (m := rest.length) (by omega) le_rfl, Outline.ofText?, Option.map_map,
    Option.map_map]
  rfl

lemma ofText?_congr (hcs : cs ≠ []) (hds : ds ≠ []) (h : line cs = line ds) :
    Outline.ofText? cs = Outline.ofText? ds := by
  cases hline : line ds with
  | none => rw [ofText?_of_none hcs (h.trans hline), ofText?_of_none hds hline]
  | some p => rw [ofText?_of_line hcs (h.trans hline), ofText?_of_line hds hline]

/-- **Filler at the front of a text changes nothing about its outline.** -/
theorem ofText?_dropFiller (cs : List Char) :
    Outline.ofText? (dropFiller false cs) = Outline.ofText? cs := by
  induction hn : cs.length using Nat.strong_induction_on generalizing cs with
  | _ n ih =>
    by_cases hne : cs = []
    · rw [hne, dropFiller_nil]
    cases hend : restOfLine cs with
    | none =>
      obtain ⟨hline, hskipped⟩ := line_dropFiller hend
      exact ofText?_congr hskipped hne hline
    | some p =>
      have hlt := length_lt_of_restOfLine hne hend
      rw [dropFiller_of_restOfLine hend, ih _ (by omega) p.2 rfl,
        ofText?_of_line hne (line_of_restOfLine hend)]
      exact (congrFun Option.map_id _).symm

/-- A line that says nothing is filler. -/
lemma restOfLine_of_line (h : line cs = some (.empty, rest)) : restOfLine cs = some ((), rest) := by
  rcases line_cases h with ⟨-, hend⟩ | ⟨p, extent, mid, -, -, hl⟩ | ⟨a, mid, -, -, hl⟩
  · exact hend
  · cases hl
  · cases hl

/-- **A text says nothing exactly if it is filler.** -/
theorem ofText?_eq_empty_iff :
    Outline.ofText? cs = some ⟨[], []⟩ ↔ dropFiller false cs = [] := by
  constructor
  · intro h
    induction hn : cs.length using Nat.strong_induction_on generalizing cs with
    | _ n ih =>
      by_cases hne : cs = []
      · rw [hne, dropFiller_nil]
      cases hline : line cs with
      | none =>
        rw [ofText?_of_none hne hline] at h
        cases h
      | some p =>
        obtain ⟨l, rest⟩ := p
        have hlt := length_lt_of_line hne hline
        rw [ofText?_of_line hne hline] at h
        obtain ⟨outline, houtline, hcons⟩ := Option.map_eq_some_iff.1 h
        cases l with
        | empty =>
          obtain rfl : outline = ⟨[], []⟩ := hcons
          rw [dropFiller_of_restOfLine (restOfLine_of_line hline), ih _ (by omega) houtline rfl]
        | header way key repeated extent => cases hcons
        | assignment a => cases hcons
  · intro h
    rw [← ofText?_dropFiller, h]
    rfl

end Outlines

/-! ### Trees -/

namespace Table

lemma replace_ne_nil {t : Table} {key : String} {d : Entry Node} (h : t.entry? key = some d)
    (e : Entry Node) : t.replace e ≠ [] := by
  intro he
  rw [List.map_eq_nil_iff.1 he] at h
  cases h

/-- A way that is changed at its end leads somewhere. -/
lemma within_ne_nil {change : Change} {dotted : Bool} {way : List String} {origin : Origin}
    {t u : Table} (hchange : ∀ origin t u, change origin t = some u → u ≠ [])
    (h : within dotted change way origin t = some u) : u ≠ [] := by
  cases way with
  | nil => exact hchange _ _ _ h
  | cons key way =>
    unfold within at h
    cases hentry : t.entry? key with
    | none =>
      rw [hentry] at h
      obtain ⟨v, -, h⟩ := Option.bind_eq_some_iff.1 h
      cases h
      simp
    | some e =>
      obtain ⟨name, extent, node⟩ := e
      rw [hentry] at h
      cases node with
      | table reached entries =>
        dsimp only at h
        by_cases hpass : passable dotted reached = true
        · rw [if_neg (by simp [hpass])] at h
          obtain ⟨v, -, h⟩ := Option.bind_eq_some_iff.1 h
          cases h
          exact replace_ne_nil hentry _
        · rw [if_pos (by simpa using hpass)] at h
          cases h
      | tables elements =>
        obtain ⟨v, -, h⟩ := Option.bind_eq_some_iff.1 h
        cases h
        exact replace_ne_nil hentry _
      | scalar s => cases h
      | array items => cases h

lemma assign_ne_nil {origin : Origin} {t u : Table} {a : Assignment}
    (h : assign origin t a = some u) : u ≠ [] := by
  refine within_ne_nil (fun reached t u h => ?_) h
  split_ifs at h
  cases h
  simp

lemma define_ne_nil {t u : Table} {s : Section} (h : define t s = some u) : u ≠ [] := by
  refine within_ne_nil (fun _ t u h => ?_) h
  split at h
  next =>
    obtain ⟨v, -, h⟩ := Option.bind_eq_some_iff.1 h
    cases h
    simp
  next =>
    obtain ⟨v, -, h⟩ := Option.bind_eq_some_iff.1 h
    cases h
    simp
  next =>
    obtain ⟨v, -, h⟩ := Option.bind_eq_some_iff.1 h
    cases h
    simp
  next hentry _ =>
    obtain ⟨v, -, h⟩ := Option.bind_eq_some_iff.1 h
    cases h
    exact replace_ne_nil hentry _
  next => cases h

/-- Definitions leave nothing behind only if there are none. -/
lemma eq_nil_of_foldlM {α : Type} {f : Table → α → Option Table} {xs : List α} {t : Table}
    (hf : ∀ t x u, f t x = some u → u ≠ []) (h : xs.foldlM f t = some []) : xs = [] ∧ t = [] := by
  induction xs generalizing t with
  | nil =>
    cases h
    exact ⟨rfl, rfl⟩
  | cons x xs ih =>
    rw [List.foldlM_cons] at h
    obtain ⟨u, hu, h⟩ := Option.bind_eq_some_iff.1 h
    exact absurd (ih h).2 (hf _ _ _ hu)

end Table

lemma read?_ofList {cs : List Char} (h : '\ufeff' ∉ cs.head?) :
    Table.read? (.ofList cs) = (Outline.ofText? cs).bind Outline.tree? := by
  rw [Table.read?, String.toList_ofList, outline_read?, withoutMark_eq h]
  rfl

/-- **A text has an empty tree exactly if it is filler.** -/
theorem read?_eq_nil_iff {text : String} :
    Table.read? text = some [] ↔ dropFiller false (withoutMark text.toList) = [] := by
  rw [← ofText?_eq_empty_iff, ← outline_read?, Table.read?]
  constructor
  · intro h
    obtain ⟨outline, houtline, h⟩ := Option.bind_eq_some_iff.1 h
    obtain ⟨t, ht, h⟩ := Option.bind_eq_some_iff.1 h
    obtain ⟨hsections, rfl⟩ := Table.eq_nil_of_foldlM (fun _ _ _ => Table.define_ne_nil) h
    obtain ⟨hroot, -⟩ := Table.eq_nil_of_foldlM (fun _ _ _ => Table.assign_ne_nil) ht
    rw [houtline, ← hroot, ← hsections]
  · intro h
    rw [h]
    rfl

end PackScope.Toml
