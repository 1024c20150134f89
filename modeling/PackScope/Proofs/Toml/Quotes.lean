import Mathlib.Tactic.Lemma
import PackScope.Proofs.Text.Steady
import PackScope.Proofs.Toml.Strings

/-!
Strings as they may be written. A string on one line is read the same whatever follows it. A string
over lines ends at its closing quotes, so what it looks at ahead is part of it, and only a further
quote behind it could be taken for a part of the closing.
-/

namespace PackScope.Toml

open Reader

/-- **A string on one line is read whatever follows.** -/
theorem rigid_lineString : Rigid lineString := by
  intro cs a rest h
  obtain ⟨text, rfl, hline⟩ := lineString_eq_some_iff.1 h
  exact ⟨text, rfl, hline.not_mem_lineFeed, hline.reads⟩

/-! ### Strings over lines -/

section Closings

variable {α : Type} {q : Char} {r s : Reader (List Char)} {tail tail' : List Char}

/-- Whether two texts are the same, or at least up to three quotes in a row. -/
def SameClosing (q : Char) (tail tail' : List Char) : Prop :=
  tail' = tail ∨ ∃ body rest rest', tail = body ++ q :: q :: q :: rest ∧
    tail' = body ++ q :: q :: q :: rest'

/-- Whether a reader takes a text up to three quotes in a row, and takes it as well where the text
behind it is cut short. -/
def ClosedAt (q : Char) (r : Reader (List Char)) (cs : List Char) : Prop :=
  ∀ ⦃a rest⦄, r cs = some (a, rest) → ∃ body, cs = body ++ q :: q :: q :: rest ∧
    ∀ rest', CutShort rest rest' → r (body ++ q :: q :: q :: rest') = some (a, rest')

/-- A reader that goes on with another one behind some characters, whatever follows the closing
quotes. -/
lemma ClosedAt.step {t : List Char} {g : List Char → List Char}
    (h : ∀ tail', SameClosing q tail tail' →
      r (t ++ tail') = (s tail').bind fun p => some (g p.1, p.2))
    (hs : ClosedAt q s tail) : ClosedAt q r (t ++ tail) := by
  intro a rest hr
  rw [h tail (.inl rfl)] at hr
  obtain ⟨⟨b, rest⟩, hb, e⟩ := Option.bind_eq_some_iff.1 hr
  obtain ⟨rfl, rfl⟩ := Prod.mk.inj (Option.some.inj e)
  obtain ⟨body, rfl, hread⟩ := hs hb
  refine ⟨t ++ body, (List.append_assoc ..).symm, fun rest' hrest => ?_⟩
  rw [List.append_assoc, h _ (.inr ⟨body, rest, rest', rfl, rfl⟩), hread rest' hrest]
  rfl

lemma ClosedAt.fail (h : r tail = none) : ClosedAt q r tail := by
  intro a rest hr
  rw [h] at hr
  cases hr

/-- A reader that stops behind three quotes if no further quote follows. -/
lemma ClosedAt.close {b rest : List Char} (hq : q ≠ '\n')
    (h : ∀ rest, q ∉ rest.head? → r (b ++ q :: q :: q :: rest) = some (b, rest))
    (hrest : ∀ tail, rest = q :: tail → False) : ClosedAt q r (b ++ q :: q :: q :: rest) := by
  have hhead : q ∉ rest.head? := by
    match rest with
    | [] => simp
    | c :: rest => simpa using fun e => hrest rest (by rw [e])
  intro a rest' hr
  rw [h rest hhead] at hr
  cases hr
  exact ⟨b, rfl, fun rest' hcut => h rest' (hcut.not_mem_head? hq hhead)⟩

lemma SameClosing.take_two (h : SameClosing q tail tail') : tail'.take 2 = tail.take 2 := by
  obtain rfl | ⟨body, rest, rest', rfl, rfl⟩ := h
  · rfl
  · match body with
    | [] => rfl
    | [c] => rfl
    | c :: d :: body => rfl

lemma SameClosing.not_pair (h : SameClosing q tail tail') (hp : ¬ [q, q] <+: tail) :
    ¬ [q, q] <+: tail' := by
  rw [List.prefix_iff_eq_take] at hp ⊢
  change ¬ _ = tail'.take 2
  rw [h.take_two]
  exact hp

/-- Whether lines are joined shows in front of the next quote. -/
lemma joinsLines_quote (body rest rest' : List Char) :
    joinsLines (body ++ '"' :: rest) = joinsLines (body ++ '"' :: rest') := by
  unfold joinsLines
  induction body with
  | nil => rfl
  | cons c body ih =>
    rw [List.cons_append, List.cons_append]
    by_cases hblank : isBlank c = true
    · rw [List.dropWhile_cons_of_pos hblank, List.dropWhile_cons_of_pos hblank, ih]
    rw [List.dropWhile_cons_of_neg hblank, List.dropWhile_cons_of_neg hblank]
    by_cases hr : c = '\r'
    · subst hr
      match body with
      | [] => rfl
      | d :: body =>
        by_cases hn : d = '\n'
        · subst hn
          rfl
        · simp [lineBreak, hn]
    · by_cases hn : c = '\n'
      · subst hn
        rfl
      · simp [lineBreak, hn, hr]

lemma SameClosing.joinsLines_eq (h : SameClosing '"' tail tail') :
    joinsLines tail' = joinsLines tail := by
  obtain rfl | ⟨body, rest, rest', rfl, rfl⟩ := h
  · rfl
  · exact joinsLines_quote body _ _

end Closings

section LiteralLines

variable {rest : List Char}

lemma literalLinesRest_five (rest : List Char) :
    literalLinesRest ('\'' :: '\'' :: '\'' :: '\'' :: '\'' :: rest) = some (['\'', '\''], rest) := by
  rw [literalLinesRest.eq_def]
  rfl

lemma literalLinesRest_four (h : '\'' ∉ rest.head?) :
    literalLinesRest ('\'' :: '\'' :: '\'' :: '\'' :: rest) = some (['\''], rest) := by
  rw [literalLinesRest.eq_def]
  cases rest with
  | nil => rfl
  | cons c rest =>
    have hc : c ≠ '\'' := fun e => h (e ▸ rfl)
    simp [hc]

lemma literalLinesRest_three (h : '\'' ∉ rest.head?) :
    literalLinesRest ('\'' :: '\'' :: '\'' :: rest) = some ([], rest) := by
  rw [literalLinesRest.eq_def]
  cases rest with
  | nil => rfl
  | cons c rest =>
    have hc : c ≠ '\'' := fun e => h (e ▸ rfl)
    simp [hc]

lemma closedAt_literalLinesRest (cs : List Char) : ClosedAt '\'' literalLinesRest cs := by
  induction cs using literalLinesRest.induct with
  | case1 => exact .fail rfl
  | case2 rest ih =>
    refine ih.step (t := ['\r', '\n']) (g := ('\n' :: ·)) fun tail _ => ?_
    rw [literalLinesRest.eq_def]
    rfl
  | case3 rest hn =>
    refine .fail ?_
    rw [literalLinesRest.eq_def]
    simp
  | case4 rest _ =>
    intro a rest' h
    rw [literalLinesRest_five] at h
    cases h
    exact ⟨['\'', '\''], rfl, fun rest' _ => literalLinesRest_five rest'⟩
  | case5 rest hone _ =>
    exact ClosedAt.close (b := ['\'']) (by decide) (fun _ => literalLinesRest_four) hone
  | case6 rest _ hone _ =>
    exact ClosedAt.close (b := []) (by decide) (fun _ => literalLinesRest_three) hone
  | case7 rest _ _ htwo _ ih =>
    have hpair : ¬ ['\'', '\''] <+: rest := by
      rintro ⟨tail, e⟩
      exact htwo tail e.symm
    exact ih.step (t := ['\'']) (g := ('\'' :: ·)) fun tail htail =>
      literalLinesRest_quote (htail.not_pair hpair)
  | case8 c rest hr hq htext ih =>
    refine ih.step (t := [c]) (g := (c :: ·)) fun tail _ => ?_
    rw [List.singleton_append, literalLinesRest.eq_def]
    simp only [hr, hq, htext, if_false, if_true]
    rfl
  | case9 c rest hr hq htext =>
    refine .fail ?_
    rw [literalLinesRest.eq_def]
    simp [hr, hq, htext]

end LiteralLines

section BasicLines

variable {rest : List Char} {skipping : Bool}

lemma basicLinesRest_five (skipping : Bool) (rest : List Char) :
    basicLinesRest skipping ('"' :: '"' :: '"' :: '"' :: '"' :: rest) = some (['"', '"'], rest) := by
  rw [basicLinesRest.eq_def]
  simp [isBlank]

lemma basicLinesRest_four (h : '"' ∉ rest.head?) :
    basicLinesRest skipping ('"' :: '"' :: '"' :: '"' :: rest) = some (['"'], rest) := by
  rw [basicLinesRest.eq_def]
  cases rest with
  | nil => simp [isBlank]
  | cons c rest =>
    have hc : c ≠ '"' := fun e => h (e ▸ rfl)
    simp [isBlank, hc]

lemma basicLinesRest_three (h : '"' ∉ rest.head?) :
    basicLinesRest skipping ('"' :: '"' :: '"' :: rest) = some ([], rest) := by
  rw [basicLinesRest.eq_def]
  cases rest with
  | nil => simp [isBlank]
  | cons c rest =>
    have hc : c ≠ '"' := fun e => h (e ▸ rfl)
    simp [isBlank, hc]

lemma basicLinesRest_one (h : ¬ ['"', '"'] <+: rest) :
    basicLinesRest skipping ('"' :: rest) =
      (basicLinesRest false rest).bind fun p => some ('"' :: p.1, p.2) := by
  have hskip : basicLinesRest skipping ('"' :: rest) = basicLinesRest false ('"' :: rest) := by
    rw [basicLinesRest.eq_def, basicLinesRest.eq_def]
    simp [isBlank]
  rw [hskip, basicLinesRest_quote h]

lemma basicLinesRest_join (h : joinsLines rest = true) :
    basicLinesRest skipping ('\\' :: rest) = basicLinesRest true rest := by
  match rest with
  | [] => cases h
  | d :: rest =>
    have hd : d ≠ 'u' ∧ d ≠ 'U' := by
      constructor <;> rintro rfl <;> simp [joinsLines, isBlank, lineBreak] at h
    rw [basicLinesRest.eq_def]
    simp [isBlank, h, hd]

/-- A character that stands for an escape joins no lines. -/
lemma not_joinsLines_of_escaped? {d e : Char} (h : escaped? d = some e) (rest : List Char) :
    joinsLines (d :: rest) = false := by
  have hd : d ≠ ' ' ∧ d ≠ '\t' ∧ d ≠ '\n' ∧ d ≠ '\r' := by
    refine ⟨?_, ?_, ?_, ?_⟩ <;> rintro rfl <;> cases h
  obtain ⟨hs, ht, hn, hr⟩ := hd
  rw [joinsLines, List.dropWhile_cons_of_neg (by simp [isBlank, hs, ht])]
  simp [lineBreak, hn, hr]

lemma basicLinesRest_escape {d e : Char} (h : escaped? d = some e) (rest : List Char) :
    basicLinesRest skipping ('\\' :: d :: rest) =
      (basicLinesRest false rest).bind fun p => some (e :: p.1, p.2) := by
  obtain ⟨hu, hU, -⟩ := ne_of_escaped? h
  rw [basicLinesRest.eq_def]
  simp [isBlank, hu, hU, h, not_joinsLines_of_escaped? h]

lemma closedAt_basicLinesRest (skipping : Bool) (cs : List Char) :
    ClosedAt '"' (basicLinesRest skipping) cs := by
  induction skipping, cs using basicLinesRest.induct with
  | case1 => exact .fail rfl
  | case2 skipping c rest hskip ih =>
    refine ih.step (t := [c]) (g := id) fun tail _ => ?_
    rw [List.singleton_append, basicLinesRest.eq_def]
    simp only [hskip, if_true]
    exact (Option.bind_fun_some _).symm
  | case3 skipping rest hskip ih =>
    refine ih.step (t := ['\r', '\n']) (g := fun cs => if skipping then cs else '\n' :: cs)
      fun tail _ => ?_
    rw [List.cons_append, basicLinesRest.eq_def]
    simp [isBlank]
  | case4 skipping rest hn hskip =>
    refine .fail ?_
    rw [basicLinesRest.eq_def]
    simp [isBlank]
  | case5 skipping rest _ _ =>
    intro a rest' h
    rw [basicLinesRest_five] at h
    cases h
    exact ⟨['"', '"'], rfl, fun rest' _ => basicLinesRest_five skipping rest'⟩
  | case6 skipping rest hone _ _ =>
    exact ClosedAt.close (b := ['"']) (by decide) (fun _ => basicLinesRest_four) hone
  | case7 skipping rest _ hone _ _ =>
    exact ClosedAt.close (b := []) (by decide) (fun _ => basicLinesRest_three) hone
  | case8 skipping rest _ _ htwo _ _ ih =>
    have hpair : ¬ ['"', '"'] <+: rest := by
      rintro ⟨tail, e⟩
      exact htwo tail e.symm
    exact ih.step (t := ['"']) (g := ('"' :: ·)) fun tail htail =>
      basicLinesRest_one (htail.not_pair hpair)
  | case9 skipping d₁ d₂ d₃ d₄ rest _ _ _ ih =>
    cases he : charOfHex? [d₁, d₂, d₃, d₄] with
    | none =>
      refine .fail ?_
      rw [basicLinesRest.eq_def]
      simp [isBlank, he]
    | some e =>
      refine ih.step (t := ['\\', 'u', d₁, d₂, d₃, d₄]) (g := (e :: ·)) fun tail _ => ?_
      rw [List.cons_append, basicLinesRest.eq_def]
      simp [isBlank, he]
  | case10 skipping d₁ d₂ d₃ d₄ d₅ d₆ d₇ d₈ rest _ _ _ ih =>
    cases he : charOfHex? [d₁, d₂, d₃, d₄, d₅, d₆, d₇, d₈] with
    | none =>
      refine .fail ?_
      rw [basicLinesRest.eq_def]
      simp [isBlank, he]
    | some e =>
      refine ih.step (t := ['\\', 'U', d₁, d₂, d₃, d₄, d₅, d₆, d₇, d₈]) (g := (e :: ·))
        fun tail _ => ?_
      rw [List.cons_append, basicLinesRest.eq_def]
      simp [isBlank, he]
  | case11 skipping d rest _ _ hjoin _ _ _ ih =>
    refine ih.step (t := ['\\']) (g := id) fun tail htail => ?_
    rw [List.singleton_append, basicLinesRest_join (htail.joinsLines_eq.trans hjoin)]
    exact (Option.bind_fun_some _).symm
  | case12 skipping d rest hu hU hjoin _ _ _ ih =>
    cases he : escaped? d with
    | none =>
      refine .fail ?_
      rw [basicLinesRest.eq_def]
      simp [isBlank, hjoin, he]
    | some e =>
      refine ih.step (t := ['\\', d]) (g := (e :: ·)) fun tail _ => ?_
      exact basicLinesRest_escape he tail
  | case13 skipping =>
    refine .fail ?_
    rw [basicLinesRest.eq_def]
    simp [isBlank]
  | case14 skipping c rest hskip hr hq hs htext ih =>
    refine ih.step (t := [c]) (g := (c :: ·)) fun tail _ => ?_
    rw [List.singleton_append, basicLinesRest.eq_def]
    simp only [hskip, hr, hq, hs, htext, if_false, if_true]
    rfl
  | case15 skipping c rest hskip hr hq hs htext =>
    refine .fail ?_
    rw [basicLinesRest.eq_def]
    simp [hskip, hr, hq, hs, htext]

end BasicLines

/-! ### Strings as values -/

section Values

variable {q : Char} {r : Reader (List Char)} {cs cs' : List Char}

/-- The first two characters tell whether a text starts with a line break. -/
lemma lineBreak_eq_none_of_take (h : lineBreak cs = none) (e : cs'.take 2 = cs.take 2) :
    lineBreak cs' = none := by
  unfold lineBreak
  split
  next rest =>
    match cs with
    | c :: cs =>
      obtain rfl : '\n' = c := (List.cons.inj e).1
      cases h
  next rest =>
    match cs with
    | [c] => cases e
    | c :: d :: cs =>
      obtain ⟨rfl, rfl⟩ : '\r' = c ∧ '\n' = d := by simpa using e
      cases h
  next => rfl

lemma closedAt_openingBreak (h : ∀ cs, ClosedAt q r cs) (cs : List Char) :
    ClosedAt q (openingBreak >>= fun _ => r) cs := by
  have hid (cs : List Char) : r cs = (r cs).bind fun p => some (id p.1, p.2) :=
    (Option.bind_fun_some _).symm
  match hbreak : lineBreak cs with
  | none =>
    refine (h cs).step (t := []) (g := id) fun tail htail => ?_
    have hnone := lineBreak_eq_none_of_take hbreak htail.take_two
    rw [List.nil_append, ← hid, openingBreak]
    exact bind_of_eq _ (bind_of_eq _ (optional_of_none hnone))
  | some (_, rest) =>
    unfold lineBreak at hbreak
    split at hbreak
    next tail => exact (h tail).step (t := ['\n']) (g := id) fun tail _ => hid tail
    next tail => exact (h tail).step (t := ['\r', '\n']) (g := id) fun tail _ => hid tail
    next => cases hbreak

/-- **A string is read as well where the text behind it is cut short.** -/
theorem steady_anyString : Steady Eq anyString anyString := by
  intro cs a rest h
  unfold anyString at h
  split at h
  next tail =>
    obtain ⟨body, rfl, hread⟩ := closedAt_openingBreak (closedAt_basicLinesRest false) tail h
    refine ⟨'"' :: '"' :: '"' :: (body ++ ['"', '"', '"']), by simp, fun rest' hrest => ⟨a, ?_, rfl⟩⟩
    rw [List.cons_append, List.cons_append, List.cons_append, List.append_assoc]
    exact hread rest' hrest
  next tail =>
    obtain ⟨body, rfl, hread⟩ := closedAt_openingBreak closedAt_literalLinesRest tail h
    refine ⟨'\'' :: '\'' :: '\'' :: (body ++ ['\'', '\'', '\'']), by simp,
      fun rest' hrest => ⟨a, ?_, rfl⟩⟩
    rw [List.cons_append, List.cons_append, List.cons_append, List.append_assoc]
    exact hread rest' hrest
  next hbasic hliteral =>
    obtain ⟨text, rfl, -, hread⟩ := rigid_lineString h
    refine ⟨text, rfl, fun rest' hrest => ⟨a, ?_, rfl⟩⟩
    -- A text that is cut short opens no string over lines that it did not open before.
    have hcut := hrest.append text
    have hopens {c : Char} (hc : c ≠ '\n') {tail : List Char}
        (e : text ++ rest' = c :: c :: c :: tail) : ∃ tail, text ++ rest = c :: c :: c :: tail := by
      rw [e] at hcut
      obtain ⟨t₁, e₁, hcut₁⟩ := hcut.of_cons hc
      obtain ⟨t₂, rfl, hcut₂⟩ := hcut₁.of_cons hc
      obtain ⟨t₃, rfl, -⟩ := hcut₂.of_cons hc
      exact ⟨t₃, e₁⟩
    unfold anyString
    split
    next tail e => exact (hbasic _ (hopens (by decide) e).choose_spec).elim
    next tail e => exact (hliteral _ (hopens (by decide) e).choose_spec).elim
    next => exact hread rest'

end Values

end PackScope.Toml
