import Mathlib.Data.List.Infix
import PackScope.Proofs.Toml.LineStrings
import PackScope.Toml.Printer

/-!
Printed strings read back. Each of the five forms in which a string is written is undone by the
reader, whatever follows the string, if only no further quote follows it.
-/

namespace PackScope.Toml

/-! ### Characters -/

section Chars

variable {c : Char}

lemma isTextChar_iff : isTextChar c = true ↔ isControl c = false ∧ c ≠ '\n' := by
  have ht : c = '\t' ↔ c.toNat = 9 := ⟨fun h => h ▸ rfl, fun h => Char.toNat_inj.1 h⟩
  have hn : c = '\n' ↔ c.toNat = 10 := ⟨fun h => h ▸ rfl, fun h => Char.toNat_inj.1 h⟩
  simp only [isTextChar, isControl, Bool.or_eq_true, Bool.and_eq_true, decide_eq_true_eq,
    Bool.or_eq_false_iff, Bool.and_eq_false_iff, decide_eq_false_iff_not, ne_eq, ht, hn]
  omega

/-- A control character in hexadecimal digits. -/
def controlDigits (c : Char) : List Char :=
  Text.zeroPadded 4 ((Nat.toDigits 16 c.toNat).map Char.toUpper)

lemma controlDigits_ofNat : ∀ n < 128, isControl (Char.ofNat n) = true →
    (controlDigits (Char.ofNat n)).length = 4 ∧
      charOfHex? (controlDigits (Char.ofNat n)) = some (Char.ofNat n) := by
  decide

/-- The four hexadecimal digits of a control character stand for it. -/
lemma exists_controlDigits (h : isControl c = true) :
    ∃ d₁ d₂ d₃ d₄, controlDigits c = [d₁, d₂, d₃, d₄] ∧ charOfHex? [d₁, d₂, d₃, d₄] = some c := by
  have hlt : c.toNat < 128 := by
    simp only [isControl, Bool.or_eq_true, Bool.and_eq_true, decide_eq_true_eq] at h
    omega
  obtain ⟨hlen, hval⟩ := controlDigits_ofNat c.toNat hlt (by rwa [Char.ofNat_toNat])
  rw [Char.ofNat_toNat] at hlen hval
  match hd : controlDigits c, hlen with
  | [d₁, d₂, d₃, d₄], _ => exact ⟨d₁, d₂, d₃, d₄, rfl, hd ▸ hval⟩

end Chars

/-! ### Strings in double quotes on one line -/

/-- A character of a basic string on one line. -/
def basicChar (c : Char) : List Char :=
  if c = '"' then ['\\', '"'] else if c = '\n' then ['\\', 'n'] else escapeChar c

lemma basicPiece_basicChar (c : Char) : BasicPiece (basicChar c) c := by
  unfold basicChar escapeChar
  split_ifs with hq hn hs ht hr hb hf hc
  · exact .escape (by rw [hq]; rfl)
  · exact .escape (by rw [hn]; rfl)
  · exact .escape (by rw [hs]; rfl)
  · exact .escape (by rw [ht]; rfl)
  · exact .escape (by rw [hr]; rfl)
  · exact .escape (by rw [hb]; rfl)
  · exact .escape (by rw [hf]; rfl)
  · obtain ⟨d₁, d₂, d₃, d₄, hd, hv⟩ := exists_controlDigits hc
    rw [controlDigits] at hd
    rw [hd]
    exact .short hv
  · exact .plain (isTextChar_iff.2 ⟨by simpa using hc, hn⟩) hq hs

lemma basicText_basicBody (cs : List Char) : BasicText (basicBody cs) cs := by
  induction cs with
  | nil => exact .nil
  | cons c cs ih =>
    rw [basicBody, List.flatMap_cons]
    exact .cons (basicPiece_basicChar c) ih

lemma lineString_basicString (cs rest : List Char) :
    lineString (basicString cs ++ rest) = some (cs, rest) :=
  (LineString.basic (basicText_basicBody cs)).reads rest

/-! ### Strings in single quotes on one line -/

lemma lineString_literalString {cs : List Char} (h : ∀ c ∈ cs, isTextChar c = true ∧ c ≠ '\'')
    (rest : List Char) : lineString (literalString cs ++ rest) = some (cs, rest) :=
  (LineString.literal h).reads rest

/-! ### Runs of quotes -/

section Runs

variable {q : Char}

/-- One step in finding the longest run. -/
def runStep (q : Char) (acc : ℕ × ℕ) (d : Char) : ℕ × ℕ :=
  if d = q then (acc.1 + 1, max acc.2 (acc.1 + 1)) else (0, acc.2)

lemma le_runStep (cs : List Char) (acc : ℕ × ℕ) : acc.2 ≤ (cs.foldl (runStep q) acc).2 := by
  induction cs generalizing acc with
  | nil => exact le_rfl
  | cons c cs ih =>
    refine le_trans ?_ (ih _)
    unfold runStep
    split_ifs
    · exact le_max_left _ _
    · exact le_rfl

/-- A run of three characters is found in the text, or behind the run that came before. -/
lemma infix_of_runStep {cs : List Char} (acc : ℕ × ℕ) (hacc : acc.2 < 3)
    (h : 3 ≤ (cs.foldl (runStep q) acc).2) : [q, q, q] <:+: List.replicate acc.1 q ++ cs := by
  induction cs generalizing acc with
  | nil => exact absurd h (not_le.2 hacc)
  | cons d cs ih =>
    rw [List.foldl_cons, runStep] at h
    by_cases hd : d = q
    · subst hd
      have hshift : List.replicate acc.1 d ++ d :: cs = List.replicate (acc.1 + 1) d ++ cs := by
        rw [List.replicate_succ', List.append_assoc]
        rfl
      rw [if_pos rfl] at h
      rw [hshift]
      by_cases hrun : acc.1 + 1 < 3
      · exact ih _ (max_lt hacc hrun) h
      · have hfront : [d, d, d] <+: List.replicate (acc.1 + 1) d := by
          obtain ⟨k, hk⟩ : ∃ k, acc.1 + 1 = 3 + k := ⟨acc.1 - 2, by omega⟩
          rw [hk, List.replicate_add]
          exact List.prefix_append _ _
        exact (hfront.trans (List.prefix_append _ cs)).isInfix
    · rw [if_neg hd] at h
      have hthree := ih (0, acc.2) hacc h
      exact hthree.trans ((List.suffix_cons d cs).trans (List.suffix_append _ _)).isInfix

/-- No run has three characters exactly if there are no three in a row. -/
lemma longestRun_lt_iff {cs : List Char} : longestRun q cs < 3 ↔ ¬ [q, q, q] <:+: cs := by
  constructor
  · rintro h ⟨a, b, rfl⟩
    refine absurd h (not_lt.2 ?_)
    change 3 ≤ ((a ++ [q, q, q] ++ b).foldl (runStep q) (0, 0)).2
    rw [List.foldl_append, List.foldl_append]
    refine le_trans ?_ (le_runStep b _)
    simp only [List.foldl_cons, List.foldl_nil, runStep, if_true]
    omega
  · intro h
    by_contra hlong
    exact h (infix_of_runStep (0, 0) (by decide) (not_lt.1 hlong))

end Runs

/-- No further quote follows. -/
def NoQuote (rest : List Char) : Prop := ∀ c ∈ rest.head?, c ≠ '"' ∧ c ≠ '\''

/-! ### Strings in triple single quotes -/

section LiteralLines

variable {rest : List Char}

/-- A quote that is not followed by two more belongs to the string. -/
lemma literalLinesRest_quote (h : ¬ ['\'', '\''] <+: rest) :
    literalLinesRest ('\'' :: rest) =
      (literalLinesRest rest).bind fun p => some ('\'' :: p.1, p.2) := by
  rw [literalLinesRest.eq_def]
  simp only [Char.reduceEq, if_true, if_false]
  split
  · exact absurd ⟨_, rfl⟩ h
  · exact absurd ⟨_, rfl⟩ h
  · exact absurd ⟨_, rfl⟩ h
  · rfl

/-- Quotes at the end of a string stand in one run with the closing quotes. -/
lemma literalLinesRest_close (k : ℕ) (hk : k < 3) (h : NoQuote rest) :
    literalLinesRest (List.replicate k '\'' ++ '\'' :: '\'' :: '\'' :: rest) =
      some (List.replicate k '\'', rest) := by
  have hone : ∀ r, rest ≠ '\'' :: r := fun r hr => (h '\'' (by rw [hr]; rfl)).2 rfl
  match k, hk with
  | 0, _ => simp [literalLinesRest.eq_def, hone]
  | 1, _ => simp [literalLinesRest.eq_def]
  | 2, _ => simp [literalLinesRest.eq_def]

lemma literalLinesRest_append {cs : List Char} (h : ∀ c ∈ cs, isTextChar c = true ∨ c = '\n')
    (hrun : ¬ ['\'', '\'', '\''] <:+: cs) (hrest : NoQuote rest) :
    literalLinesRest (cs ++ '\'' :: '\'' :: '\'' :: rest) = some (cs, rest) := by
  induction cs with
  | nil => exact literalLinesRest_close 0 (by omega) hrest
  | cons c cs ih =>
    have ih := ih (fun d hd => h d (List.mem_cons_of_mem _ hd))
      fun hin => hrun (hin.trans (List.suffix_cons c cs).isInfix)
    have hc := h c (by simp)
    have hr : c ≠ '\r' := by
      rintro rfl
      simp [isTextChar] at hc
    by_cases hq : c = '\''
    · subst hq
      by_cases hpair : ['\'', '\''] <+: cs ++ '\'' :: '\'' :: '\'' :: rest
      · match cs with
        | [] => exact literalLinesRest_close 1 (by omega) hrest
        | [d] =>
          obtain rfl : '\'' = d := by simpa using hpair
          exact literalLinesRest_close 2 (by omega) hrest
        | d :: e :: cs =>
          obtain ⟨rfl, rfl⟩ : '\'' = d ∧ '\'' = e := by simpa using hpair
          exact absurd (List.prefix_append _ cs).isInfix hrun
      · rw [List.cons_append, literalLinesRest_quote hpair, ih]
        rfl
    · rw [List.cons_append, literalLinesRest.eq_def]
      simp only [hr, hq, if_false, Bool.or_eq_true, decide_eq_true_eq, hc, if_true, ih]
      rfl

end LiteralLines

/-! ### Strings in triple double quotes -/

section BasicLines

variable {rest : List Char}

/-- A character of a basic string over lines that is no quote. -/
def linesChar (c : Char) : List Char := if c = '\n' then ['\n'] else escapeChar c

lemma basicLinesRest_linesChar {c : Char} (hq : c ≠ '"') (rest : List Char) :
    basicLinesRest false (linesChar c ++ rest) =
      (basicLinesRest false rest).bind fun p => some (c :: p.1, p.2) := by
  unfold linesChar escapeChar
  split_ifs with hn hs ht hr hb hf hc
  · subst hn; simp [basicLinesRest.eq_def false (_ :: _)]
  · subst hs; simp [basicLinesRest.eq_def false (_ :: _), escaped?, joinsLines, isBlank, lineBreak]
  · subst ht; simp [basicLinesRest.eq_def false (_ :: _), escaped?, joinsLines, isBlank, lineBreak]
  · subst hr; simp [basicLinesRest.eq_def false (_ :: _), escaped?, joinsLines, isBlank, lineBreak]
  · subst hb; simp [basicLinesRest.eq_def false (_ :: _), escaped?, joinsLines, isBlank, lineBreak]
  · subst hf; simp [basicLinesRest.eq_def false (_ :: _), escaped?, joinsLines, isBlank, lineBreak]
  · obtain ⟨d₁, d₂, d₃, d₄, hd, hv⟩ := exists_controlDigits hc
    rw [controlDigits] at hd
    rw [hd]
    simp [basicLinesRest.eq_def false (_ :: _), hv]
  · have htext : isTextChar c = true := isTextChar_iff.2 ⟨by simpa using hc, hn⟩
    rw [List.singleton_append, basicLinesRest.eq_def]
    simp only [hq, hs, hr, htext, if_false, if_true, Bool.false_and, Bool.true_or,
      Bool.false_eq_true]
    rfl

/-- A quote that is not followed by two more belongs to the string. -/
lemma basicLinesRest_quote (h : ¬ ['"', '"'] <+: rest) :
    basicLinesRest false ('"' :: rest) =
      (basicLinesRest false rest).bind fun p => some ('"' :: p.1, p.2) := by
  rw [basicLinesRest.eq_def]
  simp only [Char.reduceEq, if_true, if_false, Bool.false_and, Bool.false_eq_true]
  split
  · exact absurd ⟨_, rfl⟩ h
  · exact absurd ⟨_, rfl⟩ h
  · exact absurd ⟨_, rfl⟩ h
  · rfl

/-- Quotes at the end of a string stand in one run with the closing quotes. -/
lemma basicLinesRest_close (k : ℕ) (hk : k < 3) (h : NoQuote rest) :
    basicLinesRest false (List.replicate k '"' ++ '"' :: '"' :: '"' :: rest) =
      some (List.replicate k '"', rest) := by
  have hone : ∀ r, rest ≠ '"' :: r := fun r hr => (h '"' (by rw [hr]; rfl)).1 rfl
  match k, hk with
  | 0, _ => simp [basicLinesRest.eq_def, hone]
  | 1, _ => simp [basicLinesRest.eq_def]
  | 2, _ => simp [basicLinesRest.eq_def]

lemma linesBody_cons {c : Char} (hq : c ≠ '"') (q : ℕ) (cs : List Char) :
    linesBody q (c :: cs) = linesChar c ++ linesBody 0 cs := by
  rw [linesBody, if_neg hq, linesChar]
  split_ifs
  · rfl
  · rfl

lemma not_prefix_linesChar {c : Char} (hq : c ≠ '"') (text : List Char) :
    ¬ ['"'] <+: linesChar c ++ text := by
  unfold linesChar escapeChar
  split_ifs <;> simp [hq.symm]

lemma not_prefix_linesBody_cons {c : Char} (hc : c ≠ '"') (q : ℕ) (cs text : List Char) :
    ¬ ['"'] <+: linesBody q (c :: cs) ++ text := by
  rw [linesBody_cons hc, List.append_assoc]
  exact not_prefix_linesChar hc _

/-- Behind two quotes a third one is escaped. -/
lemma not_prefix_linesBody_two {cs : List Char} (hcs : cs ≠ []) (text : List Char) :
    ¬ ['"'] <+: linesBody 2 cs ++ text := by
  match cs, hcs with
  | c :: cs, _ =>
    by_cases hc : c = '"'
    · subst hc
      simp [linesBody]
    · exact not_prefix_linesBody_cons hc 2 cs text

lemma not_pair_of_not_quote {text : List Char} (h : ¬ ['"'] <+: text) : ¬ ['"', '"'] <+: text :=
  fun hp => h ((List.prefix_append ['"'] ['"']).trans hp)

lemma basicLinesRest_linesBody {q : ℕ} (hq : q ≤ 2) (cs : List Char) (h : NoQuote rest) :
    basicLinesRest false (linesBody q cs ++ '"' :: '"' :: '"' :: rest) = some (cs, rest) := by
  induction cs generalizing q with
  | nil => exact basicLinesRest_close 0 (by omega) h
  | cons c cs ih =>
    by_cases hc : c = '"'
    · subst hc
      by_cases htwo : q = 2
      · subst htwo
        rw [linesBody, if_pos rfl, if_pos rfl]
        simp [basicLinesRest.eq_def false (_ :: _), escaped?, joinsLines, isBlank, lineBreak,
          ih (Nat.zero_le 2)]
      have e : linesBody q ('"' :: cs) = '"' :: linesBody (q + 1) cs := by
        rw [linesBody, if_pos rfl, if_neg htwo]
      have push (hp : ¬ ['"', '"'] <+: linesBody (q + 1) cs ++ '"' :: '"' :: '"' :: rest) :
          basicLinesRest false (linesBody q ('"' :: cs) ++ '"' :: '"' :: '"' :: rest) =
            some ('"' :: cs, rest) := by
        rw [e, List.cons_append, basicLinesRest_quote hp, ih (by omega)]
        rfl
      -- Up to two quotes at the end of the string run into the closing quotes.
      match cs with
      | [] =>
        rw [e]
        exact basicLinesRest_close 1 (by omega) h
      | d :: cs =>
        by_cases hone : q = 1
        · subst hone
          exact push (not_pair_of_not_quote (not_prefix_linesBody_two (List.cons_ne_nil d cs) _))
        by_cases hd : d = '"'
        · subst hd
          have hzero : q = 0 := by omega
          subst hzero
          have e' : linesBody 1 ('"' :: cs) = '"' :: linesBody 2 cs := by
            rw [linesBody, if_pos rfl, if_neg (by decide)]
          match cs with
          | [] =>
            rw [e, e']
            exact basicLinesRest_close 2 (by omega) h
          | d :: cs =>
            refine push ?_
            rw [e', List.cons_append, List.cons_prefix_cons]
            exact fun hp => not_prefix_linesBody_two (List.cons_ne_nil d cs) _ hp.2
        · exact push (not_pair_of_not_quote (not_prefix_linesBody_cons hd _ cs _))
    · rw [linesBody_cons hc, List.append_assoc, basicLinesRest_linesChar hc, ih (by omega)]
      rfl

end BasicLines

/-! ### Strings as values -/

section Values

variable {cs rest : List Char}

lemma openingBreak_leadingBreak {text : List Char}
    (h : cs.contains '\n' = false → lineBreak text = none) :
    openingBreak (leadingBreak cs ++ text) = some ((), text) := by
  unfold leadingBreak
  split_ifs with hn
  · rfl
  · have hnone := h (by simpa using hn)
    simp only [List.nil_append]
    change ((Reader.optional lineBreak) text).bind (fun p => some ((), p.2)) = _
    rw [Reader.optional, hnone]
    rfl

lemma lineBreak_eq_none {c : Char} (hn : c ≠ '\n') (hr : c ≠ '\r') (text : List Char) :
    lineBreak (c :: text) = none := by
  unfold lineBreak
  split
  · simp_all
  · simp_all
  · rfl

lemma anyString_literalLines (hc : cs.any isControl = false) (hrun : longestRun '\'' cs < 3)
    (h : NoQuote rest) : anyString (literalLines cs ++ rest) = some (cs, rest) := by
  have hchars : ∀ c ∈ cs, isTextChar c = true ∨ c = '\n' := fun c hin => by
    by_cases hn : c = '\n'
    · exact .inr hn
    · exact .inl (isTextChar_iff.2 ⟨by simpa using List.any_eq_false.1 hc c hin, hn⟩)
  have e : literalLines cs ++ rest =
      '\'' :: '\'' :: '\'' :: (leadingBreak cs ++ (cs ++ '\'' :: '\'' :: '\'' :: rest)) := by
    simp [literalLines]
  rw [e]
  change (openingBreak _).bind (fun p => literalLinesRest p.2) = _
  rw [openingBreak_leadingBreak]
  · exact literalLinesRest_append hchars (longestRun_lt_iff.1 hrun) h
  · intro hn
    match cs with
    | [] => rfl
    | c :: cs =>
      refine lineBreak_eq_none ?_ ?_ _
      · rintro rfl
        simp at hn
      · rintro rfl
        simp [isControl] at hc

lemma anyString_basicLines (h : NoQuote rest) :
    anyString (basicLines cs ++ rest) = some (cs, rest) := by
  have e : basicLines cs ++ rest =
      '"' :: '"' :: '"' :: (leadingBreak cs ++ (linesBody 0 cs ++ '"' :: '"' :: '"' :: rest)) := by
    simp [basicLines]
  rw [e]
  change (openingBreak _).bind (fun p => basicLinesRest false p.2) = _
  rw [openingBreak_leadingBreak]
  · exact basicLinesRest_linesBody (by omega) cs h
  · intro hn
    match cs with
    | [] => rfl
    | c :: cs =>
      have hn : c ≠ '\n' := by
        rintro rfl
        simp at hn
      unfold linesBody escapeChar
      split_ifs <;> first | rfl | exact lineBreak_eq_none hn (by assumption) _

lemma not_prefix_basicChar (c : Char) (text : List Char) : ¬ ['"'] <+: basicChar c ++ text := by
  by_cases hq : c = '"'
  · subst hq
    simp [basicChar]
  · unfold basicChar escapeChar
    split_ifs <;> simp [Ne.symm hq]

/-- A text that opens with one quote, or with two and no third, holds a string on one line. -/
lemma anyString_eq_lineString {text : List Char} (hd : ¬ ['"', '"', '"'] <+: text)
    (hs : ¬ ['\'', '\'', '\''] <+: text) : anyString text = lineString text := by
  unfold anyString
  split
  · exact absurd ⟨_, rfl⟩ hd
  · exact absurd ⟨_, rfl⟩ hs
  · rfl

lemma anyString_basicString (h : NoQuote rest) :
    anyString (basicString cs ++ rest) = some (cs, rest) := by
  rw [anyString_eq_lineString, lineString_basicString]
  · match cs with
    | [] =>
      rintro ⟨r, hr⟩
      have hh : rest = '"' :: r := by simpa [basicString, basicBody] using hr.symm
      exact (h '"' (by rw [hh]; rfl)).1 rfl
    | c :: cs =>
      have e : basicString (c :: cs) ++ rest =
          '"' :: (basicChar c ++ (basicBody cs ++ '"' :: rest)) := by
        simp [basicString, basicBody, basicChar]
      rw [e, List.cons_prefix_cons]
      exact fun hp => not_pair_of_not_quote (not_prefix_basicChar c _) hp.2
  · simp [basicString]

lemma anyString_literalString (hcs : ∀ c ∈ cs, isTextChar c = true ∧ c ≠ '\'') (h : NoQuote rest) :
    anyString (literalString cs ++ rest) = some (cs, rest) := by
  rw [anyString_eq_lineString, lineString_literalString hcs]
  · simp [literalString]
  · match cs with
    | [] =>
      rintro ⟨r, hr⟩
      have hh : rest = '\'' :: r := by simpa [literalString] using hr.symm
      exact (h '\'' (by rw [hh]; rfl)).2 rfl
    | c :: cs =>
      have hc := (hcs c (by simp)).2
      simp [literalString, hc.symm]

lemma isTextChar_of_plain (hc : cs.any isControl = false) (hn : cs.contains '\n' = false) :
    ∀ c ∈ cs, isTextChar c = true := by
  intro c hin
  refine isTextChar_iff.2 ⟨by simpa using List.any_eq_false.1 hc c hin, ?_⟩
  rintro rfl
  simp [hin] at hn

/-- **Every string is read from its text**, if no further quote follows. -/
theorem anyString_stringText (h : NoQuote rest) :
    anyString (stringText cs ++ rest) = some (cs, rest) := by
  unfold stringText
  simp only [Bool.and_eq_true, Bool.not_eq_true', decide_eq_true_eq]
  split_ifs with h₁ h₂ h₃ h₄
  · exact anyString_basicString h
  · obtain ⟨⟨hc, hn⟩, hq⟩ := h₂
    refine anyString_literalString (fun c hin => ⟨isTextChar_of_plain hc hn c hin, ?_⟩) h
    rintro rfl
    simp [hin] at hq
  · exact anyString_basicLines h
  · exact anyString_literalLines h₄.1 h₄.2 h
  · exact anyString_basicLines h
  · exact anyString_basicString h

end Values

end PackScope.Toml
