import Mathlib.Data.Nat.Notation
import Mathlib.Tactic.Lemma
import PackScope.Toml.Quoted

/-!
Strings on one line, by the grammar of the format: in double quotes, where a character stands for
itself or is escaped, or in single quotes, where every character stands for itself. The reader takes
exactly these off a text, whatever follows them.
-/

namespace PackScope.Toml

/-! ### The grammar -/

/-- A character between double quotes, as it is or by an escape. -/
inductive BasicPiece : List Char → Char → Prop
  | plain {c : Char} (isText : isTextChar c = true) (quote : c ≠ '"') (backslash : c ≠ '\\') :
    BasicPiece [c] c
  | escape {d e : Char} (escaped : escaped? d = some e) : BasicPiece ['\\', d] e
  | short {d₁ d₂ d₃ d₄ e : Char} (number : charOfHex? [d₁, d₂, d₃, d₄] = some e) :
    BasicPiece ['\\', 'u', d₁, d₂, d₃, d₄] e
  | long {d₁ d₂ d₃ d₄ d₅ d₆ d₇ d₈ e : Char}
    (number : charOfHex? [d₁, d₂, d₃, d₄, d₅, d₆, d₇, d₈] = some e) :
    BasicPiece ['\\', 'U', d₁, d₂, d₃, d₄, d₅, d₆, d₇, d₈] e

/-- A text between double quotes, and the string that it spells. -/
inductive BasicText : List Char → List Char → Prop
  | nil : BasicText [] []
  | cons {piece text cs : List Char} {c : Char} (first : BasicPiece piece c)
    (rest : BasicText text cs) : BasicText (piece ++ text) (c :: cs)

/-- **A string on one line**, and the string that it spells. -/
inductive LineString : List Char → List Char → Prop
  | basic {text cs : List Char} (body : BasicText text cs) : LineString ('"' :: (text ++ ['"'])) cs
  | literal {cs : List Char} (chars : ∀ c ∈ cs, isTextChar c = true ∧ c ≠ '\'') :
    LineString ('\'' :: (cs ++ ['\''])) cs

/-! ### Escapes -/

section Escapes

variable {digits : List Char} {c e : Char}

lemma not_mem_of_hexNumber? {n : ℕ} (h : Text.hexNumber? digits = some n) : '\n' ∉ digits := by
  suffices hfold : ∀ k m,
      digits.foldlM (fun n c => (Text.hexValue? c).map (16 * n + ·)) k = some m → '\n' ∉ digits
    from hfold 0 n h
  clear h
  induction digits with
  | nil => exact fun _ _ _ => List.not_mem_nil
  | cons d digits ih =>
    intro k m h
    rw [List.foldlM_cons] at h
    obtain ⟨k', hd, h⟩ := Option.bind_eq_some_iff.1 h
    rw [List.mem_cons, not_or]
    refine ⟨?_, ih k' m h⟩
    rintro rfl
    cases hd

lemma not_mem_of_charOfHex? (h : charOfHex? digits = some e) : '\n' ∉ digits := by
  obtain ⟨n, hn, -⟩ := Option.bind_eq_some_iff.1 h
  exact not_mem_of_hexNumber? hn

/-- No other escape starts as the escapes by numbers do. -/
lemma ne_of_escaped? (h : escaped? c = some e) : c ≠ 'u' ∧ c ≠ 'U' ∧ c ≠ '\n' := by
  refine ⟨?_, ?_, ?_⟩ <;> rintro rfl <;> cases h

end Escapes

/-! ### Strings in double quotes -/

section Basic

variable {piece text cs key rest : List Char} {c : Char}

/-- A piece is read as its character. -/
lemma BasicPiece.basicRest_append (h : BasicPiece piece c) (rest : List Char) :
    basicRest (piece ++ rest) = (basicRest rest).bind fun p => some (c :: p.1, p.2) := by
  cases h with
  | plain isText quote backslash =>
    rw [List.singleton_append, basicRest.eq_def]
    simp only [quote, backslash, isText, if_true, if_false]
    rfl
  | escape escaped =>
    obtain ⟨hu, hU, -⟩ := ne_of_escaped? escaped
    simp [basicRest, escaped, hu, hU]
  | short number => simp [basicRest, number]
  | long number => simp [basicRest, number]

lemma BasicPiece.not_mem_lineFeed (h : BasicPiece piece c) : '\n' ∉ piece := by
  cases h with
  | plain isText =>
    have hc : c ≠ '\n' := by
      rintro rfl
      cases isText
    simpa using hc.symm
  | escape escaped =>
    obtain ⟨-, -, hd⟩ := ne_of_escaped? escaped
    simpa using hd.symm
  | short number => simpa using not_mem_of_charOfHex? number
  | long number => simpa using not_mem_of_charOfHex? number

lemma basicRest_quote (rest : List Char) : basicRest ('"' :: rest) = some ([], rest) := by
  rw [basicRest.eq_def]
  rfl

lemma BasicText.basicRest_append (h : BasicText text cs) (rest : List Char) :
    basicRest (text ++ '"' :: rest) = some (cs, rest) := by
  induction h with
  | nil => exact basicRest_quote rest
  | cons first _ ih =>
    rw [List.append_assoc, first.basicRest_append, ih]
    rfl

lemma BasicText.not_mem_lineFeed (h : BasicText text cs) : '\n' ∉ text := by
  induction h with
  | nil => exact List.not_mem_nil
  | cons first _ ih =>
    rw [List.mem_append, not_or]
    exact ⟨first.not_mem_lineFeed, ih⟩

/-- Where a text starts with a piece, what is read off it starts with the character of the piece. -/
lemma BasicPiece.exists_text (h : BasicPiece piece c) {tail : List Char}
    (ih : ∀ {cs}, basicRest tail = some (cs, rest) → ∃ text, tail = text ++ '"' :: rest ∧
      BasicText text cs) (hread : basicRest (piece ++ tail) = some (key, rest)) :
    ∃ text, piece ++ tail = text ++ '"' :: rest ∧ BasicText text key := by
  rw [h.basicRest_append] at hread
  obtain ⟨⟨cs, rest'⟩, hcs, e⟩ := Option.bind_eq_some_iff.1 hread
  obtain ⟨rfl, rfl⟩ := Prod.mk.inj (Option.some.inj e)
  obtain ⟨text, rfl, htext⟩ := ih hcs
  exact ⟨piece ++ text, (List.append_assoc ..).symm, .cons h htext⟩

lemma exists_of_basicRest (h : basicRest cs = some (key, rest)) :
    ∃ text, cs = text ++ '"' :: rest ∧ BasicText text key := by
  induction cs using basicRest.induct generalizing key with
  | case1 => cases h
  | case2 tail =>
    rw [basicRest_quote] at h
    obtain ⟨rfl, rfl⟩ := Prod.mk.inj (Option.some.inj h)
    exact ⟨[], rfl, .nil⟩
  | case3 d₁ d₂ d₃ d₄ tail _ ih =>
    cases he : charOfHex? [d₁, d₂, d₃, d₄] with
    | none => simp [basicRest, he] at h
    | some e => exact (BasicPiece.short he).exists_text ih h
  | case4 d₁ d₂ d₃ d₄ d₅ d₆ d₇ d₈ tail _ ih =>
    cases he : charOfHex? [d₁, d₂, d₃, d₄, d₅, d₆, d₇, d₈] with
    | none => simp [basicRest, he] at h
    | some e => exact (BasicPiece.long he).exists_text ih h
  | case5 d tail hu hU _ ih =>
    cases he : escaped? d with
    | none => simp [basicRest, he] at h
    | some e => exact (BasicPiece.escape he).exists_text ih h
  | case6 => cases h
  | case7 c tail quote backslash isText ih =>
    exact (BasicPiece.plain isText quote backslash).exists_text ih h
  | case8 c tail quote backslash isText =>
    rw [basicRest.eq_def] at h
    simp [quote, backslash, isText] at h

end Basic

/-! ### Strings in single quotes -/

section Literal

variable {cs key rest : List Char}

lemma literalRest_append (h : ∀ c ∈ cs, isTextChar c = true ∧ c ≠ '\'') (rest : List Char) :
    literalRest (cs ++ '\'' :: rest) = some (cs, rest) := by
  induction cs with
  | nil => simp [literalRest]
  | cons c cs ih =>
    obtain ⟨ht, hq⟩ := h c (by simp)
    simp [literalRest, hq, ht, ih fun d hd => h d (List.mem_cons_of_mem _ hd)]

lemma eq_of_literalRest (h : literalRest cs = some (key, rest)) :
    cs = key ++ '\'' :: rest ∧ ∀ c ∈ key, isTextChar c = true ∧ c ≠ '\'' := by
  induction cs generalizing key with
  | nil => cases h
  | cons c cs ih =>
    by_cases hq : c = '\''
    · subst hq
      cases h
      exact ⟨rfl, fun c hc => absurd hc List.not_mem_nil⟩
    by_cases ht : isTextChar c = true
    · simp only [literalRest, hq, ht, if_false, if_true] at h
      obtain ⟨⟨key', rest'⟩, hkey, e⟩ := Option.bind_eq_some_iff.1 h
      obtain ⟨rfl, rfl⟩ := Prod.mk.inj (Option.some.inj e)
      obtain ⟨rfl, hchars⟩ := ih hkey
      exact ⟨rfl, List.forall_mem_cons.2 ⟨⟨ht, hq⟩, hchars⟩⟩
    · simp [literalRest, hq, ht] at h

end Literal

/-! ### Strings on one line -/

section Lines

variable {text cs key rest : List Char}

lemma LineString.reads (h : LineString text key) (rest : List Char) :
    lineString (text ++ rest) = some (key, rest) := by
  cases h with
  | basic body => simpa [lineString] using body.basicRest_append rest
  | literal chars => simpa [lineString] using literalRest_append chars rest

lemma LineString.not_mem_lineFeed (h : LineString text key) : '\n' ∉ text := by
  cases h with
  | basic body => simpa using body.not_mem_lineFeed
  | literal chars =>
    have hkey : '\n' ∉ key := fun hn => absurd (chars _ hn).1 (by decide)
    simpa using hkey

/-- **Strings on one line are read off a text, and nothing else.** -/
theorem lineString_eq_some_iff :
    lineString cs = some (key, rest) ↔ ∃ text, cs = text ++ rest ∧ LineString text key := by
  constructor
  · intro h
    unfold lineString at h
    split at h
    next tail =>
      obtain ⟨text, rfl, body⟩ := exists_of_basicRest h
      exact ⟨'"' :: (text ++ ['"']), by simp, .basic body⟩
    next tail =>
      obtain ⟨rfl, chars⟩ := eq_of_literalRest h
      exact ⟨'\'' :: (key ++ ['\'']), by simp, .literal chars⟩
    next => cases h
  · rintro ⟨text, rfl, htext⟩
    exact htext.reads rest

end Lines

end PackScope.Toml
