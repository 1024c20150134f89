import PackScope.Proofs.Toml.Keys

/-!
Simple keys, by the grammar of the format: bare, or a string on one line. These are the texts that
spell a key to the reader. Of a string in triple quotes it takes an empty key and leaves a quote
behind, so a string is a key in the form that it has as a value exactly if that form is on one line,
which its characters decide.
-/

namespace PackScope.Toml

/-! ### The grammar -/

/-- **A simple key**, and the name that it spells. -/
inductive SimpleKey : List Char → List Char → Prop
  | bare {key : List Char} (isBare : isBareKey key = true) : SimpleKey key key
  | quoted {text key : List Char} (string : LineString text key) : SimpleKey text key

/-- **Whether a text stands for a name wherever a key is expected**: it is a simple key, it breaks
no line, and it is read as the name if no character of a bare key follows. -/
structure IsKeyOf (text : List Char) (name : String) : Prop where
  simple : SimpleKey text name.toList
  line : '\n' ∉ text
  reads : ∀ rest, EndsKey rest → keyPart (text ++ rest) = some (name, rest.dropWhile isBlank)

section Keys

variable {text key tail : List Char} {name : String} {q : Char}

lemma not_mem_of_isBareKey {c : Char} (h : isBareKey key = true) (hc : isBareChar c = false) :
    c ∉ key := by
  intro hin
  exact Bool.eq_false_iff.1 hc (isBareChar_of_mem h c hin)

/-- **The simple keys are the texts that spell a key to the reader.** -/
theorem spells_iff : Spells text key ↔ SimpleKey text key := by
  constructor
  · rintro (⟨rfl, hb⟩ | hline)
    · exact .bare hb
    · obtain ⟨text', e, string⟩ := lineString_eq_some_iff.1 (hline [])
      rw [List.append_cancel_right e]
      exact .quoted string
  · rintro (hb | string)
    · exact .inl ⟨rfl, hb⟩
    · exact .inr string.reads

lemma SimpleKey.not_mem_lineFeed (h : SimpleKey text key) : '\n' ∉ text := by
  cases h with
  | bare isBare => exact not_mem_of_isBareKey isBare rfl
  | quoted string => exact string.not_mem_lineFeed

/-- A simple key stands for its name wherever a key is expected. -/
lemma isKeyOf_iff : IsKeyOf text name ↔ SimpleKey text name.toList := by
  refine ⟨IsKeyOf.simple, fun h => ⟨h, h.not_mem_lineFeed, fun rest hrest => ?_⟩⟩
  rw [keyPart_append (spells_iff.2 h) hrest, String.ofList_toList]

/-- Of a string in triple quotes an empty key is taken, and a quote is left behind. -/
lemma keyPart_tripled (hq : q = '"' ∨ q = '\'') (tail : List Char) :
    keyPart (q :: q :: q :: tail) = some ("", q :: tail) := by
  have hstart : StartsKey q := .inr hq
  have hline : lineString (q :: q :: q :: tail) = some ([], q :: tail) := by
    rcases hq with rfl | rfl
    · exact basicRest_quote ('"' :: tail)
    · rfl
  rw [keyPart, Reader.bind_of_eq _ (hstart.blanks _),
    Reader.bind_of_eq _ (Reader.optional_of_eq hline)]
  dsimp only
  rw [pure_bind, Reader.bind_of_eq _ (hstart.blanks _)]
  rfl

/-- No further part of a key is behind a quote. -/
lemma keyParts_quote (hq : q = '"' ∨ q = '\'') (n : ℕ) (tail : List Char) :
    keyParts n (q :: tail) = some ([], q :: tail) := by
  refine keyParts_nil n fun hpoint => ?_
  obtain rfl : q = '.' := by simpa using hpoint
  rcases hq with h | h <;> cases h

lemma key_tripled (hq : q = '"' ∨ q = '\'') (tail : List Char) :
    Toml.key (q :: q :: q :: tail) = some ([""], q :: tail) := by
  rw [Toml.key, Reader.bind_of_eq _ (keyPart_tripled hq tail)]
  change (keyParts 78 >>= _) (q :: tail) = _
  rw [Reader.bind_of_eq _ (keyParts_quote hq 78 tail)]
  rfl

lemma key_point_tripled (h : Spells text key) (hq : q = '"' ∨ q = '\'') (tail : List Char) :
    Toml.key (text ++ '.' :: q :: q :: q :: tail) = some ([.ofList key, ""], q :: tail) := by
  have hparts : keyParts 78 ('.' :: q :: q :: q :: tail) = some ([""], q :: tail) := by
    rw [keyParts, Reader.bind_of_eq _ (Reader.found_cons '.' _), if_pos rfl,
      Reader.bind_of_eq _ (keyPart_tripled hq tail),
      Reader.bind_of_eq _ (keyParts_quote hq 77 tail)]
    rfl
  rw [Toml.key, Reader.bind_of_eq _ (keyPart_append h (endsKey_point _))]
  change (keyParts 78 >>= _) ('.' :: q :: q :: q :: tail) = _
  rw [Reader.bind_of_eq _ hparts]
  rfl

lemma not_simpleKey_tripled (hq : q = '"' ∨ q = '\'') (tail key : List Char) :
    ¬ SimpleKey (q :: q :: q :: tail) key := by
  intro h
  have hend : EndsKey [] := fun c hc => by cases hc
  have hread := keyPart_append (spells_iff.2 h) hend
  rw [List.append_nil, keyPart_tripled hq] at hread
  exact absurd (Prod.mk.inj (Option.some.inj hread)).2 (List.cons_ne_nil q tail)

end Keys

/-! ### Strings that are written on one line -/

/-- **Whether a string has its value form on one line**: it has no line feed, and triple quotes
spare it no escapes. They spare none where single quotes do not meet double quotes or backslashes,
and they can hold neither a control character nor three single quotes in a row together with a
backslash or three double quotes in a row. -/
def FitsLine (cs : List Char) : Prop :=
  '\n' ∉ cs ∧ ('\'' ∉ cs ∨ ('"' ∉ cs ∧ '\\' ∉ cs) ∨ cs.any isControl = true ∨
    (('\\' ∈ cs ∨ ['"', '"', '"'] <:+: cs) ∧ ['\'', '\'', '\''] <:+: cs))

instance : DecidablePred FitsLine := fun cs => inferInstanceAs (Decidable ('\n' ∉ cs ∧
  ('\'' ∉ cs ∨ ('"' ∉ cs ∧ '\\' ∉ cs) ∨ cs.any isControl = true ∨
    (('\\' ∈ cs ∨ ['"', '"', '"'] <:+: cs) ∧ ['\'', '\'', '\''] <:+: cs))))

section Strings

variable {cs : List Char}

lemma fitsLine_of_isBareKey (h : isBareKey cs = true) : FitsLine cs :=
  ⟨not_mem_of_isBareKey h rfl, .inl (not_mem_of_isBareKey h rfl)⟩

/-- The form of a string as a value. -/
lemma stringText_cases (cs : List Char) :
    (FitsLine cs ∧ (stringText cs = basicString cs ∨
      (stringText cs = literalString cs ∧ ∀ c ∈ cs, isTextChar c = true ∧ c ≠ '\''))) ∨
    (¬ FitsLine cs ∧ (stringText cs = basicLines cs ∨ stringText cs = literalLines cs)) := by
  simp only [stringText, Bool.and_eq_true, Bool.not_eq_true', decide_eq_true_eq,
    ← Bool.not_eq_true, List.contains_iff_mem, longestRun_lt_iff]
  unfold FitsLine
  split_ifs with h₁ h₂ h₃ h₄ h₅
  · obtain ⟨⟨⟨-, hn⟩, hs⟩, hd⟩ := h₁
    exact .inl ⟨⟨hn, .inr (.inl ⟨hd, hs⟩)⟩, .inl rfl⟩
  · obtain ⟨⟨hc, hn⟩, hq⟩ := h₂
    refine .inl ⟨⟨hn, .inl hq⟩, .inr ⟨rfl, fun c hin => ⟨?_, fun e => hq (e ▸ hin)⟩⟩⟩
    refine isTextChar_iff.2 ⟨?_, fun e => hn (e ▸ hin)⟩
    exact Bool.eq_false_iff.2 fun h => hc (List.any_eq_true.2 ⟨c, hin, h⟩)
  · obtain ⟨⟨hc, hs⟩, hrun⟩ := h₃
    refine .inr ⟨?_, .inl rfl⟩
    rintro ⟨hn, hq | ⟨hd, -⟩ | hcontrol | ⟨hs' | hrun', -⟩⟩
    · exact h₂ ⟨⟨hc, hn⟩, hq⟩
    · exact h₁ ⟨⟨⟨hc, hn⟩, hs⟩, hd⟩
    · exact hc hcontrol
    · exact hs hs'
    · exact hrun hrun'
  · obtain ⟨hc, hrun⟩ := h₄
    refine .inr ⟨?_, .inr rfl⟩
    rintro ⟨hn, hq | ⟨hd, hs⟩ | hcontrol | ⟨-, hrun'⟩⟩
    · exact h₂ ⟨⟨hc, hn⟩, hq⟩
    · exact h₁ ⟨⟨⟨hc, hn⟩, hs⟩, hd⟩
    · exact hc hcontrol
    · exact hrun hrun'
  · exact .inr ⟨fun h => h.1 h₅, .inl rfl⟩
  · refine .inl ⟨⟨h₅, ?_⟩, .inl rfl⟩
    by_cases hc : cs.any isControl = true
    · exact .inr (.inr (.inl hc))
    refine .inr (.inr (.inr ⟨?_, ?_⟩))
    · by_contra h
      rw [not_or] at h
      exact h₃ ⟨⟨hc, h.1⟩, h.2⟩
    · by_contra hrun
      exact h₄ ⟨hc, hrun⟩

lemma lineString_stringText (h : FitsLine cs) : LineString (stringText cs) cs := by
  rcases stringText_cases cs with ⟨-, e | ⟨e, chars⟩⟩ | ⟨hfits, -⟩
  · rw [e]
    exact .basic (basicText_basicBody cs)
  · rw [e]
    exact .literal chars
  · exact absurd h hfits

lemma stringText_tripled (h : ¬ FitsLine cs) :
    ∃ q tail, (q = '"' ∨ q = '\'') ∧ stringText cs = q :: q :: q :: tail := by
  rcases stringText_cases cs with ⟨hfits, -⟩ | ⟨-, e | e⟩
  · exact absurd hfits h
  · rw [e]
    exact ⟨'"', _, .inl rfl, rfl⟩
  · rw [e]
    exact ⟨'\'', _, .inr rfl, rfl⟩

end Strings

end PackScope.Toml
