import PackScope.Proofs.Text.Reading
import PackScope.Proofs.Toml.Strings
import PackScope.Toml.NodeReader

/-!
Printed keys read back. A key is written bare or as a string on one line, and in either form it is
read up to the point, the blank or the equality sign behind it.
-/

namespace PackScope.Toml

/-- Whether a text spells a key: bare, or as a string on one line. -/
def Spells (text key : List Char) : Prop :=
  (text = key ∧ isBareKey key = true) ∨ ∀ rest, lineString (text ++ rest) = some (key, rest)

/-- No character of a bare key follows. -/
def EndsKey (rest : List Char) : Prop := ∀ c ∈ rest.head?, isBareChar c = false

section

variable {text key rest : List Char}

lemma endsKey_point (rest : List Char) : EndsKey ('.' :: rest) := by
  intro c hc
  obtain rfl : '.' = c := by simpa using hc
  decide

lemma endsKey_blank (rest : List Char) : EndsKey (' ' :: rest) := by
  intro c hc
  obtain rfl : ' ' = c := by simpa using hc
  decide

lemma isBareChar_of_mem (h : isBareKey key = true) : ∀ c ∈ key, isBareChar c = true :=
  List.all_eq_true.1 (Bool.and_eq_true_iff.1 h).2

lemma exists_bare (h : isBareKey key = true) :
    ∃ c cs, key = c :: cs ∧ isBareChar c = true ∧ ∀ d ∈ cs, isBareChar d = true := by
  cases key with
  | nil => cases h
  | cons c cs => exact ⟨c, cs, rfl, List.forall_mem_cons.1 (isBareChar_of_mem h)⟩

/-- Letters and digits stand between the zero and the small z. -/
lemma toNat_of_isAlphanum {c : Char} (h : c.isAlphanum = true) : 48 ≤ c.toNat ∧ c.toNat ≤ 122 := by
  have hbound {x y : Char} (hx : x.val ≤ c.val) (hy : c.val ≤ y.val) :
      x.toNat ≤ c.toNat ∧ c.toNat ≤ y.toNat :=
    ⟨UInt32.le_iff_toNat_le.1 hx, UInt32.le_iff_toNat_le.1 hy⟩
  rcases Bool.or_eq_true_iff.1 h with hletter | hdigit
  · rcases Bool.or_eq_true_iff.1 hletter with hupper | hlower
    · obtain ⟨hge, hle⟩ := of_decide_eq_true hupper
      have hrange : 65 ≤ c.toNat ∧ c.toNat ≤ 90 := hbound hge hle
      omega
    · obtain ⟨hge, hle⟩ := Bool.and_eq_true_iff.1 hlower
      have hrange : 97 ≤ c.toNat ∧ c.toNat ≤ 122 :=
        hbound (of_decide_eq_true hge) (of_decide_eq_true hle)
      omega
  · obtain ⟨hge, hle⟩ := Bool.and_eq_true_iff.1 hdigit
    have hrange : 48 ≤ c.toNat ∧ c.toNat ≤ 57 :=
      hbound (of_decide_eq_true hge) (of_decide_eq_true hle)
    omega

/-- The characters of bare keys are characters of texts. -/
lemma isTextChar_of_isBareChar {c : Char} (h : isBareChar c = true) :
    isTextChar c = true := by
  rw [isBareChar, Bool.or_eq_true, Bool.or_eq_true, decide_eq_true_eq, decide_eq_true_eq] at h
  rcases h with (h | rfl) | rfl
  · have hrange := toNat_of_isAlphanum h
    simp only [isTextChar, Bool.or_eq_true, Bool.and_eq_true, decide_eq_true_eq]
    omega
  · rfl
  · rfl

/-- Whether a key may start with a character. -/
def StartsKey (c : Char) : Prop := isBareChar c = true ∨ c = '"' ∨ c = '\''

lemma StartsKey.ne {c d : Char} (h : StartsKey c) (hb : isBareChar d = false)
    (hq : d ≠ '"' ∧ d ≠ '\'') : c ≠ d := by
  rintro rfl
  rcases h with h | h | h
  · simp [hb] at h
  · exact hq.1 h
  · exact hq.2 h

lemma StartsKey.isBlank_eq {c : Char} (h : StartsKey c) : isBlank c = false := by
  have hs : c ≠ ' ' := h.ne (by decide) (by decide)
  have ht : c ≠ '\t' := h.ne (by decide) (by decide)
  simp [isBlank, hs, ht]

lemma StartsKey.blanks {c : Char} (h : StartsKey c) (rest : List Char) :
    blanks (c :: rest) = some ((), c :: rest) := by
  refine Reader.skip_none fun d hd => ?_
  obtain rfl : c = d := by simpa using hd
  exact h.isBlank_eq

lemma Spells.exists_cons (h : Spells text key) : ∃ c cs, text = c :: cs ∧ StartsKey c := by
  rcases h with ⟨rfl, hb⟩ | hline
  · obtain ⟨c, cs, e, hc, -⟩ := exists_bare hb
    exact ⟨c, cs, e, .inl hc⟩
  · have hread := hline []
    rw [List.append_nil] at hread
    unfold lineString at hread
    split at hread
    · exact ⟨_, _, rfl, .inr (.inl rfl)⟩
    · exact ⟨_, _, rfl, .inr (.inr rfl)⟩
    · cases hread

/-- No character starts a spelled key that is no part of a bare key and no quote. -/
lemma Spells.not_mem_head (h : Spells text key) {c : Char} (hb : isBareChar c = false)
    (hq : c ≠ '"' ∧ c ≠ '\'') (rest : List Char) : c ∉ (text ++ rest).head? := by
  obtain ⟨d, cs, rfl, hd⟩ := h.exists_cons
  simpa using hd.ne hb hq

lemma Spells.not_blank (h : Spells text key) (rest : List Char) :
    ∀ c ∈ (text ++ rest).head?, isBlank c = false := by
  obtain ⟨d, cs, rfl, hd⟩ := h.exists_cons
  intro c hc
  obtain rfl : d = c := by simpa using hc
  exact hd.isBlank_eq

lemma bareKey_append (h : isBareKey key = true) (hrest : EndsKey rest) :
    bareKey (key ++ rest) = some (key, rest) := by
  obtain ⟨c, cs, rfl, hc, hcs⟩ := exists_bare h
  rw [bareKey, List.cons_append, Reader.bind_of_eq _ (Reader.satisfying_cons hc _),
    Reader.bind_of_eq _ (Reader.run_append hcs hrest)]
  rfl

lemma lineString_bare (h : isBareKey key = true) (rest : List Char) :
    lineString (key ++ rest) = none := by
  obtain ⟨c, cs, rfl, hc, -⟩ := exists_bare h
  unfold lineString
  split
  next e =>
    obtain rfl : c = '"' := by simpa using congrArg List.head? e
    exact absurd hc (by decide)
  next e =>
    obtain rfl : c = '\'' := by simpa using congrArg List.head? e
    exact absurd hc (by decide)
  · rfl

lemma keyPart_append (h : Spells text key) (hrest : EndsKey rest) :
    keyPart (text ++ rest) = some (.ofList key, rest.dropWhile isBlank) := by
  have hblank : blanks (text ++ rest) = some ((), text ++ rest) :=
    Reader.skip_none (h.not_blank rest)
  rw [keyPart, Reader.bind_of_eq _ hblank]
  rcases h with ⟨rfl, hb⟩ | hline
  · rw [Reader.bind_of_eq _ (Reader.optional_of_none (lineString_bare hb rest))]
    dsimp only
    rw [Reader.bind_of_eq _ (bareKey_append hb hrest)]
    rfl
  · rw [Reader.bind_of_eq _ (Reader.optional_of_eq (hline rest))]
    rfl

lemma keyParts_nil (n : ℕ) (h : '.' ∉ rest.head?) : keyParts n rest = some ([], rest) := by
  cases n with
  | zero =>
    rw [keyParts, Reader.bind_of_eq _ (Reader.found_of_not_mem h)]
    rfl
  | succ n =>
    rw [keyParts, Reader.bind_of_eq _ (Reader.found_of_not_mem h)]
    rfl

lemma keyParts_single (n : ℕ) (h : Spells text key) (hrest : EndsKey rest)
    (hpoint : '.' ∉ (rest.dropWhile isBlank).head?) :
    keyParts (n + 1) ('.' :: (text ++ rest)) = some ([.ofList key], rest.dropWhile isBlank) := by
  rw [keyParts, Reader.bind_of_eq _ (Reader.found_cons '.' _), if_pos rfl,
    Reader.bind_of_eq _ (keyPart_append h hrest), Reader.bind_of_eq _ (keyParts_nil n hpoint)]
  rfl

lemma key_single (h : Spells text key) (rest : List Char) :
    Toml.key (text ++ ' ' :: '=' :: rest) = some ([.ofList key], '=' :: rest) := by
  have hpart := keyPart_append h (endsKey_blank ('=' :: rest))
  rw [Toml.key, Reader.bind_of_eq _ hpart]
  change (keyParts 78 >>= _) ('=' :: rest) = _
  rw [Reader.bind_of_eq _ (keyParts_nil 78 (by simp))]
  rfl

lemma key_pair {text' key' : List Char} (h : Spells text key) (h' : Spells text' key')
    (rest : List Char) :
    Toml.key (text ++ '.' :: (text' ++ ' ' :: '=' :: rest)) =
      some ([.ofList key, .ofList key'], '=' :: rest) := by
  have hpart := keyPart_append h (endsKey_point (text' ++ ' ' :: '=' :: rest))
  rw [Toml.key, Reader.bind_of_eq _ hpart]
  change (keyParts 78 >>= _) ('.' :: (text' ++ ' ' :: '=' :: rest)) = _
  rw [Reader.bind_of_eq _ (keyParts_single 77 h' (endsKey_blank _) (by simp [isBlank]))]
  rfl

lemma spells_keyText (key : List Char) : Spells (keyText key) key := by
  simp only [keyText, Bool.and_eq_true, Bool.or_eq_true, Bool.not_eq_true']
  split_ifs with hb hl
  · exact .inl ⟨rfl, hb⟩
  · obtain ⟨-, ⟨hc, hn⟩, hq⟩ := hl
    refine .inr fun rest => lineString_literalString (fun c hin => ?_) rest
    refine ⟨isTextChar_of_plain hc hn c hin, ?_⟩
    rintro rfl
    simp [hin] at hq
  · exact .inr fun rest => lineString_basicString key rest

end

end PackScope.Toml
