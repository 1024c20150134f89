import PackScope.Proofs.Number.Positional
import PackScope.Proofs.Text.Reading
import PackScope.Proofs.Toml.Strings
import PackScope.Toml.NodeReader
import PackScope.Toml.Printer

/-!
Printed numbers and truth values read back. A number is no date and no time of day, since neither a
hyphen nor a colon follows its first digits, and its digits are read up to the character behind
them.
-/

namespace PackScope.Toml

open Binary64 (signed)

/-- What follows a value that has been written: the end of the text, or a character that is no part
of any value. -/
def Ends (rest : List Char) : Prop :=
  ∀ c ∈ rest.head?, c = '\n' ∨ c = ' ' ∨ c = ',' ∨ c = ']'

lemma Ends.noQuote {rest : List Char} (h : Ends rest) : NoQuote rest := by
  intro c hc
  rcases h c hc with rfl | rfl | rfl | rfl <;> decide

/-- Neither a digit nor a mark between the parts of a date or a time follows. -/
def EndsDigits (rest : List Char) : Prop :=
  ∀ c ∈ rest.head?, c.isDigit = false ∧ c ≠ '-' ∧ c ≠ ':' ∧ c ≠ '_' ∧ c ≠ 'x' ∧ c ≠ 'o' ∧ c ≠ 'b'

lemma Ends.digits {rest : List Char} (h : Ends rest) : EndsDigits rest := by
  intro c hc
  rcases h c hc with rfl | rfl | rfl | rfl <;> decide

lemma endsDigits_point (rest : List Char) : EndsDigits ('.' :: rest) := by
  intro c hc
  obtain rfl : '.' = c := by simpa using hc
  decide

/-! ### No dates and no times -/

section Dates

variable {cs rest : List Char}

/-- A number of fixed width takes digits only. -/
lemma dropWhile_fixedDigits {n : ℕ} {ds : List Char} (h : fixedDigits n cs = some (ds, rest)) :
    rest.dropWhile Char.isDigit = cs.dropWhile Char.isDigit := by
  induction n generalizing cs ds with
  | zero =>
    obtain ⟨-, rfl⟩ := Prod.mk.inj (Option.some.inj h)
    rfl
  | succ n ih =>
    match cs with
    | [] => cases h
    | c :: cs =>
      rw [fixedDigits] at h
      by_cases hc : c.isDigit = true
      · rw [Reader.bind_of_eq _ (Reader.satisfying_cons hc cs), Reader.bind_apply] at h
        obtain ⟨⟨ds', rest'⟩, hds, e⟩ := Option.bind_eq_some_iff.1 h
        obtain ⟨-, rfl⟩ := Prod.mk.inj (Option.some.inj e)
        rw [ih hds, List.dropWhile_cons_of_pos hc]
      · rw [Reader.bind_of_none _ (Reader.satisfying_none (by simpa using hc))] at h
        cases h

lemma dropWhile_fixedNumber {width bound n : ℕ} (h : fixedNumber width bound cs = some (n, rest)) :
    rest.dropWhile Char.isDigit = cs.dropWhile Char.isDigit := by
  rw [fixedNumber, Reader.bind_apply] at h
  obtain ⟨⟨ds, rest'⟩, hds, e⟩ := Option.bind_eq_some_iff.1 h
  dsimp only at e
  split_ifs at e
  · obtain ⟨-, rfl⟩ := Prod.mk.inj (Option.some.inj e)
    exact dropWhile_fixedDigits hds
  · cases e

/-- A number of fixed width and a mark behind it are read only where the mark ends the digits. -/
lemma fixedNumber_then_none {α : Type} {mark : Char} (hmark : mark.isDigit = false)
    (h : mark ∉ (cs.dropWhile Char.isDigit).head?) (width bound : ℕ) (f : ℕ → Reader α) :
    (fixedNumber width bound >>= fun n => Reader.exactly mark >>= fun _ => f n) cs = none := by
  match e : fixedNumber width bound cs with
  | none => exact Reader.bind_of_none _ e
  | some (n, rest) =>
    rw [Reader.bind_of_eq _ e]
    refine Reader.bind_of_none _ (Reader.exactly_none fun hm => h ?_)
    match rest with
    | [] => cases hm
    | c :: rest =>
      obtain rfl : c = mark := by simpa using hm
      rw [← dropWhile_fixedNumber e, List.dropWhile_cons_of_neg (by simp [hmark])]
      rfl

/-- Digits with neither a hyphen nor a colon behind them are no date and no time. -/
lemma datetime_none (hdate : '-' ∉ (cs.dropWhile Char.isDigit).head?)
    (htime : ':' ∉ (cs.dropWhile Char.isDigit).head?) : datetime cs = none := by
  have hd : date cs = none := fixedNumber_then_none (by decide) hdate 4 9999 _
  have ht : time cs = none := fixedNumber_then_none (by decide) htime 2 23 _
  rw [datetime, Reader.bind_of_eq _ (Reader.optional_of_none hd)]
  exact Reader.bind_of_none _ ht

end Dates

/-! ### Digits -/

section Digits

variable {ds rest : List Char}

lemma hexValue?_digit {c : Char} (h : c.isDigit = true) :
    Text.hexValue? c = some (c.toNat - '0'.toNat) := by
  have hc : '0' ≤ c ∧ c ≤ '9' := by
    rw [Char.isDigit, Bool.and_eq_true, decide_eq_true_eq, decide_eq_true_eq] at h
    exact h
  rw [Text.hexValue?, if_pos (by simpa using hc)]

lemma digitsValue_eq (h : ∀ c ∈ ds, c.isDigit = true) :
    digitsValue 10 ds = Nat.ofDigitChars 10 ds 0 := by
  suffices hn : ∀ n, ds.foldl (fun n c => 10 * n + (Text.hexValue? c).getD 0) n =
      Nat.ofDigitChars 10 ds n from hn 0
  intro n
  induction ds generalizing n with
  | nil => simp
  | cons c ds ih =>
    rw [List.foldl_cons, Nat.ofDigitChars_cons, hexValue?_digit (h c (by simp))]
    exact ih (fun d hd => h d (List.mem_cons_of_mem _ hd)) _

lemma moreDigits_append (h : ∀ c ∈ ds, c.isDigit = true) (hrest : EndsDigits rest) :
    moreDigits Char.isDigit (ds ++ rest) = some (ds, rest) := by
  induction ds with
  | nil =>
    match rest with
    | [] => rfl
    | c :: rest =>
      obtain ⟨hd, -, -, hu, -⟩ := hrest c rfl
      rw [List.nil_append, moreDigits.eq_def]
      simp only [hd, Bool.false_eq_true, if_false]
      split
      · simp_all
      · simp_all
  | cons c ds ih =>
    have hc := h c (by simp)
    rw [List.cons_append, moreDigits.eq_def]
    simp only [hc, if_true, ih fun d hd => h d (List.mem_cons_of_mem _ hd)]
    rfl

lemma digitRun_append (h : ∀ c ∈ ds, c.isDigit = true) (hne : ds ≠ []) (hrest : EndsDigits rest) :
    digitRun Char.isDigit (ds ++ rest) = some (ds, rest) := by
  match ds, hne with
  | c :: ds, _ =>
    rw [digitRun, List.cons_append, Reader.bind_of_eq _ (Reader.satisfying_cons (h c (by simp)) _),
      Reader.bind_of_eq _ (moreDigits_append (fun d hd => h d (List.mem_cons_of_mem _ hd)) hrest)]
    rfl

lemma decimalRun_append (h : ∀ c ∈ ds, c.isDigit = true) (hwhole : IsWholePart ds)
    (hrest : EndsDigits rest) : decimalRun (ds ++ rest) = some (ds, rest) := by
  rcases hwhole with rfl | ⟨c, cs, rfl, hc⟩
  · rfl
  · rw [decimalRun, List.cons_append,
      Reader.bind_of_eq _ (Reader.satisfying_cons (h c (by simp)) _),
      if_neg hc,
      Reader.bind_of_eq _ (moreDigits_append (fun d hd => h d (List.mem_cons_of_mem _ hd)) hrest)]
    rfl

end Digits

/-! ### Numbers -/

section Numbers

variable {whole rest : List Char}

lemma dropWhile_digits (h : ∀ c ∈ whole, c.isDigit = true) (hrest : EndsDigits rest) :
    (whole ++ rest).dropWhile Char.isDigit = rest := by
  have e := Reader.run_append h fun c hc => (hrest c hc).1
  exact (Prod.mk.inj (Option.some.inj e)).2

lemma datetime_number (negative : Bool) (h : ∀ c ∈ whole, c.isDigit = true)
    (hrest : EndsDigits rest) :
    datetime (signed negative whole ++ rest) = none := by
  cases negative with
  | false =>
    refine datetime_none ?_ ?_
    · rw [signed, if_neg (by decide), dropWhile_digits h hrest]
      exact fun hm => (hrest _ hm).2.1 rfl
    · rw [signed, if_neg (by decide), dropWhile_digits h hrest]
      exact fun hm => (hrest _ hm).2.2.1 rfl
  | true =>
    -- Both readers want a digit where the sign stands.
    rfl

lemma isDigit_ne {c d : Char} (h : c.isDigit = true) (hd : d.isDigit = false) : c ≠ d := by
  rintro rfl
  exact absurd h (by simp [hd])

lemma namedNumber_digit (negative : Bool) {c : Char} (h : c.isDigit = true) (cs : List Char) :
    namedNumber negative (c :: cs) = none := by
  have hi := isDigit_ne h (d := 'i') (by decide)
  have hn := isDigit_ne h (d := 'n') (by decide)
  unfold namedNumber
  split
  · simp_all
  · simp_all
  · rfl

lemma numeral_number (negative : Bool) (h : ∀ c ∈ whole, c.isDigit = true)
    (hwhole : IsWholePart whole) (hrest : EndsDigits rest) :
    numeral (signed negative whole ++ rest) = decimal negative (whole ++ rest) := by
  have hnamed : Reader.optional (namedNumber negative) (whole ++ rest) =
      some (none, whole ++ rest) := by
    obtain ⟨c, cs, rfl⟩ := hwhole.exists_cons
    exact Reader.optional_of_none (namedNumber_digit negative (h c (by simp)) _)
  have hsign : sign (signed negative whole ++ rest) =
      some (if negative then some true else none, whole ++ rest) := by
    cases negative with
    | false =>
      obtain ⟨c, cs, rfl⟩ := hwhole.exists_cons
      have hc := h c (by simp)
      rw [signed, if_neg (by decide), sign.eq_def]
      split
      · simp_all
      · simp_all
      · rfl
    | true => rfl
  have hbase : ∀ d r, d = 'x' ∨ d = 'o' ∨ d = 'b' →
      signed negative whole ++ rest ≠ '0' :: d :: r := by
    intro d r hd e
    cases negative with
    | false =>
      rw [signed, if_neg (by decide)] at e
      rcases hwhole with rfl | ⟨c, cs, rfl, hc⟩
      · have hr : rest = d :: r := by simpa using e
        have := hrest d (by rw [hr]; rfl)
        simp_all
      · exact hc (by simpa using congrArg List.head? e)
    | true => simp [signed] at e
  unfold numeral
  split
  next r e => exact absurd e (hbase 'x' r (by simp))
  next r e => exact absurd e (hbase 'o' r (by simp))
  next r e => exact absurd e (hbase 'b' r (by simp))
  next =>
    rw [Reader.bind_of_eq _ hsign]
    cases negative with
    | false => exact Reader.bind_of_eq _ hnamed
    | true => exact Reader.bind_of_eq _ hnamed

lemma fractionPart_none (h : '.' ∉ rest.head?) : fractionPart rest = none :=
  Reader.bind_of_none _ (Reader.exactly_none h)

lemma exponentPart_none (h : ∀ c ∈ rest.head?, (c = 'e' || c = 'E') = false) :
    exponentPart rest = none :=
  Reader.bind_of_none _ (Reader.satisfying_none h)

lemma Ends.exponentPart_none (h : Ends rest) : exponentPart rest = none := by
  refine Toml.exponentPart_none fun c hc => ?_
  rcases h c hc with rfl | rfl | rfl | rfl <;> decide

lemma decimal_whole (negative : Bool) (h : ∀ c ∈ whole, c.isDigit = true)
    (hwhole : IsWholePart whole) (hrest : Ends rest) :
    decimal negative (whole ++ rest) =
      (wholeNumber? (if negative then -(Nat.ofDigitChars 10 whole 0 : ℤ)
        else Nat.ofDigitChars 10 whole 0)).map fun s => (s, rest) := by
  have hpoint : '.' ∉ rest.head? := fun hm => by
    rcases hrest _ hm with h | h | h | h <;> exact absurd h (by decide)
  rw [decimal, Reader.bind_of_eq _ (decimalRun_append h hwhole hrest.digits),
    Reader.bind_of_eq _ (Reader.optional_of_none (fractionPart_none hpoint)),
    Reader.bind_of_eq _ (Reader.optional_of_none hrest.exponentPart_none), ← digitsValue_eq h]
  exact Reader.lift_apply _ _

lemma decimal_fraction (negative : Bool) {fraction : List Char}
    (h : ∀ c ∈ whole ++ fraction, c.isDigit = true) (hwhole : IsWholePart whole)
    (hfraction : fraction ≠ []) (hrest : Ends rest) :
    decimal negative (whole ++ '.' :: (fraction ++ rest)) =
      (floatNumber? negative whole fraction 0).map fun s => (s, rest) := by
  have hw : ∀ c ∈ whole, c.isDigit = true := fun c hc => h c (List.mem_append_left _ hc)
  have hf : ∀ c ∈ fraction, c.isDigit = true := fun c hc => h c (List.mem_append_right _ hc)
  have hpart : fractionPart ('.' :: (fraction ++ rest)) = some (fraction, rest) := by
    rw [fractionPart, Reader.bind_of_eq _ (Reader.exactly_cons '.' _)]
    exact digitRun_append hf hfraction hrest.digits
  rw [decimal, Reader.bind_of_eq _ (decimalRun_append hw hwhole (endsDigits_point _)),
    Reader.bind_of_eq _ (Reader.optional_of_eq hpart),
    Reader.bind_of_eq _ (Reader.optional_of_none hrest.exponentPart_none)]
  exact Reader.lift_apply _ _

end Numbers

/-! ### Values without parts -/

section Scalars

variable {whole rest : List Char}

lemma scalar_number (negative : Bool) (h : ∀ c ∈ whole, c.isDigit = true)
    (hwhole : IsWholePart whole) (hrest : EndsDigits rest) :
    scalar (signed negative whole ++ rest) = decimal negative (whole ++ rest) := by
  rw [← numeral_number negative h hwhole hrest]
  have hdate := Reader.optional_of_none (datetime_number negative h hrest)
  have hhead : ∀ c ∈ (signed negative whole ++ rest).head?, c.isDigit = true ∨ c = '-' := by
    obtain ⟨c, cs, rfl⟩ := hwhole.exists_cons
    cases negative <;> simp [signed, h c]
  rw [scalar.eq_def]
  split
  next e => exact absurd (hhead '"' (by rw [e]; rfl)) (by decide)
  next e => exact absurd (hhead '\'' (by rw [e]; rfl)) (by decide)
  next e => exact absurd (hhead 't' (by rw [e]; rfl)) (by decide)
  next e => exact absurd (hhead 'f' (by rw [e]; rfl)) (by decide)
  next => exact Reader.bind_of_eq _ hdate

/-- Whether a value without parts is written in the form in which it is read: it is no date-time,
and finite if it is a number. -/
def Scalar.IsPlain : Scalar → Prop
  | .datetime _ => False
  | .float x => x.isFinite = true
  | _ => True

lemma exists_stringText_cons (cs : List Char) :
    ∃ c text, stringText cs = c :: text ∧ (c = '"' ∨ c = '\'') := by
  simp only [stringText, basicString, literalString, basicLines, literalLines]
  split_ifs <;> exact ⟨_, _, rfl, by simp⟩

lemma scalar_string (cs : List Char) (hrest : Ends rest) :
    scalar (stringText cs ++ rest) = some (.string (.ofList cs), rest) := by
  have hread : anyString (stringText cs ++ rest) = some (cs, rest) :=
    anyString_stringText hrest.noQuote
  obtain ⟨c, text, e, hc⟩ := exists_stringText_cons cs
  rw [e, List.cons_append] at hread ⊢
  have hquoted : scalar (c :: (text ++ rest)) =
      (anyString (c :: (text ++ rest))).bind fun p => some (.string (.ofList p.1), p.2) := by
    rcases hc with rfl | rfl
    · rfl
    · rfl
  rw [hquoted, hread]
  rfl

lemma scalar_integer (n : Int64) (hrest : Ends rest) :
    scalar ((Scalar.integer n).chars ++ rest) = some (.integer n, rest) := by
  have hdigits : ∀ c ∈ Nat.toDigits 10 n.toInt.natAbs, c.isDigit = true := fun c => isDigit_toDigits
  have hvalue : (if decide (n.toInt < 0) = true then -(n.toInt.natAbs : ℤ) else n.toInt.natAbs) =
      n.toInt := by
    split_ifs with h
    · rw [decide_eq_true_eq] at h
      omega
    · rw [decide_eq_true_eq] at h
      omega
  rw [Scalar.chars, toList_toString, scalar_number _ hdigits (isWholePart_toDigits _) hrest.digits,
    decimal_whole _ hdigits (isWholePart_toDigits _) hrest, Nat.ofDigitChars_ten_toDigits, hvalue,
    wholeNumber?, signed64?_toInt]
  rfl

lemma signed_append (negative : Bool) (whole rest : List Char) :
    signed negative (whole ++ rest) = signed negative whole ++ rest := by
  cases negative <;> rfl

lemma scalar_float (negative : Bool) (rank : Fin Binary64.finiteRanks) (hrest : Ends rest) :
    scalar ((Scalar.float (.finite negative rank)).chars ++ rest) =
      some (.float (.finite negative rank), rest) := by
  obtain ⟨whole, fraction, e, hdigits, hne, hwhole, hvalue⟩ :=
    exists_positional_shortest negative rank
  have htext : (Scalar.float (.finite negative rank)).chars ++ rest =
      signed negative whole ++ '.' :: (fraction ++ rest) := by
    change signed negative (Decimal.shortest .away rank).positional ++ rest = _
    rw [e, signed_append, List.append_assoc]
    rfl
  rw [htext, scalar_number _ (fun c hc => hdigits c (List.mem_append_left _ hc)) hwhole
    (endsDigits_point _), decimal_fraction _ hdigits hwhole hne hrest, floatNumber?,
    digitsValue_eq hdigits, zero_sub, hvalue]
  rfl

/-- **A value without parts is read from its text.** -/
theorem scalar_chars {s : Scalar} (hs : s.IsPlain) (hrest : Ends rest) :
    scalar (s.chars ++ rest) = some (s, rest) := by
  match s, hs with
  | .string s, _ =>
    rw [Scalar.chars, scalar_string s.toList hrest, String.ofList_toList]
  | .integer n, _ => exact scalar_integer n hrest
  | .float (.finite negative rank), _ => exact scalar_float negative rank hrest
  | .boolean true, _ => rfl
  | .boolean false, _ => rfl

end Scalars

end PackScope.Toml
