import PackScope.Json.Printer
import PackScope.Json.Reader
import PackScope.Number.Signed64
import PackScope.Proofs.Number.Positional
import PackScope.Proofs.Text.Reading

/-!
Printed whole numbers read back. All digits of a number of 64 bits with a sign fit into the digits
that the reader keeps, so that the number is not taken for a double-precision one.
-/

namespace PackScope.Json

open Binary64 (signed)

/-- Whether a character is no part of a number behind its first digit. -/
def StopsNumber (c : Char) : Prop := c.isDigit = false ∧ c ≠ '.' ∧ c ≠ 'e' ∧ c ≠ 'E'

instance : DecidablePred StopsNumber := fun c =>
  inferInstanceAs (Decidable (c.isDigit = false ∧ c ≠ '.' ∧ c ≠ 'e' ∧ c ≠ 'E'))

/-- **Whether a number ends here**: no digit, point or exponent follows. -/
def EndsNumber (rest : List Char) : Prop := ∀ c ∈ rest.head?, StopsNumber c

/-! ### Digits -/

lemma valueOf_digitChar : ∀ n < 10, Digits.valueOf n.digitChar = n := by
  decide

/-- A digit that fits is kept. -/
lemma takeWhole_digitChar {m n : ℕ} (hn : n < 10) (h : 10 * m + n < Digits.limit) :
    Digits.takeWhole ⟨m, 0, false⟩ n.digitChar = ⟨10 * m + n, 0, false⟩ := by
  unfold Digits.takeWhole
  rw [valueOf_digitChar n hn]
  exact if_neg (by simpa using h)

/-- The digits of a number that fits into 64 bits are all kept. -/
lemma ofWhole_toDigits {n : ℕ} (h : n < Digits.limit) :
    Digits.ofWhole (Nat.toDigits 10 n) = ⟨n, 0, false⟩ := by
  induction n using Nat.strong_induction_on with
  | _ n ih =>
    rw [Nat.toDigits_eq_if (by decide)]
    split
    next hn =>
      have hlast : 10 * 0 + n < Digits.limit := by omega
      rw [Digits.ofWhole, List.foldl_cons, List.foldl_nil, takeWhole_digitChar hn hlast,
        Nat.mul_zero, Nat.zero_add]
    next hn =>
      have hsplit : 10 * (n / 10) + n % 10 = n := Nat.div_add_mod n 10
      have hfront : Digits.ofWhole (Nat.toDigits 10 (n / 10)) = ⟨n / 10, 0, false⟩ :=
        ih (n / 10) (by omega) (by omega)
      rw [Digits.ofWhole, List.foldl_append, ← Digits.ofWhole, hfront, List.foldl_cons,
        List.foldl_nil, takeWhole_digitChar (by omega) (by omega), hsplit]

section Lexemes

variable {whole rest : List Char}

lemma wholeDigits_append (h : ∀ c ∈ whole, c.isDigit = true) (hwhole : IsWholePart whole)
    (hrest : EndsNumber rest) : wholeDigits (whole ++ rest) = some (whole, rest) := by
  have hrun : digitRun (whole ++ rest) = some (whole, rest) := by
    obtain ⟨c, cs, rfl⟩ := hwhole.exists_cons
    have hc : c.isDigit = true := h c List.mem_cons_self
    have hcs : ∀ d ∈ cs, d.isDigit = true := fun d hd => h d (List.mem_cons_of_mem _ hd)
    rw [digitRun, List.cons_append, Reader.bind_of_eq _ (Reader.satisfying_cons hc _),
      Reader.bind_of_eq _ (Reader.run_append hcs fun d hd => (hrest d hd).1)]
    rfl
  rw [wholeDigits, Reader.bind_of_eq _ hrun]
  split
  next d ds =>
    -- Only a zero alone starts with a zero.
    rcases hwhole with hzero | ⟨c, cs, hcs, hne⟩
    · cases hzero
    · exact absurd (List.cons.inj hcs).1.symm hne
  next => rfl

lemma fractionDigits_none (hrest : EndsNumber rest) : fractionDigits rest = some (none, rest) := by
  have hpoint : '.' ∉ rest.head? := fun h => (hrest _ h).2.1 rfl
  rw [fractionDigits, Reader.bind_of_eq _ (Reader.found_of_not_mem hpoint)]
  rfl

lemma exponentDigits_none (hrest : EndsNumber rest) : exponentDigits rest = some (none, rest) := by
  have hlower : 'e' ∉ rest.head? := fun h => (hrest _ h).2.2.1 rfl
  have hupper : 'E' ∉ rest.head? := fun h => (hrest _ h).2.2.2 rfl
  rw [exponentDigits, Reader.bind_of_eq _ (Reader.found_of_not_mem hlower)]
  change (Reader.found 'E' >>= _) rest = _
  rw [Reader.bind_of_eq _ (Reader.found_of_not_mem hupper)]
  rfl

lemma number_signed (negative : Bool) (h : ∀ c ∈ whole, c.isDigit = true)
    (hwhole : IsWholePart whole) (hrest : EndsNumber rest) :
    number (signed negative whole ++ rest) =
      (wholeOf? negative (.ofWhole whole)).map fun j => (j, rest) := by
  have hsign : Reader.found '-' (signed negative whole ++ rest) =
      some (negative, whole ++ rest) := by
    cases negative with
    | true => exact Reader.found_cons '-' (whole ++ rest)
    | false =>
      obtain ⟨c, cs, rfl⟩ := hwhole.exists_cons
      refine Reader.found_of_not_mem fun hc => ?_
      have hminus : '-' = c := by simpa [signed] using hc.symm
      exact absurd (h c List.mem_cons_self) (by rw [← hminus]; decide)
  rw [number, Reader.bind_of_eq _ hsign, Reader.bind_of_eq _ (wholeDigits_append h hwhole hrest),
    Reader.bind_of_eq _ (fractionDigits_none hrest),
    Reader.bind_of_eq _ (exponentDigits_none hrest)]
  exact Reader.lift_apply _ _

lemma wholeOf?_natAbs (n : Int64) :
    wholeOf? (decide (n.toInt < 0)) ⟨n.toInt.natAbs, 0, false⟩ = some (.integer n.toInt) := by
  have hlow : Int64.minValue.toInt ≤ n.toInt := n.minValue_le_toInt
  have hmin : Int64.minValue.toInt = -0x8000000000000000 := by decide
  have hlimit : Digits.limit = 0x10000000000000000 := rfl
  unfold wholeOf?
  dsimp only
  by_cases hneg : n.toInt < 0
  · have hvalue : -(n.toInt.natAbs : ℤ) = n.toInt := by omega
    rw [decide_eq_true hneg, if_neg Bool.false_ne_true, if_neg (by decide),
      if_pos ⟨by omega, by omega⟩, hvalue]
  · have hvalue : (n.toInt.natAbs : ℤ) = n.toInt := by omega
    rw [decide_eq_false hneg, if_neg Bool.false_ne_true, if_pos (by decide), hvalue]

/-- **A number of 64 bits with a sign is read back from its digits.** -/
lemma number_integerText (n : Int64) (hrest : EndsNumber rest) :
    number (integerText n.toInt ++ rest) = some (.integer n.toInt, rest) := by
  have hdigits : ∀ c ∈ Nat.toDigits 10 n.toInt.natAbs, c.isDigit = true :=
    fun c => isDigit_toDigits
  have hfits : n.toInt.natAbs < Digits.limit := by
    have hlow : Int64.minValue.toInt ≤ n.toInt := n.minValue_le_toInt
    have hhigh : n.toInt ≤ Int64.maxValue.toInt := n.toInt_le
    have hmin : Int64.minValue.toInt = -0x8000000000000000 := by decide
    have hmax : Int64.maxValue.toInt = 0x7fffffffffffffff := by decide
    have hlimit : Digits.limit = 0x10000000000000000 := rfl
    omega
  rw [integerText, toList_toString, number_signed _ hdigits (isWholePart_toDigits _) hrest,
    ofWhole_toDigits hfits, wholeOf?_natAbs]
  rfl

end Lexemes

end PackScope.Json
