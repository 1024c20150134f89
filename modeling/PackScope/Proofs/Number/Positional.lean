import PackScope.Proofs.Number.Shortest

/-!
Positional notation. A number in full decimal digits is a whole part and a fraction around a point,
and the digits of both, scaled by the length of the fraction, are rounded to the number again.
-/

namespace PackScope

open Binary64

/-! ### The first digit -/

lemma head_toDigits_ne_zero {n : ℕ} (hn : 0 < n) :
    ∃ c cs, Nat.toDigits 10 n = c :: cs ∧ c ≠ '0' := by
  induction n using Nat.strong_induction_on with
  | _ n ih =>
    rw [Nat.toDigits_eq_if (by decide)]
    split
    next h =>
      refine ⟨_, _, rfl, ?_⟩
      simpa using hn.ne'
    next h =>
      obtain ⟨c, cs, e, hc⟩ := ih (n / 10) (by omega) (by omega)
      exact ⟨c, cs ++ [(n % 10).digitChar], by rw [e]; rfl, hc⟩

lemma isDigit_toDigits {n : ℕ} {c : Char} (h : c ∈ Nat.toDigits 10 n) : c.isDigit :=
  Nat.isDigit_of_mem_toDigits (by decide) (by decide) h

/-! ### Decimals of negative exponent -/

/-- A decimal in the interval of a magnitude is read as that magnitude. -/
lemma Binary64.ofDecimal_eq_finite (negative : Bool) {n k rank : ℕ} (hk : 0 < k) (hr : 0 < rank)
    (hlt : rank < finiteRanks) (h : InInterval (n * unitsOfOne) (10 ^ k) rank) :
    ofDecimal negative n (-(k : ℤ)) = finite negative ⟨rank, hlt⟩ := by
  have hden : 0 < 10 ^ k := by positivity
  have hone := unitsOfOne_pos
  have hle := unitsOfOne_le
  have hu := units_pos hr
  have hlow := h.low hr
  have hn : n ≠ 0 := by
    rintro rfl
    nlinarith
  have hlen : n < 10 ^ (Nat.toDigits 10 n).length :=
    (Nat.length_toDigits_le_iff (by decide) Nat.length_toDigits_pos).1 le_rfl
  have hsmall : ¬ -(k : ℤ) + ((Nat.toDigits 10 n).length : ℤ) < -400 := by
    intro hcon
    have hk' : (Nat.toDigits 10 n).length + 401 ≤ k := by omega
    have hpow : 10 ^ (Nat.toDigits 10 n).length * (10 * 10 ^ 400) ≤ 10 ^ k := by
      rw [← pow_succ', ← pow_add]
      exact Nat.pow_le_pow_right (by decide) hk'
    generalize 10 ^ (Nat.toDigits 10 n).length = p at *
    generalize unitsOfOne = one at *
    generalize 10 ^ 400 = big at *
    have h1 : 10 ^ k ≤ 2 * (n * one) :=
      le_trans (Nat.le_mul_of_pos_left _ (by omega)) hlow
    have h2 : n * one ≤ n * big := Nat.mul_le_mul_left _ hle
    have h3 : n * big < p * big := Nat.mul_lt_mul_of_pos_right hlen (by omega)
    nlinarith
  unfold ofDecimal
  rw [if_neg hn, if_neg (by omega), if_neg hsmall, if_neg (by omega), neg_neg, Int.toNat_natCast,
    Nat.pow_eq, ofQuotient, (rankOfUnits_eq_iff hden).2 h, ofRank, dif_pos hlt]

/-! ### Positional notation -/

/-- The whole part of a number in digits: a zero alone, or digits of which the first is no zero. -/
def IsWholePart (whole : List Char) : Prop := whole = ['0'] ∨ ∃ c cs, whole = c :: cs ∧ c ≠ '0'

lemma IsWholePart.exists_cons {whole : List Char} (h : IsWholePart whole) :
    ∃ c cs, whole = c :: cs := by
  rcases h with rfl | ⟨c, cs, rfl, -⟩
  · exact ⟨_, _, rfl⟩
  · exact ⟨_, _, rfl⟩

lemma isWholePart_toDigits (n : ℕ) : IsWholePart (Nat.toDigits 10 n) := by
  rcases Nat.eq_zero_or_pos n with rfl | hn
  · exact .inl rfl
  · obtain ⟨c, cs, e, hc⟩ := head_toDigits_ne_zero hn
    exact .inr ⟨c, cs, e, hc⟩

lemma toList_toString (n : ℤ) :
    (toString n).toList = signed (decide (n < 0)) (Nat.toDigits 10 n.natAbs) := by
  match n with
  | .ofNat n =>
    change (Nat.repr n).toList = _
    rw [Nat.toList_repr, signed, if_neg (by simp)]
    rfl
  | .negSucc n =>
    change ("-" ++ Nat.repr (n + 1)).toList = _
    rw [String.toList_append, Nat.toList_repr, signed, if_pos (by simp [Int.negSucc_lt_zero])]
    rfl

namespace Decimal

/-- The digits around the point of a decimal, and their value. -/
lemma exists_positional {d : Decimal} (hd : 0 < d.digits) :
    ∃ whole fraction, d.positional = whole ++ '.' :: fraction ∧
      (∀ c ∈ whole ++ fraction, c.isDigit) ∧ fraction ≠ [] ∧ IsWholePart whole ∧
      Nat.ofDigitChars 10 (whole ++ fraction) 0 * 10 ^ (-d.exponent).toNat =
        d.digits * 10 ^ d.exponent.toNat * 10 ^ fraction.length := by
  obtain ⟨c, cs, hhead, hc⟩ := head_toDigits_ne_zero hd
  have hdigit : ∀ c ∈ d.digitChars, c.isDigit := fun c h => isDigit_toDigits h
  have hvalue : Nat.ofDigitChars 10 d.digitChars 0 = d.digits := Nat.ofDigitChars_ten_toDigits
  unfold positional
  dsimp only
  split
  next he =>
    refine ⟨d.digitChars ++ List.replicate d.exponent.toNat '0', ['0'], by simp, ?_, by simp,
      .inr ⟨c, cs ++ List.replicate d.exponent.toNat '0', ?_, hc⟩, ?_⟩
    · intro c h
      simp only [List.mem_append, List.mem_replicate, List.mem_singleton] at h
      rcases h with (h | ⟨-, rfl⟩) | rfl
      · exact hdigit c h
      · rfl
      · rfl
    · rw [digitChars, hhead]; rfl
    · rw [show (-d.exponent).toNat = 0 by omega, Nat.ofDigitChars_append, Nat.ofDigitChars_append,
        hvalue, Nat.ofDigitChars_replicate_zero, Nat.ofDigitChars_cons, Nat.ofDigitChars_nil]
      simp only [List.length_singleton, pow_zero, pow_one, Nat.sub_self]
      ring
  next he =>
    set places := (-d.exponent).toNat with hplaces
    set padded := List.replicate (places + 1 - d.digitChars.length) '0' ++ d.digitChars
      with hpadded
    have hlen : padded.length = places + 1 - d.digitChars.length + d.digitChars.length := by
      simp [hpadded]
    refine ⟨_, _, rfl, ?_, ?_, ?_, ?_⟩
    · rw [List.take_append_drop]
      intro c h
      rcases List.mem_append.1 h with h | h
      · rw [List.eq_of_mem_replicate h]; rfl
      · exact hdigit c h
    · intro h
      have := congrArg List.length h
      simp only [List.length_drop, List.length_nil] at this
      omega
    · by_cases hshort : d.digitChars.length ≤ places
      · left
        rw [show padded.length - places = 1 by omega, hpadded,
          show places + 1 - d.digitChars.length = (places - d.digitChars.length) + 1 by omega]
        rfl
      · right
        obtain ⟨n, hn⟩ : ∃ n, padded.length - places = n + 1 :=
          ⟨padded.length - places - 1, by omega⟩
        refine ⟨c, cs.take n, ?_, hc⟩
        rw [hn, hpadded, show places + 1 - d.digitChars.length = 0 by omega, digitChars, hhead]
        rfl
    · rw [List.take_append_drop, hpadded, Nat.ofDigitChars_append, Nat.ofDigitChars_replicate_zero,
        Nat.mul_zero, hvalue, show d.exponent.toNat = 0 by omega, List.length_drop,
        show padded.length - (padded.length - places) = places by omega]
      ring

end Decimal

/-- **The digits of a magnitude in positional notation are read as that magnitude.** -/
theorem exists_positional_shortest (negative : Bool) (rank : Fin finiteRanks) :
    ∃ whole fraction, (Decimal.shortest .away rank).positional = whole ++ '.' :: fraction ∧
      (∀ c ∈ whole ++ fraction, c.isDigit) ∧ fraction ≠ [] ∧ IsWholePart whole ∧
      ofDecimal negative (Nat.ofDigitChars 10 (whole ++ fraction) 0) (-(fraction.length : ℤ)) =
        finite negative rank := by
  obtain ⟨rank, hlt⟩ := rank
  rcases Nat.eq_zero_or_pos rank with rfl | hr
  · refine ⟨['0'], ['0'], ?_, List.all_eq_true.1 (by decide), by simp, .inl rfl, ?_⟩
    · simp [Decimal.shortest, Decimal.positional, Decimal.digitChars]
    · simp [ofDecimal, Nat.ofDigitChars_cons, ofRank, hlt]
  · have hin := Decimal.isIn_shortest hr .away
    have hpos : 0 < (Decimal.shortest .away rank).digits := by
      by_contra h
      have hlow := hin.low hr
      rw [show (Decimal.shortest .away rank).digits = 0 by omega] at hlow
      have hu := units_pos hr
      have hden : 0 < 10 ^ (-(Decimal.shortest .away rank).exponent).toNat := by positivity
      nlinarith
    obtain ⟨whole, fraction, e, hdigits, hne, hwhole, hvalue⟩ := Decimal.exists_positional hpos
    refine ⟨whole, fraction, e, hdigits, hne, hwhole, ?_⟩
    refine ofDecimal_eq_finite negative (List.length_pos_iff.2 hne) hr hlt ?_
    refine (InInterval.congr (by positivity) (by positivity) ?_).1 hin
    rw [Nat.mul_right_comm, ← hvalue]
    ring

end PackScope
