import PackScope.Number.Decimal
import PackScope.Proofs.Number.Rounding

/-!
The fewest digits that read back. The search for them always ends, because a grid of seventeen
digits is finer than the spacing of the magnitudes, and what it finds lies in the interval of the
magnitude, so it is rounded to that magnitude again.
-/

namespace PackScope

open Binary64

/-! ### Intervals -/

section Interval

variable {num den rank : ℕ}

lemma Binary64.InInterval.scale {c : ℕ} (hc : 0 < c) :
    InInterval (c * num) (c * den) rank ↔ InInterval num den rank := by
  have e : ∀ k a : ℕ, k * (c * den) = 2 * (c * a) ↔ k * den = 2 * a := fun k a => by
    rw [Nat.mul_left_comm, Nat.mul_left_comm 2]
    exact Nat.mul_right_inj hc.ne'
  have l : ∀ k a : ℕ, k * (c * den) ≤ 2 * (c * a) ↔ k * den ≤ 2 * a := fun k a => by
    rw [Nat.mul_left_comm, Nat.mul_left_comm 2]
    exact Nat.mul_le_mul_left_iff hc
  have l' : ∀ k a : ℕ, 2 * (c * a) ≤ k * (c * den) ↔ 2 * a ≤ k * den := fun k a => by
    rw [Nat.mul_left_comm, Nat.mul_left_comm k]
    exact Nat.mul_le_mul_left_iff hc
  constructor
  · rintro ⟨h1, h2, h3⟩
    exact ⟨by simpa only [l] using h1, by simpa only [l'] using h2,
      by simpa only [e, eq_comm (b := _ * (c * den)), eq_comm (b := _ * den)] using h3⟩
  · rintro ⟨h1, h2, h3⟩
    exact ⟨by simpa only [l] using h1, by simpa only [l'] using h2,
      by simpa only [e, eq_comm (b := _ * (c * den)), eq_comm (b := _ * den)] using h3⟩

lemma Binary64.InInterval.congr {num' den' : ℕ} (hd : 0 < den) (hd' : 0 < den')
    (e : num * den' = num' * den) : InInterval num den rank ↔ InInterval num' den' rank := by
  rw [← InInterval.scale hd', ← @InInterval.scale num' _ _ _ hd, Nat.mul_comm den' num, e,
    Nat.mul_comm num', Nat.mul_comm den']

lemma Decimal.Interval.contains_iff (i : Decimal.Interval) :
    i.contains num den = true ↔ i.low * den ≤ num ∧ num ≤ i.high * den ∧
      (i.closed = false → i.low * den ≠ num ∧ num ≠ i.high * den) := by
  unfold Decimal.Interval.contains
  cases i.closed
  · simp only [Bool.false_eq_true, if_false, decide_eq_true_eq, true_implies]
    omega
  · simp

lemma Decimal.Interval.contains_ofRank (hr : 0 < rank) :
    (Decimal.Interval.ofRank rank).contains (2 * num) den = true ↔ InInterval num den rank := by
  rw [Decimal.Interval.contains_iff]
  simp only [Decimal.Interval.ofRank, decide_eq_false_iff_not]
  constructor
  · rintro ⟨h1, h2, h3⟩
    refine ⟨fun _ => h1, h2, fun h => ?_⟩
    by_contra hp
    rcases h with ⟨-, h⟩ | h
    · exact (h3 hp).1 h
    · exact (h3 hp).2 h
  · intro h
    exact ⟨h.low hr, h.high, fun hp => ⟨fun e => hp (h.even (.inl ⟨hr, e⟩)),
      fun e => hp (h.even (.inr e))⟩⟩

lemma Binary64.unitsOfOne_pos : 0 < unitsOfOne := by
  unfold unitsOfOne
  generalize 1074 = k
  exact Nat.pow_pos (by decide)

lemma Binary64.unitsOfOne_le : unitsOfOne ≤ 10 ^ 400 := by
  unfold unitsOfOne
  generalize hk : 1074 = k
  generalize hn : 400 = n
  have hkn : k ≤ 3 * n := by omega
  calc 2 ^ k ≤ 2 ^ (3 * n) := Nat.pow_le_pow_right (by decide) hkn
    _ = (2 ^ 3) ^ n := pow_mul ..
    _ ≤ 10 ^ n := Nat.pow_le_pow_left (by decide) _

/-- The spacing of the magnitudes is more than two parts in `10 ^ 16`. -/
lemma Binary64.spacing (hr : 0 < rank) :
    10 ^ 16 * units (rank - 1) + 2 * units rank < 10 ^ 16 * units (rank + 1) := by
  obtain ⟨b, s, rfl, hs, hlt⟩ := exists_binade rank
  have hnext := units_eq_mul (s := s + 1) (hs.imp_left fun h => by omega) hlt
  have hself := units_eq_mul hs hlt.le
  rw [Nat.add_assoc, hnext, hself]
  by_cases hfirst : binadeSize < s ∨ b = 0
  · have hs1 : 1 ≤ s := by rcases hfirst with h | rfl <;> omega
    have hprev := units_eq_mul (s := s - 1) (b := b) (hfirst.imp_left fun h => by omega) (by omega)
    rw [Nat.add_sub_assoc hs1, hprev]
    obtain ⟨s, rfl⟩ : ∃ s', s = s' + 1 := ⟨s - 1, by omega⟩
    have hb : 0 < 2 ^ b := by positivity
    simp only [Nat.add_sub_cancel, binadeSize] at *
    nlinarith
  · push Not at hfirst
    obtain rfl : s = binadeSize := by omega
    obtain ⟨b, rfl⟩ : ∃ b', b = b' + 1 := ⟨b - 1, by omega⟩
    have hprev := units_eq_mul (s := 2 * binadeSize - 1) (b := b) (.inl (by decide)) (by omega)
    rw [show (b + 1) * binadeSize + binadeSize - 1 = b * binadeSize + (2 * binadeSize - 1) by
      simp only [binadeSize]; omega, hprev]
    have hb : 0 < 2 ^ b := by positivity
    rw [pow_succ 2 b]
    simp only [binadeSize] at *
    generalize 2 ^ b = p at *
    omega

end Interval

/-! ### Decimals in an interval -/

namespace Decimal

/-- A decimal lies in the interval of the magnitude with a rank. -/
def IsIn (d : Decimal) (rank : ℕ) : Prop :=
  InInterval (d.digits * 10 ^ d.exponent.toNat * unitsOfOne) (10 ^ (-d.exponent).toNat) rank

variable {rank : ℕ}

/-- What is found on a grid lies in the interval. -/
lemma isIn_of_nearest? (hr : 0 < rank) {tie : Tie} {e : ℤ} {m : ℕ}
    (h : (Interval.ofRank rank).nearest? tie e = some m) : IsIn ⟨m, e⟩ rank := by
  unfold IsIn
  rw [← Interval.contains_ofRank hr]
  simp only [Interval.nearest?, Nat.pow_eq] at h
  generalize unitsOfOne = one at *
  rw [show 2 * (m * 10 ^ e.toNat * one) = m * (2 * one * 10 ^ e.toNat) by ring]
  split at h
  next => simp at h
  next hb _ => simp only [Option.some.injEq] at h; rwa [← h]
  next _ ha => simp only [Option.some.injEq] at h; rwa [← h]
  next hb ha =>
    split at h
    · simp only [Option.some.injEq] at h; rwa [← h]
    · simp only [Option.some.injEq] at h; rwa [← h]
    · simp only [Option.some.injEq] at h
      rw [← h]
      split
      · exact hb
      · exact ha

/-- On a grid finer than the spacing around a magnitude something is found. -/
lemma nearest?_isSome (hr : 0 < rank) (tie : Tie) {e : ℤ}
    (h : units (rank - 1) * 10 ^ (-e).toNat + 2 * unitsOfOne * 10 ^ e.toNat <
      units (rank + 1) * 10 ^ (-e).toNat) :
    ((Interval.ofRank rank).nearest? tie e).isSome := by
  simp only [Interval.nearest?, Nat.pow_eq]
  have hone : 0 < unitsOfOne := unitsOfOne_pos
  generalize unitsOfOne = one at *
  have hnum0 : 0 < 2 * one * 10 ^ e.toNat := by positivity
  have hden0 : 0 < 10 ^ (-e).toNat := by positivity
  generalize 10 ^ (-e).toNat = den at *
  generalize 2 * one * 10 ^ e.toNat = num at *
  have hlow : units rank < units (rank + 1) := units_strictMono (by omega)
  have hprev : units (rank - 1) < units rank := units_strictMono (by omega)
  have e := Nat.div_add_mod ((Interval.ofRank rank).centre * den) num
  have hlt := Nat.mod_lt ((Interval.ofRank rank).centre * den) hnum0
  generalize (Interval.ofRank rank).centre * den / num = below at *
  generalize (Interval.ofRank rank).centre * den % num = r at *
  have hmiss : ¬ ((Interval.ofRank rank).contains (below * num) den = false ∧
      (Interval.ofRank rank).contains ((below + 1) * num) den = false) := by
    rw [← Bool.not_eq_true, ← Bool.not_eq_true, Interval.contains_iff, Interval.contains_iff]
    simp only [Interval.ofRank] at e ⊢
    rintro ⟨hb, ha⟩
    have hb' : below * num ≤ (units (rank - 1) + units rank) * den := by
      by_contra hcon
      exact hb ⟨by omega, by nlinarith, fun _ => ⟨by omega, by nlinarith⟩⟩
    have ha' : (units rank + units (rank + 1)) * den ≤ (below + 1) * num := by
      by_contra hcon
      exact ha ⟨by nlinarith, by omega, fun _ => ⟨by nlinarith, by omega⟩⟩
    nlinarith
  split
  next hb ha => exact absurd ⟨hb, ha⟩ hmiss
  next => rfl
  next => rfl
  next => split <;> rfl

/-! ### The search -/

lemma ten_pow_le_of_length {n : ℕ} (hn : 0 < n) : 10 ^ ((Nat.toDigits 10 n).length - 1) ≤ n := by
  rcases Nat.eq_zero_or_pos ((Nat.toDigits 10 n).length - 1) with h | h
  · rw [h]; exact hn
  · have := (Nat.length_toDigits_le_iff (n := n) (b := 10) (by decide) h).not.1 (by omega)
    omega

/-- The power of ten of the first digit is not above the number itself. -/
lemma exists_leadingOf {centre : ℕ} (hc : 2 ≤ centre) :
    ∃ len : ℕ, 1 ≤ len ∧ leadingOf centre = len - 401 ∧
      2 * unitsOfOne * 10 ^ (len - 1) ≤ centre * 10 ^ 400 := by
  refine ⟨_, Nat.length_toDigits_pos, rfl, ?_⟩
  have hpos := unitsOfOne_pos
  have hle := unitsOfOne_le
  generalize unitsOfOne = one at *
  generalize 400 = n at *
  rw [Nat.pow_eq]
  generalize 10 ^ n = big at *
  have hq : 0 < centre * big / (2 * one) := Nat.div_pos (by nlinarith) (by omega)
  calc 2 * one * 10 ^ ((Nat.toDigits 10 (centre * big / (2 * one))).length - 1)
      ≤ 2 * one * (centre * big / (2 * one)) := Nat.mul_le_mul_left _ (ten_pow_le_of_length hq)
    _ ≤ centre * big := Nat.mul_div_le _ _

/-- Seventeen digits always suffice. -/
lemma nearest?_seventeen (hr : 0 < rank) (tie : Tie) :
    ((Interval.ofRank rank).nearest? tie
      (leadingOf (Interval.ofRank rank).centre - (16 : ℕ))).isSome := by
  have hu := units_pos hr
  obtain ⟨len, hlen, he, hle⟩ := exists_leadingOf (show 2 ≤ 2 * units rank by omega)
  rw [show (Interval.ofRank rank).centre = 2 * units rank from rfl, he]
  refine nearest?_isSome hr tie ?_
  have hpow : 10 ^ ((len : ℤ) - 401 - (16 : ℕ)).toNat * 10 ^ 417 =
      10 ^ (-((len : ℤ) - 401 - (16 : ℕ))).toNat * 10 ^ len := by
    rw [← pow_add, ← pow_add]
    congr 1
    omega
  have hspace := spacing hr
  generalize 10 ^ ((len : ℤ) - 401 - (16 : ℕ)).toNat = up at *
  have hdown : 0 < 10 ^ (-((len : ℤ) - 401 - (16 : ℕ))).toNat := by positivity
  generalize 10 ^ (-((len : ℤ) - 401 - (16 : ℕ))).toNat = down at *
  generalize unitsOfOne = one at *
  rw [show 10 ^ len = 10 * 10 ^ (len - 1) by rw [← pow_succ']; congr 1; omega] at hpow
  generalize 10 ^ (len - 1) = p at *
  -- one step of the grid is at most the number over ten to the sixteenth
  have hstep : 10 ^ 16 * (2 * one * up) ≤ 2 * units rank * down := by
    have hbig : (10 : ℕ) ^ 417 = 10 ^ 16 * (10 * 10 ^ 400) := by
      rw [← pow_succ', ← pow_add]
    rw [hbig] at hpow
    generalize 400 = n at *
    have hb : 0 < 10 ^ n := by positivity
    generalize 10 ^ n = big at *
    refine Nat.le_of_mul_le_mul_right ?_ (show 0 < 10 * big by omega)
    calc 10 ^ 16 * (2 * one * up) * (10 * big) = 2 * one * (up * (10 ^ 16 * (10 * big))) := by ring
      _ = 2 * one * (down * (10 * p)) := by rw [hpow]
      _ = down * 10 * (2 * one * p) := by ring
      _ ≤ down * 10 * (2 * units rank * big) := Nat.mul_le_mul_left _ hle
      _ = 2 * units rank * down * (10 * big) := by ring
  refine Nat.lt_of_mul_lt_mul_left (a := 10 ^ 16) ?_
  calc 10 ^ 16 * (units (rank - 1) * down + 2 * one * up)
      = 10 ^ 16 * units (rank - 1) * down + 10 ^ 16 * (2 * one * up) := by ring
    _ ≤ 10 ^ 16 * units (rank - 1) * down + 2 * units rank * down := Nat.add_le_add_left hstep _
    _ = (10 ^ 16 * units (rank - 1) + 2 * units rank) * down := by ring
    _ < 10 ^ 16 * units (rank + 1) * down := Nat.mul_lt_mul_of_pos_right hspace hdown
    _ = 10 ^ 16 * (units (rank + 1) * down) := by ring

lemma IsIn.trimPower {d : Decimal} (h : d.IsIn rank) : d.trimPower.IsIn rank := by
  unfold Decimal.trimPower
  split
  next hd =>
    rw [Nat.pow_eq] at hd
    unfold IsIn at h ⊢
    refine (InInterval.congr (by positivity) (by positivity) ?_).1 h
    rw [hd]
    have hlen : 1 ≤ d.digitChars.length := Nat.length_toDigits_pos
    simp only [leading, one_mul]
    have hpow : 10 ^ (d.digitChars.length - 1) * 10 ^ d.exponent.toNat *
        10 ^ (-(d.exponent + ((d.digitChars.length : ℤ) - 1))).toNat =
        10 ^ (d.exponent + ((d.digitChars.length : ℤ) - 1)).toNat * 10 ^ (-d.exponent).toNat := by
      rw [← pow_add, ← pow_add, ← pow_add]
      congr 1
      omega
    generalize unitsOfOne = one
    calc _ = 10 ^ (d.digitChars.length - 1) * 10 ^ d.exponent.toNat *
        10 ^ (-(d.exponent + ((d.digitChars.length : ℤ) - 1))).toNat * one := by ring
      _ = _ := by rw [hpow]; ring
  next => exact h

/-- **The fewest digits lie in the interval of their magnitude.** -/
theorem isIn_shortest (hr : 0 < rank) (tie : Tie) : (shortest tie rank).IsIn rank := by
  unfold shortest
  rw [if_neg hr.ne']
  dsimp only
  have hsome : ((List.range 17).findSome? fun (k : ℕ) =>
      ((Interval.ofRank rank).nearest? tie (leadingOf (Interval.ofRank rank).centre - k)).map
        fun digits => Decimal.trimPower
          ⟨digits, leadingOf (Interval.ofRank rank).centre - k⟩).isSome := by
    rw [List.findSome?_isSome_iff]
    exact ⟨16, by simp, by simpa using nearest?_seventeen hr tie⟩
  obtain ⟨d, hd⟩ := Option.isSome_iff_exists.1 hsome
  rw [hd, Option.getD_some]
  obtain ⟨k, -, hk⟩ := List.exists_of_findSome?_eq_some hd
  obtain ⟨m, hm, rfl⟩ := Option.map_eq_some_iff.1 hk
  exact (isIn_of_nearest? hr hm).trimPower

end Decimal

end PackScope
