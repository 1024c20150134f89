import Mathlib.Order.Monotone.Basic
import Mathlib.Tactic.Linarith
import Mathlib.Tactic.Ring
import PackScope.Number.Binary64

/-!
Rounding to a double-precision magnitude. A quotient that lies between the two points half way to
the neighbours of a magnitude is rounded to that magnitude, and a point half way itself is rounded
to the magnitude of even rank. So every decimal in the interval of a number reads as that number.
-/

namespace PackScope.Binary64

/-! ### Magnitudes -/

lemma significand_eq {b s : ℕ} (hs : binadeSize ≤ s ∨ b = 0) (hs' : s < 2 * binadeSize) :
    significand (b * binadeSize + s) = s := by
  unfold significand
  split_ifs <;> simp only [binadeSize] at * <;> omega

lemma scale_eq {b s : ℕ} (hs : binadeSize ≤ s ∨ b = 0) (hs' : s < 2 * binadeSize) :
    scale (b * binadeSize + s) = b := by
  simp only [scale, binadeSize] at *
  omega

/-- A magnitude by its binade and its place there; the first place of the next binade counts too. -/
lemma units_eq_mul {b s : ℕ} (hs : binadeSize ≤ s ∨ b = 0) (hs' : s ≤ 2 * binadeSize) :
    units (b * binadeSize + s) = s * 2 ^ b := by
  unfold units
  rw [Nat.pow_eq]
  rcases eq_or_lt_of_le hs' with rfl | hlt
  · rw [show b * binadeSize + 2 * binadeSize = (b + 1) * binadeSize + binadeSize by ring,
      significand_eq (.inl le_rfl) (by decide), scale_eq (.inl le_rfl) (by decide)]
    ring
  · rw [significand_eq hs hlt, scale_eq hs hlt]

lemma exists_binade (rank : ℕ) :
    ∃ b s, rank = b * binadeSize + s ∧ (binadeSize ≤ s ∨ b = 0) ∧ s < 2 * binadeSize := by
  by_cases h : rank < binadeSize
  · exact ⟨0, rank, by omega, .inr rfl, by omega⟩
  · refine ⟨rank / binadeSize - 1, binadeSize + rank % binadeSize, ?_, .inl (by omega), ?_⟩
    · simp only [binadeSize] at *
      omega
    · simp only [binadeSize] at *
      omega

lemma units_strictMono : StrictMono units := by
  refine strictMono_nat_of_lt_succ fun rank => ?_
  obtain ⟨b, s, rfl, hs, hlt⟩ := exists_binade rank
  rw [add_assoc, units_eq_mul hs hlt.le, units_eq_mul (hs.imp_left fun h => by omega) (by omega)]
  exact Nat.mul_lt_mul_of_pos_right (by omega) (by positivity)

lemma units_pos {rank : ℕ} (h : 0 < rank) : 0 < units rank :=
  lt_of_le_of_lt (Nat.zero_le _) (units_strictMono h)

/-! ### Rounding a quotient -/

section Quotient

variable {den : ℕ}

/-- A rounded quotient is at most half of the denominator above the quotient, and even if it is
exactly half above. -/
lemma roundQuotient_le (num : ℕ) (hd : 0 < den) :
    2 * roundQuotient num den * den ≤ 2 * num + den ∧
      (2 * roundQuotient num den * den = 2 * num + den → roundQuotient num den % 2 = 0) := by
  have e := Nat.div_add_mod num den
  have hr := Nat.mod_lt num hd
  unfold roundQuotient
  dsimp only
  generalize num / den = low at *
  generalize num % den = r at *
  split_ifs with h
  · constructor
    · rcases h with h | h <;> nlinarith
    · intro he
      rcases h with h | h
      · exfalso; nlinarith
      · omega
  · constructor
    · nlinarith
    · intro he
      exfalso; nlinarith

/-- A rounded quotient is at most half of the denominator below the quotient, and even if it is
exactly half below. -/
lemma le_roundQuotient (num : ℕ) (hd : 0 < den) :
    2 * num ≤ 2 * roundQuotient num den * den + den ∧
      (2 * num = 2 * roundQuotient num den * den + den → roundQuotient num den % 2 = 0) := by
  have e := Nat.div_add_mod num den
  have hr := Nat.mod_lt num hd
  unfold roundQuotient
  dsimp only
  generalize num / den = low at *
  generalize num % den = r at *
  split_ifs with h
  · constructor
    · nlinarith
    · intro he
      exfalso; nlinarith
  · push Not at h
    constructor
    · nlinarith
    · intro he
      have : 2 * r = den := by nlinarith
      have := h.2 this
      omega

end Quotient

/-! ### The magnitude nearest to a quotient -/

/-- A number of units lies in the binade that its rank is counted from. -/
lemma binade_bounds (num : ℕ) {den : ℕ} (hd : 0 < den) :
    let b := Nat.log2 (num / den) - 52
    num < 2 * binadeSize * (den * 2 ^ b) ∧ (b = 0 ∨ binadeSize * (den * 2 ^ b) ≤ num) := by
  intro b
  have hup : num / den < 2 ^ (Nat.log2 (num / den) + 1) := Nat.lt_log2_self
  constructor
  · have hb : 2 ^ (Nat.log2 (num / den) + 1) ≤ 2 * binadeSize * 2 ^ b := by
      rw [show 2 * binadeSize * 2 ^ b = 2 ^ (53 + b) by rw [pow_add]; rfl]
      exact Nat.pow_le_pow_right (by decide) (by omega)
    calc num < den * (num / den + 1) := Nat.lt_mul_div_succ num hd
      _ ≤ den * (2 * binadeSize * 2 ^ b) := Nat.mul_le_mul_left _ (by omega)
      _ = 2 * binadeSize * (den * 2 ^ b) := by ring
  · rcases Nat.eq_zero_or_pos b with h0 | h0
    · exact .inl h0
    · right
      have hq : num / den ≠ 0 := by
        intro h
        simp [b, h] at h0
      have hlow : 2 ^ (52 + b) ≤ num / den := by
        rw [show 52 + b = Nat.log2 (num / den) by omega]
        exact Nat.log2_self_le hq
      calc binadeSize * (den * 2 ^ b) = den * 2 ^ (52 + b) := by
            rw [pow_add]
            unfold binadeSize
            ring
        _ ≤ den * (num / den) := Nat.mul_le_mul_left _ hlow
        _ ≤ num := Nat.mul_div_le num den

/-- A quotient lies in the interval of the magnitude with a rank: between the points half way to the
two neighbours, and on one of these points only if the rank is even. -/
structure InInterval (num den rank : ℕ) : Prop where
  low : 0 < rank → (units (rank - 1) + units rank) * den ≤ 2 * num
  high : 2 * num ≤ (units rank + units (rank + 1)) * den
  even : (0 < rank ∧ (units (rank - 1) + units rank) * den = 2 * num ∨
    2 * num = (units rank + units (rank + 1)) * den) → rank % 2 = 0

/-- No quotient lies in the intervals of two magnitudes. -/
lemma InInterval.not_lt {num den i j : ℕ} (hd : 0 < den) (hi : InInterval num den i)
    (hj : InInterval num den j) : ¬ i < j := by
  intro hlt
  have hu : units i ≤ units (j - 1) := units_strictMono.monotone (by omega)
  have hu' : units (i + 1) ≤ units j := units_strictMono.monotone hlt
  have hmid : (units i + units (i + 1)) * den ≤ (units (j - 1) + units j) * den :=
    Nat.mul_le_mul_right _ (by omega)
  have hlow := hj.low (by omega)
  have hhigh := hi.high
  have hsame : units i + units (i + 1) = units (j - 1) + units j :=
    Nat.eq_of_mul_eq_mul_right hd (by omega)
  have hij : i = j - 1 := units_strictMono.injective (by omega)
  have hei := hi.even (.inr (by omega))
  have hej := hj.even (.inl ⟨by omega, by omega⟩)
  omega

/-- Rounding leads to a magnitude whose interval the quotient lies in. -/
lemma inInterval_rankOfUnits (num : ℕ) {den : ℕ} (hd : 0 < den) :
    InInterval num den (rankOfUnits num den) := by
  simp only [rankOfUnits, Nat.pow_eq]
  obtain ⟨hC, hB⟩ := binade_bounds num hd
  generalize Nat.log2 (num / den) - 52 = b at *
  have hD : 0 < den * 2 ^ b := by positivity
  obtain ⟨hle, hleEven⟩ := roundQuotient_le num hD
  obtain ⟨hge, hgeEven⟩ := le_roundQuotient num hD
  generalize roundQuotient num (den * 2 ^ b) = s at *
  have hs' : s ≤ 2 * binadeSize := by
    by_contra h
    nlinarith
  have hs : binadeSize ≤ s ∨ b = 0 := by
    rcases hB with h | h
    · exact .inr h
    · left
      by_contra h'
      nlinarith
  have hu : ∀ s', (binadeSize ≤ s' ∨ b = 0) → s' ≤ 2 * binadeSize →
      units (b * binadeSize + s') * den = s' * (den * 2 ^ b) := by
    intro s' h h'
    rw [units_eq_mul h h']; ring
  generalize den * 2 ^ b = D at *
  have hpar : s % 2 = 0 → (b * binadeSize + s) % 2 = 0 := by
    simp only [binadeSize]; omega
  have hself := hu s hs hs'
  -- below the magnitude the spacing is that of its own binade, unless it is the first of it
  have hlow : 0 < b * binadeSize + s →
      (units (b * binadeSize + s - 1) + units (b * binadeSize + s)) * den ≤ 2 * num ∧
      ((units (b * binadeSize + s - 1) + units (b * binadeSize + s)) * den = 2 * num →
        s % 2 = 0) := by
    intro hpos
    by_cases hfirst : binadeSize < s ∨ b = 0
    · have hs1 : 1 ≤ s := by
        rcases hfirst with h | rfl
        · omega
        · omega
      have hprev := hu (s - 1) (hfirst.imp_left fun h => by omega) (by omega)
      rw [Nat.add_sub_assoc hs1, Nat.add_mul, hprev, hself]
      obtain ⟨s, rfl⟩ : ∃ s', s = s' + 1 := ⟨s - 1, by omega⟩
      simp only [Nat.add_sub_cancel] at *
      exact ⟨by nlinarith, fun h => hleEven (by nlinarith)⟩
    · push Not at hfirst
      obtain rfl : s = binadeSize := by omega
      have hB' := hB.resolve_left hfirst.2
      have hprev : units (b * binadeSize + binadeSize - 1) < units (b * binadeSize + binadeSize) :=
        units_strictMono (by omega)
      have := Nat.mul_lt_mul_of_pos_right hprev hd
      rw [Nat.add_mul]
      exact ⟨by omega, fun h => by omega⟩
  have hhigh : 2 * num ≤ (units (b * binadeSize + s) + units (b * binadeSize + s + 1)) * den ∧
      (2 * num = (units (b * binadeSize + s) + units (b * binadeSize + s + 1)) * den →
        s % 2 = 0) := by
    rw [Nat.add_mul, hself, Nat.add_assoc]
    rcases eq_or_lt_of_le hs' with rfl | hlt
    · have hnext : units (b * binadeSize + 2 * binadeSize) <
          units (b * binadeSize + (2 * binadeSize + 1)) := units_strictMono (by omega)
      have := Nat.mul_lt_mul_of_pos_right hnext hd
      exact ⟨by omega, fun h => by omega⟩
    · rw [hu (s + 1) (hs.imp_left fun h => by omega) hlt]
      exact ⟨by nlinarith, fun h => hgeEven (by nlinarith)⟩
  refine ⟨fun h => (hlow h).1, hhigh.1, ?_⟩
  rintro (⟨h, he⟩ | he)
  · exact hpar ((hlow h).2 he)
  · exact hpar (hhigh.2 he)

/-- **A quotient in the interval of a magnitude is rounded to it**, and no other is. -/
theorem rankOfUnits_eq_iff {rank num den : ℕ} (hd : 0 < den) :
    rankOfUnits num den = rank ↔ InInterval num den rank := by
  constructor
  · rintro rfl
    exact inInterval_rankOfUnits num hd
  · intro h
    have h' := inInterval_rankOfUnits num hd
    rcases Nat.lt_trichotomy (rankOfUnits num den) rank with hlt | heq | hgt
    · exact absurd hlt (h'.not_lt hd h)
    · exact heq
    · exact absurd hgt (h.not_lt hd h')

/-! ### Bounds -/

section Bounds

variable {rank num den : ℕ}

/-- A quotient that is at most a magnitude is rounded to no greater one. -/
lemma rankOfUnits_le (hd : 0 < den) (h : num ≤ units rank * den) : rankOfUnits num den ≤ rank := by
  by_contra hlt
  have hlow := (inInterval_rankOfUnits num hd).low (by omega)
  generalize rankOfUnits num den = r at *
  have hprev : units rank ≤ units (r - 1) := units_strictMono.monotone (by omega)
  have hself : units rank < units r := units_strictMono (by omega)
  have hmid : 2 * units rank * den < (units (r - 1) + units r) * den :=
    Nat.mul_lt_mul_of_pos_right (by omega) hd
  rw [mul_assoc] at hmid
  omega

/-- A quotient that is at least a magnitude is rounded to no smaller one. -/
lemma le_rankOfUnits (hd : 0 < den) (h : units rank * den ≤ num) : rank ≤ rankOfUnits num den := by
  by_contra hlt
  have hhigh := (inInterval_rankOfUnits num hd).high
  generalize rankOfUnits num den = r at *
  have hself : units r < units rank := units_strictMono (by omega)
  have hnext : units (r + 1) ≤ units rank := units_strictMono.monotone (by omega)
  have hmid : (units r + units (r + 1)) * den < 2 * units rank * den :=
    Nat.mul_lt_mul_of_pos_right (by omega) hd
  rw [mul_assoc] at hmid
  omega

/-- The first magnitude of a binade is a power of two. -/
lemma units_binade (b : ℕ) : units ((b + 1) * binadeSize) = 2 ^ (52 + b) := by
  have hsize : binadeSize = 2 ^ 52 := by decide
  rw [Nat.succ_mul, units_eq_mul (.inl le_rfl) (by decide), pow_add, ← hsize]

end Bounds

end PackScope.Binary64
