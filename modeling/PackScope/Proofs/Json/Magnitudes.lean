import Mathlib.Tactic.SplitIfs
import PackScope.Json.Reader
import PackScope.Number.Signed64
import PackScope.Proofs.Number.Shortest
import PackScope.Proofs.Text.Steady

/-!
The range of the numbers that are read. A whole number has at most 64 bits, and no scaling leads to
a number that is not finite: a product is checked, and a quotient is no greater than its dividend.
-/

namespace PackScope.Json

open Binary64

/-! ### Scaling -/

/-- The rank of the least whole number that does not fit into 64 bits. -/
def limitRank : ℕ := 1087 * binadeSize

lemma units_limitRank : units limitRank = Digits.limit * unitsOfOne := by
  have hpow : 2 ^ (52 + 1086) = Digits.limit * unitsOfOne := by decide +kernel
  rw [limitRank, units_binade, hpow]

/-- The rank of one. -/
def rankOfOne : ℕ := 1023 * binadeSize

lemma units_rankOfOne : units rankOfOne = unitsOfOne := by
  have hpow : 2 ^ (52 + 1022) = unitsOfOne := by decide +kernel
  rw [rankOfOne, units_binade, hpow]

lemma lt_finiteRanks {rank : ℕ} (h : rank ≤ limitRank) : rank < finiteRanks := by
  have hlt : limitRank < finiteRanks := by decide
  omega

lemma isFinite_ofRank {rank : ℕ} (h : rank < finiteRanks) (negative : Bool) :
    (ofRank negative rank).isFinite = true := by
  rw [ofRank, dif_pos h]
  rfl

lemma rank_le_limitRank {n : ℕ} (h : n ≤ Digits.limit) :
    rankOfUnits (n * unitsOfOne) 1 ≤ limitRank := by
  apply rankOfUnits_le Nat.one_pos
  rw [units_limitRank, Nat.mul_one]
  exact Nat.mul_le_mul_right _ h

/-- A whole number of at most 64 bits is near a finite number. -/
lemma isFinite_ofQuotient {n : ℕ} (h : n ≤ Digits.limit) (negative : Bool) :
    (ofQuotient negative n 1).isFinite = true :=
  isFinite_ofRank (lt_finiteRanks (rank_le_limitRank h)) negative

/-- The power of ten is at least one. -/
lemma unitsOfOne_le_powerRank (n : ℕ) : unitsOfOne ≤ units (powerRank n) := by
  rw [← units_rankOfOne]
  refine units_strictMono.monotone (le_rankOfUnits Nat.one_pos ?_)
  rw [units_rankOfOne, Nat.mul_one]
  exact Nat.le_mul_of_pos_left _ (Nat.pow_pos (by decide))

/-- A quotient by a power of ten is no greater than the dividend. -/
lemma quotientRank_le {rank bound : ℕ} (h : rank ≤ bound) (n : ℕ) :
    quotientRank rank (powerRank n) ≤ bound := by
  have hone : unitsOfOne ≤ units (powerRank n) := unitsOfOne_le_powerRank n
  have hpos : 0 < unitsOfOne := unitsOfOne_pos
  apply rankOfUnits_le (by omega)
  exact Nat.mul_le_mul (units_strictMono.monotone h) hone

lemma divideRounds_le (n : ℕ) {rank bound : ℕ} (h : rank ≤ bound) :
    divideRounds n rank ≤ bound := by
  induction n generalizing rank with
  | zero => exact h
  | succ n ih =>
    rw [divideRounds]
    split_ifs
    · omega
    · exact ih (quotientRank_le h 308)

/-- **Scaling digits of at most 64 bits gives a finite magnitude**, if it gives one. -/
lemma scaledRank?_lt {significand rank : ℕ} {exponent : ℤ} (h : significand ≤ Digits.limit)
    (hrank : scaledRank? significand exponent = some rank) : rank < finiteRanks := by
  have hdigits := rank_le_limitRank h
  unfold scaledRank? at hrank
  dsimp only at hrank
  -- A negative exponent only divides, and a product beyond all finite magnitudes is refused.
  generalize rankOfUnits (significand * unitsOfOne) 1 = digits at *
  split_ifs at hrank with hneg hzero hbig hproduct
  · obtain rfl := Option.some.inj hrank
    exact lt_finiteRanks (quotientRank_le (divideRounds_le _ hdigits) _)
  · obtain rfl := Option.some.inj hrank
    decide
  · obtain rfl := Option.some.inj hrank
    exact hproduct

/-! ### Digits -/

namespace Digits

lemma takeWhole_lt {d : Digits} (h : d.significand < limit) (c : Char) :
    (d.takeWhole c).significand < limit := by
  unfold takeWhole
  dsimp only
  split_ifs with hfull
  · exact h
  · simp only [Bool.or_eq_true, decide_eq_true_eq, not_or, not_le] at hfull
    exact hfull.2

lemma takeFraction_lt {d : Digits} (h : d.significand < limit) (c : Char) :
    (d.takeFraction c).significand < limit := by
  unfold takeFraction
  dsimp only
  split_ifs with hfull
  · exact h
  · simp only [Bool.or_eq_true, decide_eq_true_eq, not_or, not_le] at hfull
    exact hfull.2

lemma ofWhole_lt (whole : List Char) : (ofWhole whole).significand < limit := by
  unfold ofWhole
  refine List.foldlRecOn whole takeWhole (motive := fun d => d.significand < limit) ?_ ?_
  · decide
  · exact fun _ h c _ => takeWhole_lt h c

lemma withFraction_lt {d : Digits} (h : d.significand < limit) (fraction : List Char) :
    (d.withFraction fraction).significand < limit := by
  unfold withFraction
  refine List.foldlRecOn fraction takeFraction (motive := fun d => d.significand < limit) ?_ ?_
  · exact h
  · exact fun _ h c _ => takeFraction_lt h c

end Digits

/-! ### Numbers -/

/-- **Whether all numbers of a value are in range**: a whole number has at most 64 bits, and any
other one is finite. -/
inductive InRange : Json → Prop
  | null : InRange .null
  | bool (b : Bool) : InRange (.bool b)
  | integer {n : ℤ} (natAbs_le : n.natAbs ≤ Digits.limit) : InRange (.integer n)
  | float {x : Binary64} (isFinite_eq : x.isFinite = true) : InRange (.float x)
  | string (s : String) : InRange (.string s)
  | array {items : List Json} (items_inRange : ∀ j ∈ items, InRange j) : InRange (.array items)
  | object {entries : List (String × Json)} (entries_inRange : ∀ e ∈ entries, InRange e.2) :
    InRange (.object entries)

section Numbers

variable {negative : Bool} {d : Digits} {j : Json}

lemma inRange_floatOf? (hd : d.significand < Digits.limit) {exponent : ℤ}
    (h : floatOf? negative d exponent = some j) : j.InRange := by
  obtain ⟨rank, hrank, hj⟩ := Option.bind_eq_some_iff.1 h
  obtain rfl := Option.some.inj hj
  exact .float (isFinite_ofRank (scaledRank?_lt hd.le hrank) negative)

lemma inRange_wholeOf? (hd : d.significand < Digits.limit) (h : wholeOf? negative d = some j) :
    j.InRange := by
  unfold wholeOf? at h
  split_ifs at h
  · exact inRange_floatOf? hd h
  · obtain rfl := Option.some.inj h
    exact .integer (by omega)
  · obtain rfl := Option.some.inj h
    exact .integer (by omega)
  · obtain rfl := Option.some.inj h
    exact .float (isFinite_ofQuotient hd.le true)

/-- **Every number that is read is in range.** -/
lemma inRange_number {cs rest : List Char} (h : number cs = some (j, rest)) : j.InRange := by
  unfold number at h
  obtain ⟨negative, _, -, h⟩ := Reader.bind_eq_some h
  obtain ⟨whole, _, -, h⟩ := Reader.bind_eq_some h
  obtain ⟨fraction, _, -, h⟩ := Reader.bind_eq_some h
  obtain ⟨exponent, mid, -, h⟩ := Reader.bind_eq_some h
  have hwhole := Digits.ofWhole_lt whole
  dsimp only at h
  split at h
  · rw [Reader.lift_apply] at h
    obtain ⟨j', hj, heq⟩ := Option.map_eq_some_iff.1 h
    obtain ⟨rfl, -⟩ := Prod.mk.inj heq
    exact inRange_wholeOf? hwhole hj
  · rw [Reader.lift_apply] at h
    obtain ⟨j', hj, heq⟩ := Option.map_eq_some_iff.1 h
    obtain ⟨rfl, -⟩ := Prod.mk.inj heq
    exact inRange_floatOf? (Digits.withFraction_lt hwhole _) hj

end Numbers

end PackScope.Json
