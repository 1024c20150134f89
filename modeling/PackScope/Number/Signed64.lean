/-!
Whole numbers of 64 bits with a sign. A whole number is read as one if it lies in their range.
-/

namespace PackScope

/-- The number of 64 bits with a sign that equals a whole number, if there is one. -/
def signed64? (n : Int) : Option Int64 :=
  if Int64.minValue.toInt ≤ n ∧ n ≤ Int64.maxValue.toInt then some (.ofInt n) else none

/-- Every number of 64 bits with a sign is read back from the whole number it equals. -/
theorem signed64?_toInt (n : Int64) : signed64? n.toInt = some n := by
  unfold signed64?
  rw [if_pos ⟨Int64.minValue_le_toInt n, Int64.toInt_le n⟩, Int64.ofInt_toInt]

end PackScope
