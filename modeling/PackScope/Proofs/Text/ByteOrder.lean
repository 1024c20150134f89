import Mathlib.Algebra.Ring.Nat
import Mathlib.Tactic.Lemma
import Mathlib.Tactic.SplitIfs
import PackScope.Identifier
import PackScope.Location

/-!
The order of texts. Texts are compared by their characters, and their bytes in UTF-8 compare in the
same way.
-/

namespace PackScope

/-! ### Characters -/

namespace Utf8

/-- A byte that holds the last six bits of a number. -/
def tailByte (v : Nat) : UInt8 := .ofNat (v % 64 + 128)

/-- A number in so many bytes of six bits, behind a first byte that holds the rest of it and a
mark. -/
def bytes (mark : Nat) : Nat → Nat → List UInt8
  | 0, v => [.ofNat (mark + v)]
  | tails + 1, v => bytes mark tails (v / 64) ++ [tailByte v]

/-- The number of bytes that follow the first byte of a character. -/
def tails (v : Nat) : Nat :=
  if v ≤ 127 then 0 else if v ≤ 2047 then 1 else if v ≤ 65535 then 2 else 3

/-- The mark in the first byte of a character, which tells the number of bytes that follow. -/
def mark : Nat → Nat
  | 0 => 0
  | 1 => 192
  | 2 => 224
  | _ => 240

/-- What the first byte of a character holds. -/
def lead (v : Nat) : Nat := mark (tails v) + v / 64 ^ tails v

section Bytes

variable {v w : Nat}

lemma byte_cons_lt (h : v < w) (hw : w < 256) (x y : List UInt8) :
    UInt8.ofNat v :: x < UInt8.ofNat w :: y := by
  refine List.cons_lt_cons_iff.2 (.inl ?_)
  rw [UInt8.lt_iff_toNat_lt, UInt8.toNat_ofNat', UInt8.toNat_ofNat']
  omega

lemma exists_bytes_eq (m n v : Nat) : ∃ rest, bytes m n v = .ofNat (m + v / 64 ^ n) :: rest := by
  induction n generalizing v with
  | zero => exact ⟨[], by rw [bytes, Nat.pow_zero, Nat.div_one]⟩
  | succ n ih =>
    obtain ⟨rest, hrest⟩ := ih (v / 64)
    refine ⟨rest ++ [tailByte v], ?_⟩
    rw [bytes, hrest, Nat.div_div_eq_div_mul, Nat.pow_succ, Nat.mul_comm (64 ^ n)]
    rfl

/-- Numbers in equally many bytes compare as their bytes. -/
lemma bytes_append_lt (h : v < w) {m n : Nat} (hw : m + w / 64 ^ n < 256) (x y : List UInt8) :
    bytes m n v ++ x < bytes m n w ++ y := by
  induction n generalizing v w x y with
  | zero =>
    rw [Nat.pow_zero, Nat.div_one] at hw
    exact byte_cons_lt (by omega) hw x y
  | succ n ih =>
    rw [bytes, bytes, List.append_assoc, List.append_assoc]
    rcases Nat.lt_or_ge (v / 64) (w / 64) with hdiv | hdiv
    · refine ih hdiv ?_ _ _
      rwa [Nat.div_div_eq_div_mul, Nat.mul_comm, ← Nat.pow_succ]
    · obtain hdiv : v / 64 = w / 64 := by omega
      rw [hdiv]
      exact List.append_left_lt (byte_cons_lt (by omega) (by omega) x y)

lemma lead_lt (h : v < w) (htails : tails v ≠ tails w) : lead v < lead w := by
  unfold lead tails at *
  split_ifs at * <;> simp only [mark] <;> omega

lemma lead_lt_256 (h : v < 0x110000) : lead v < 256 := by
  unfold lead tails
  split_ifs <;> simp only [mark] <;> omega

end Bytes

section Chars

variable {c d : Char}

lemma toNat_lt (c : Char) : c.val.toNat < 0x110000 := by
  have h := c.valid
  simp only [UInt32.isValidChar, Nat.isValidChar] at h
  omega

lemma utf8EncodeChar_eq (c : Char) : String.utf8EncodeChar c =
    bytes (mark (tails c.val.toNat)) (tails c.val.toNat) c.val.toNat := by
  have h := toNat_lt c
  unfold String.utf8EncodeChar tails
  generalize c.val.toNat = v at *
  dsimp only
  split_ifs with hone htwo hthree
  · rw [bytes, mark, Nat.zero_add]
  · have hlead : v / 64 % 32 = v / 64 := Nat.mod_eq_of_lt (by omega)
    simp only [bytes, tailByte, mark, hlead, Nat.add_comm 192, List.nil_append, List.cons_append]
  · have hlead : v / 4096 % 16 = v / 64 / 64 := by omega
    simp only [bytes, tailByte, mark, hlead, Nat.add_comm 224, List.nil_append, List.cons_append]
  · have hlead : v / 262144 % 8 = v / 64 / 64 / 64 := by omega
    have hnext : v / 4096 = v / 64 / 64 := by omega
    simp only [bytes, tailByte, mark, hlead, hnext, Nat.add_comm 240, List.nil_append,
      List.cons_append]

lemma exists_utf8EncodeChar_eq (c : Char) :
    ∃ rest, String.utf8EncodeChar c = .ofNat (lead c.val.toNat) :: rest := by
  rw [utf8EncodeChar_eq]
  exact exists_bytes_eq _ _ _

/-- The bytes of a character come before those of a greater one, whatever follows. -/
lemma utf8EncodeChar_append_lt (h : c < d) (x y : List UInt8) :
    String.utf8EncodeChar c ++ x < String.utf8EncodeChar d ++ y := by
  have hlt : c.val.toNat < d.val.toNat := h
  by_cases htails : tails c.val.toNat = tails d.val.toNat
  · rw [utf8EncodeChar_eq, utf8EncodeChar_eq, htails]
    exact bytes_append_lt hlt (lead_lt_256 (toNat_lt d)) x y
  · obtain ⟨r, hr⟩ := exists_utf8EncodeChar_eq c
    obtain ⟨s, hs⟩ := exists_utf8EncodeChar_eq d
    rw [hr, hs]
    exact byte_cons_lt (lead_lt hlt htails) (lead_lt_256 (toNat_lt d)) _ _

/-- Texts compare as their bytes. -/
lemma flatMap_lt {cs ds : List Char} (h : cs < ds) :
    cs.flatMap String.utf8EncodeChar < ds.flatMap String.utf8EncodeChar := by
  induction h with
  | @nil d ds =>
    obtain ⟨rest, hrest⟩ := exists_utf8EncodeChar_eq d
    rw [List.flatMap_nil, List.flatMap_cons, hrest]
    exact List.nil_lt_cons _ _
  | rel h => exact utf8EncodeChar_append_lt h _ _
  | cons _ ih => exact List.append_left_lt ih

end Chars

end Utf8

lemma utf8Bytes_eq (text : String) :
    utf8Bytes text = text.toList.flatMap String.utf8EncodeChar := by
  rw [utf8Bytes, ← text.ofList_toList, String.toByteArray_ofList, String.toList_ofList,
    List.utf8Encode, List.data_toByteArray]

/-- **The bytes of texts are ordered as the texts are.** -/
lemma utf8Bytes_lt {a b : String} (h : compare a b = .lt) : utf8Bytes a < utf8Bytes b := by
  have hlt : a < b := compareOfLessAndEq_eq_lt.1 h
  rw [utf8Bytes_eq, utf8Bytes_eq]
  exact Utf8.flatMap_lt hlt

end PackScope
