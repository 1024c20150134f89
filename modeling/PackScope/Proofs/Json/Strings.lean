import Mathlib.Tactic.SplitIfs
import PackScope.Json.Printer
import PackScope.Json.Reader
import PackScope.Proofs.Text.Reading

/-!
Printed JSON strings read back. Whatever a string holds, the reader undoes the escapes of its
characters one after another and stops behind the closing quote.
-/

namespace PackScope.Json

/-- A character below the blank, in hexadecimal digits. -/
def lowDigits (n : Nat) : List Char := Text.zeroPadded 4 (Nat.toDigits 16 n)

lemma hexNumber?_lowDigits : ∀ n < 0x20,
    (lowDigits n).length = 4 ∧ Text.hexNumber? (lowDigits n) = some n := by
  decide

/-- The four hexadecimal digits of a character below the blank stand for its number. -/
lemma exists_lowDigits {n : Nat} (h : n < 0x20) :
    ∃ d₁ d₂ d₃ d₄, lowDigits n = [d₁, d₂, d₃, d₄] ∧ Text.hexNumber? [d₁, d₂, d₃, d₄] = some n := by
  obtain ⟨hlen, hval⟩ := hexNumber?_lowDigits n h
  match hd : lowDigits n, hlen with
  | [d₁, d₂, d₃, d₄], _ => exact ⟨d₁, d₂, d₃, d₄, rfl, hd ▸ hval⟩

/-- **One character of a string is read back from its escape.** -/
lemma stringRest_escapeChar (c : Char) (cs : List Char) :
    stringRest (escapeChar c ++ cs) = (stringRest cs).bind fun p => some (c :: p.1, p.2) := by
  unfold escapeChar
  split_ifs with hquote hback hline htab hreturn hbell hfeed hlow
  · subst hquote; simp [stringRest, escaped?]
  · subst hback; simp [stringRest, escaped?]
  · subst hline; simp [stringRest, escaped?]
  · subst htab; simp [stringRest, escaped?]
  · subst hreturn; simp [stringRest, escaped?]
  · subst hbell; simp [stringRest, escaped?]
  · subst hfeed; simp [stringRest, escaped?]
  · obtain ⟨d₁, d₂, d₃, d₄, hd, hv⟩ := exists_lowDigits hlow
    rw [lowDigits] at hd
    have hlowHalf : isLowHalf c.toNat = false := by
      rw [isLowHalf, decide_eq_false (by omega), Bool.false_and]
    have hhighHalf : isHighHalf c.toNat = false := by
      rw [isHighHalf, decide_eq_false (by omega), Bool.false_and]
    rw [hd]
    simp [stringRest, hv, hlowHalf, hhighHalf, Char.ofNat_toNat]
  · rw [List.singleton_append, stringRest.eq_def]
    simp only [hquote, hback, hlow, if_false]
    rfl

lemma stringRest_append (cs rest : List Char) :
    stringRest (cs.flatMap escapeChar ++ '"' :: rest) = some (cs, rest) := by
  induction cs with
  | nil =>
    rw [List.flatMap_nil, List.nil_append, stringRest.eq_def]
    rfl
  | cons c cs ih =>
    rw [List.flatMap_cons, List.append_assoc, stringRest_escapeChar, ih]
    rfl

/-- **A string is read back from its quoted text.** -/
lemma stringToken_quoted (s : String) (rest : List Char) :
    stringToken (quoted s ++ rest) = some (s, rest) := by
  have hquoted : quoted s ++ rest = '"' :: (s.toList.flatMap escapeChar ++ '"' :: rest) := by
    simp [quoted]
  rw [hquoted, stringToken, Reader.bind_of_eq _ (Reader.exactly_cons ..),
    Reader.bind_of_eq _ (stringRest_append ..), String.ofList_toList]
  rfl

end PackScope.Json
