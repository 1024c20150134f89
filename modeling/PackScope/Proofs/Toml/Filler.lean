import PackScope.Proofs.Text.Steady
import PackScope.Toml.Space

/-!
Filler between the items of an array. It is skipped up to the first character that ends it, whatever
follows that character.
-/

namespace PackScope.Toml

open Reader

/-- Whether what is skipped in front of a character is skipped whatever follows the character. -/
def Skips (inComment : Bool) (cs : List Char) : Prop :=
  ∀ ⦃c tail⦄, dropFiller inComment cs = c :: tail → c ≠ '\r' →
    ∃ skipped, cs = skipped ++ c :: tail ∧
      ∀ tail', dropFiller inComment (skipped ++ c :: tail') = c :: tail'

lemma Skips.step {inComment inComment' : Bool} {t cs : List Char}
    (h : ∀ cs, dropFiller inComment (t ++ cs) = dropFiller inComment' cs)
    (hcs : Skips inComment' cs) : Skips inComment (t ++ cs) := by
  intro c tail hdrop hc
  rw [h] at hdrop
  obtain ⟨skipped, rfl, hskip⟩ := hcs hdrop hc
  refine ⟨t ++ skipped, (List.append_assoc ..).symm, fun tail' => ?_⟩
  rw [List.append_assoc, h, hskip]

lemma Skips.stop {inComment : Bool} {c : Char} (cs : List Char)
    (h : ∀ cs, dropFiller inComment (c :: cs) = c :: cs) : Skips inComment (c :: cs) := by
  intro d tail hdrop _
  rw [h] at hdrop
  cases hdrop
  exact ⟨[], rfl, h⟩

lemma skips (inComment : Bool) (cs : List Char) : Skips inComment cs := by
  induction inComment, cs using dropFiller.induct with
  | case1 inComment =>
    intro c tail h
    rw [dropFiller.eq_def] at h
    cases h
  | case2 inComment rest ih =>
    refine ih.step (t := ['\n']) fun cs => ?_
    rw [List.singleton_append, dropFiller.eq_def]
    exact if_pos rfl
  | case3 inComment rest _ ih =>
    refine ih.step (t := ['\r', '\n']) fun cs => ?_
    rw [List.cons_append, List.singleton_append, dropFiller.eq_def]
    simp
  | case4 inComment rest hrest _ =>
    intro c tail h hc
    rw [dropFiller.eq_def] at h
    simp only [if_true] at h
    rw [if_neg (by decide)] at h
    cases h
    exact absurd rfl hc
  | case5 c rest hline hreturn hcomment ih =>
    refine ih.step (t := [c]) fun cs => ?_
    rw [List.singleton_append, dropFiller.eq_def]
    simp [hline, hreturn, hcomment]
  | case6 c rest hline hreturn hcomment =>
    refine Skips.stop rest fun cs => ?_
    rw [dropFiller.eq_def]
    simp [hline, hreturn, hcomment]
  | case7 inComment c rest hline hreturn hin hblank ih =>
    refine ih.step (t := [c]) fun cs => ?_
    rw [List.singleton_append, dropFiller.eq_def]
    simp [hline, hreturn, hin, hblank]
  | case8 inComment rest hin _ _ _ ih =>
    refine ih.step (t := ['#']) fun cs => ?_
    rw [List.singleton_append, dropFiller.eq_def]
    simp [hin, isBlank]
  | case9 inComment c rest hline hreturn hin hblank hcomment =>
    refine Skips.stop rest fun cs => ?_
    rw [dropFiller.eq_def]
    simp [hline, hreturn, hin, hblank, hcomment]

lemma filler_apply (cs : List Char) : filler cs = some ((), dropFiller false cs) := rfl

lemma dropFiller_suffix (inComment : Bool) (cs : List Char) : dropFiller inComment cs <:+ cs := by
  induction inComment, cs using dropFiller.induct with
  | case1 inComment =>
    rw [dropFiller.eq_def]
  | case2 inComment rest ih =>
    rw [dropFiller.eq_def]
    exact ih.trans (List.suffix_cons ..)
  | case3 inComment rest _ ih =>
    rw [dropFiller.eq_def]
    exact ih.trans ((List.suffix_cons ..).trans (List.suffix_cons ..))
  | case4 inComment rest _ _ =>
    rw [dropFiller.eq_def]
    simp
  | case5 c rest hline hreturn hcomment ih =>
    rw [dropFiller.eq_def]
    simpa [hline, hreturn, hcomment] using ih.trans (List.suffix_cons ..)
  | case6 c rest hline hreturn hcomment =>
    rw [dropFiller.eq_def]
    simp [hline, hreturn, hcomment]
  | case7 inComment c rest hline hreturn hin hblank ih =>
    rw [dropFiller.eq_def]
    simpa [hline, hreturn, hin, hblank] using ih.trans (List.suffix_cons ..)
  | case8 inComment rest hin _ _ _ ih =>
    rw [dropFiller.eq_def]
    simpa [hin, isBlank] using ih.trans (List.suffix_cons ..)
  | case9 inComment c rest hline hreturn hin hblank hcomment =>
    rw [dropFiller.eq_def]
    simp [hline, hreturn, hin, hblank, hcomment]

variable {α β : Type} {R : α → β → Prop} {r : Reader α} {r' : Reader β}

/-- Filler is skipped alike in front of a reader that takes a character which ends it. -/
lemma steady_filler (h : Steady R r r') (hline : r' ['\n'] = none)
    (hreturn : ∀ tail, r ('\r' :: tail) = none) :
    Steady R (filler >>= fun _ => r) (filler >>= fun _ => r') := by
  intro cs a rest hr
  change r (dropFiller false cs) = some (a, rest) at hr
  obtain ⟨c, text, e⟩ := h.takes_cons hline hr
  have hc : c ≠ '\r' := by
    rintro rfl
    rw [e, hreturn] at hr
    cases hr
  obtain ⟨skipped, rfl, hskip⟩ := skips false cs e hc
  rw [e] at hr
  obtain ⟨text', htext', hread⟩ := h hr
  obtain rfl : c :: text = text' := List.append_cancel_right htext'
  refine ⟨skipped ++ c :: text, by simp, fun rest' hrest => ?_⟩
  obtain ⟨b, hb, hab⟩ := hread rest' hrest
  refine ⟨b, ?_, hab⟩
  change r' (dropFiller false _) = _
  rw [List.append_assoc, List.cons_append, hskip, ← List.cons_append, hb]

end PackScope.Toml
