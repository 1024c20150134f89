import Mathlib.Data.List.Infix
import PackScope.Proofs.Text.Reading

/-!
Readers on a text that is cut short. What a reader takes off a text it takes as well if the text
behind is cut off and ended by a line feed, unless it has looked further than it has read; and a
reader that may be left out must not start to succeed there.
-/

namespace PackScope

/-- Whether a text is the beginning of another one with a line feed behind it. -/
def CutShort (rest rest' : List Char) : Prop := ∃ kept, kept <+: rest ∧ rest' = kept ++ ['\n']

namespace CutShort

variable {c : Char} {rest rest' : List Char}

lemma lineFeed (rest : List Char) : CutShort rest ['\n'] := ⟨[], List.nil_prefix, rfl⟩

lemma append (h : CutShort rest rest') (text : List Char) :
    CutShort (text ++ rest) (text ++ rest') := by
  obtain ⟨kept, hkept, rfl⟩ := h
  exact ⟨text ++ kept, (List.prefix_append_right_inj text).2 hkept, (List.append_assoc ..).symm⟩

/-- What is cut short starts as before or with the line feed. -/
lemma head? (h : CutShort rest rest') (hc : c ∈ rest'.head?) : c = '\n' ∨ c ∈ rest.head? := by
  obtain ⟨kept, ⟨tail, rfl⟩, rfl⟩ := h
  match kept with
  | [] => exact .inl (by simpa using hc.symm)
  | d :: kept => exact .inr (by simpa using hc)

lemma of_cons (h : CutShort rest (c :: rest')) (hc : c ≠ '\n') :
    ∃ tail, rest = c :: tail ∧ CutShort tail rest' := by
  obtain ⟨kept, ⟨tail, rfl⟩, e⟩ := h
  match kept with
  | [] => exact absurd (List.cons.inj e).1 hc
  | d :: kept =>
    obtain ⟨rfl, rfl⟩ := List.cons.inj e
    exact ⟨kept ++ tail, rfl, kept, List.prefix_append .., rfl⟩

/-- A test that holds for no line feed fails at the start of what is cut short if it did before. -/
lemma head?_test (h : CutShort rest rest') {test : Char → Bool} (hline : test '\n' = false)
    (hrest : ∀ c ∈ rest.head?, test c = false) : ∀ c ∈ rest'.head?, test c = false := by
  intro c hc
  rcases h.head? hc with rfl | hc
  · exact hline
  · exact hrest c hc

lemma not_mem_head? (h : CutShort rest rest') (hc : c ≠ '\n') (hrest : c ∉ rest.head?) :
    c ∉ rest'.head? :=
  fun hm => (h.head? hm).elim hc hrest

end CutShort

namespace Reader

variable {α β γ δ : Type}

/-! ### What readers take -/

/-- **Whether one reader takes what another one takes, on texts that are cut short behind it.** The
results may differ in what a relation does not see. -/
def Steady (R : α → β → Prop) (r : Reader α) (r' : Reader β) : Prop :=
  ∀ ⦃cs a rest⦄, r cs = some (a, rest) → ∃ text, cs = text ++ rest ∧
    ∀ rest', CutShort rest rest' → ∃ b, r' (text ++ rest') = some (b, rest') ∧ R a b

/-- **Whether a reader takes the same whatever follows**, and no line feed. -/
def Rigid (r : Reader α) : Prop :=
  ∀ ⦃cs a rest⦄, r cs = some (a, rest) → ∃ text, cs = text ++ rest ∧ '\n' ∉ text ∧
    ∀ rest', r (text ++ rest') = some (a, rest')

/-- **Whether a reader that takes a text takes something off every text that starts with it**, the
same off one that is cut short, and no line feed. -/
def Lasting (r : Reader α) : Prop :=
  ∀ ⦃cs a rest⦄, r cs = some (a, rest) → ∃ text, cs = text ++ rest ∧ '\n' ∉ text ∧
    (∀ rest', (r (text ++ rest')).isSome = true) ∧
    ∀ rest', CutShort rest rest' → r (text ++ rest') = some (a, rest')

/-- Whether a reader never fails. -/
def Total (r : Reader α) : Prop := ∀ cs, (r cs).isSome = true

variable {r : Reader α} {f : α → Reader β}

lemma bind_eq_some {cs rest : List Char} {b : β} (h : (r >>= f) cs = some (b, rest)) :
    ∃ a mid, r cs = some (a, mid) ∧ f a mid = some (b, rest) := by
  obtain ⟨⟨a, mid⟩, hr, hf⟩ := Option.bind_eq_some_iff.1 h
  exact ⟨a, mid, hr, hf⟩

/-! ### What readers leave -/

/-- **Whether a reader never goes back**: what it leaves is the end of the text. -/
def Forward (r : Reader α) : Prop := ∀ ⦃cs a rest⦄, r cs = some (a, rest) → rest <:+ cs

namespace Forward

protected lemma pure (a : α) : Forward (pure a) := by
  rintro cs _ _ ⟨⟩
  exact List.suffix_rfl

protected lemma bind (h : Forward r) (hf : ∀ a, Forward (f a)) : Forward (r >>= f) := by
  intro cs b rest hb
  obtain ⟨a, mid, ha, hfb⟩ := bind_eq_some hb
  exact (hf a hfb).trans (h ha)

protected lemma ite {r r' : Reader α} (P : Prop) [Decidable P] (h : Forward r) (h' : Forward r') :
    Forward (if P then r else r') := by
  split_ifs
  · exact h
  · exact h'

protected lemma exactly (c : Char) : Forward (exactly c) := by
  intro cs u rest h
  rw [eq_cons_of_exactly h]
  exact List.suffix_cons ..

protected lemma found (c : Char) : Forward (found c) := by
  intro cs b rest h
  rcases found_cases h with ⟨-, rfl⟩ | ⟨-, rfl, -⟩
  · exact List.suffix_cons ..
  · exact List.suffix_rfl

end Forward

/-! ### Whatever follows -/

namespace Rigid

lemma lasting (h : Rigid r) : Lasting r := by
  intro cs a rest hr
  obtain ⟨text, e, hline, hread⟩ := h hr
  exact ⟨text, e, hline, fun rest' => by rw [hread]; rfl, fun rest' _ => hread rest'⟩

protected lemma pure (a : α) : Rigid (pure a) := by
  rintro cs _ _ ⟨⟩
  exact ⟨[], rfl, List.not_mem_nil, fun _ => rfl⟩

protected lemma fail : Rigid (Reader.fail : Reader α) := by
  rintro cs _ _ ⟨⟩

protected lemma bind (h : Rigid r) (hf : ∀ a, Rigid (f a)) : Rigid (r >>= f) := by
  intro cs b rest hb
  obtain ⟨a, mid, ha, hfb⟩ := bind_eq_some hb
  obtain ⟨text, rfl, hline, hread⟩ := h ha
  obtain ⟨text', rfl, hline', hread'⟩ := hf a hfb
  refine ⟨text ++ text', (List.append_assoc ..).symm, ?_, fun rest' => ?_⟩
  · rw [List.mem_append, not_or]
    exact ⟨hline, hline'⟩
  · rw [List.append_assoc, bind_of_eq _ (hread _), hread']

protected lemma ite {r r' : Reader α} (P : Prop) [Decidable P] (h : Rigid r) (h' : Rigid r') :
    Rigid (if P then r else r') := by
  split_ifs
  · exact h
  · exact h'

protected lemma satisfying {test : Char → Bool} (h : test '\n' = false) :
    Rigid (satisfying test) := by
  intro cs a rest hr
  match cs with
  | [] => cases hr
  | c :: cs =>
    by_cases hc : test c = true
    · rw [satisfying_cons hc] at hr
      obtain ⟨rfl, rfl⟩ := Prod.mk.inj (Option.some.inj hr)
      refine ⟨[c], rfl, ?_, fun rest' => satisfying_cons hc rest'⟩
      intro hm
      rw [← List.mem_singleton.1 hm, h] at hc
      cases hc
    · rw [satisfying_none (by simpa using hc)] at hr
      cases hr

protected lemma exactly {c : Char} (h : c ≠ '\n') : Rigid (exactly c) :=
  .bind (.satisfying (by simpa using h.symm)) fun _ => .pure _

protected lemma word {cs : List Char} (h : '\n' ∉ cs) : Rigid (word cs) := by
  induction cs with
  | nil => exact .pure ()
  | cons c cs ih =>
    rw [List.mem_cons, not_or] at h
    exact .bind (.exactly (Ne.symm h.1)) fun _ => ih h.2

end Rigid

/-! ### What never fails -/

namespace Total

protected lemma optional (r : Reader α) : Total (optional r) := by
  intro cs
  unfold optional
  cases r cs with
  | none => rfl
  | some p => rfl

lemma bind_pure (h : Total r) (g : α → β) : Total (r >>= fun a => pure (g a)) := by
  intro cs
  obtain ⟨⟨a, rest⟩, ha⟩ := Option.isSome_iff_exists.1 (h cs)
  rw [bind_of_eq _ ha]
  rfl

end Total

/-! ### What is not lost -/

namespace Lasting

lemma steady (h : Lasting r) : Steady Eq r r := by
  intro cs a rest hr
  obtain ⟨text, e, -, -, hread⟩ := h hr
  exact ⟨text, e, fun rest' hrest => ⟨a, hread rest' hrest, rfl⟩⟩

/-- Behind what is taken whatever follows, a reader may be lasting. -/
lemma bind_rigid (h : Rigid r) (hf : ∀ a, Lasting (f a)) : Lasting (r >>= f) := by
  intro cs b rest hb
  obtain ⟨a, mid, ha, hfb⟩ := bind_eq_some hb
  obtain ⟨text, rfl, hline, hread⟩ := h ha
  obtain ⟨text', rfl, hline', hsome, hread'⟩ := hf a hfb
  refine ⟨text ++ text', (List.append_assoc ..).symm, ?_, fun rest' => ?_, fun rest' hrest => ?_⟩
  · rw [List.mem_append, not_or]
    exact ⟨hline, hline'⟩
  · rw [List.append_assoc, bind_of_eq _ (hread _)]
    exact hsome rest'
  · rw [List.append_assoc, bind_of_eq _ (hread _), hread' rest' hrest]

/-- Behind what is not lost, a reader must not fail. -/
lemma bind_total (h : Lasting r) (hf : ∀ a, Lasting (f a)) (htotal : ∀ a, Total (f a)) :
    Lasting (r >>= f) := by
  intro cs b rest hb
  obtain ⟨a, mid, ha, hfb⟩ := bind_eq_some hb
  obtain ⟨text, rfl, hline, hsome, hread⟩ := h ha
  obtain ⟨text', rfl, hline', -, hread'⟩ := hf a hfb
  refine ⟨text ++ text', (List.append_assoc ..).symm, ?_, fun rest' => ?_, fun rest' hrest => ?_⟩
  · rw [List.mem_append, not_or]
    exact ⟨hline, hline'⟩
  · obtain ⟨⟨a', mid'⟩, ha'⟩ := Option.isSome_iff_exists.1 (hsome (text' ++ rest'))
    rw [List.append_assoc, bind_of_eq _ ha']
    exact htotal a' mid'
  · rw [List.append_assoc, bind_of_eq _ (hread _ (hrest.append text')), hread' rest' hrest]

lemma bind_pure (h : Lasting r) (g : α → β) : Lasting (r >>= fun a => pure (g a)) :=
  h.bind_total (fun _ => (Rigid.pure _).lasting) fun _ _ => rfl

/-- A reader that fails does not start to succeed on a text that is cut short. -/
lemma eq_none (h : Lasting r) {cs cs' : List Char} (hr : r cs = none) (hcs : CutShort cs cs') :
    r cs' = none := by
  obtain ⟨kept, ⟨tail, rfl⟩, rfl⟩ := hcs
  match e : r (kept ++ ['\n']) with
  | none => rfl
  | some (a, rest) =>
    obtain ⟨text, htext, hline, hsome, -⟩ := h e
    -- The line feed is not taken, so what is taken was there before.
    have hprefix : text <+: kept := by
      rcases List.prefix_or_prefix_of_prefix ⟨rest, htext.symm⟩ (List.prefix_append kept ['\n'])
        with hp | ⟨more, rfl⟩
      · exact hp
      · match more with
        | [] =>
          rw [List.append_nil]
        | c :: more =>
          rw [List.append_assoc] at htext
          obtain ⟨rfl, -⟩ := List.cons.inj (List.append_cancel_left htext)
          simp at hline
    obtain ⟨more, rfl⟩ := hprefix
    have hlost := hsome (more ++ tail)
    rw [← List.append_assoc, hr] at hlost
    cases hlost

protected lemma optional (h : Lasting r) : Lasting (optional r) := by
  intro cs a rest ha
  match e : r cs with
  | none =>
    rw [optional_of_none e] at ha
    cases ha
    refine ⟨[], rfl, List.not_mem_nil, fun _ => Total.optional r _, fun rest' hrest => ?_⟩
    exact optional_of_none (h.eq_none e hrest)
  | some (b, mid) =>
    rw [optional_of_eq e] at ha
    cases ha
    obtain ⟨text, rfl, hline, -, hread⟩ := h e
    exact ⟨text, rfl, hline, fun _ => Total.optional r _,
      fun rest' hrest => optional_of_eq (hread rest' hrest)⟩

protected lemma run {test : Char → Bool} (h : test '\n' = false) : Lasting (run test) := by
  rintro cs _ _ ⟨⟩
  have htaken : ∀ c ∈ cs.takeWhile test, test c = true := List.all_eq_true.1 List.all_takeWhile
  have hrest : ∀ c ∈ (cs.dropWhile test).head?, test c = false := by
    intro c hc
    have hnot := List.head?_dropWhile_not test cs
    rwa [Option.mem_def.1 hc] at hnot
  refine ⟨_, List.takeWhile_append_dropWhile.symm, fun hm => ?_, fun _ => rfl, fun rest' hcut => ?_⟩
  · have hline := htaken _ hm
    rw [h] at hline
    cases hline
  · exact run_append htaken (hcut.head?_test h hrest)

protected lemma skip {test : Char → Bool} (h : test '\n' = false) : Lasting (skip test) :=
  (Lasting.run h).bind_pure fun _ => ()

end Lasting

/-! ### Step by step -/

namespace Steady

variable {R : α → β → Prop} {S : γ → δ → Prop} {r : Reader α} {r' : Reader β}
  {f : α → Reader γ} {f' : β → Reader δ}

lemma forward (h : Steady R r r') : Forward r := by
  intro cs a rest hr
  obtain ⟨text, e, -⟩ := h hr
  exact ⟨text, e.symm⟩

/-- What finds nothing on an empty line takes a character at least. -/
lemma takes_cons (h : Steady R r r') (hline : r' ['\n'] = none) {cs rest : List Char} {a : α}
    (hr : r cs = some (a, rest)) : ∃ c text, cs = c :: (text ++ rest) := by
  obtain ⟨text, rfl, hread⟩ := h hr
  match text with
  | [] =>
    obtain ⟨b, hb, -⟩ := hread _ (.lineFeed rest)
    rw [List.nil_append, hline] at hb
    cases hb
  | c :: text => exact ⟨c, text, rfl⟩

protected lemma pure {a : α} {b : β} (h : R a b) : Steady R (pure a) (pure b) := by
  rintro cs _ _ ⟨⟩
  exact ⟨[], rfl, fun rest' _ => ⟨b, rfl, h⟩⟩

protected lemma bind (h : Steady R r r') (hf : ∀ a b, R a b → Steady S (f a) (f' b)) :
    Steady S (r >>= f) (r' >>= f') := by
  intro cs c rest hc
  obtain ⟨a, mid, ha, hfc⟩ := bind_eq_some hc
  obtain ⟨text, rfl, hread⟩ := h ha
  obtain ⟨b, -, hab⟩ := hread _ (.lineFeed mid)
  obtain ⟨text', rfl, -⟩ := hf a b hab hfc
  refine ⟨text ++ text', (List.append_assoc ..).symm, fun rest' hrest => ?_⟩
  obtain ⟨b, hb, hab⟩ := hread _ (hrest.append text')
  obtain ⟨text'', e, hread'⟩ := hf a b hab hfc
  obtain rfl := List.append_cancel_right e
  obtain ⟨d, hd, hcd⟩ := hread' rest' hrest
  exact ⟨d, by rw [List.append_assoc, bind_of_eq _ hb, hd], hcd⟩

/-- The results of the first reader are the same. -/
lemma bind_eq {r : Reader α} {f : α → Reader γ} {f' : α → Reader δ} (h : Steady Eq r r)
    (hf : ∀ a, Steady S (f a) (f' a)) : Steady S (r >>= f) (r >>= f') :=
  h.bind fun a _ e => e ▸ hf a

protected lemma ite {r' : Reader β} {s : Reader α} {s' : Reader β} (P : Prop) [Decidable P]
    (h : Steady R r r') (h' : Steady R s s') :
    Steady R (if P then r else s) (if P then r' else s') := by
  split_ifs
  · exact h
  · exact h'

protected lemma found {c : Char} (h : c ≠ '\n') : Steady Eq (found c) (found c) := by
  intro cs b rest hr
  by_cases hc : c ∈ cs.head?
  · match cs with
    | [] => cases hc
    | d :: cs =>
      obtain rfl : d = c := by simpa using hc
      rw [found_cons] at hr
      obtain ⟨rfl, rfl⟩ := Prod.mk.inj (Option.some.inj hr)
      exact ⟨[d], rfl, fun rest' _ => ⟨true, found_cons d rest', rfl⟩⟩
  · rw [found_of_not_mem hc] at hr
    obtain ⟨rfl, rfl⟩ := Prod.mk.inj (Option.some.inj hr)
    exact ⟨[], rfl, fun rest' hrest =>
      ⟨false, found_of_not_mem (hrest.not_mem_head? h hc), rfl⟩⟩

protected lemma lift {o : Option α} {o' : Option β}
    (h : ∀ a, o = some a → ∃ b, o' = some b ∧ R a b) : Steady R (liftM o) (liftM o') := by
  intro cs a rest hr
  rw [lift_apply] at hr
  obtain ⟨a, ho, e⟩ := Option.map_eq_some_iff.1 hr
  obtain ⟨rfl, rfl⟩ := Prod.mk.inj e
  obtain ⟨b, hb, hab⟩ := h a ho
  exact ⟨[], rfl, fun rest' _ => ⟨b, by rw [lift_apply, hb]; rfl, hab⟩⟩

end Steady

end Reader

end PackScope
