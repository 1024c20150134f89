import PackScope.Proofs.Toml.Quotes
import PackScope.Toml.NodeReader

/-!
Keys, numbers, dates and times as they may be written. Where such a token ends shows in the next few
characters, none of which is a line feed, so that it is read as well if the text behind it is cut
short.
-/

namespace PackScope.Toml

open Reader

/-! ### Digits -/

section Digits

variable {isDigit : Char → Bool} {cs : List Char}

/-- Whether a run of digits ends here. -/
def StopsDigits (isDigit : Char → Bool) (cs : List Char) : Prop :=
  ∀ c rest, cs = c :: rest → isDigit c = false ∧ (c = '_' → ∀ d ∈ rest.head?, isDigit d = false)

lemma moreDigits_digit {c : Char} (hc : isDigit c = true) (rest : List Char) :
    moreDigits isDigit (c :: rest) =
      (moreDigits isDigit rest).bind fun p => some (c :: p.1, p.2) := by
  rw [moreDigits.eq_def]
  simp only [hc, if_true]
  rfl

lemma moreDigits_underscore {d : Char} (hu : isDigit '_' = false) (hd : isDigit d = true)
    (rest : List Char) : moreDigits isDigit ('_' :: d :: rest) =
      (moreDigits isDigit rest).bind fun p => some (d :: p.1, p.2) := by
  rw [moreDigits.eq_def]
  simp only [hu, hd, if_true, Bool.false_eq_true, if_false]
  rfl

lemma moreDigits_stop (h : StopsDigits isDigit cs) : moreDigits isDigit cs = some ([], cs) := by
  match cs with
  | [] => rfl
  | c :: rest =>
    obtain ⟨hc, hrest⟩ := h c rest rfl
    rw [moreDigits.eq_def]
    simp only [hc, Bool.false_eq_true, if_false]
    split
    next d rest => simp [hrest rfl d rfl]
    next => rfl

lemma StopsDigits.cutShort {cs' : List Char} (hline : isDigit '\n' = false)
    (h : StopsDigits isDigit cs) (hcs : CutShort cs cs') : StopsDigits isDigit cs' := by
  rintro c rest rfl
  by_cases hc : c = '\n'
  · subst hc
    exact ⟨hline, fun e => absurd e (by decide)⟩
  · obtain ⟨tail, rfl, hrest⟩ := hcs.of_cons hc
    obtain ⟨hdigit, htail⟩ := h c tail rfl
    exact ⟨hdigit, fun hu => hrest.head?_test hline (htail hu)⟩

/-- **Induction on a run of digits**, which goes on with a digit or with an underscore in front of
one, or stops. -/
lemma moreDigits_induction (isDigit : Char → Bool) {P : List Char → Prop}
    (digit : ∀ c rest, isDigit c = true → P rest → P (c :: rest))
    (underscore : ∀ d rest, isDigit '_' = false → isDigit d = true → P rest →
      P ('_' :: d :: rest))
    (stop : ∀ cs, StopsDigits isDigit cs → P cs) (cs : List Char) : P cs := by
  induction hn : cs.length using Nat.strong_induction_on generalizing cs with
  | _ n ih =>
    subst hn
    match cs with
    | [] => exact stop [] fun _ _ e => by cases e
    | c :: rest =>
      by_cases hc : isDigit c = true
      · exact digit c rest hc (ih _ (by simp) rest rfl)
      rw [Bool.not_eq_true] at hc
      by_cases hd : c = '_' ∧ ∃ d ∈ rest.head?, isDigit d = true
      · obtain ⟨rfl, d, hd, hdigit⟩ := hd
        match rest with
        | e :: rest =>
          obtain rfl : e = d := by simpa using hd
          exact underscore e rest hc hdigit (ih _ (by simp only [List.length_cons]; omega) rest rfl)
      · refine stop _ ?_
        rintro _ _ ⟨⟩
        refine ⟨hc, fun hu d hm => ?_⟩
        rw [← Bool.not_eq_true]
        exact fun hdigit => hd ⟨hu, d, hm, hdigit⟩

lemma total_moreDigits (isDigit : Char → Bool) : Total (moreDigits isDigit) := by
  intro cs
  induction cs using moreDigits_induction isDigit with
  | digit c rest hc ih =>
    obtain ⟨p, hp⟩ := Option.isSome_iff_exists.1 ih
    rw [moreDigits_digit hc, hp]
    rfl
  | underscore d rest hu hd ih =>
    obtain ⟨p, hp⟩ := Option.isSome_iff_exists.1 ih
    rw [moreDigits_underscore hu hd, hp]
    rfl
  | stop cs hstop =>
    rw [moreDigits_stop hstop]
    rfl

lemma lasting_moreDigits (hline : isDigit '\n' = false) : Lasting (moreDigits isDigit) := by
  intro cs
  induction cs using moreDigits_induction isDigit with
  | digit c tail hc ih =>
    intro ds rest h
    rw [moreDigits_digit hc] at h
    obtain ⟨⟨ds, rest⟩, hds, e⟩ := Option.bind_eq_some_iff.1 h
    obtain ⟨rfl, rfl⟩ := Prod.mk.inj (Option.some.inj e)
    obtain ⟨text, rfl, htext, -, hread⟩ := ih hds
    refine ⟨c :: text, rfl, ?_, fun _ => total_moreDigits _ _, fun rest' hrest => ?_⟩
    · rw [List.mem_cons, not_or]
      refine ⟨?_, htext⟩
      rintro rfl
      simp [hline] at hc
    · rw [List.cons_append, moreDigits_digit hc, hread rest' hrest]
      rfl
  | underscore d tail hu hd ih =>
    intro ds rest h
    rw [moreDigits_underscore hu hd] at h
    obtain ⟨⟨ds, rest⟩, hds, e⟩ := Option.bind_eq_some_iff.1 h
    obtain ⟨rfl, rfl⟩ := Prod.mk.inj (Option.some.inj e)
    obtain ⟨text, rfl, htext, -, hread⟩ := ih hds
    refine ⟨'_' :: d :: text, rfl, ?_, fun _ => total_moreDigits _ _, fun rest' hrest => ?_⟩
    · have hd' : '\n' ≠ d := by
        rintro rfl
        simp [hline] at hd
      simpa using ⟨hd', htext⟩
    · rw [List.cons_append, List.cons_append, moreDigits_underscore hu hd, hread rest' hrest]
      rfl
  | stop cs hstop =>
    intro ds rest h
    rw [moreDigits_stop hstop] at h
    cases h
    exact ⟨[], rfl, List.not_mem_nil, fun _ => total_moreDigits _ _,
      fun rest' hrest => moreDigits_stop (hstop.cutShort hline hrest)⟩

lemma lasting_digitRun (hline : isDigit '\n' = false) : Lasting (digitRun isDigit) :=
  .bind_rigid (.satisfying hline) fun _ => (lasting_moreDigits hline).bind_pure _

lemma lasting_decimalRun : Lasting decimalRun := by
  refine .bind_rigid (.satisfying (by decide)) fun c => ?_
  split_ifs
  · exact (Rigid.pure _).lasting
  · exact (lasting_moreDigits (by decide)).bind_pure _

end Digits

/-! ### Numbers -/

section Numbers

lemma steady_inBase (base : ℕ) {isDigit : Char → Bool} (hline : isDigit '\n' = false) :
    Steady Eq (inBase base isDigit) (inBase base isDigit) :=
  (lasting_digitRun hline).steady.bind_eq fun _ => .lift fun a ha => ⟨a, ha, rfl⟩

lemma steady_sign : Steady Eq sign sign := by
  intro cs b rest h
  unfold sign at h
  split at h
  next tail =>
    cases h
    exact ⟨['+'], rfl, fun rest' _ => ⟨_, rfl, rfl⟩⟩
  next tail =>
    cases h
    exact ⟨['-'], rfl, fun rest' _ => ⟨_, rfl, rfl⟩⟩
  next hplus hminus =>
    cases h
    refine ⟨[], rfl, fun rest' hrest => ⟨none, ?_, rfl⟩⟩
    rw [List.nil_append]
    unfold sign
    split
    next tail =>
      obtain ⟨tail', e, -⟩ := hrest.of_cons (by decide)
      exact (hplus tail' e).elim
    next tail =>
      obtain ⟨tail', e, -⟩ := hrest.of_cons (by decide)
      exact (hminus tail' e).elim
    next => rfl

lemma lasting_signed {α : Type} (f : Option Bool → List Char → α) :
    Lasting (sign >>= fun s => digitRun Char.isDigit >>= fun ds => pure (f s ds)) := by
  have hdigits (s : Option Bool) :
      Lasting (digitRun Char.isDigit >>= fun ds => pure (f s ds)) :=
    (lasting_digitRun (by decide)).bind_pure _
  intro cs a rest h
  obtain ⟨s, mid, hs, h⟩ := bind_eq_some h
  obtain ⟨text, rfl, hline, hsome, hread⟩ := hdigits s h
  unfold sign at hs
  split at hs
  next tail =>
    cases hs
    exact ⟨'+' :: text, rfl, by simpa using hline, hsome, hread⟩
  next tail =>
    cases hs
    exact ⟨'-' :: text, rfl, by simpa using hline, hsome, hread⟩
  next hplus hminus =>
    cases hs
    -- The digits in front keep what follows from becoming a sign.
    have hsign (rest' : List Char) : sign (text ++ rest') = some (none, text ++ rest') := by
      match text with
      | [] =>
        have hnone := hread _ (.lineFeed rest)
        cases hnone
      | c :: text =>
        have hp : c ≠ '+' := fun e => hplus (text ++ rest) (by rw [e]; rfl)
        have hm : c ≠ '-' := fun e => hminus (text ++ rest) (by rw [e]; rfl)
        simp [sign, hp, hm]
    refine ⟨text, rfl, hline, fun rest' => ?_, fun rest' hrest => ?_⟩
    · rw [bind_of_eq _ (hsign rest')]
      exact hsome rest'
    · rw [bind_of_eq _ (hsign rest')]
      exact hread rest' hrest

lemma lasting_exponentPart : Lasting exponentPart :=
  .bind_rigid (.satisfying (by decide)) fun _ => lasting_signed _

lemma lasting_fractionPart : Lasting fractionPart :=
  .bind_rigid (.exactly (by decide)) fun _ => lasting_digitRun (by decide)

lemma steady_decimal (negative : Bool) : Steady Eq (decimal negative) (decimal negative) := by
  refine lasting_decimalRun.steady.bind_eq fun whole => ?_
  refine lasting_fractionPart.optional.steady.bind_eq fun fraction => ?_
  refine lasting_exponentPart.optional.steady.bind_eq fun exponent => ?_
  match fraction, exponent with
  | none, none => exact .lift fun a ha => ⟨a, ha, rfl⟩
  | none, some _ => exact .lift fun a ha => ⟨a, ha, rfl⟩
  | some _, none => exact .lift fun a ha => ⟨a, ha, rfl⟩
  | some _, some _ => exact .lift fun a ha => ⟨a, ha, rfl⟩

lemma rigid_namedNumber (negative : Bool) : Rigid (namedNumber negative) := by
  intro cs a rest h
  unfold namedNumber at h
  split at h
  next tail =>
    cases h
    exact ⟨['i', 'n', 'f'], rfl, by decide, fun _ => rfl⟩
  next tail =>
    cases h
    exact ⟨['n', 'a', 'n'], rfl, by decide, fun _ => rfl⟩
  next => cases h

/-- A number with an optional sign. -/
lemma steady_signed : Steady Eq
    (do let negative := (← sign).getD false
        match ← Reader.optional (namedNumber negative) with
        | some x => return x
        | none => decimal negative : Reader Scalar)
    (do let negative := (← sign).getD false
        match ← Reader.optional (namedNumber negative) with
        | some x => return x
        | none => decimal negative : Reader Scalar) := by
  refine steady_sign.bind_eq fun s => ?_
  refine (rigid_namedNumber _).lasting.optional.steady.bind_eq fun x => ?_
  match x with
  | some x => exact .pure rfl
  | none => exact steady_decimal _

theorem steady_numeral : Steady Eq numeral numeral := by
  intro cs a rest h
  have hbase {base : ℕ} {isDigit : Char → Bool} (hline : isDigit '\n' = false) {c : Char}
      {tail : List Char} (hread : inBase base isDigit tail = some (a, rest))
      (hnum : ∀ cs, numeral ('0' :: c :: cs) = inBase base isDigit cs) :
      ∃ text, '0' :: c :: tail = text ++ rest ∧ ∀ rest', CutShort rest rest' →
        ∃ b, numeral (text ++ rest') = some (b, rest') ∧ a = b := by
    obtain ⟨text, rfl, hsteady⟩ := steady_inBase base hline hread
    exact ⟨'0' :: c :: text, rfl, fun rest' hrest => by
      rw [List.cons_append, List.cons_append, hnum]
      exact hsteady rest' hrest⟩
  unfold numeral at h
  split at h
  next tail => exact hbase (by decide) h fun _ => rfl
  next tail => exact hbase (by decide) h fun _ => rfl
  next tail => exact hbase (by decide) h fun _ => rfl
  next hx ho hb =>
    obtain ⟨text, rfl, hread⟩ := steady_signed h
    refine ⟨text, rfl, fun rest' hrest => ?_⟩
    -- A text that is cut short names no base that it did not name before.
    have hmark {c : Char} (hc : c ≠ '\n') {tail : List Char} (e : text ++ rest' = '0' :: c :: tail) :
        ∃ tail, text ++ rest = '0' :: c :: tail := by
      have hcut := hrest.append text
      rw [e] at hcut
      obtain ⟨t₁, e₁, hcut₁⟩ := hcut.of_cons (by decide)
      obtain ⟨t₂, rfl, -⟩ := hcut₁.of_cons hc
      exact ⟨t₂, e₁⟩
    unfold numeral
    split
    next tail e => exact (hx _ (hmark (by decide) e).choose_spec).elim
    next tail e => exact (ho _ (hmark (by decide) e).choose_spec).elim
    next tail e => exact (hb _ (hmark (by decide) e).choose_spec).elim
    next => exact hread rest' hrest

end Numbers

/-! ### Dates and times -/

section Times

lemma rigid_fixedDigits : ∀ n, Rigid (fixedDigits n)
  | 0 => .pure _
  | n + 1 => .bind (.satisfying (by decide)) fun _ => .bind (rigid_fixedDigits n) fun _ => .pure _

lemma rigid_fixedNumber (width bound : ℕ) : Rigid (fixedNumber width bound) :=
  .bind (rigid_fixedDigits width) fun _ => .ite _ (.pure _) .fail

lemma rigid_date : Rigid date := by
  refine .bind (rigid_fixedNumber 4 9999) fun year => ?_
  refine .bind (.exactly (by decide)) fun _ => .bind (rigid_fixedNumber 2 12) fun month => ?_
  refine .bind (.exactly (by decide)) fun _ => .bind (rigid_fixedNumber 2 31) fun day => ?_
  exact .ite _ (.pure _) .fail

lemma lasting_secondFraction : Lasting secondFraction :=
  .bind_rigid (.exactly (by decide)) fun _ => .bind_rigid (.satisfying (by decide)) fun _ =>
    (Lasting.run (by decide)).bind_pure _

lemma lasting_time : Lasting time := by
  refine .bind_rigid (rigid_fixedNumber 2 23) fun hour => .bind_rigid (.exactly (by decide)) fun _ => ?_
  refine .bind_rigid (rigid_fixedNumber 2 59) fun minute => ?_
  refine .bind_rigid (.exactly (by decide)) fun _ => .bind_rigid (rigid_fixedNumber 2 60) fun second => ?_
  exact lasting_secondFraction.optional.bind_pure _

lemma rigid_zoneOffset : Rigid zoneOffset := by
  refine .bind (.satisfying (by decide)) fun mark => .ite _ (.pure _) ?_
  refine .bind (rigid_fixedNumber 2 23) fun hours => .bind (.exactly (by decide)) fun _ => ?_
  exact .bind (rigid_fixedNumber 2 59) fun minutes => .pure _

lemma lasting_timeOfDate : Lasting timeOfDate := by
  refine .bind_rigid (.satisfying (by decide)) fun _ => ?_
  refine lasting_time.bind_total (fun t => rigid_zoneOffset.lasting.optional.bind_pure _) fun t => ?_
  exact (Total.optional zoneOffset).bind_pure _

lemma fixedDigits_eq_some {n : ℕ} {cs ds rest : List Char}
    (h : fixedDigits n cs = some (ds, rest)) :
    cs = ds ++ rest ∧ ds.length = n ∧ ∀ d ∈ ds, d.isDigit = true := by
  induction n generalizing cs ds with
  | zero =>
    cases h
    exact ⟨rfl, rfl, fun d hd => absurd hd List.not_mem_nil⟩
  | succ n ih =>
    obtain ⟨d, mid, hd, h⟩ := bind_eq_some h
    obtain ⟨ds, mid', hds, h⟩ := bind_eq_some h
    cases h
    obtain ⟨rfl, hlen, hall⟩ := ih hds
    obtain ⟨rfl, hdigit⟩ := eq_cons_of_satisfying hd
    exact ⟨rfl, congrArg (· + 1) hlen, List.forall_mem_cons.2 ⟨hdigit, hall⟩⟩

lemma exists_digits_of_fixedNumber {width bound n : ℕ} {cs rest : List Char}
    (h : fixedNumber width bound cs = some (n, rest)) :
    ∃ ds, cs = ds ++ rest ∧ ds.length = width ∧ ∀ d ∈ ds, d.isDigit = true := by
  obtain ⟨ds, mid, hds, h⟩ := bind_eq_some h
  obtain ⟨hcs, hdigits⟩ := fixedDigits_eq_some hds
  dsimp only at h
  split_ifs at h
  · cases h
    exact ⟨ds, hcs, hdigits⟩
  · cases h

/-- A time of day does not start as a date does. -/
lemma date_eq_none_of_time {cs : List Char} (h : (time cs).isSome = true) : date cs = none := by
  obtain ⟨⟨t, rest⟩, ht⟩ := Option.isSome_iff_exists.1 h
  obtain ⟨hour, mid, hhour, ht⟩ := bind_eq_some ht
  obtain ⟨_, mid', hcolon, -⟩ := bind_eq_some ht
  obtain ⟨c, mid'', hc, -⟩ := bind_eq_some hcolon
  obtain ⟨rfl, htest⟩ := eq_cons_of_satisfying hc
  obtain ⟨hs, rfl, hlen, -⟩ := exists_digits_of_fixedNumber hhour
  match hdate : date (hs ++ c :: mid'') with
  | none => rfl
  | some (d, rest) =>
    obtain ⟨year, tail, hyear, -⟩ := bind_eq_some hdate
    obtain ⟨ys, e, hlen', hdigits⟩ := exists_digits_of_fixedNumber hyear
    -- The third character is both the colon and a digit of the year.
    have hmem : c ∈ ys := by
      have hget : (ys ++ tail)[2]? = some c := by
        rw [← e, List.getElem?_append_right (by omega), hlen]
        rfl
      rw [List.getElem?_append_left (by omega)] at hget
      exact List.mem_of_getElem? hget
    obtain rfl : c = ':' := by simpa using htest
    exact absurd (hdigits _ hmem) (by decide)

/-- A date, and the time behind it if there is one. -/
def dated : Reader Datetime := do
  let d ← date
  match ← Reader.optional timeOfDate with
  | some (t, offset) => return ⟨some d, some t, offset⟩
  | none => return ⟨some d, none, none⟩

lemma lasting_dated : Lasting dated := by
  refine .bind_rigid rigid_date fun d => ?_
  refine lasting_timeOfDate.optional.bind_total (fun t => ?_) fun t => ?_
  · match t with
    | some (t, offset) => exact (Rigid.pure _).lasting
    | none => exact (Rigid.pure _).lasting
  · match t with
    | some (t, offset) => exact fun _ => rfl
    | none => exact fun _ => rfl

lemma datetime_of_date {cs rest : List Char} {d : Date} (h : date cs = some (d, rest)) :
    datetime cs = dated cs := by
  refine (bind_of_eq _ (optional_of_eq h)).trans (Eq.trans ?_ (bind_of_eq _ h).symm)
  rfl

lemma datetime_of_dated {cs : List Char} (h : (dated cs).isSome = true) :
    datetime cs = dated cs := by
  obtain ⟨⟨d, rest⟩, hd⟩ := Option.isSome_iff_exists.1 h
  obtain ⟨d', mid, hdate, -⟩ := bind_eq_some hd
  exact datetime_of_date hdate

lemma datetime_of_date_eq_none {cs : List Char} (h : date cs = none) :
    datetime cs = (time >>= fun t => pure ⟨none, some t, none⟩ : Reader Datetime) cs := by
  rw [datetime, bind_of_eq _ (optional_of_none h)]

lemma lasting_datetime : Lasting datetime := by
  intro cs a rest h
  match hdate : date cs with
  | some (d, mid) =>
    rw [datetime_of_date hdate] at h
    obtain ⟨text, rfl, hline, hsome, hread⟩ := lasting_dated h
    refine ⟨text, rfl, hline, fun rest' => ?_, fun rest' hrest => ?_⟩
    · rw [datetime_of_dated (hsome rest')]
      exact hsome rest'
    · rw [datetime_of_dated (hsome rest')]
      exact hread rest' hrest
  | none =>
    rw [datetime_of_date_eq_none hdate] at h
    have htimed := lasting_time.bind_pure fun t => (⟨none, some t, none⟩ : Datetime)
    obtain ⟨text, rfl, hline, hsome, hread⟩ := htimed h
    have hnone (rest' : List Char) : date (text ++ rest') = none := by
      obtain ⟨⟨d, tail⟩, hd⟩ := Option.isSome_iff_exists.1 (hsome rest')
      obtain ⟨t, mid, ht, -⟩ := bind_eq_some hd
      exact date_eq_none_of_time (by rw [ht]; rfl)
    refine ⟨text, rfl, hline, fun rest' => ?_, fun rest' hrest => ?_⟩
    · rw [datetime_of_date_eq_none (hnone rest')]
      exact hsome rest'
    · rw [datetime_of_date_eq_none (hnone rest')]
      exact hread rest' hrest

end Times

/-! ### Values without parts -/

section Scalars

lemma rigid_truthValue : Rigid truthValue := by
  intro cs a rest h
  unfold truthValue at h
  split at h
  next tail =>
    have hrigid : Rigid (do Reader.word "rue".toList; return .boolean true : Reader Scalar) :=
      .bind (.word (by decide)) fun _ => .pure _
    obtain ⟨text, rfl, hline, hread⟩ := hrigid h
    exact ⟨'t' :: text, rfl, by simpa using hline, hread⟩
  next tail =>
    have hrigid : Rigid (do Reader.word "alse".toList; return .boolean false : Reader Scalar) :=
      .bind (.word (by decide)) fun _ => .pure _
    obtain ⟨text, rfl, hline, hread⟩ := hrigid h
    exact ⟨'f' :: text, rfl, by simpa using hline, hread⟩
  next => cases h

/-- A date or time, or a number. -/
def figure : Reader Scalar := do
  match ← Reader.optional datetime with
  | some d => return .datetime d
  | none => numeral

lemma steady_figure : Steady Eq figure figure := by
  refine lasting_datetime.optional.steady.bind_eq fun d => ?_
  match d with
  | some d => exact .pure rfl
  | none => exact steady_numeral

/-- What a reader takes that acts as another one on texts with one first character. -/
lemma exists_text_of_head {α : Type} {r s : Reader α} (hs : Steady Eq s s) (hline : s ['\n'] = none)
    {c : Char} (hrs : ∀ tail, r (c :: tail) = s (c :: tail)) {tail rest : List Char} {a : α}
    (h : r (c :: tail) = some (a, rest)) :
    ∃ text, c :: tail = text ++ rest ∧
      ∀ rest', CutShort rest rest' → ∃ b, r (text ++ rest') = some (b, rest') ∧ a = b := by
  rw [hrs] at h
  obtain ⟨text, e, hread⟩ := hs h
  match text with
  | [] =>
    obtain ⟨b, hb, -⟩ := hread _ (.lineFeed rest)
    rw [List.nil_append, hline] at hb
    cases hb
  | d :: text =>
    obtain ⟨rfl, rfl⟩ := List.cons.inj e
    refine ⟨c :: text, rfl, fun rest' hrest => ?_⟩
    rw [List.cons_append, hrs]
    exact hread rest' hrest

/-- **What is read of a value without parts shows where it ends.** -/
theorem steady_scalar : Steady Eq scalar scalar := by
  intro cs a rest h
  have hstring : Steady Eq (do return .string (.ofList (← anyString)) : Reader Scalar)
      (do return .string (.ofList (← anyString)) : Reader Scalar) :=
    steady_anyString.bind_eq fun _ => .pure rfl
  match cs with
  | [] => cases h
  | c :: tail =>
    by_cases hquote : c = '"' ∨ c = '\''
    · refine exists_text_of_head hstring rfl (fun tail => ?_) h
      rcases hquote with rfl | rfl <;> rfl
    by_cases htruth : c = 't' ∨ c = 'f'
    · refine exists_text_of_head rigid_truthValue.lasting.steady rfl (fun tail => ?_) h
      rcases htruth with rfl | rfl <;> rfl
    · rw [not_or] at hquote htruth
      refine exists_text_of_head steady_figure (by decide) (fun tail => ?_) h
      unfold scalar
      split
      next e => exact absurd (List.cons.inj e).1 hquote.1
      next e => exact absurd (List.cons.inj e).1 hquote.2
      next e => exact absurd (List.cons.inj e).1 htruth.1
      next e => exact absurd (List.cons.inj e).1 htruth.2
      next => rfl

end Scalars

/-! ### Keys -/

section Keys

lemma lasting_bareKey : Lasting bareKey :=
  .bind_rigid (.satisfying (by decide)) fun _ => (Lasting.run (by decide)).bind_pure _

lemma steady_blanks : Steady Eq blanks blanks := (Lasting.skip (by decide)).steady

lemma steady_keyPart : Steady Eq keyPart keyPart := by
  refine steady_blanks.bind_eq fun _ => rigid_lineString.lasting.optional.steady.bind_eq fun cs => ?_
  have hrest (key : List Char) : Steady Eq (blanks >>= fun _ => pure (String.ofList key))
      (blanks >>= fun _ => pure (String.ofList key)) :=
    steady_blanks.bind_eq fun _ => .pure rfl
  match cs with
  | some cs => exact hrest cs
  | none => exact lasting_bareKey.steady.bind_eq hrest

lemma steady_keyParts : ∀ n, Steady Eq (keyParts n) (keyParts n)
  | 0 => (Steady.found (by decide)).bind_eq fun more => .ite _ (Rigid.fail.lasting.steady) (.pure rfl)
  | n + 1 => by
    refine (Steady.found (by decide)).bind_eq fun more => .ite _ ?_ (.pure rfl)
    exact steady_keyPart.bind_eq fun _ => (steady_keyParts n).bind_eq fun _ => .pure rfl

/-- **What is read of a key shows where it ends.** -/
theorem steady_key : Steady Eq key key :=
  steady_keyPart.bind_eq fun _ => (steady_keyParts _).bind_eq fun _ => .pure rfl

end Keys

end PackScope.Toml
