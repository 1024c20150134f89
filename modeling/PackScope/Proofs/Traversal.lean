import Mathlib.Data.List.Forall2
import PackScope.Proofs.KeyMap.Merging

/-!
Traversals that may fail. A traversal succeeds with the expected results exactly if each of its
steps does, and so does a map that is built from its results if no key occurs twice.
-/

namespace PackScope

variable {α β γ ξ ε : Type}

lemma bind_eq_ok {x : Except ε α} {f : α → Except ε β} {b : β} :
    x >>= f = .ok b ↔ ∃ a, x = .ok a ∧ f a = .ok b := by
  cases x with
  | error e => exact iff_of_false (by rintro ⟨⟩) (by rintro ⟨_, ⟨⟩, _⟩)
  | ok a =>
    constructor
    · intro h
      exact ⟨a, rfl, h⟩
    · rintro ⟨_, ⟨⟩, h⟩
      exact h

lemma pure_eq_ok {a b : α} : (pure a : Except ε α) = .ok b ↔ b = a :=
  ⟨fun h => (Except.ok.inj h).symm, fun h => congrArg Except.ok h.symm⟩

lemma map_eq_ok {x : Except ε α} {f : α → β} {b : β} :
    x.map f = .ok b ↔ ∃ a, x = .ok a ∧ b = f a := by
  cases x with
  | error e => exact iff_of_false (by rintro ⟨⟩) (by rintro ⟨_, ⟨⟩, _⟩)
  | ok a =>
    constructor
    · rintro ⟨⟩
      exact ⟨a, rfl, rfl⟩
    · rintro ⟨_, ⟨⟩, rfl⟩
      rfl

lemma exists_map_eq_ok {x : Except ε α} {f : α → β} :
    (∃ b, x.map f = .ok b) ↔ ∃ a, x = .ok a := by
  constructor
  · rintro ⟨_, h⟩
    obtain ⟨a, ha, -⟩ := map_eq_ok.1 h
    exact ⟨a, ha⟩
  · rintro ⟨a, rfl⟩
    exact ⟨f a, rfl⟩

lemma mapError_eq_ok {δ : Type} {x : Except ε α} {f : ε → δ} {a : α} :
    x.mapError f = .ok a ↔ x = .ok a := by
  cases x with
  | error e => exact iff_of_false (by rintro ⟨⟩) (by rintro ⟨⟩)
  | ok b =>
    rw [Except.mapError, Except.ok.injEq, Except.ok.injEq]

lemma bind_eq_error {x : Except ε α} {f : α → Except ε β} {e : ε} :
    x >>= f = .error e ↔ x = .error e ∨ ∃ a, x = .ok a ∧ f a = .error e := by
  cases x with
  | error e' =>
    constructor
    · rintro ⟨⟩
      exact .inl rfl
    · rintro (⟨⟨⟩⟩ | ⟨_, ⟨⟩, -⟩)
      rfl
  | ok a =>
    constructor
    · intro h
      exact .inr ⟨a, rfl, h⟩
    · rintro (⟨⟨⟩⟩ | ⟨_, ⟨⟩, h⟩)
      exact h

lemma pure_ne_error {a : α} {e : ε} : (pure a : Except ε α) ≠ .error e := by
  rintro ⟨⟩

lemma map_eq_error {x : Except ε α} {f : α → β} {e : ε} : x.map f = .error e ↔ x = .error e := by
  cases x with
  | error e' => rw [Except.map, Except.error.injEq, Except.error.injEq]
  | ok a => exact iff_of_false (by rintro ⟨⟩) (by rintro ⟨⟩)

lemma mapError_eq_error {δ : Type} {x : Except ε α} {f : ε → δ} {d : δ} :
    x.mapError f = .error d ↔ ∃ e, x = .error e ∧ d = f e := by
  cases x with
  | error e =>
    constructor
    · rintro ⟨⟩
      exact ⟨e, rfl, rfl⟩
    · rintro ⟨_, ⟨⟩, rfl⟩
      rfl
  | ok a => exact iff_of_false (by rintro ⟨⟩) (by rintro ⟨_, ⟨⟩, -⟩)

/-- Two computations give the same up to what is forgotten if their first steps do, and their next
steps behind such first ones. -/
lemma map_bind_congr {α' β' δ : Type} {x : Except ε α} {x' : Except ε α'} {k : α → Except ε β}
    {k' : α' → Except ε β'} {g : α → δ} {g' : α' → δ} {r : β → γ} {r' : β' → γ}
    (hx : x.map g = x'.map g') (hk : ∀ a a', g a = g' a' → (k a).map r = (k' a').map r') :
    (x >>= k).map r = (x' >>= k').map r' := by
  cases x with
  | error e =>
    cases x' with
    | error e' =>
      cases hx
      rfl
    | ok a' => cases hx
  | ok a =>
    cases x' with
    | error e' => cases hx
    | ok a' => exact hk a a' (Except.ok.inj hx)

lemma mapM_cons_ok {f : α → Except ε β} {a : α} {as : List α} {bs : List β} :
    (a :: as).mapM f = .ok bs ↔ ∃ b, f a = .ok b ∧ ∃ bs', as.mapM f = .ok bs' ∧ bs = b :: bs' := by
  simp only [List.mapM_cons, bind_eq_ok, pure_eq_ok]

/-- Traversals give the same up to what is forgotten if their steps do. -/
lemma mapM_map_congr {δ : Type} {f : α → Except ε β} {f' : ξ → Except ε δ} {g : β → γ} {g' : δ → γ}
    {u : α → ξ} (hf : ∀ a, (f a).map g = (f' (u a)).map g') (as : List α) :
    (as.mapM f).map (List.map g) = ((as.map u).mapM f').map (List.map g') := by
  induction as with
  | nil => rfl
  | cons a as ih =>
    rw [List.map_cons, List.mapM_cons, List.mapM_cons]
    apply map_bind_congr (hf a)
    intro b b' hb
    apply map_bind_congr ih
    intro bs bs' hbs
    show Except.ok (List.map g (b :: bs)) = Except.ok (List.map g' (b' :: bs'))
    rw [List.map_cons, List.map_cons, hb, hbs]

lemma mem_of_mapM {f : α → Except ε β} {as : List α} {bs : List β} (h : as.mapM f = .ok bs)
    {b : β} (hb : b ∈ bs) : ∃ a ∈ as, f a = .ok b := by
  induction as generalizing bs with
  | nil =>
    cases h
    cases hb
  | cons a as ih =>
    obtain ⟨b', hb', bs', hbs', rfl⟩ := mapM_cons_ok.1 h
    rcases List.mem_cons.1 hb with rfl | hb
    · exact ⟨a, List.mem_cons_self, hb'⟩
    · obtain ⟨a', ha', hfa⟩ := ih hbs' hb
      exact ⟨a', List.mem_cons_of_mem _ ha', hfa⟩

lemma ok_of_mapM {f : α → Except ε β} {as : List α} {bs : List β} (h : as.mapM f = .ok bs) {a : α}
    (ha : a ∈ as) : ∃ b, f a = .ok b := by
  induction as generalizing bs with
  | nil => cases ha
  | cons a' as ih =>
    obtain ⟨b, hb, bs', hbs', rfl⟩ := mapM_cons_ok.1 h
    rcases List.mem_cons.1 ha with rfl | ha
    · exact ⟨b, hb⟩
    · exact ih hbs' ha

/-- A traversal gives the expected results exactly if each step does. -/
lemma exists_mapM_iff {f : α → Except ε β} {g : β → γ} {r : α → γ} {P : α → Prop} {as : List α}
    (hf : ∀ a ∈ as, (∃ b, f a = .ok b ∧ g b = r a) ↔ P a) :
    (∃ bs, as.mapM f = .ok bs ∧ bs.map g = as.map r) ↔ ∀ a ∈ as, P a := by
  induction as with
  | nil => simp [pure, Except.pure]
  | cons a as ih =>
    have ih := ih fun b hb => hf b (List.mem_cons_of_mem _ hb)
    rw [List.forall_mem_cons, ← hf a List.mem_cons_self, ← ih]
    constructor
    · rintro ⟨bs, hbs, hg⟩
      obtain ⟨b, hb, bs', hbs', rfl⟩ := mapM_cons_ok.1 hbs
      rw [List.map_cons, List.map_cons, List.cons.injEq] at hg
      exact ⟨⟨b, hb, hg.1⟩, bs', hbs', hg.2⟩
    · rintro ⟨⟨b, hb, hg⟩, bs', hbs', hg'⟩
      exact ⟨b :: bs', mapM_cons_ok.2 ⟨b, hb, bs', hbs', rfl⟩, by
        rw [List.map_cons, List.map_cons, hg, hg']⟩

lemma map_eq_of_forall₂ {R : ξ → α → Prop} {k : α → γ} {r : ξ → γ}
    (hR : ∀ x a, R x a → k a = r x) {xs : List ξ} {as : List α} (h : List.Forall₂ R xs as) :
    as.map k = xs.map r := by
  induction h with
  | nil => rfl
  | cons hx _ ih => rw [List.map_cons, List.map_cons, hR _ _ hx, ih]

lemma exists_of_forall₂ {R : ξ → α → Prop} {xs : List ξ} {as : List α} (h : List.Forall₂ R xs as)
    {a : α} (ha : a ∈ as) : ∃ x ∈ xs, R x a := by
  induction h with
  | nil => cases ha
  | @cons x a' xs as hx _ ih =>
    rcases List.mem_cons.1 ha with rfl | ha
    · exact ⟨x, List.mem_cons_self, hx⟩
    · obtain ⟨y, hy, hya⟩ := ih ha
      exact ⟨y, List.mem_cons_of_mem _ hy, hya⟩

/-- Of two lists whose members belong together, one has a property throughout exactly if the other
one has the property that belongs to it. -/
lemma forall_mem_iff_of_forall₂ {R : ξ → α → Prop} {P : ξ → Prop} {Q : α → Prop} {xs : List ξ}
    {as : List α} (h : List.Forall₂ R xs as) (hR : ∀ a ∈ as, ∀ x, R x a → (P x ↔ Q a)) :
    (∀ x ∈ xs, P x) ↔ ∀ a ∈ as, Q a := by
  induction h with
  | nil => exact iff_of_true (List.forall_mem_nil _) (List.forall_mem_nil _)
  | cons hx _ ih =>
    rw [List.forall_mem_cons, List.forall_mem_cons, hR _ List.mem_cons_self _ hx,
      ih fun a ha => hR a (List.mem_cons_of_mem _ ha)]

lemma map_of_mapM {f : α → Except ε β} {k : β → γ} {k' : α → γ}
    (hf : ∀ a b, f a = .ok b → k b = k' a) {as : List α} {bs : List β}
    (h : as.mapM f = .ok bs) : bs.map k = as.map k' := by
  induction as generalizing bs with
  | nil => cases h; rfl
  | cons a as ih =>
    obtain ⟨b, hb, bs', hbs', rfl⟩ := mapM_cons_ok.1 h
    rw [List.map_cons, List.map_cons, hf a b hb, ih hbs']

/-- A map of the results of a traversal, no two of which have one key, has the expected values
exactly if each step gives the expected one. -/
lemma exists_map_ofList_mapM_iff {κ : Type} [Ord κ] [Std.TransOrd κ] [Std.LawfulEqOrd κ]
    {f : α → Except ε (κ × β)} {key : α → κ} (hf : ∀ a b, f a = .ok b → b.1 = key a)
    {as : List α} (hkeys : as.Pairwise fun a b => key a ≠ key b) (g : β → γ) {r : α → κ × γ}
    {P : α → Prop} (hstep : ∀ a ∈ as, (∃ b, f a = .ok b ∧ (b.1, g b.2) = r a) ↔ P a)
    (hr : ∀ a, (r a).1 = key a) :
    (∃ m, (do return KeyMap.ofList (← as.mapM f) : Except ε (KeyMap κ β)) = .ok m ∧
      m.map g = .ofList (as.map r)) ↔ ∀ a ∈ as, P a := by
  rw [← exists_mapM_iff hstep]
  constructor
  · rintro ⟨m, hm, hmap⟩
    obtain ⟨bs, hbs, hm⟩ := bind_eq_ok.1 hm
    obtain rfl := pure_eq_ok.1 hm
    rw [KeyMap.map_ofList] at hmap
    have hbkeys : bs.map Prod.fst = as.map key := map_of_mapM hf hbs
    refine ⟨bs, hbs, KeyMap.ofList_injective ?_ ?_ hmap⟩
    · rw [List.pairwise_map, ← List.pairwise_map (f := Prod.fst) (R := (· ≠ ·)), hbkeys,
        List.pairwise_map]
      exact hkeys
    · rw [List.map_map, List.map_map]
      exact hbkeys.trans (List.map_congr_left fun a _ => (hr a).symm)
  · rintro ⟨bs, hbs, hmap⟩
    refine ⟨.ofList bs, bind_eq_ok.2 ⟨bs, hbs, rfl⟩, ?_⟩
    rw [KeyMap.map_ofList, hmap]

end PackScope
