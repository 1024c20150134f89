import Mathlib.Tactic.Lemma
import PackScope.Text.Reader

/-!
What the readers do on a text of known shape. Each lemma runs one reader on a text that starts in a
given way, so that longer readers are run by rewriting.
-/

namespace PackScope.Reader

variable {α β : Type} {cs rest : List Char}

/-! ### Steps -/

lemma bind_apply (r : Reader α) (f : α → Reader β) (cs : List Char) :
    (r >>= f) cs = (r cs).bind fun p => f p.1 p.2 := rfl

lemma get_apply (cs : List Char) : (get : Reader (List Char)) cs = some (cs, cs) := rfl

lemma lift_apply (o : Option α) (cs : List Char) :
    (liftM o : Reader α) cs = o.map fun a => (a, cs) := by
  cases o <;> rfl

lemma bind_of_eq {r : Reader α} {a : α} (f : α → Reader β) (h : r cs = some (a, rest)) :
    (r >>= f) cs = f a rest := by
  rw [bind_apply, h]
  rfl

lemma bind_of_none {r : Reader α} (f : α → Reader β) (h : r cs = none) : (r >>= f) cs = none := by
  rw [bind_apply, h]
  rfl

/-! ### Single characters -/

lemma satisfying_cons {test : Char → Bool} {c : Char} (h : test c = true) (rest : List Char) :
    satisfying test (c :: rest) = some (c, rest) := if_pos h

lemma satisfying_none {test : Char → Bool} (h : ∀ c ∈ cs.head?, test c = false) :
    satisfying test cs = none := by
  match cs with
  | [] => rfl
  | c :: cs => exact if_neg (by simp [h c rfl])

lemma eq_cons_of_satisfying {test : Char → Bool} {c : Char}
    (h : satisfying test cs = some (c, rest)) : cs = c :: rest ∧ test c = true := by
  match cs with
  | [] => cases h
  | d :: cs =>
    by_cases hd : test d = true
    · rw [satisfying_cons hd] at h
      obtain ⟨rfl, rfl⟩ := Prod.mk.inj (Option.some.inj h)
      exact ⟨rfl, hd⟩
    · rw [satisfying_none (by simpa using hd)] at h
      cases h

lemma exactly_cons (c : Char) (rest : List Char) : exactly c (c :: rest) = some ((), rest) := by
  unfold exactly
  rw [bind_of_eq _ (satisfying_cons (by simp) rest)]
  rfl

lemma exactly_none {c : Char} (h : c ∉ cs.head?) : exactly c cs = none := by
  unfold exactly
  refine bind_of_none _ (satisfying_none fun d hd => ?_)
  have hne : d ≠ c := fun e => h (e ▸ hd)
  simpa using hne

lemma found_cons (c : Char) (rest : List Char) : found c (c :: rest) = some (true, rest) := by
  simp [found]

lemma found_of_not_mem {c : Char} (h : c ∉ cs.head?) : found c cs = some (false, cs) := by
  match cs with
  | [] => rfl
  | d :: cs =>
    have hne : d ≠ c := fun e => h (e ▸ rfl)
    simp [found, hne]

/-- A character that comes next is taken, and nothing else is. -/
lemma found_cases {c : Char} {b : Bool} (h : found c cs = some (b, rest)) :
    (b = true ∧ cs = c :: rest) ∨ (b = false ∧ rest = cs ∧ c ∉ cs.head?) := by
  by_cases hc : c ∈ cs.head?
  · match cs with
    | d :: cs =>
      obtain rfl : d = c := by simpa using hc
      rw [found_cons] at h
      obtain ⟨rfl, rfl⟩ := Prod.mk.inj (Option.some.inj h)
      exact .inl ⟨rfl, rfl⟩
  · rw [found_of_not_mem hc] at h
    obtain ⟨rfl, rfl⟩ := Prod.mk.inj (Option.some.inj h)
    exact .inr ⟨rfl, rfl, hc⟩

lemma eq_cons_of_exactly {c : Char} {u : Unit} (h : exactly c cs = some (u, rest)) :
    cs = c :: rest := by
  by_cases hc : c ∈ cs.head?
  · match cs with
    | d :: cs =>
      obtain rfl : d = c := by simpa using hc
      rw [exactly_cons] at h
      rw [(Prod.mk.inj (Option.some.inj h)).2]
  · rw [exactly_none hc] at h
    cases h

/-! ### Runs and choices -/

lemma run_append {test : Char → Bool} (h : ∀ c ∈ cs, test c = true)
    (hrest : ∀ c ∈ rest.head?, test c = false) : run test (cs ++ rest) = some (cs, rest) := by
  have hnil : rest.takeWhile test = [] ∧ rest.dropWhile test = rest := by
    match rest with
    | [] => exact ⟨rfl, rfl⟩
    | c :: rest => simp [hrest c rfl]
  unfold run
  rw [List.takeWhile_append_of_pos h, List.dropWhile_append_of_pos h, hnil.1, hnil.2,
    List.append_nil]

lemma skip_append {test : Char → Bool} (h : ∀ c ∈ cs, test c = true)
    (hrest : ∀ c ∈ rest.head?, test c = false) : skip test (cs ++ rest) = some ((), rest) := by
  have e := run_append h hrest
  unfold run at e
  unfold skip
  rw [(Prod.mk.inj (Option.some.inj e)).2]

lemma skip_none {test : Char → Bool} (h : ∀ c ∈ cs.head?, test c = false) :
    skip test cs = some ((), cs) :=
  skip_append (fun _ hc => absurd hc (List.not_mem_nil)) h

lemma optional_of_eq {r : Reader α} {a : α} (h : r cs = some (a, rest)) :
    optional r cs = some (some a, rest) := by
  rw [optional, h]

lemma optional_of_none {r : Reader α} (h : r cs = none) : optional r cs = some (none, cs) := by
  rw [optional, h]

lemma readAll_of_eq {r : Reader α} {a : α} (h : r cs = some (a, [])) : readAll r cs = some a := by
  rw [readAll, h]

end PackScope.Reader
