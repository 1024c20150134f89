import PackScope.LegacyFile
import PackScope.Proofs.Json.Magnitudes
import PackScope.Proofs.Json.Reading
import PackScope.Proofs.Traversal

/-!
JSON documents. Whatever is read has numbers in range, and an object that is read level by level is
the object that is read as a value.
-/

namespace PackScope.Json

open DataReader

/-- A value, and nothing but blanks behind it. It may nest up to the level that is refused. -/
def document : DataReader Json := do
  let j ← nestedValue 127
  lexeme blanks
  lexeme .atEnd
  return j

/-- **Reads the value of a text.** -/
def read (text : String) : Except ReadError Json := document.run' text.toList

/-! ### Steps -/

namespace DataReader

variable {α β : Type} {r : DataReader α} {cs rest : List Char}

lemma bind_ok {f : α → DataReader β} {b : β} (h : (r >>= f) cs = .ok (b, rest)) :
    ∃ a mid, r cs = .ok (a, mid) ∧ f a mid = .ok (b, rest) := by
  obtain ⟨⟨a, mid⟩, hr, hf⟩ := bind_eq_ok.1 (show (r cs >>= fun p => f p.1 p.2) = _ from h)
  exact ⟨a, mid, hr, hf⟩

lemma eq_some_of_lexeme {r : Reader α} {a : α} (h : lexeme r cs = .ok (a, rest)) :
    r cs = some (a, rest) := by
  unfold lexeme at h
  cases hr : r cs with
  | none =>
    rw [hr] at h
    cases h
  | some result =>
    rw [hr] at h
    exact congrArg some (Except.ok.inj h)

end DataReader

/-! ### What holds of all that is read -/

/-- **Whether a property holds of all that a reader gives.** -/
def Gives {α : Type} (r : DataReader α) (P : α → Prop) : Prop :=
  ∀ cs a rest, r cs = .ok (a, rest) → P a

section Gives

variable {α : Type} {r : DataReader α} {P : α → Prop}

lemma gives_items (h : Gives r P) (n : ℕ) : Gives (items r n) fun as => ∀ a ∈ as, P a := by
  induction n with
  | zero =>
    intro cs as rest has
    cases has
  | succ n ih =>
    intro cs as rest has
    rw [items] at has
    obtain ⟨first, _, hfirst, has⟩ := bind_ok has
    obtain ⟨_, _, -, has⟩ := bind_ok has
    obtain ⟨more, _, -, has⟩ := bind_ok has
    cases more with
    | true =>
      obtain ⟨others, _, hothers, has⟩ := bind_ok has
      cases has
      exact List.forall_mem_cons.2 ⟨h _ _ _ hfirst, ih _ _ _ hothers⟩
    | false =>
      obtain ⟨_, _, -, has⟩ := bind_ok has
      cases has
      exact List.forall_mem_singleton.2 (h _ _ _ hfirst)

lemma gives_arrayRest (h : Gives r P) : Gives (arrayRest r) fun as => ∀ a ∈ as, P a := by
  intro cs as rest has
  obtain ⟨_, _, -, has⟩ := bind_ok has
  obtain ⟨closed, mid, -, has⟩ := bind_ok has
  cases closed with
  | true =>
    cases has
    exact List.forall_mem_nil _
  | false => exact gives_items h _ mid as rest has

lemma gives_members (h : Gives r P) (n : ℕ) : Gives (members r n) fun es => ∀ e ∈ es, P e.2 := by
  induction n with
  | zero =>
    intro cs es rest hes
    cases hes
  | succ n ih =>
    intro cs es rest hes
    rw [members] at hes
    obtain ⟨_, _, -, hes⟩ := bind_ok hes
    obtain ⟨key, _, -, hes⟩ := bind_ok hes
    obtain ⟨_, _, -, hes⟩ := bind_ok hes
    obtain ⟨first, _, hfirst, hes⟩ := bind_ok hes
    obtain ⟨_, _, -, hes⟩ := bind_ok hes
    obtain ⟨more, _, -, hes⟩ := bind_ok hes
    cases more with
    | true =>
      obtain ⟨others, _, hothers, hes⟩ := bind_ok hes
      cases hes
      exact List.forall_mem_cons.2 ⟨h _ _ _ hfirst, ih _ _ _ hothers⟩
    | false =>
      obtain ⟨_, _, -, hes⟩ := bind_ok hes
      cases hes
      exact List.forall_mem_singleton.2 (h _ _ _ hfirst)

lemma gives_objectRest (h : Gives r P) : Gives (objectRest r) fun es => ∀ e ∈ es, P e.2 := by
  intro cs es rest hes
  obtain ⟨_, _, -, hes⟩ := bind_ok hes
  obtain ⟨closed, mid, -, hes⟩ := bind_ok hes
  cases closed with
  | true =>
    cases hes
    exact List.forall_mem_nil _
  | false => exact gives_members h _ mid es rest hes

end Gives

lemma inRange_scalar {cs rest : List Char} {j : Json} (h : scalar cs = some (j, rest)) :
    j.InRange := by
  unfold scalar at h
  split at h
  · obtain ⟨_, _, -, h⟩ := Reader.bind_eq_some h
    cases h
    exact .null
  · obtain ⟨_, _, -, h⟩ := Reader.bind_eq_some h
    cases h
    exact .bool true
  · obtain ⟨_, _, -, h⟩ := Reader.bind_eq_some h
    cases h
    exact .bool false
  · obtain ⟨s, _, -, h⟩ := Reader.bind_eq_some h
    cases h
    exact .string s
  · exact inRange_number h

/-- **All numbers of a value that is read are in range**, at every depth. -/
theorem inRange_nestedValue (n : ℕ) : Gives (nestedValue n) InRange := by
  induction n with
  | zero =>
    intro cs j rest hj
    obtain ⟨_, _, -, hj⟩ := bind_ok hj
    exact inRange_scalar (eq_some_of_lexeme hj)
  | succ n ih =>
    intro cs j rest hj
    rw [nestedValue] at hj
    obtain ⟨_, mid, -, hj⟩ := bind_ok hj
    obtain ⟨_, _, ⟨⟩, hj⟩ := bind_ok hj
    split at hj
    · obtain ⟨_, _, ⟨⟩, hj⟩ := bind_ok hj
      obtain ⟨items, _, hitems, hj⟩ := bind_ok hj
      cases hj
      exact .array (gives_arrayRest ih _ _ _ hitems)
    · obtain ⟨_, _, ⟨⟩, hj⟩ := bind_ok hj
      obtain ⟨entries, _, hentries, hj⟩ := bind_ok hj
      cases hj
      exact .object (gives_objectRest ih _ _ _ hentries)
    · exact inRange_scalar (eq_some_of_lexeme hj)

lemma inRange_read {text : String} {j : Json} (h : read text = .ok j) : j.InRange := by
  obtain ⟨⟨_, rest⟩, h, rfl⟩ := map_eq_ok.1 h
  obtain ⟨j, _, hj, h⟩ := bind_ok h
  obtain ⟨_, _, -, h⟩ := bind_ok h
  obtain ⟨_, _, -, h⟩ := bind_ok h
  cases h
  exact inRange_nestedValue 127 _ _ _ hj

/-! ### Objects level by level -/

/-- **Whether what a reader gives can be read as a value**, which is its JSON form. -/
def ReadAsValue {α : Type} (r : DataReader α) (form : α → Json) (n : ℕ) : Prop :=
  ∀ cs a rest, r cs = .ok (a, rest) → nestedValue n cs = .ok (form a, rest)

section Forms

variable {α : Type} {r : DataReader α} {form : α → Json} {n : ℕ} {cs rest : List Char}
  {es : List (String × α)}

lemma members_form (h : ReadAsValue r form n) {fuel : ℕ}
    (hes : members r fuel cs = .ok (es, rest)) :
    members (nestedValue n) fuel cs = .ok (formEntries form es, rest) := by
  induction fuel generalizing cs es with
  | zero => cases hes
  | succ fuel ih =>
    rw [members] at hes
    obtain ⟨_, _, hblanks, hes⟩ := bind_ok hes
    obtain ⟨key, _, hkey, hes⟩ := bind_ok hes
    obtain ⟨_, _, hcolon, hes⟩ := bind_ok hes
    obtain ⟨first, _, hfirst, hes⟩ := bind_ok hes
    obtain ⟨_, _, hgap, hes⟩ := bind_ok hes
    obtain ⟨more, _, hmore, hes⟩ := bind_ok hes
    rw [members, bind_of_eq _ hblanks, bind_of_eq _ hkey, bind_of_eq _ hcolon,
      bind_of_eq _ (h _ _ _ hfirst), bind_of_eq _ hgap, bind_of_eq _ hmore]
    cases more with
    | true =>
      obtain ⟨others, _, hothers, hes⟩ := bind_ok hes
      cases hes
      exact bind_of_eq _ (ih hothers)
    | false =>
      obtain ⟨_, _, hclose, hes⟩ := bind_ok hes
      cases hes
      exact bind_of_eq _ hclose

lemma objectRest_form (h : ReadAsValue r form n) (hes : objectRest r cs = .ok (es, rest)) :
    objectRest (nestedValue n) cs = .ok (formEntries form es, rest) := by
  obtain ⟨_, _, hblanks, hes⟩ := bind_ok hes
  obtain ⟨closed, mid, hclosed, hes⟩ := bind_ok hes
  rw [objectRest, bind_of_eq _ hblanks, bind_of_eq _ hclosed]
  cases closed with
  | true =>
    cases hes
    rfl
  | false => exact members_form h hes

/-- **An object can be read as a value** if what it holds can. -/
lemma readAsValue_objectOf (h : ReadAsValue r form n) :
    ReadAsValue (LegacyFile.objectOf r) (fun es => .object (formEntries form es)) (n + 1) := by
  intro cs es rest hes
  obtain ⟨_, mid, hblanks, hes⟩ := bind_ok hes
  obtain ⟨_, _, ⟨⟩, hes⟩ := bind_ok hes
  split at hes
  · have hform := bind_of_eq (fun entries => return object entries) (objectRest_form h hes)
    rw [nestedValue, bind_of_eq _ hblanks]
    exact hform
  · cases hes
  · obtain ⟨_, _, -, hes⟩ := bind_ok hes
    cases hes

end Forms

end PackScope.Json
