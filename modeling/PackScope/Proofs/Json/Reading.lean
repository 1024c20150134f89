import PackScope.Proofs.Json.Numbers
import PackScope.Proofs.Json.Spacing
import PackScope.Proofs.Json.Strings

/-!
Printed JSON read back. In either layout a value is read as itself, whatever follows it, if its
numbers are whole and it nests no deeper than the reader goes. Objects are read back for any reader
of their values.
-/

namespace PackScope.Json

open DataReader

/-! ### Steps -/

namespace DataReader

variable {α β : Type} {cs rest : List Char}

lemma bind_of_eq {r : DataReader α} {a : α} (f : α → DataReader β) (h : r cs = .ok (a, rest)) :
    (r >>= f) cs = f a rest := by
  change (r cs >>= fun p => f p.1 p.2) = f a rest
  rw [h]
  rfl

lemma lexeme_of_eq {r : Reader α} {a : α} (h : r cs = some (a, rest)) :
    lexeme r cs = .ok (a, rest) := by
  rw [lexeme, h]

end DataReader

/-! ### Blanks -/

/-- Whether blanks end here. -/
def EndsBlanks (rest : List Char) : Prop := ∀ c ∈ rest.head?, isBlank c = false

lemma endsBlanks_cons {c : Char} (h : isBlank c = false) (rest : List Char) :
    EndsBlanks (c :: rest) := by
  rintro d ⟨⟩
  exact h

variable {gap rest : List Char}

lemma blanks_append (hgap : ∀ c ∈ gap, isBlank c = true) (hrest : EndsBlanks rest) :
    lexeme blanks (gap ++ rest) = .ok ((), rest) :=
  lexeme_of_eq (Reader.skip_append hgap hrest)

section Marks

variable {β : Type} {c : Char} (f : Bool → DataReader β)

/-- A mark is taken, with the blanks in front of it. -/
lemma found_of_eq (hgap : ∀ c ∈ gap, isBlank c = true) (hc : isBlank c = false)
    (rest : List Char) :
    (lexeme blanks >>= fun _ => lexeme (.found c) >>= f) (gap ++ c :: rest) = f true rest := by
  have hfound : lexeme (.found c) (c :: rest) = .ok (true, rest) :=
    lexeme_of_eq (Reader.found_cons c rest)
  rw [bind_of_eq _ (blanks_append hgap (endsBlanks_cons hc rest)), bind_of_eq _ hfound]

/-- A mark that does not come next is not taken, and the blanks in front of it are. -/
lemma found_of_ne (hgap : ∀ c ∈ gap, isBlank c = true) (hrest : EndsBlanks rest)
    (hc : c ∉ rest.head?) :
    (lexeme blanks >>= fun _ => lexeme (.found c) >>= f) (gap ++ rest) = f false rest := by
  have hfound : lexeme (.found c) rest = .ok (false, rest) :=
    lexeme_of_eq (Reader.found_of_not_mem hc)
  rw [bind_of_eq _ (blanks_append hgap hrest), bind_of_eq _ hfound]

end Marks

lemma stopsNumber_of_isBlank {c : Char} (h : isBlank c = true) : StopsNumber c := by
  simp only [isBlank, Bool.or_eq_true, decide_eq_true_eq] at h
  rcases h with ((rfl | rfl) | rfl) | rfl <;> decide

/-- A number ends in front of blanks and a mark that is not part of it. -/
lemma endsNumber_gap (hgap : ∀ c ∈ gap, isBlank c = true) {c : Char} (hc : StopsNumber c)
    (rest : List Char) : EndsNumber (gap ++ c :: rest) := by
  match gap with
  | [] =>
    rintro d ⟨⟩
    exact hc
  | b :: bs =>
    rintro d ⟨⟩
    exact stopsNumber_of_isBlank (hgap b List.mem_cons_self)

/-! ### Readable values -/

/-- **Whether a value can be read back**: its numbers are whole and have 64 bits with a sign, and it
has at most so many levels. -/
inductive Readable : ℕ → Json → Prop
  | null {n : ℕ} : Readable n .null
  | bool {n : ℕ} (b : Bool) : Readable n (.bool b)
  | integer {n : ℕ} (i : Int64) : Readable n (.integer i.toInt)
  | string {n : ℕ} (s : String) : Readable n (.string s)
  | array {n : ℕ} {items : List Json} (items_readable : ∀ j ∈ items, Readable n j) :
    Readable (n + 1) (.array items)
  | object {n : ℕ} {entries : List (String × Json)}
    (entries_readable : ∀ e ∈ entries, Readable n e.2) : Readable (n + 1) (.object entries)

/-- **Whether a reader takes the text of a value off a text**, in any layout and behind any blanks,
and gives a result. -/
def Reads {α : Type} (r : DataReader α) (j : Json) (a : α) : Prop :=
  ∀ (s : Spacing) (level : ℕ) (gap rest : List Char), (∀ c ∈ gap, isBlank c = true) →
    EndsNumber rest → r (gap ++ (j.spaced s level ++ rest)) = .ok (a, rest)

/-- Whether a value starts here: with no blank, and with no closing bracket. -/
def StartsValue (cs : List Char) : Prop := ∃ c ∈ cs.head?, isBlank c = false ∧ c ≠ ']'

lemma startsValue_cons {c : Char} (cs : List Char) (h : isBlank c = false ∧ c ≠ ']') :
    StartsValue (c :: cs) :=
  ⟨c, rfl, h⟩

/-! ### Values without parts -/

/-- Whether a value without parts starts here. -/
def StartsScalar (cs : List Char) : Prop :=
  ∃ c ∈ cs.head?, isBlank c = false ∧ c ≠ ']' ∧ c ≠ '[' ∧ c ≠ '\x7b'

lemma StartsScalar.startsValue {cs : List Char} (h : StartsScalar cs) : StartsValue cs := by
  obtain ⟨c, hc, hblank, hbracket, -⟩ := h
  exact ⟨c, hc, hblank, hbracket⟩

lemma startsScalar_cons {c : Char} (cs : List Char)
    (h : isBlank c = false ∧ c ≠ ']' ∧ c ≠ '[' ∧ c ≠ '\x7b') : StartsScalar (c :: cs) :=
  ⟨c, rfl, h⟩

/-- A whole number starts with a minus or a digit. -/
lemma exists_integerText (n : ℤ) : ∃ c cs, integerText n = c :: cs ∧
    ∀ d : Char, d.isDigit = false → d ≠ '-' → c ≠ d := by
  rw [integerText, toList_toString]
  cases decide (n < 0) with
  | true => exact ⟨_, _, rfl, fun d _ hd => hd.symm⟩
  | false =>
    obtain ⟨c, cs, hcs⟩ := (isWholePart_toDigits n.natAbs).exists_cons
    have hc : c.isDigit = true := isDigit_toDigits (hcs ▸ List.mem_cons_self)
    refine ⟨c, cs, hcs, fun d hd _ h => ?_⟩
    rw [← h, hc] at hd
    cases hd

lemma startsScalar_integerText (n : ℤ) (rest : List Char) :
    StartsScalar (integerText n ++ rest) := by
  obtain ⟨c, cs, hcs, hne⟩ := exists_integerText n
  rw [hcs]
  refine startsScalar_cons _ ⟨?_, hne _ (by decide) (by decide), hne _ (by decide) (by decide),
    hne _ (by decide) (by decide)⟩
  have hblank := hne ' ' (by decide) (by decide)
  have hline := hne '\n' (by decide) (by decide)
  have htab := hne '\t' (by decide) (by decide)
  have hreturn := hne '\r' (by decide) (by decide)
  simp [isBlank, hblank, hline, htab, hreturn]

variable {cs : List Char} {j : Json}

lemma nestedValue_scalar (n : ℕ) (hgap : ∀ c ∈ gap, isBlank c = true) (hstart : StartsScalar cs)
    (h : scalar cs = some (j, rest)) : nestedValue n (gap ++ cs) = .ok (j, rest) := by
  obtain ⟨c, hc, hblank, -, hbracket, hbrace⟩ := hstart
  have hblanks : lexeme blanks (gap ++ cs) = .ok ((), cs) := by
    refine blanks_append hgap fun d hd => ?_
    rwa [Option.mem_unique hd hc]
  cases n with
  | zero =>
    rw [nestedValue, bind_of_eq _ hblanks]
    exact lexeme_of_eq h
  | succ n =>
    have hget : (get : DataReader (List Char)) cs = .ok (cs, cs) := rfl
    rw [nestedValue, bind_of_eq _ hblanks, bind_of_eq _ hget]
    split
    next => exact absurd (Option.mem_unique hc rfl) hbracket
    next => exact absurd (Option.mem_unique hc rfl) hbrace
    next => exact lexeme_of_eq h

lemma scalar_string (s : String) (rest : List Char) :
    scalar (quoted s ++ rest) = some (.string s, rest) := by
  have htoken := stringToken_quoted s rest
  change (do return Json.string (← stringToken) : Reader Json) (quoted s ++ rest) = _
  rw [Reader.bind_of_eq _ htoken]
  rfl

lemma scalar_integer (n : Int64) (hrest : EndsNumber rest) :
    scalar (integerText n.toInt ++ rest) = some (.integer n.toInt, rest) := by
  obtain ⟨c, cs, hcs, hne⟩ := exists_integerText n.toInt
  have hnumber := number_integerText n hrest
  rw [hcs] at hnumber ⊢
  have hhead : ∀ d : Char, d.isDigit = false → d ≠ '-' → ∀ ds, c :: cs ++ rest ≠ d :: ds :=
    fun d hd hminus ds h => hne d hd hminus (List.cons.inj h).1
  generalize c :: cs ++ rest = text at hnumber hhead ⊢
  unfold scalar
  split
  next => exact absurd rfl (hhead 'n' (by decide) (by decide) _)
  next => exact absurd rfl (hhead 't' (by decide) (by decide) _)
  next => exact absurd rfl (hhead 'f' (by decide) (by decide) _)
  next => exact absurd rfl (hhead '"' (by decide) (by decide) _)
  next => exact hnumber

/-! ### Arrays -/

section Arrays

variable {r : DataReader Json} (s : Spacing) (level : ℕ)

lemma endsNumber_spacedItems (js : List Json) (rest : List Char) :
    EndsNumber (spacedItems s level js ++ rest) := by
  cases js with
  | nil =>
    rw [spacedItems, List.append_assoc]
    exact endsNumber_gap (s.gap_blank level) (by decide) rest
  | cons j js => exact endsNumber_gap (List.forall_mem_nil _) (by decide) _

lemma length_lt_spacedItems (js : List Json) : js.length < (spacedItems s level js).length := by
  induction js with
  | nil => simp [spacedItems]
  | cons j js ih =>
    simp only [spacedItems, List.length_cons, List.length_append]
    omega

/-- The items of an array are read to the closing bracket. -/
lemma items_spacedItems {j : Json} {js : List Json} (h : ∀ x ∈ j :: js, Reads r x x) {n : ℕ}
    (hn : js.length < n) {gap : List Char} (hgap : ∀ c ∈ gap, isBlank c = true)
    (rest : List Char) :
    items r n (gap ++ (j.spaced s (level + 1) ++ (spacedItems s level js ++ rest))) =
      .ok (j :: js, rest) := by
  obtain ⟨n, rfl⟩ : ∃ m, n = m + 1 := ⟨n - 1, by omega⟩
  have hitem := h j List.mem_cons_self s (level + 1) gap (spacedItems s level js ++ rest) hgap
    (endsNumber_spacedItems s level js rest)
  -- The first item is read up front, so that both cases start at what follows it.
  rw [items, bind_of_eq _ hitem]
  induction js generalizing j n gap with
  | nil =>
    rw [spacedItems, List.append_assoc]
    refine (found_of_ne _ (s.gap_blank level) (endsBlanks_cons (by decide) rest) (by simp)).trans ?_
    exact bind_of_eq _ (lexeme_of_eq (Reader.exactly_cons ']' rest))
  | cons k js ih =>
    have h' : ∀ x ∈ k :: js, Reads r x x := fun x hx => h x (List.mem_cons_of_mem _ hx)
    obtain ⟨n, rfl⟩ : ∃ m, n = m + 1 := ⟨n - 1, by simp at hn; omega⟩
    have hitem' := h' k List.mem_cons_self s (level + 1) _ _ (s.gap_blank (level + 1))
      (endsNumber_spacedItems s level js rest)
    have hrest : items r (n + 1) (s.gap (level + 1) ++ (k.spaced s (level + 1) ++
        (spacedItems s level js ++ rest))) = .ok (k :: js, rest) := by
      rw [items, bind_of_eq _ hitem']
      exact ih h' (s.gap_blank (level + 1)) n (by simpa using hn) hitem'
    rw [spacedItems, List.cons_append, List.append_assoc, List.append_assoc]
    refine (found_of_eq _ (List.forall_mem_nil _) (by decide) _).trans ?_
    exact bind_of_eq _ hrest

lemma arrayRest_append (r : DataReader Json) {cs : List Char}
    (hgap : ∀ c ∈ gap, isBlank c = true) (hstart : StartsValue cs) :
    arrayRest r (gap ++ cs) = items r cs.length cs := by
  obtain ⟨c, hc, hblank, hbracket⟩ := hstart
  have hblanks : EndsBlanks cs := fun d hd => Option.mem_unique hc hd ▸ hblank
  exact found_of_ne _ hgap hblanks fun h => hbracket (Option.mem_unique hc h)

/-- **An array is read back** behind its opening bracket. -/
lemma exists_arrayBody {js : List Json} (h : ∀ x ∈ js, Reads r x x)
    (hstart : ∀ x ∈ js, ∀ s level rest, StartsValue (x.spaced s level ++ rest)) :
    ∃ body, (array js).spaced s level = '[' :: body ∧
      ∀ rest, arrayRest r (body ++ rest) = .ok (js, rest) := by
  cases js with
  | nil =>
    refine ⟨[']'], rfl, fun rest => ?_⟩
    exact found_of_eq _ (List.forall_mem_nil _) (by decide) rest
  | cons j js =>
    refine ⟨_, rfl, fun rest => ?_⟩
    have hstart := hstart j List.mem_cons_self s (level + 1) (spacedItems s level js ++ rest)
    have hfuel : js.length <
        (j.spaced s (level + 1) ++ (spacedItems s level js ++ rest)).length := by
      have hlen := length_lt_spacedItems s level js
      simp only [List.length_append]
      omega
    rw [List.append_assoc, List.append_assoc, arrayRest_append r (s.gap_blank _) hstart]
    exact items_spacedItems s level h hfuel (List.forall_mem_nil _) rest

end Arrays

/-! ### Objects -/

section Objects

variable {α : Type} {r : DataReader α} {form : α → Json} (s : Spacing) (level : ℕ)

/-- Entries with the JSON forms of what they hold. -/
def formEntries (form : α → Json) (es : List (String × α)) : List (String × Json) :=
  es.map fun e => (e.1, form e.2)

lemma formEntries_id (es : List (String × Json)) : formEntries id es = es := List.map_id _

lemma endsNumber_spacedEntries (es : List (String × Json)) (rest : List Char) :
    EndsNumber (spacedEntries s level es ++ rest) := by
  cases es with
  | nil =>
    rw [spacedEntries, List.append_assoc]
    exact endsNumber_gap (s.gap_blank level) (by decide) rest
  | cons e es => exact endsNumber_gap (List.forall_mem_nil _) (by decide) _

lemma length_lt_spacedEntries (es : List (String × Json)) :
    es.length < (spacedEntries s level es).length := by
  induction es with
  | nil => simp [spacedEntries]
  | cons e es ih =>
    simp only [spacedEntries, List.length_cons, List.length_append]
    omega

/-- The key of an entry and its colon are read first. -/
lemma members_key (r : DataReader α) (n : ℕ) (key : String) {gap : List Char}
    (hgap : ∀ c ∈ gap, isBlank c = true) (cs : List Char) :
    members r (n + 1) (gap ++ (quoted key ++ ':' :: cs)) =
      (do
        let first ← r
        lexeme blanks
        if ← lexeme (.found ',') then return (key, first) :: (← members r n)
        lexeme (.exactly '\x7d')
        return [(key, first)] : DataReader (List (String × α))) cs := by
  have hblanks : lexeme blanks (gap ++ (quoted key ++ ':' :: cs)) =
      .ok ((), quoted key ++ ':' :: cs) :=
    blanks_append hgap (endsBlanks_cons (by decide) _)
  have htoken : lexeme stringToken (quoted key ++ ':' :: cs) = .ok (key, ':' :: cs) :=
    lexeme_of_eq (stringToken_quoted key _)
  have hmark : lexeme (mark ':') (':' :: cs) = .ok ((), cs) := by
    refine lexeme_of_eq ?_
    rw [mark, blanks, Reader.bind_of_eq _ (Reader.skip_none (endsBlanks_cons (by decide) cs))]
    exact Reader.exactly_cons ':' cs
  rw [members, bind_of_eq _ hblanks, bind_of_eq _ htoken, bind_of_eq _ hmark]

/-- The entries of an object are read to the closing brace. -/
lemma members_spacedEntries {e : String × α} {es : List (String × α)}
    (h : ∀ x ∈ e :: es, Reads r (form x.2) x.2) {n : ℕ} (hn : es.length < n) {gap : List Char}
    (hgap : ∀ c ∈ gap, isBlank c = true) (rest : List Char) :
    members r n (gap ++ (quoted e.1 ++ ':' :: (s.colon ++ ((form e.2).spaced s (level + 1) ++
      (spacedEntries s level (formEntries form es) ++ rest))))) = .ok (e :: es, rest) := by
  obtain ⟨n, rfl⟩ : ∃ m, n = m + 1 := ⟨n - 1, by omega⟩
  have hvalue := h e List.mem_cons_self s (level + 1) s.colon
    (spacedEntries s level (formEntries form es) ++ rest) s.colon_blank
    (endsNumber_spacedEntries s level _ rest)
  -- As for arrays, both cases start behind the first entry.
  rw [members_key r n e.1 hgap, bind_of_eq _ hvalue]
  induction es generalizing e n gap with
  | nil =>
    rw [formEntries, List.map_nil, spacedEntries, List.append_assoc]
    refine (found_of_ne _ (s.gap_blank level) (endsBlanks_cons (by decide) rest) (by simp)).trans ?_
    exact bind_of_eq _ (lexeme_of_eq (Reader.exactly_cons '\x7d' rest))
  | cons x es ih =>
    have h' : ∀ y ∈ x :: es, Reads r (form y.2) y.2 := fun y hy => h y (List.mem_cons_of_mem _ hy)
    obtain ⟨n, rfl⟩ : ∃ m, n = m + 1 := ⟨n - 1, by simp at hn; omega⟩
    have hvalue' := h' x List.mem_cons_self s (level + 1) s.colon
      (spacedEntries s level (formEntries form es) ++ rest) s.colon_blank
      (endsNumber_spacedEntries s level _ rest)
    have hrest : members r (n + 1) (s.gap (level + 1) ++ (quoted x.1 ++ ':' :: (s.colon ++
        ((form x.2).spaced s (level + 1) ++
          (spacedEntries s level (formEntries form es) ++ rest))))) = .ok (x :: es, rest) := by
      rw [members_key r n x.1 (s.gap_blank (level + 1)), bind_of_eq _ hvalue']
      exact ih h' (s.gap_blank (level + 1)) n (by simpa using hn) hvalue'
    rw [formEntries, List.map_cons, spacedEntries]
    simp only [List.cons_append, List.append_assoc]
    refine (found_of_eq _ (List.forall_mem_nil _) (by decide) _).trans ?_
    exact bind_of_eq _ hrest

lemma objectRest_append (r : DataReader α) (key : String) (hgap : ∀ c ∈ gap, isBlank c = true)
    (cs : List Char) :
    objectRest r (gap ++ (quoted key ++ cs)) =
      members r (quoted key ++ cs).length (quoted key ++ cs) := by
  have hblanks : EndsBlanks (quoted key ++ cs) := endsBlanks_cons (by decide) _
  exact found_of_ne _ hgap hblanks (by simp [quoted])

/-- **An object is read back** behind its opening brace, entry by entry. -/
lemma exists_objectBody {es : List (String × α)} (h : ∀ x ∈ es, Reads r (form x.2) x.2) :
    ∃ body, (object (formEntries form es)).spaced s level = '\x7b' :: body ∧
      ∀ rest, objectRest r (body ++ rest) = .ok (es, rest) := by
  cases es with
  | nil =>
    refine ⟨['\x7d'], rfl, fun rest => ?_⟩
    exact found_of_eq _ (List.forall_mem_nil _) (by decide) rest
  | cons e es =>
    refine ⟨_, rfl, fun rest => ?_⟩
    have hfuel : es.length < (quoted e.1 ++ ':' :: (s.colon ++ ((form e.2).spaced s (level + 1) ++
        (spacedEntries s level (formEntries form es) ++ rest)))).length := by
      have hlen := length_lt_spacedEntries s level (formEntries form es)
      rw [formEntries, List.length_map] at hlen
      simp only [List.length_append, List.length_cons, formEntries]
      omega
    simp only [List.append_assoc, List.cons_append]
    exact (objectRest_append r e.1 (s.gap_blank (level + 1)) _).trans
      (members_spacedEntries s level h hfuel (List.forall_mem_nil _) rest)

end Objects

/-! ### Values -/

lemma Readable.startsValue {n : ℕ} {j : Json} (h : j.Readable n) (s : Spacing) (level : ℕ)
    (rest : List Char) : StartsValue (j.spaced s level ++ rest) := by
  cases h with
  | null => exact startsValue_cons _ (by decide)
  | bool b =>
    cases b with
    | true => exact startsValue_cons _ (by decide)
    | false => exact startsValue_cons _ (by decide)
  | integer i => exact (startsScalar_integerText i.toInt rest).startsValue
  | string _ => exact startsValue_cons _ (by decide)
  | @array _ items _ =>
    cases items with
    | nil => exact startsValue_cons _ (by decide)
    | cons _ _ => exact startsValue_cons _ (by decide)
  | @object _ entries _ =>
    cases entries with
    | nil => exact startsValue_cons _ (by decide)
    | cons _ _ => exact startsValue_cons _ (by decide)

lemma nestedValue_bracket (n : ℕ) (hgap : ∀ c ∈ gap, isBlank c = true) {cs : List Char}
    {js : List Json} (h : arrayRest (nestedValue n) cs = .ok (js, rest)) :
    nestedValue (n + 1) (gap ++ '[' :: cs) = .ok (.array js, rest) := by
  have hblanks : lexeme blanks (gap ++ '[' :: cs) = .ok ((), '[' :: cs) :=
    blanks_append hgap (endsBlanks_cons (by decide) cs)
  rw [nestedValue, bind_of_eq _ hblanks]
  change (arrayRest (nestedValue n) >>= fun js => pure (array js)) cs = _
  rw [bind_of_eq _ h]
  rfl

lemma nestedValue_brace (n : ℕ) (hgap : ∀ c ∈ gap, isBlank c = true) {cs : List Char}
    {es : List (String × Json)} (h : objectRest (nestedValue n) cs = .ok (es, rest)) :
    nestedValue (n + 1) (gap ++ '\x7b' :: cs) = .ok (.object es, rest) := by
  have hblanks : lexeme blanks (gap ++ '\x7b' :: cs) = .ok ((), '\x7b' :: cs) :=
    blanks_append hgap (endsBlanks_cons (by decide) cs)
  rw [nestedValue, bind_of_eq _ hblanks]
  change (objectRest (nestedValue n) >>= fun es => pure (object es)) cs = _
  rw [bind_of_eq _ h]
  rfl

/-- **A readable value is read back** from its text in either layout. -/
theorem Readable.reads {n : ℕ} {j : Json} (h : j.Readable n) : Reads (nestedValue n) j j := by
  induction h with
  | null =>
    intro s level gap rest hgap _
    exact nestedValue_scalar _ hgap (startsScalar_cons _ (by decide)) rfl
  | bool b =>
    intro s level gap rest hgap _
    cases b with
    | true => exact nestedValue_scalar _ hgap (startsScalar_cons _ (by decide)) rfl
    | false => exact nestedValue_scalar _ hgap (startsScalar_cons _ (by decide)) rfl
  | integer i =>
    intro s level gap rest hgap hrest
    exact nestedValue_scalar _ hgap (startsScalar_integerText _ _) (scalar_integer i hrest)
  | string text =>
    intro s level gap rest hgap _
    exact nestedValue_scalar _ hgap (startsScalar_cons _ (by decide)) (scalar_string text rest)
  | @array n items hitems ih =>
    intro s level gap rest hgap _
    have hstart : ∀ x ∈ items, ∀ s level rest, StartsValue (x.spaced s level ++ rest) :=
      fun x hx => (hitems x hx).startsValue
    obtain ⟨body, hbody, hread⟩ := exists_arrayBody s level ih hstart
    rw [hbody]
    exact nestedValue_bracket n hgap (hread rest)
  | @object n entries _ ih =>
    intro s level gap rest hgap _
    obtain ⟨body, hbody, hread⟩ := @exists_objectBody _ _ id s level entries ih
    rw [formEntries_id] at hbody
    rw [hbody]
    exact nestedValue_brace n hgap (hread rest)

end PackScope.Json
