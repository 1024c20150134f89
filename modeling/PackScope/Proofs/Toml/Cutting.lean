import PackScope.Proofs.Toml.Filler
import PackScope.Proofs.Toml.Tokens
import PackScope.Proofs.Toml.Unplaced
import PackScope.Proofs.Toml.Values

/-!
Values that are cut out of a text. An array ends with its bracket, a table in braces with its brace,
and any other value where its characters show it, so the text of a value is a value by itself on a
line of its own, with the same parts.
-/

namespace PackScope.Toml

open Reader

/-! ### What starts a value -/

lemma scalar_eq_none {c : Char}
    (h : isBlank c = true ∨ c ∈ ['\n', '\r', '#', '[', ']', '\x7b']) (cs : List Char) :
    scalar (c :: cs) = none := by
  have hc : c ∈ [' ', '\t', '\n', '\r', '#', '[', ']', '\x7b'] := by
    simpa [isBlank, or_assoc] using h
  simp only [List.mem_cons, List.not_mem_nil, or_false] at hc
  rcases hc with rfl | rfl | rfl | rfl | rfl | rfl | rfl | rfl <;> rfl

lemma startsValue_of_scalar {cs rest : List Char} {s : Scalar} (h : scalar cs = some (s, rest)) :
    StartsValue cs := by
  match cs with
  | [] => cases h
  | c :: cs =>
    have hne : ∀ d ∈ ['\n', '\r', '#', '[', ']', '\x7b'], c ≠ d := by
      rintro d hd rfl
      rw [scalar_eq_none (.inr hd)] at h
      cases h
    have hblank : isBlank c = false := by
      by_contra hb
      rw [scalar_eq_none (.inl (by simpa using hb))] at h
      cases h
    exact ⟨c, cs, rfl, hblank, hne _ (by decide), hne _ (by decide), hne _ (by decide),
      hne _ (by decide)⟩

lemma startsValue_of_nestedValue {n : ℕ} {cs rest : List Char} {node : Node}
    (h : nestedValue n cs = some (node, rest)) : StartsValue cs := by
  have hscalar (h : (do return .scalar (← scalar) : Reader Node) cs = some (node, rest)) :
      StartsValue cs := by
    obtain ⟨s, mid, hs, -⟩ := bind_eq_some h
    exact startsValue_of_scalar hs
  match n with
  | 0 => exact hscalar h
  | n + 1 =>
    unfold nestedValue at h
    split at h
    next => exact ⟨_, _, rfl, by decide⟩
    next => exact ⟨_, _, rfl, by decide⟩
    next => exact hscalar h

/-! ### Arrays -/

section Arrays

variable {item item' : Reader Node}

/-- **The items of an array at the start of a text**, with its closing bracket and what follows. -/
inductive HoldsItems (item : Reader Node) : List Char → List Node → List Char → Prop
  | none {cs rest : List Char} (close : dropFiller false cs = ']' :: rest) :
    HoldsItems item cs [] rest
  | last {cs mid rest : List Char} {x : Node} (opened : ']' ∉ (dropFiller false cs).head?)
    (first : item (dropFiller false cs) = some (x, mid))
    (close : dropFiller false mid = ']' :: rest) : HoldsItems item cs [x] rest
  | more {cs mid tail rest : List Char} {x : Node} {xs : List Node}
    (opened : ']' ∉ (dropFiller false cs).head?)
    (first : item (dropFiller false cs) = some (x, mid))
    (comma : dropFiller false mid = ',' :: tail) (others : HoldsItems item tail xs rest) :
    HoldsItems item cs (x :: xs) rest

lemma holdsItems_of_items {n : ℕ} {cs rest : List Char} {xs : List Node}
    (h : items item n cs = some (xs, rest)) : HoldsItems item cs xs rest := by
  induction n generalizing cs xs with
  | zero => cases h
  | succ n ih =>
    obtain ⟨_, _, ⟨⟩, h⟩ := bind_eq_some h
    obtain ⟨close, mid, hclose, h⟩ := bind_eq_some h
    rcases found_cases hclose with ⟨rfl, hcs⟩ | ⟨rfl, rfl, hopened⟩
    · cases h
      exact .none hcs
    obtain ⟨x, mid, hx, h⟩ := bind_eq_some h
    obtain ⟨_, _, ⟨⟩, h⟩ := bind_eq_some h
    obtain ⟨comma, tail, hcomma, h⟩ := bind_eq_some h
    rcases found_cases hcomma with ⟨rfl, hmid⟩ | ⟨rfl, rfl, -⟩
    · obtain ⟨xs, _, hxs, h⟩ := bind_eq_some h
      cases h
      exact .more hopened hx hmid (ih hxs)
    · obtain ⟨_, _, hclose, h⟩ := bind_eq_some h
      cases h
      exact .last hopened hx (eq_cons_of_exactly hclose)

lemma HoldsItems.suffix (hitem : Forward item) {cs rest : List Char} {xs : List Node}
    (h : HoldsItems item cs xs rest) : rest <:+ cs := by
  have hfiller := dropFiller_suffix false
  induction h with
  | @none cs rest close =>
    exact (List.suffix_cons ..).trans (close ▸ hfiller cs)
  | @last cs mid rest x opened first close =>
    have hmid := (close ▸ hfiller mid).trans ((hitem first).trans (hfiller cs))
    exact (List.suffix_cons ..).trans hmid
  | @more cs mid tail rest x xs opened first comma others ih =>
    have hmid := (comma ▸ hfiller mid).trans ((hitem first).trans (hfiller cs))
    exact ih.trans ((List.suffix_cons ..).trans hmid)

/-- Every item is read off the text between its start and its closing bracket. -/
lemma HoldsItems.exists_read (hitem : Forward item) {cs rest : List Char} {xs : List Node}
    (h : HoldsItems item cs xs rest) : ∀ x ∈ xs, ∃ before after, before <:+ cs ∧
      item before = some (x, after) ∧ rest <:+ after := by
  have hfiller := dropFiller_suffix false
  induction h with
  | none close => exact fun x hx => absurd hx List.not_mem_nil
  | @last cs mid rest x opened first close =>
    refine List.forall_mem_singleton.2 ⟨_, _, hfiller cs, first, ?_⟩
    exact (List.suffix_cons ..).trans (close ▸ hfiller mid)
  | @more cs mid tail rest x xs opened first comma others ih =>
    have htail : tail <:+ mid := (List.suffix_cons ..).trans (comma ▸ hfiller mid)
    refine List.forall_mem_cons.2 ⟨⟨_, _, hfiller cs, first, (others.suffix hitem).trans htail⟩, ?_⟩
    intro y hy
    obtain ⟨before, after, hbefore, hread, hafter⟩ := ih y hy
    exact ⟨before, after, hbefore.trans (htail.trans ((hitem first).trans (hfiller cs))), hread,
      hafter⟩

/-- The items are read if there may be as many of them as characters are taken. -/
lemma HoldsItems.items (hitem : Forward item) {n : ℕ} {cs rest : List Char} {xs : List Node}
    (h : HoldsItems item cs xs rest) (hn : cs.length ≤ n + rest.length) :
    items item n cs = some (xs, rest) := by
  have hfiller (cs : List Char) := (dropFiller_suffix false cs).length_le
  induction h generalizing n with
  | @none cs rest close =>
    have hcs := hfiller cs
    rw [close, List.length_cons] at hcs
    obtain ⟨n, rfl⟩ : ∃ m, n = m + 1 := ⟨n - 1, by omega⟩
    rw [Toml.items, bind_of_eq _ (filler_apply _), close, bind_of_eq _ (found_cons ']' _)]
    rfl
  | @last cs mid rest x opened first close =>
    have hcs := (hfiller mid).trans ((hitem first).length_le.trans (hfiller cs))
    rw [close, List.length_cons] at hcs
    obtain ⟨n, rfl⟩ : ∃ m, n = m + 1 := ⟨n - 1, by omega⟩
    have hcomma : found ',' (dropFiller false mid) = some (false, dropFiller false mid) :=
      found_of_not_mem (by rw [close]; simp)
    rw [Toml.items, bind_of_eq _ (filler_apply _), bind_of_eq _ (found_of_not_mem opened),
      if_neg (by decide), bind_of_eq _ first, bind_of_eq _ (filler_apply _), bind_of_eq _ hcomma,
      if_neg (by decide), close, bind_of_eq _ (exactly_cons ']' _)]
    rfl
  | @more cs mid tail rest x xs opened first comma others ih =>
    have hcs := (hfiller mid).trans ((hitem first).length_le.trans (hfiller cs))
    rw [comma, List.length_cons] at hcs
    have hrest := (others.suffix hitem).length_le
    obtain ⟨n, rfl⟩ : ∃ m, n = m + 1 := ⟨n - 1, by omega⟩
    rw [Toml.items, bind_of_eq _ (filler_apply _), bind_of_eq _ (found_of_not_mem opened),
      if_neg (by decide), bind_of_eq _ first, bind_of_eq _ (filler_apply _), comma,
      bind_of_eq _ (found_cons ',' _), if_pos rfl, bind_of_eq _ (ih (by omega))]
    rfl

lemma steady_items (h : Steady (fun x y => x.unplaced = y.unplaced) item item')
    (hline : item' ['\n'] = none) (hreturn : ∀ tail, item ('\r' :: tail) = none) : ∀ n,
    Steady (fun xs ys => xs.map Node.unplaced = ys.map Node.unplaced) (items item n) (items item' n)
  | 0 => by rintro cs a rest ⟨⟩
  | n + 1 => by
    refine steady_filler ((Steady.found (by decide)).bind_eq fun close => ?_) ?_ fun tail => ?_
    · refine .ite _ (.pure rfl) (h.bind fun x y hxy => ?_)
      refine steady_filler ((Steady.found (by decide)).bind_eq fun comma => ?_) rfl fun tail => rfl
      refine .ite _ ((steady_items h hline hreturn n).bind fun xs ys hxs => .pure ?_) ?_
      · rw [List.map_cons, List.map_cons, hxy, hxs]
      · refine (Rigid.exactly (by decide)).lasting.steady.bind_eq fun _ => .pure ?_
        rw [List.map_singleton, List.map_singleton, hxy]
    · rw [bind_of_eq _ (found_of_not_mem (by decide)), if_neg (by decide)]
      exact bind_of_none _ hline
    · rw [bind_of_eq _ (found_of_not_mem (by simp)), if_neg (by decide)]
      exact bind_of_none _ (hreturn tail)

lemma items_length (hitem : Forward item) {n : ℕ} {cs rest : List Char} {xs : List Node}
    (h : items item n cs = some (xs, rest)) : items item cs.length cs = some (xs, rest) :=
  (holdsItems_of_items h).items hitem (Nat.le_add_right ..)

end Arrays

/-! ### Counters -/

/-- Counters that are the lengths of the texts make no difference. -/
lemma steady_counted {α β : Type} {R : α → β → Prop} {r : ℕ → Reader α} {s : ℕ → Reader β}
    (h : ∀ n, Steady R (r n) (s n))
    (henough : ∀ n cs p, s n cs = some p → s cs.length cs = some p) :
    Steady R (get >>= fun cs => r cs.length) (get >>= fun cs => s cs.length) := by
  intro cs a rest hr
  rw [bind_of_eq _ (get_apply cs)] at hr
  obtain ⟨text, rfl, hread⟩ := h _ hr
  refine ⟨text, rfl, fun rest' hrest => ?_⟩
  obtain ⟨b, hb, hab⟩ := hread rest' hrest
  exact ⟨b, by rw [bind_of_eq _ (get_apply _), henough _ _ _ hb], hab⟩

section Arrays

variable {item item' : Reader Node}

lemma steady_arrayRest (h : Steady (fun x y => x.unplaced = y.unplaced) item item')
    (hitem' : Forward item')
    (hline : item' ['\n'] = none) (hreturn : ∀ tail, item ('\r' :: tail) = none) :
    Steady (fun x y => x.unplaced = y.unplaced) (arrayRest item) (arrayRest item') := by
  refine steady_counted (r := fun n => items item n >>= fun xs => pure (Node.array xs))
    (s := fun n => items item' n >>= fun xs => pure (Node.array xs)) (fun n => ?_) ?_
  · refine (steady_items h hline hreturn n).bind fun xs ys hxs => .pure ?_
    rw [Node.unplaced, Node.unplaced, unplacedItems_eq_map, unplacedItems_eq_map, hxs]
  · rintro n cs ⟨node, rest⟩ hn
    obtain ⟨xs, mid, hxs, hn⟩ := bind_eq_some hn
    rw [bind_of_eq _ (items_length hitem' hxs)]
    exact hn

end Arrays

/-! ### Tables in braces -/

section Braces

variable {value value' : Reader Node}

/-- **The assignments of a table at the start of a text**, with its closing brace and what
follows. -/
inductive HoldsAssignments (value : Reader Node) :
    List Char → List Table.Assignment → List Char → Prop
  | last {cs mid rest : List Char} {a : Table.Assignment}
    (first : assignment value cs = some (a, mid))
    (close : mid.dropWhile isBlank = '\x7d' :: rest) : HoldsAssignments value cs [a] rest
  | more {cs mid tail rest : List Char} {a : Table.Assignment} {as : List Table.Assignment}
    (first : assignment value cs = some (a, mid)) (comma : mid.dropWhile isBlank = ',' :: tail)
    (others : HoldsAssignments value tail as rest) : HoldsAssignments value cs (a :: as) rest

lemma blanks_apply (cs : List Char) : blanks cs = some ((), cs.dropWhile isBlank) := rfl

lemma holdsAssignments_of_assignments {n : ℕ} {cs rest : List Char} {as : List Table.Assignment}
    (h : assignments value n cs = some (as, rest)) : HoldsAssignments value cs as rest := by
  induction n generalizing cs as with
  | zero => cases h
  | succ n ih =>
    obtain ⟨a, mid, ha, h⟩ := bind_eq_some h
    obtain ⟨_, _, ⟨⟩, h⟩ := bind_eq_some h
    obtain ⟨comma, tail, hcomma, h⟩ := bind_eq_some h
    rcases found_cases hcomma with ⟨rfl, hmid⟩ | ⟨rfl, rfl, -⟩
    · obtain ⟨as, _, has, h⟩ := bind_eq_some h
      cases h
      exact .more ha hmid (ih has)
    · obtain ⟨_, _, hclose, h⟩ := bind_eq_some h
      cases h
      exact .last ha (eq_cons_of_exactly hclose)

lemma forward_blanks : Forward blanks := steady_blanks.forward

lemma eq_of_located {α : Type} {r : Reader α} {cs rest : List Char} {p : α × Extent}
    (h : located r cs = some (p, rest)) :
    r cs = some (p.1, rest) ∧ p.2 = ⟨byteLength cs, byteLength rest⟩ := by
  obtain ⟨_, _, ⟨⟩, h⟩ := bind_eq_some h
  obtain ⟨a, mid, ha, h⟩ := bind_eq_some h
  obtain ⟨_, _, ⟨⟩, h⟩ := bind_eq_some h
  cases h
  exact ⟨ha, rfl⟩

lemma forward_located {α : Type} {r : Reader α} (h : Forward r) : Forward (located r) :=
  fun _ _ _ hr => h (eq_of_located hr).1

lemma forward_assignment (h : Forward value) : Forward (assignment value) := by
  refine steady_key.forward.bind fun parts => ?_
  refine (Forward.exactly '=').bind fun _ => ?_
  exact forward_blanks.bind fun _ => (forward_located h).bind fun _ => .pure _

lemma HoldsAssignments.suffix (hvalue : Forward value) {cs rest : List Char}
    {as : List Table.Assignment} (h : HoldsAssignments value cs as rest) : rest <:+ cs := by
  have hblanks (cs : List Char) := forward_blanks (blanks_apply cs)
  induction h with
  | @last cs mid rest a first close =>
    have hmid := (close ▸ hblanks mid).trans (forward_assignment hvalue first)
    exact (List.suffix_cons ..).trans hmid
  | @more cs mid tail rest a as first comma others ih =>
    have hmid := (comma ▸ hblanks mid).trans (forward_assignment hvalue first)
    exact ih.trans ((List.suffix_cons ..).trans hmid)

/-- Every assignment is read off the text between its start and its closing brace. -/
lemma HoldsAssignments.exists_read (hvalue : Forward value) {cs rest : List Char}
    {as : List Table.Assignment} (h : HoldsAssignments value cs as rest) :
    ∀ a ∈ as, ∃ before after, before <:+ cs ∧
      assignment value before = some (a, after) ∧ rest <:+ after := by
  have hblanks (cs : List Char) := forward_blanks (blanks_apply cs)
  induction h with
  | @last cs mid rest a first close =>
    refine List.forall_mem_singleton.2 ⟨_, _, List.suffix_rfl, first, ?_⟩
    exact (List.suffix_cons ..).trans (close ▸ hblanks mid)
  | @more cs mid tail rest a as first comma others ih =>
    have htail : tail <:+ mid := (List.suffix_cons ..).trans (comma ▸ hblanks mid)
    refine List.forall_mem_cons.2
      ⟨⟨_, _, List.suffix_rfl, first, (others.suffix hvalue).trans htail⟩, fun b hb => ?_⟩
    obtain ⟨before, after, hbefore, hread, hafter⟩ := ih b hb
    exact ⟨before, after, hbefore.trans (htail.trans (forward_assignment hvalue first)), hread,
      hafter⟩

lemma HoldsAssignments.assignments (hvalue : Forward value) {n : ℕ} {cs rest : List Char}
    {as : List Table.Assignment} (h : HoldsAssignments value cs as rest)
    (hn : cs.length ≤ n + rest.length) : assignments value n cs = some (as, rest) := by
  have hblanks (cs : List Char) := (forward_blanks (blanks_apply cs)).length_le
  induction h generalizing n with
  | @last cs mid rest a first close =>
    have hcs := (hblanks mid).trans (forward_assignment hvalue first).length_le
    rw [close, List.length_cons] at hcs
    obtain ⟨n, rfl⟩ : ∃ m, n = m + 1 := ⟨n - 1, by omega⟩
    have hcomma : found ',' (mid.dropWhile isBlank) = some (false, mid.dropWhile isBlank) :=
      found_of_not_mem (by rw [close]; simp)
    rw [Toml.assignments, bind_of_eq _ first, bind_of_eq _ (blanks_apply _), bind_of_eq _ hcomma,
      if_neg (by decide), close, bind_of_eq _ (exactly_cons '\x7d' _)]
    rfl
  | @more cs mid tail rest a as first comma others ih =>
    have hcs := (hblanks mid).trans (forward_assignment hvalue first).length_le
    have hrest := (others.suffix hvalue).length_le
    rw [comma, List.length_cons] at hcs
    obtain ⟨n, rfl⟩ : ∃ m, n = m + 1 := ⟨n - 1, by omega⟩
    rw [Toml.assignments, bind_of_eq _ first, bind_of_eq _ (blanks_apply _), comma,
      bind_of_eq _ (found_cons ',' _), if_pos rfl, bind_of_eq _ (ih (by omega))]
    rfl

lemma assignments_length (hvalue : Forward value) {n : ℕ} {cs rest : List Char}
    {as : List Table.Assignment} (h : assignments value n cs = some (as, rest)) :
    assignments value cs.length cs = some (as, rest) :=
  (holdsAssignments_of_assignments h).assignments hvalue (Nat.le_add_right ..)

lemma steady_located {α β : Type} {R : α → β → Prop} {r : Reader α} {r' : Reader β}
    (h : Steady R r r') : Steady (fun p q => R p.1 q.1) (located r) (located r') := by
  intro cs p rest hr
  obtain ⟨text, rfl, hread⟩ := h (eq_of_located hr).1
  refine ⟨text, rfl, fun rest' hrest => ?_⟩
  obtain ⟨b, hb, hab⟩ := hread rest' hrest
  refine ⟨(b, ⟨byteLength (text ++ rest'), byteLength rest'⟩), ?_, hab⟩
  rw [located, bind_of_eq _ (get_apply _), bind_of_eq _ hb]
  rfl

lemma steady_assignment (h : Steady (fun x y => x.unplaced = y.unplaced) value value') :
    Steady (fun a b => a.unplaced = b.unplaced) (assignment value) (assignment value') := by
  refine steady_key.bind_eq fun parts => ?_
  refine (Rigid.exactly (by decide)).lasting.steady.bind_eq fun _ => ?_
  refine steady_blanks.bind_eq fun _ => (steady_located h).bind fun p q hpq => .pure ?_
  rw [Table.Assignment.unplaced, Table.Assignment.unplaced, hpq]

lemma steady_assignments (h : Steady (fun x y => x.unplaced = y.unplaced) value value') : ∀ n,
    Steady (fun as bs => as.map Table.Assignment.unplaced = bs.map Table.Assignment.unplaced)
      (assignments value n) (assignments value' n)
  | 0 => by rintro cs a rest ⟨⟩
  | n + 1 => by
    refine (steady_assignment h).bind fun a b hab => steady_blanks.bind_eq fun _ => ?_
    refine (Steady.found (by decide)).bind_eq fun comma => .ite _ ?_ ?_
    · refine (steady_assignments h n).bind fun as bs has => .pure ?_
      rw [List.map_cons, List.map_cons, hab, has]
    · refine (Rigid.exactly (by decide)).lasting.steady.bind_eq fun _ => .pure ?_
      rw [List.map_singleton, List.map_singleton, hab]

lemma steady_bracesRest (h : Steady (fun x y => x.unplaced = y.unplaced) value value')
    (hvalue' : Forward value') :
    Steady (fun x y => x.unplaced = y.unplaced) (bracesRest value) (bracesRest value') := by
  refine steady_blanks.bind_eq fun _ => (Steady.found (by decide)).bind_eq fun close => ?_
  refine .ite _ (.pure rfl) ?_
  refine steady_counted
    (r := fun n => assignments value n >>= fun as =>
      liftM (Table.assignAll .inline [] as) >>= fun entries => pure (Node.table .inline entries))
    (s := fun n => assignments value' n >>= fun as =>
      liftM (Table.assignAll .inline [] as) >>= fun entries => pure (Node.table .inline entries))
    (fun n => ?_) ?_
  · refine (steady_assignments h n).bind fun as bs has => ?_
    refine (Steady.lift (R := fun t u => t.map Entry.unplaced = u.map Entry.unplaced)
      fun t ht => Table.assignAll_congr has ht).bind fun t u htu => .pure ?_
    rw [unplaced_table, unplaced_table, htu]
  · rintro n cs ⟨node, rest⟩ hn
    obtain ⟨as, mid, has, hn⟩ := bind_eq_some hn
    rw [bind_of_eq _ (assignments_length hvalue' has)]
    exact hn

end Braces

/-! ### Values -/

lemma forward_scalarNode : Forward (do return .scalar (← scalar) : Reader Node) :=
  steady_scalar.forward.bind fun _ => .pure _

lemma forward_arrayRest {item : Reader Node} (h : Forward item) : Forward (arrayRest item) := by
  intro cs node rest hr
  obtain ⟨_, _, ⟨⟩, hr⟩ := bind_eq_some hr
  obtain ⟨xs, mid, hxs, hr⟩ := bind_eq_some hr
  cases hr
  exact (holdsItems_of_items hxs).suffix h

/-- A table in braces is empty or made by its assignments. -/
lemma bracesRest_cases {value : Reader Node} {cs rest : List Char} {node : Node}
    (h : bracesRest value cs = some (node, rest)) :
    (cs.dropWhile isBlank = '\x7d' :: rest ∧ node = .table .inline []) ∨
    ∃ as t, HoldsAssignments value (cs.dropWhile isBlank) as rest ∧
      Table.assignAll .inline [] as = some t ∧ node = .table .inline t := by
  obtain ⟨_, _, ⟨⟩, h⟩ := bind_eq_some h
  obtain ⟨close, mid, hclose, h⟩ := bind_eq_some h
  rcases found_cases hclose with ⟨rfl, hcs⟩ | ⟨rfl, rfl, -⟩
  · cases h
    exact .inl ⟨hcs, rfl⟩
  · obtain ⟨_, _, ⟨⟩, h⟩ := bind_eq_some h
    obtain ⟨as, mid, has, h⟩ := bind_eq_some h
    obtain ⟨t, mid', ht, h⟩ := bind_eq_some h
    cases h
    rw [lift_apply] at ht
    obtain ⟨u, hu, e⟩ := Option.map_eq_some_iff.1 ht
    cases e
    exact .inr ⟨as, t, holdsAssignments_of_assignments has, hu, rfl⟩

lemma forward_bracesRest {value : Reader Node} (h : Forward value) :
    Forward (bracesRest value) := by
  intro cs node rest hr
  have hblanks := forward_blanks (blanks_apply cs)
  rcases bracesRest_cases hr with ⟨hcs, -⟩ | ⟨as, t, has, -, -⟩
  · exact (List.suffix_cons ..).trans (hcs ▸ hblanks)
  · exact (has.suffix h).trans hblanks

lemma forward_nestedValue (n : ℕ) : Forward (nestedValue n) := by
  induction n with
  | zero => exact forward_scalarNode
  | succ n ih =>
    intro cs node rest h
    unfold nestedValue at h
    split at h
    next tail => exact (forward_arrayRest ih h).trans (List.suffix_cons ..)
    next tail => exact (forward_bracesRest ih h).trans (List.suffix_cons ..)
    next => exact forward_scalarNode h

lemma nestedValue_eq_none {c : Char} (h : isBlank c = true ∨ c ∈ ['\n', '\r', '#', ']']) (n : ℕ)
    (cs : List Char) : nestedValue n (c :: cs) = none := by
  match e : nestedValue n (c :: cs) with
  | none => rfl
  | some (node, rest) =>
    obtain ⟨d, tail, htail, hstart⟩ := startsValue_of_nestedValue e
    obtain ⟨rfl, rfl⟩ := List.cons.inj htail
    simp_all

lemma steady_scalarNode (n : ℕ) : Steady (fun x y => x.unplaced = y.unplaced)
    (do return .scalar (← scalar) : Reader Node) (nestedValue n) := by
  intro cs node rest h
  obtain ⟨s, mid, hs, h⟩ := bind_eq_some h
  cases h
  obtain ⟨text, rfl, hread⟩ := steady_scalar hs
  refine ⟨text, rfl, fun rest' hrest => ?_⟩
  obtain ⟨_, hs', rfl⟩ := hread rest' hrest
  exact ⟨_, nestedValue_scalar n hs', rfl⟩

/-- **What is read of a value is read of the same value cut out of the text**, with the same parts,
also by a reader that goes deeper. -/
theorem steady_nestedValue {n m : ℕ} (h : n ≤ m) :
    Steady (fun x y => x.unplaced = y.unplaced) (nestedValue n) (nestedValue m) := by
  induction n generalizing m with
  | zero => exact steady_scalarNode m
  | succ n ih =>
    obtain ⟨m, rfl⟩ : ∃ k, m = k + 1 := ⟨m - 1, by omega⟩
    have hvalue := ih (Nat.le_of_succ_le_succ h)
    intro cs node rest hread
    unfold nestedValue at hread
    split at hread
    next tail =>
      have harray := steady_arrayRest hvalue (forward_nestedValue m)
        (nestedValue_eq_none (.inr (by decide)) m []) (nestedValue_eq_none (.inr (by decide)) n)
      obtain ⟨text, rfl, hcut⟩ := harray hread
      exact ⟨'[' :: text, rfl, hcut⟩
    next tail =>
      obtain ⟨text, rfl, hcut⟩ := steady_bracesRest hvalue (forward_nestedValue m) hread
      exact ⟨'\x7b' :: text, rfl, hcut⟩
    next => exact steady_scalarNode (m + 1) hread

end PackScope.Toml
