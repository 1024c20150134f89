import Mathlib.Algebra.Order.Group.Nat
import PackScope.Proofs.Toml.Changes
import PackScope.Proofs.Toml.Cutting
import PackScope.Toml.Document

/-!
Where the values of a document stand. Each is read off the text at its place, in the order of the
text; so every entry of the tree with a place of its own covers a part of the text, and what is
written as one value covers the text of this value.
-/

namespace PackScope.Toml

open Reader

/-! ### Lengths in bytes -/

section Lengths

lemma foldl_utf8Size (cs : List Char) (n : ℕ) :
    cs.foldl (fun n c => n + c.utf8Size) n = n + byteLength cs := by
  unfold byteLength
  induction cs generalizing n with
  | nil => rfl
  | cons c cs ih =>
    rw [List.foldl_cons, List.foldl_cons, ih, ih (0 + _)]
    omega

lemma byteLength_cons (c : Char) (cs : List Char) :
    byteLength (c :: cs) = c.utf8Size + byteLength cs := by
  rw [byteLength, List.foldl_cons, foldl_utf8Size]
  omega

lemma byteLength_append (cs ds : List Char) :
    byteLength (cs ++ ds) = byteLength cs + byteLength ds := by
  rw [byteLength, List.foldl_append, foldl_utf8Size]
  rfl

lemma byteLength_le {cs ds : List Char} (h : cs <:+ ds) : byteLength cs ≤ byteLength ds := by
  obtain ⟨front, rfl⟩ := h
  rw [byteLength_append]
  omega

end Lengths

/-! ### Kinds of nodes -/

/-- **Whether a node is written as one value**: a value without parts, an array, or a table in
braces. -/
def Node.isWritten : Node → Bool
  | .scalar _ | .array _ | .table .inline _ => true
  | _ => false

/-- Whether a node is a table that is made only by the keys and headers inside it. -/
def Node.isImplicit : Node → Bool
  | .table .dotted _ | .table .implied _ => true
  | _ => false

lemma isWritten_of_nestedValue {n : ℕ} {cs rest : List Char} {node : Node}
    (h : nestedValue n cs = some (node, rest)) : node.isWritten = true := by
  have hscalar (h : (do return .scalar (← scalar) : Reader Node) cs = some (node, rest)) :
      node.isWritten = true := by
    obtain ⟨s, mid, hs, h⟩ := bind_eq_some h
    cases h
    rfl
  match n with
  | 0 => exact hscalar h
  | n + 1 =>
    unfold nestedValue at h
    split at h
    next =>
      obtain ⟨_, _, ⟨⟩, h⟩ := bind_eq_some h
      obtain ⟨xs, mid, hxs, h⟩ := bind_eq_some h
      cases h
      rfl
    next =>
      rcases bracesRest_cases h with ⟨-, rfl⟩ | ⟨as, t, -, -, rfl⟩
      · rfl
      · rfl
    next => exact hscalar h

lemma isImplicit_of_isWritten {node : Node} (h : node.isWritten = true) :
    node.isImplicit = false := by
  unfold Node.isWritten at h
  split at h
  · rfl
  · rfl
  · rfl
  · cases h

/-! ### Values at their places -/

/-- **Whether a node is the value that stands at a place of a text.** -/
def ReadAt (whole : List Char) (extent : Extent) (node : Node) : Prop :=
  ∃ n ≤ depthLimit, ∃ before after, before <:+ whole ∧
    nestedValue n before = some (node, after) ∧ extent = ⟨byteLength before, byteLength after⟩

section

variable {whole : List Char} {extent : Extent} {node : Node}

lemma ReadAt.isWritten (h : ReadAt whole extent node) : node.isWritten = true := by
  obtain ⟨n, -, before, after, -, hread, -⟩ := h
  exact isWritten_of_nestedValue hread

lemma byteLength_lt_of_nestedValue {n : ℕ} {before after : List Char}
    (h : nestedValue n before = some (node, after)) : byteLength after < byteLength before := by
  have hline := nestedValue_eq_none (.inr (by decide)) n (c := '\n') []
  obtain ⟨c, text, rfl⟩ := (steady_nestedValue le_rfl).takes_cons hline h
  rw [byteLength_cons, byteLength_append]
  have hpos := c.utf8Size_pos
  omega

lemma ReadAt.lt (h : ReadAt whole extent node) : extent.afterEnd < extent.fromStart := by
  obtain ⟨n, -, before, after, -, hread, rfl⟩ := h
  exact byteLength_lt_of_nestedValue hread

lemma ReadAt.le (h : ReadAt whole extent node) : extent.fromStart ≤ byteLength whole := by
  obtain ⟨n, -, before, after, hbefore, -, rfl⟩ := h
  exact byteLength_le hbefore

end

/-- **Whether an entry has its place in a text**, in front of its last so many bytes: those and only
those tables have none that are made by what stands inside them, and what is written as one value is
the value at its place. -/
structure Entry.Placed (whole : List Char) (left : ℕ) (e : Entry Node) : Prop where
  extent_eq_none : e.extent = none ↔ e.content.isImplicit = true
  within : ∀ x, e.extent = some x →
    left ≤ x.afterEnd ∧ x.afterEnd < x.fromStart ∧ x.fromStart ≤ byteLength whole
  written : ∀ x, e.extent = some x → e.content.isWritten = true → ReadAt whole x e.content

section

variable {whole : List Char} {left left' : ℕ}

lemma Entry.Placed.mono (h : left' ≤ left) {e : Entry Node} (he : e.Placed whole left) :
    e.Placed whole left' where
  extent_eq_none := he.extent_eq_none
  within x hx := (he.within x hx).imp_left h.trans
  written := he.written

lemma stable_placed (whole : List Char) (left : ℕ) : Table.Stable (Entry.Placed whole left) where
  made key dotted t := by
    refine ⟨iff_of_true rfl ?_, fun x hx => (by cases hx), fun x hx _ => (by cases hx)⟩
    cases dotted with
    | true => rfl
    | false => rfl
  table {key extent origin t} u horigin he := by
    refine ⟨he.extent_eq_none.trans ?_, he.within, fun x hx hwritten => ?_⟩
    · cases origin <;> rfl
    · cases origin with
      | inline => exact absurd rfl horigin
      | header => cases hwritten
      | implied => cases hwritten
      | dotted => cases hwritten
  tables elements he := ⟨he.extent_eq_none, he.within, fun _ _ hwritten => by cases hwritten⟩

/-- The value of an assignment stands behind its key. -/
lemma eq_of_assignment {value : Reader Node} {cs rest : List Char} {a : Table.Assignment}
    (h : assignment value cs = some (a, rest)) : ∃ before, before <:+ cs ∧
      value before = some (a.content, rest) ∧ a.extent = ⟨byteLength before, byteLength rest⟩ := by
  obtain ⟨parts, mid, hkey, h⟩ := bind_eq_some h
  obtain ⟨_, mid', hsign, h⟩ := bind_eq_some h
  obtain ⟨_, _, ⟨⟩, h⟩ := bind_eq_some h
  obtain ⟨⟨content, extent⟩, mid'', hvalue, h⟩ := bind_eq_some h
  cases h
  obtain ⟨hvalue, hextent⟩ := eq_of_located hvalue
  refine ⟨_, ?_, hvalue, hextent⟩
  have hmid : mid' <:+ cs := by
    refine List.IsSuffix.trans ?_ (steady_key.forward hkey)
    rw [eq_cons_of_exactly hsign]
    exact List.suffix_cons ..
  exact (forward_blanks (blanks_apply mid')).trans hmid

/-- An assignment whose value stands at its place makes an entry that has its place. -/
lemma ReadAt.entry {a : Table.Assignment} (h : ReadAt whole a.extent a.content)
    (hleft : left ≤ a.extent.afterEnd) : a.entry.Placed whole left where
  extent_eq_none := iff_of_false (fun e => by cases e) (by
    rw [Table.Assignment.entry, isImplicit_of_isWritten h.isWritten]
    exact Bool.false_ne_true)
  within x hx := by
    cases hx
    exact ⟨hleft, h.lt, h.le⟩
  written x hx _ := by
    cases hx
    exact h

/-- **All entries inside a value have their places in it.** -/
theorem sound_of_nestedValue {n : ℕ} (hn : n ≤ depthLimit) {before after : List Char} {node : Node}
    (hbefore : before <:+ whole) (h : nestedValue n before = some (node, after)) :
    node.Sound (Entry.Placed whole (byteLength after)) := by
  induction n generalizing before after node with
  | zero =>
    obtain ⟨s, mid, hs, h⟩ := bind_eq_some h
    cases h
    exact .scalar s
  | succ n ih =>
    have hinner {before' after' : List Char} {x : Node} (hafter : after <:+ after')
        (hbefore' : before' <:+ whole) (hx : nestedValue n before' = some (x, after')) :
        x.Sound (Entry.Placed whole (byteLength after)) :=
      (ih (by omega) hbefore' hx).mono fun _ => Entry.Placed.mono (byteLength_le hafter)
    unfold nestedValue at h
    split at h
    next tail =>
      obtain ⟨_, _, ⟨⟩, h⟩ := bind_eq_some h
      obtain ⟨xs, mid, hxs, h⟩ := bind_eq_some h
      cases h
      refine .array fun x hx => ?_
      obtain ⟨before', after', hsuffix, hread, hafter⟩ :=
        (holdsItems_of_items hxs).exists_read (forward_nestedValue n) x hx
      have htail : tail <:+ whole := (List.suffix_cons ..).trans hbefore
      exact hinner hafter (hsuffix.trans htail) hread
    next tail =>
      rcases bracesRest_cases h with ⟨-, rfl⟩ | ⟨as, t, has, ht, rfl⟩
      · exact sound_table.2 .nil
      refine sound_table.2 (Table.Sound.nil.assignAll (stable_placed ..) (fun a ha => ?_) ht)
      obtain ⟨before', after', hsuffix, hread, hafter⟩ :=
        has.exists_read (forward_nestedValue n) a ha
      obtain ⟨value, hvalue, hcontent, hextent⟩ := eq_of_assignment hread
      have hwhole : value <:+ whole := by
        refine hvalue.trans (hsuffix.trans ((forward_blanks (blanks_apply tail)).trans ?_))
        exact (List.suffix_cons ..).trans hbefore
      have hat : ReadAt whole a.extent a.content :=
        ⟨n, by omega, value, after', hwhole, hcontent, hextent⟩
      refine ⟨hat.entry ?_, hinner hafter hwhole hcontent⟩
      rw [hextent]
      exact byteLength_le hafter
    next =>
      obtain ⟨s, mid, hs, h⟩ := bind_eq_some h
      cases h
      exact .scalar s

end

end PackScope.Toml
