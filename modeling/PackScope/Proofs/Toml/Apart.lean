import Mathlib.Data.List.Pairwise
import PackScope.Proofs.Toml.Outlines

/-!
Values that do not overlap. The values of a document stand one behind the other, and each of them
ends up in its tree once; so no two values of the tree share a part of the text, unless one of them
stands inside the other.
-/

namespace PackScope

/-- **Whether two parts of a text do not overlap.** -/
def Extent.Apart (x y : Extent) : Prop := y.fromStart ≤ x.afterEnd ∨ x.fromStart ≤ y.afterEnd

lemma Extent.Apart.symm {x y : Extent} (h : x.Apart y) : y.Apart x := h.elim .inr .inl

/-- Whether a part of a text lies in another one. -/
def Extent.Inside (x y : Extent) : Prop := x.fromStart ≤ y.fromStart ∧ y.afterEnd ≤ x.afterEnd

lemma Extent.Apart.inside {x x' y y' : Extent} (h : x.Apart y) (hx : x'.Inside x)
    (hy : y'.Inside y) : x'.Apart y' :=
  h.imp (fun h => hy.1.trans (h.trans hx.2)) fun h => hx.1.trans (h.trans hy.2)

namespace Toml

open Reader

/-! ### The values of a tree -/

mutual

/-- The places of the values that are written in a node which is no such value itself, those inside
other values left out. -/
def Node.spots : Node → List Extent
  | .scalar _ | .array _ | .table .inline _ => []
  | .table _ entries => spotsOfEntries entries
  | .tables elements => spotsOfItems elements

/-- The places of the values in the elements of a list of tables. -/
def spotsOfItems : List Node → List Extent
  | [] => []
  | item :: rest => item.spots ++ spotsOfItems rest

/-- The places of the values in the entries of a table. -/
def spotsOfEntries : List (Entry Node) → List Extent
  | [] => []
  | ⟨_, extent, content⟩ :: rest =>
    (if content.isWritten then extent.toList else content.spots) ++ spotsOfEntries rest

end

/-- The places of the values of an entry. -/
def Entry.spots (e : Entry Node) : List Extent :=
  if e.content.isWritten then e.extent.toList else e.content.spots

/-- **The places of the values of a table**, those inside other values left out. -/
def Table.spots (t : Table) : List Extent := t.flatMap Entry.spots

lemma spotsOfEntries_eq (t : Table) : spotsOfEntries t = t.spots := by
  induction t with
  | nil => rfl
  | cons e t ih =>
    rw [spotsOfEntries, ih]
    rfl

lemma spots_table {key : String} {extent : Option Extent} {origin : Origin} (h : origin ≠ .inline)
    (t : Table) : Entry.spots ⟨key, extent, .table origin t⟩ = t.spots := by
  rw [← spotsOfEntries_eq]
  cases origin with
  | inline => exact absurd rfl h
  | header => rfl
  | implied => rfl
  | dotted => rfl

lemma spotsOfItems_concat (elements : List Node) (t : Table) :
    spotsOfItems (elements ++ [.table .header t]) = spotsOfItems elements ++ t.spots := by
  induction elements with
  | nil =>
    rw [List.nil_append, spotsOfItems, spotsOfItems, spotsOfItems, List.append_nil,
      ← spotsOfEntries_eq]
    rfl
  | cons x elements ih =>
    rw [List.cons_append, spotsOfItems, ih, spotsOfItems, List.append_assoc]

lemma spots_tables {key : String} {extent : Option Extent} (elements : List Node) :
    Entry.spots ⟨key, extent, .tables elements⟩ = spotsOfItems elements := by
  unfold Entry.spots Node.isWritten
  rw [if_neg Bool.false_ne_true, Node.spots]

lemma spots_append (t u : Table) : Table.spots (t ++ u) = t.spots ++ u.spots :=
  List.flatMap_append

lemma spots_cons (e : Entry Node) (t : Table) : Table.spots (e :: t) = e.spots ++ t.spots :=
  List.flatMap_cons

lemma spots_singleton (e : Entry Node) : Table.spots [e] = e.spots := by
  rw [spots_cons, Table.spots, List.flatMap_nil, List.append_nil]

namespace Table

variable {E : Entry Node → Prop} {t t' : Table}

/-- Entries whose places grow by some others. -/
lemma spots_change {t₁ t₂ : Table} {e e' : Entry Node} {new : List Extent}
    (h : e'.spots.Perm (e.spots ++ new)) :
    (spots (t₁ ++ e' :: t₂)).Perm (spots (t₁ ++ e :: t₂) ++ new) := by
  rw [spots_append, spots_append, spots_cons, spots_cons, List.append_assoc]
  refine List.Perm.append_left _ ((h.append_right _).trans ?_)
  rw [List.append_assoc, List.append_assoc]
  exact List.Perm.append_left _ List.perm_append_comm

/-- **Changes at the end of a way add the places** that they add to the changed table. -/
lemma Changes.spots {dotted : Bool} {D : Origin → Table → Table → Prop} {new : List Extent}
    (hD : ∀ o t t', D o t t' → t.Sound E → (Table.spots t').Perm (t.spots ++ new))
    {way : List String} {o : Origin} (h : Changes dotted D way o t t') (ht : t.Sound E) :
    (Table.spots t').Perm (t.spots ++ new) := by
  induction h with
  | here change => exact hD _ _ _ change ht
  | fresh _ _ ih =>
    rw [spots_append, spots_singleton, spots_table (by cases dotted <;> decide)]
    exact List.Perm.append_left _ (ih .nil)
  | inside _ passed _ ih =>
    have hpass := ne_inline_of_passable passed
    have hcontent := sound_table.1 (ht.contents _ List.mem_append_cons_self)
    refine spots_change ?_
    rw [spots_table hpass, spots_table hpass]
    exact ih hcontent
  | last _ _ ih =>
    obtain ⟨-, sound⟩ := sound_tables.1 (ht.contents _ List.mem_append_cons_self)
    have hlast := ih (sound_table.1 (sound _ (List.mem_append_right _ List.mem_cons_self)))
    refine spots_change ?_
    rw [spots_tables, spots_tables, spotsOfItems_concat, spotsOfItems_concat, List.append_assoc]
    exact List.Perm.append_left _ hlast

lemma spots_of_assign {a : Assignment} (ha : a.content.isWritten = true) {o : Origin}
    (ht : t.Sound E) (h : assign o t a = some t') : t'.spots.Perm (t.spots ++ [a.extent]) := by
  refine (changes_of_assign ht h).spots (fun _ t t' h _ => ?_) ht
  obtain ⟨-, rfl⟩ := h
  rw [spots_append, spots_singleton, Entry.spots, Assignment.entry, if_pos ha]
  rfl

lemma spots_of_assignAll (hE : Stable E) {as : List Assignment} (has : ∀ a ∈ as, a.Sound E)
    (hwritten : ∀ a ∈ as, a.content.isWritten = true) {o : Origin} (ht : t.Sound E)
    (h : assignAll o t as = some t') :
    t'.spots.Perm (t.spots ++ as.map Assignment.extent) := by
  induction as generalizing t with
  | nil =>
    cases h
    rw [List.map_nil, List.append_nil]
  | cons a as ih =>
    obtain ⟨u, hu, h⟩ := Option.bind_eq_some_iff.1 h
    rw [List.forall_mem_cons] at has hwritten
    have hspots := spots_of_assign hwritten.1 ht hu
    refine (ih has.2 hwritten.2 (ht.assign hE has.1 hu) h).trans ?_
    rw [List.map_cons]
    exact (hspots.append_right _).trans (by rw [List.append_assoc]; rfl)

lemma spots_of_define (hE : Stable E) {s : Section} (hs : s.Sound E)
    (hwritten : ∀ a ∈ s.body, a.content.isWritten = true) (ht : t.Sound E)
    (h : define t s = some t') : t'.spots.Perm (t.spots ++ s.body.map Assignment.extent) := by
  have hbody {u : Table} (hu : assignAll .header [] s.body = some u) :
      u.spots.Perm (s.body.map Assignment.extent) :=
    spots_of_assignAll hE hs.body hwritten .nil hu
  refine (changes_of_define ht h).spots (fun _ t t' h ht => ?_) ht
  cases h with
  | table new body =>
    rw [spots_append, spots_singleton, spots_table (by decide)]
    exact List.Perm.append_left _ (hbody body)
  | @list t u new body =>
    rw [spots_append, spots_singleton, spots_tables]
    have hspots := spotsOfItems_concat [] u
    rw [List.nil_append] at hspots
    rw [hspots]
    exact List.Perm.append_left _ (hbody body)
  | completed others body =>
    have hu := sound_table.1 (ht.contents _ List.mem_append_cons_self)
    have hspots := spots_of_assignAll hE hs.body hwritten hu body
    rw [spots_append, spots_append, spots_append, spots_singleton, spots_cons,
      spots_table (by decide), spots_table (by decide), List.append_assoc, List.append_assoc,
      List.append_assoc]
    refine List.Perm.append_left _ ?_
    calc (Table.spots _ ++ Table.spots _).Perm _ := hspots.append_left _
      _ = _ := (List.append_assoc ..).symm
      List.Perm _ _ := List.perm_append_comm.append_right _
      _ = _ := List.append_assoc ..
  | element others body =>
    refine spots_change ?_
    rw [spots_tables, spots_tables, spotsOfItems_concat]
    exact List.Perm.append_left _ (hbody body)

end Table

/-! ### Values one behind the other -/

variable {whole : List Char}

/-- The places of the values below some sections. -/
def sectionSpots (ss : List Table.Section) : List Extent :=
  ss.flatMap fun s => s.body.map Table.Assignment.extent

lemma AssignmentsPlaced.isWritten {left : ℕ} {as : List Table.Assignment}
    (h : AssignmentsPlaced whole left as) : ∀ a ∈ as, a.content.isWritten = true := by
  induction as generalizing left with
  | nil => exact fun a ha => absurd ha List.not_mem_nil
  | cons a as ih => exact List.forall_mem_cons.2 ⟨h.2.1.isWritten, ih h.2.2⟩

/-- What stands behind assignments that stand one behind the other, stands behind each. -/
lemma AssignmentsPlaced.behind {left : ℕ} {as : List Table.Assignment}
    (h : AssignmentsPlaced whole left as) : ∀ x ∈ as.map Table.Assignment.extent,
      leftAfter left as ≤ x.afterEnd ∧ x.fromStart ≤ left := by
  induction as generalizing left with
  | nil => exact fun x hx => absurd hx List.not_mem_nil
  | cons a as ih =>
    obtain ⟨hstart, hat, has⟩ := h
    refine List.forall_mem_cons.2 ⟨⟨leftAfter_le has, hstart⟩, fun x hx => ?_⟩
    obtain ⟨hafter, hx⟩ := ih has x hx
    exact ⟨hafter, hx.trans (hat.lt.le.trans hstart)⟩

lemma AssignmentsPlaced.pairwise {left : ℕ} {as : List Table.Assignment}
    (h : AssignmentsPlaced whole left as) :
    (as.map Table.Assignment.extent).Pairwise Extent.Apart := by
  induction as generalizing left with
  | nil => exact .nil
  | cons a as ih =>
    obtain ⟨hstart, hat, has⟩ := h
    exact .cons (fun x hx => .inl (has.behind x hx).2) (ih has)

lemma SectionsPlaced.behind {left : ℕ} {ss : List Table.Section}
    (h : SectionsPlaced whole left ss) : ∀ x ∈ sectionSpots ss, x.fromStart ≤ left := by
  induction ss generalizing left with
  | nil => exact fun x hx => absurd hx List.not_mem_nil
  | cons s ss ih =>
    obtain ⟨hstart, hlt, hbody, hss⟩ := h
    have hle := leftAfter_le hbody
    rw [sectionSpots, List.flatMap_cons, List.forall_mem_append]
    refine ⟨fun x hx => ?_, fun x hx => ?_⟩
    · have hx := (hbody.behind x hx).2
      omega
    · have hx := ih hss x hx
      omega

lemma SectionsPlaced.pairwise {left : ℕ} {ss : List Table.Section}
    (h : SectionsPlaced whole left ss) : (sectionSpots ss).Pairwise Extent.Apart := by
  induction ss generalizing left with
  | nil => exact .nil
  | cons s ss ih =>
    obtain ⟨-, -, hbody, hss⟩ := h
    rw [sectionSpots, List.flatMap_cons, List.pairwise_append]
    refine ⟨hbody.pairwise, ih hss, fun x hx y hy => .inl ?_⟩
    exact (hss.behind y hy).trans (hbody.behind x hx).1

/-- **No two values of an outline overlap.** -/
lemma Outline.Placed.pairwise {left : ℕ} {outline : Outline} (h : outline.Placed whole left) :
    (outline.root.map Table.Assignment.extent ++ sectionSpots outline.sections).Pairwise
      Extent.Apart := by
  refine List.pairwise_append.2 ⟨h.1.pairwise, h.2.pairwise, fun x hx y hy => .inl ?_⟩
  exact (h.2.behind y hy).trans (h.1.behind x hx).1

/-! ### Values of a tree -/

lemma apart_of_perm {xs ys : List Extent} (h : xs.Perm ys) (hys : ys.Pairwise Extent.Apart) :
    xs.Pairwise Extent.Apart :=
  h.symm.pairwise hys fun h => h.symm

lemma spots_of_sections {left : ℕ} {ss : List Table.Section} (h : SectionsPlaced whole left ss)
    (hleft : left ≤ byteLength whole) {t t' : Table} (ht : t.Sound (Entry.Placed whole left))
    (hall : ss.foldlM Table.define t = some t') : t'.spots.Perm (t.spots ++ sectionSpots ss) := by
  induction ss generalizing left t with
  | nil =>
    cases hall
    rw [sectionSpots, List.flatMap_nil, List.append_nil]
  | cons s ss ih =>
    obtain ⟨hstart, hlt, hbody, hss⟩ := h
    obtain ⟨u, hu, hall⟩ := Option.bind_eq_some_iff.1 hall
    have hle : leftAfter s.extent.afterEnd s.body ≤ left :=
      (leftAfter_le hbody).trans (hlt.le.trans hstart)
    have ht := ht.mono fun _ => Entry.Placed.mono hle
    have hs := sound_of_section hstart hleft hlt hbody
    have hspots := Table.spots_of_define (stable_placed ..) hs hbody.isWritten ht hu
    have hu := ht.define (stable_placed ..) hs hu
    rw [sectionSpots, List.flatMap_cons, ← List.append_assoc]
    exact (ih hss (hle.trans hleft) hu hall).trans (hspots.append_right _)

/-- **No two values of the tree of a text overlap**, those inside other values left out. -/
theorem apart_of_read {text : String} {root : Table} (h : Table.read? text = some root) :
    root.spots.Pairwise Extent.Apart := by
  obtain ⟨outline, houtline, h⟩ := Option.bind_eq_some_iff.1 h
  have hpairwise := (placed_of_outline houtline).pairwise
  obtain ⟨hroot, hsections⟩ := placed_of_outline houtline
  obtain ⟨t, ht, h⟩ := Option.bind_eq_some_iff.1 h
  have hsound := sound_of_assignAll hroot .nil ht
  have hspots := Table.spots_of_assignAll (stable_placed ..) hroot.sound hroot.isWritten .nil ht
  refine apart_of_perm ?_ hpairwise
  exact (spots_of_sections hsections (leftAfter_le hroot) hsound h).trans (hspots.append_right _)

/-! ### Values inside a table in braces -/

/-- The assignments between braces stand one behind the other. -/
lemma HoldsAssignments.placed {n : ℕ} (hn : n ≤ depthLimit) {cs rest : List Char}
    {as : List Table.Assignment} (h : HoldsAssignments (nestedValue n) cs as rest)
    (hcs : cs <:+ whole) {left : ℕ} (hleft : byteLength cs ≤ left) :
    AssignmentsPlaced whole left as ∧ byteLength rest ≤ leftAfter left as := by
  have hblanks (cs : List Char) := forward_blanks (blanks_apply cs)
  have hfirst {cs mid : List Char} {a : Table.Assignment} (hcs : cs <:+ whole)
      (h : assignment (nestedValue n) cs = some (a, mid)) :
      a.extent.fromStart ≤ byteLength cs ∧ ReadAt whole a.extent a.content ∧
        a.extent.afterEnd = byteLength mid := by
    obtain ⟨value, hvalue, hread, hextent⟩ := eq_of_assignment h
    rw [hextent]
    exact ⟨byteLength_le hvalue, ⟨n, hn, value, mid, hvalue.trans hcs, hread, rfl⟩, rfl⟩
  induction h generalizing left with
  | @last cs mid rest a first close =>
    obtain ⟨hstart, hat, hend⟩ := hfirst hcs first
    refine ⟨⟨hstart.trans hleft, hat, trivial⟩, ?_⟩
    rw [leftAfter, leftAfter, hend]
    exact byteLength_le ((List.suffix_cons ..).trans (close ▸ hblanks mid))
  | @more cs mid tail rest a as first comma others ih =>
    obtain ⟨hstart, hat, hend⟩ := hfirst hcs first
    have htail : tail <:+ mid := (List.suffix_cons ..).trans (comma ▸ hblanks mid)
    have hmid := forward_assignment (forward_nestedValue n) first
    obtain ⟨has, hrest⟩ := ih (htail.trans (hmid.trans hcs)) (byteLength_le htail)
    rw [← hend] at has hrest
    exact ⟨⟨hstart.trans hleft, hat, has⟩, hrest⟩

/-- **The values of a table in braces do not overlap**, and stand between its braces. -/
lemma apart_of_braces {extent : Extent} {t : Table}
    (h : ReadAt whole extent (.table .inline t)) :
    t.spots.Pairwise Extent.Apart ∧ ∀ x ∈ t.spots, x.Inside extent := by
  obtain ⟨n, hn, before, after, hbefore, hread, rfl⟩ := h
  have hscalar {cs rest : List Char}
      (h : (do return .scalar (← scalar) : Reader Node) cs = some (.table .inline t, rest)) :
      False := by
    obtain ⟨s, mid, hs, h⟩ := bind_eq_some h
    cases h
  match n with
  | 0 => exact (hscalar hread).elim
  | n + 1 =>
    unfold nestedValue at hread
    split at hread
    next =>
      obtain ⟨_, _, ⟨⟩, h⟩ := bind_eq_some hread
      obtain ⟨xs, mid, hxs, h⟩ := bind_eq_some h
      cases h
    next tail =>
      rcases bracesRest_cases hread with ⟨-, e⟩ | ⟨as, u, has, hu, e⟩
      · cases e
        exact ⟨.nil, fun x hx => absurd hx List.not_mem_nil⟩
      cases e
      have htail := forward_blanks (blanks_apply tail)
      have hwhole := htail.trans ((List.suffix_cons ..).trans hbefore)
      obtain ⟨hplaced, hrest⟩ := has.placed (by omega) hwhole le_rfl
      have hspots := Table.spots_of_assignAll (stable_placed ..) hplaced.sound hplaced.isWritten
        .nil hu
      refine ⟨apart_of_perm hspots hplaced.pairwise, fun x hx => ?_⟩
      obtain ⟨hend, hstart⟩ := hplaced.behind x (hspots.mem_iff.1 hx)
      refine ⟨hstart.trans (byteLength_le (htail.trans (List.suffix_cons ..))), ?_⟩
      exact hrest.trans hend
    next => exact (hscalar hread).elim

/-! ### Two levels -/

/-- The entry at an address of two keys: one of the root, and one of the table under it. -/
def Table.at? (root : Table) (first second : String) : Option (Entry Node) :=
  (root.entry? first).bind fun e =>
    match e.content with
    | .table _ t => Table.entry? t second
    | _ => none

lemma exists_of_at? {root : Table} {first second : String} {e : Entry Node}
    (h : root.at? first second = some e) : ∃ d origin t, root.entry? first = some d ∧
      d.content = .table origin t ∧ Table.entry? t second = some e := by
  obtain ⟨d, hd, h⟩ := Option.bind_eq_some_iff.1 h
  split at h
  next origin t hcontent => exact ⟨d, origin, t, hd, hcontent, h⟩
  next => cases h

lemma mem_of_entry_eq {t : Table} {key : String} {e : Entry Node} (h : t.entry? key = some e) :
    e ∈ t ∧ e.key = key :=
  ⟨List.mem_of_find?_eq_some h, by simpa using List.find?_some h⟩

/-- The place of a value in a table is one of the table's places. -/
lemma spots_written {e : Entry Node} {extent : Extent} (hextent : e.extent = some extent)
    (hwritten : e.content.isWritten = true) : e.spots = [extent] := by
  rw [Entry.spots, if_pos hwritten, hextent]
  rfl

lemma apart_of_ne {t : Table} (h : t.spots.Pairwise Extent.Apart) {d e : Entry Node} (hd : d ∈ t)
    (he : e ∈ t) (hne : d ≠ e) : ∀ x ∈ d.spots, ∀ y ∈ e.spots, x.Apart y := by
  have hsymm : Std.Symm fun d e : Entry Node => ∀ x ∈ d.spots, ∀ y ∈ e.spots, x.Apart y :=
    ⟨fun _ _ h x hx y hy => (h y hy x hx).symm⟩
  exact (List.pairwise_flatMap.1 h).2.forall hd he hne

/-- The values of a table under the root do not overlap, and stand inside the values that the root
has there. -/
lemma apart_of_content {root t : Table} {d : Entry Node} {origin : Origin}
    (hsound : root.Sound (Entry.Placed whole 0)) (hroot : root.spots.Pairwise Extent.Apart)
    (hd : d ∈ root) (hcontent : d.content = .table origin t) :
    t.spots.Pairwise Extent.Apart ∧ ∀ x ∈ t.spots, ∃ y ∈ d.spots, x.Inside y := by
  have hplaced := hsound.entries d hd
  obtain ⟨key, extent, content⟩ := d
  obtain rfl := hcontent
  by_cases horigin : origin = .inline
  · subst horigin
    match extent with
    | none => exact absurd (hplaced.extent_eq_none.1 rfl) Bool.false_ne_true
    | some extent =>
      obtain ⟨hapart, hinside⟩ := apart_of_braces (hplaced.written extent rfl rfl)
      exact ⟨hapart, fun x hx => ⟨extent, List.mem_singleton_self _, hinside x hx⟩⟩
  · have hspots : Entry.spots ⟨key, extent, .table origin t⟩ = t.spots := spots_table horigin t
    have hapart := (List.pairwise_flatMap.1 hroot).1 _ hd
    rw [hspots] at hapart ⊢
    exact ⟨hapart, fun x hx => ⟨x, hx, le_rfl, le_rfl⟩⟩

/-- **The values at two addresses do not overlap.** -/
theorem apart_of_at? {text : String} {root : Table} (hread : Table.read? text = some root)
    {first second first' second' : String} {e e' : Entry Node} {extent extent' : Extent}
    (he : root.at? first second = some e) (he' : root.at? first' second' = some e')
    (hne : first ≠ first' ∨ second ≠ second') (hwritten : e.content.isWritten = true)
    (hwritten' : e'.content.isWritten = true) (hextent : e.extent = some extent)
    (hextent' : e'.extent = some extent') : extent.Apart extent' := by
  have hroot := apart_of_read hread
  have hsound := sound_of_read hread
  obtain ⟨d, origin, t, hd, hcontent, he⟩ := exists_of_at? he
  obtain ⟨d', origin', t', hd', hcontent', he'⟩ := exists_of_at? he'
  have hspots : extent ∈ e.spots := by simp [spots_written hextent hwritten]
  have hspots' : extent' ∈ e'.spots := by simp [spots_written hextent' hwritten']
  obtain ⟨hapart, hinside⟩ := apart_of_content hsound hroot (mem_of_entry_eq hd).1 hcontent
  obtain ⟨-, hinside'⟩ := apart_of_content hsound hroot (mem_of_entry_eq hd').1 hcontent'
  by_cases hfirst : first = first'
  · subst hfirst
    obtain rfl : d = d' := Option.some.inj (hd.symm.trans hd')
    obtain ⟨rfl, rfl⟩ : origin = origin' ∧ t = t' := by simpa [hcontent] using hcontent'
    refine apart_of_ne hapart (mem_of_entry_eq he).1 (mem_of_entry_eq he').1 ?_ _ hspots _ hspots'
    rintro rfl
    exact (hne.resolve_left (· rfl)) ((mem_of_entry_eq he).2.symm.trans (mem_of_entry_eq he').2)
  · obtain ⟨x, hx, hin⟩ := hinside extent (List.mem_flatMap.2 ⟨e, (mem_of_entry_eq he).1, hspots⟩)
    obtain ⟨y, hy, hin'⟩ :=
      hinside' extent' (List.mem_flatMap.2 ⟨e', (mem_of_entry_eq he').1, hspots'⟩)
    have hdd : d ≠ d' := by
      rintro rfl
      exact hfirst ((mem_of_entry_eq hd).2.symm.trans (mem_of_entry_eq hd').2)
    exact (apart_of_ne hroot (mem_of_entry_eq hd).1 (mem_of_entry_eq hd').1 hdd x hx y hy).inside hin hin'

end Toml

end PackScope
