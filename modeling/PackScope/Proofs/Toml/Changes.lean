import Mathlib.Data.List.Basic
import PackScope.Toml.Node

/-!
How the tree of a document grows. An assignment adds one entry to one table, and a section adds a
table, completes one, or adds an element to a list of tables; all other entries stay as they are. So
what every entry keeps is kept by the whole tree, and no table ever has a key twice.
-/

namespace PackScope.Toml

/-! ### Sound trees -/

/-- **Whether every table in a node has different keys**, and all entries keep a rule. -/
inductive Node.Sound (E : Entry Node → Prop) : Node → Prop
  | scalar (s : Scalar) : Sound E (.scalar s)
  | array {items : List Node} (items_sound : ∀ x ∈ items, Sound E x) : Sound E (.array items)
  | table {origin : Origin} {t : List (Entry Node)} (keys_ne : t.Pairwise fun d e => d.key ≠ e.key)
    (entries : ∀ e ∈ t, E e) (contents : ∀ e ∈ t, Sound E e.content) : Sound E (.table origin t)
  | tables {elements : List Node} (headers : ∀ x ∈ elements, ∃ t, x = .table .header t)
    (elements_sound : ∀ x ∈ elements, Sound E x) : Sound E (.tables elements)

/-- Whether a table has different keys, all entries keep a rule, and the same holds below. -/
structure Table.Sound (E : Entry Node → Prop) (t : Table) : Prop where
  keys_ne : t.Pairwise fun d e => d.key ≠ e.key
  entries : ∀ e ∈ t, E e
  contents : ∀ e ∈ t, e.content.Sound E

variable {E : Entry Node → Prop}

lemma sound_table {origin : Origin} {t : Table} :
    (Node.table origin t).Sound E ↔ t.Sound E := by
  constructor
  · rintro (_ | _ | ⟨hkeys, hentries, hcontents⟩)
    exact ⟨hkeys, hentries, hcontents⟩
  · rintro ⟨hkeys, hentries, hcontents⟩
    exact .table hkeys hentries hcontents

lemma sound_tables {elements : List Node} : (Node.tables elements).Sound E ↔
    (∀ x ∈ elements, ∃ t, x = .table .header t) ∧ ∀ x ∈ elements, x.Sound E := by
  constructor
  · rintro (_ | _ | _ | ⟨headers, sound⟩)
    exact ⟨headers, sound⟩
  · rintro ⟨headers, sound⟩
    exact .tables headers sound

lemma Node.Sound.mono {E' : Entry Node → Prop} (hE : ∀ e, E e → E' e) {node : Node}
    (h : node.Sound E) : node.Sound E' := by
  induction h with
  | scalar s => exact .scalar s
  | array _ ih => exact .array ih
  | table keys_ne entries _ ih => exact .table keys_ne (fun e he => hE e (entries e he)) ih
  | tables headers _ ih => exact .tables headers ih

namespace Table

variable {t t₁ t₂ : Table} {e e' : Entry Node} {key key' : String}

lemma Sound.mono {E' : Entry Node → Prop} (hE : ∀ e, E e → E' e) (h : t.Sound E) : t.Sound E' :=
  ⟨h.keys_ne, fun e he => hE e (h.entries e he), fun e he => (h.contents e he).mono hE⟩

lemma Sound.nil : Sound E [] :=
  ⟨.nil, fun _ he => absurd he List.not_mem_nil, fun _ he => absurd he List.not_mem_nil⟩

lemma Sound.concat (h : t.Sound E) (hnew : ∀ d ∈ t, d.key ≠ e.key) (he : E e)
    (hcontent : e.content.Sound E) : Sound E (t ++ [e]) where
  keys_ne := List.pairwise_append.2 ⟨h.keys_ne, List.pairwise_singleton _ _, fun d hd x hx => by
    rw [List.mem_singleton.1 hx]
    exact hnew d hd⟩
  entries := List.forall_mem_append.2 ⟨h.entries, List.forall_mem_singleton.2 he⟩
  contents := List.forall_mem_append.2 ⟨h.contents, List.forall_mem_singleton.2 hcontent⟩

/-- An entry may be changed if its key stays. -/
lemma Sound.change (h : Sound E (t₁ ++ e :: t₂)) (hkey : e'.key = e.key) (he : E e')
    (hcontent : e'.content.Sound E) : Sound E (t₁ ++ e' :: t₂) where
  keys_ne := by
    have hkeys := h.keys_ne
    rw [List.pairwise_append, List.pairwise_cons] at hkeys ⊢
    obtain ⟨h₁, ⟨hnext, h₂⟩, hcross⟩ := hkeys
    refine ⟨h₁, ⟨fun d hd => hkey ▸ hnext d hd, h₂⟩, fun d hd => List.forall_mem_cons.2 ⟨?_, ?_⟩⟩
    · exact hkey ▸ hcross d hd e List.mem_cons_self
    · exact fun x hx => hcross d hd x (List.mem_cons_of_mem _ hx)
  entries := by
    have hentries := h.entries
    rw [List.forall_mem_append, List.forall_mem_cons] at hentries ⊢
    exact ⟨hentries.1, he, hentries.2.2⟩
  contents := by
    have hcontents := h.contents
    rw [List.forall_mem_append, List.forall_mem_cons] at hcontents ⊢
    exact ⟨hcontents.1, hcontent, hcontents.2.2⟩

/-- An entry may be taken out. -/
lemma Sound.remove (h : Sound E (t₁ ++ e :: t₂)) : Sound E (t₁ ++ t₂) := by
  have hsub : (t₁ ++ t₂).Sublist (t₁ ++ e :: t₂) :=
    (List.Sublist.refl t₁).append (List.sublist_cons_self e t₂)
  exact ⟨h.keys_ne.sublist hsub, fun d hd => h.entries d (hsub.mem hd),
    fun d hd => h.contents d (hsub.mem hd)⟩

/-! ### Entries of keys -/

lemma entry?_eq_none_iff : t.entry? key = none ↔ ∀ e ∈ t, e.key ≠ key := by
  simp [Table.entry?, List.find?_eq_none]

/-- Where keys are different, the entry of a key is the only one of its key. -/
lemma exists_split {extent : Option Extent} {content : Node}
    (hne : t.Pairwise fun d e => d.key ≠ e.key) (h : t.entry? key = some ⟨key', extent, content⟩) :
    key' = key ∧
      ∃ t₁ t₂, t = t₁ ++ ⟨key, extent, content⟩ :: t₂ ∧ ∀ d ∈ t₁ ++ t₂, d.key ≠ key := by
  obtain ⟨hkey, t₁, t₂, rfl, -⟩ := List.find?_eq_some_iff_append.1 h
  obtain rfl : key' = key := by simpa using hkey
  refine ⟨rfl, t₁, t₂, rfl, ?_⟩
  obtain ⟨-, hnext, hcross⟩ := List.pairwise_append.1 hne
  refine List.forall_mem_append.2 ⟨fun d hd => hcross d hd _ List.mem_cons_self, fun d hd => ?_⟩
  exact ((List.pairwise_cons.1 hnext).1 d hd).symm

lemma replace_split {extent extent' : Option Extent} {content content' : Node}
    (h : ∀ d ∈ t₁ ++ t₂, d.key ≠ key) :
    replace (t₁ ++ ⟨key, extent, content⟩ :: t₂) ⟨key, extent', content'⟩ =
      t₁ ++ ⟨key, extent', content'⟩ :: t₂ := by
  rw [List.forall_mem_append] at h
  have hmap {u : Table} (hu : ∀ d ∈ u, d.key ≠ key) (e : Entry Node) :
      (u.map fun d => if d.key = key then e else d) = u :=
    (List.map_congr_left fun d hd => if_neg (hu d hd)).trans (List.map_id u)
  rw [replace, List.map_append, List.map_cons, if_pos rfl, hmap h.1, hmap h.2]

lemma erase_split {extent : Option Extent} {content : Node} (h : ∀ d ∈ t₁ ++ t₂, d.key ≠ key) :
    erase (t₁ ++ ⟨key, extent, content⟩ :: t₂) key = t₁ ++ t₂ := by
  rw [List.forall_mem_append] at h
  have hfilter {u : Table} (hu : ∀ d ∈ u, d.key ≠ key) :
      u.filter (fun d => d.key ≠ key) = u :=
    List.filter_eq_self.2 fun d hd => by simpa using hu d hd
  rw [erase, List.filter_append, List.filter_cons_of_neg (by simp), hfilter h.1, hfilter h.2]

/-! ### Changes at the end of a way -/

/-- **How a table changes when a table at the end of a way does.** The tables on the way are made,
or passed, or they are the last ones of lists of tables. -/
inductive Changes (dotted : Bool) (D : Origin → Table → Table → Prop) :
    List String → Origin → Table → Table → Prop
  | here {o : Origin} {t t' : Table} (change : D o t t') : Changes dotted D [] o t t'
  | fresh {key : String} {way : List String} {o : Origin} {t u : Table}
    (new : ∀ d ∈ t, d.key ≠ key)
    (below : Changes dotted D way (if dotted then .dotted else .implied) [] u) :
    Changes dotted D (key :: way) o t
      (t ++ [⟨key, none, .table (if dotted then .dotted else .implied) u⟩])
  | inside {key : String} {way : List String} {o origin : Origin} {t₁ t₂ u u' : Table}
    {extent : Option Extent} (others : ∀ d ∈ t₁ ++ t₂, d.key ≠ key)
    (passed : passable dotted origin = true) (below : Changes dotted D way origin u u') :
    Changes dotted D (key :: way) o (t₁ ++ ⟨key, extent, .table origin u⟩ :: t₂)
      (t₁ ++ ⟨key, extent, .table origin u'⟩ :: t₂)
  | last {key : String} {way : List String} {o : Origin} {t₁ t₂ u u' : Table}
    {extent : Option Extent} {elements : List Node} (others : ∀ d ∈ t₁ ++ t₂, d.key ≠ key)
    (below : Changes dotted D way .header u u') :
    Changes dotted D (key :: way) o
      (t₁ ++ ⟨key, extent, .tables (elements ++ [.table .header u])⟩ :: t₂)
      (t₁ ++ ⟨key, extent, .tables (elements ++ [.table .header u'])⟩ :: t₂)

lemma inLast_eq_some {change : Change} {elements elements' : List Node}
    (h : inLast change elements = some elements') : ∃ front origin t t',
      elements = front ++ [.table origin t] ∧ change origin t = some t' ∧
        elements' = front ++ [.table origin t'] := by
  unfold inLast at h
  split at h
  next origin t hlast =>
    obtain ⟨t', ht', h⟩ := Option.bind_eq_some_iff.1 h
    cases h
    exact ⟨elements.dropLast, origin, t, t', (List.dropLast_append_getLast? _ hlast).symm, ht', rfl⟩
  next => cases h

/-- What a change at the end of a way does to a sound table. -/
lemma changes_of_within {dotted : Bool} {change : Change} {D : Origin → Table → Table → Prop}
    (hD : ∀ o t t', t.Sound E → change o t = some t' → D o t t') {way : List String} {o : Origin}
    {t t' : Table} (ht : t.Sound E) (h : within dotted change way o t = some t') :
    Changes dotted D way o t t' := by
  induction way generalizing o t t' with
  | nil => exact .here (hD o t t' ht h)
  | cons key way ih =>
    unfold within at h
    match hentry : t.entry? key with
    | none =>
      rw [hentry] at h
      obtain ⟨u, hu, h⟩ := Option.bind_eq_some_iff.1 h
      cases h
      exact .fresh (entry?_eq_none_iff.1 hentry) (ih .nil hu)
    | some ⟨key', extent, content⟩ =>
      obtain ⟨rfl, t₁, t₂, rfl, hothers⟩ := exists_split ht.keys_ne hentry
      have hcontent : content.Sound E := ht.contents ⟨key', extent, content⟩ (by simp)
      rw [hentry] at h
      match content, hcontent with
      | .table origin u, hcontent =>
        dsimp only at h
        by_cases hpass : passable dotted origin = true
        · rw [if_neg (by simp [hpass])] at h
          obtain ⟨u', hu', h⟩ := Option.bind_eq_some_iff.1 h
          cases h
          rw [replace_split hothers]
          exact .inside hothers hpass (ih (sound_table.1 hcontent) hu')
        · rw [if_pos (by simpa using hpass)] at h
          cases h
      | .tables elements, hcontent =>
        obtain ⟨headers, sound⟩ := sound_tables.1 hcontent
        obtain ⟨elements', helements, h⟩ := Option.bind_eq_some_iff.1 h
        cases h
        obtain ⟨front, origin, u, u', rfl, hu', rfl⟩ := inLast_eq_some helements
        obtain ⟨_, ⟨⟩⟩ := headers (.table origin u) (by simp)
        rw [replace_split hothers]
        exact .last hothers (ih (sound_table.1 (sound _ (List.mem_append_right _ List.mem_cons_self))) hu')
      | .scalar _, _ => cases h
      | .array _, _ => cases h

/-- Whether a rule for entries holds for tables that are made on the way to others, and does not
depend on what stands in a table, unless the table is one in braces, or in a list of tables. -/
structure Stable (E : Entry Node → Prop) : Prop where
  made : ∀ key dotted t,
    E ⟨key, none, .table (if dotted = true then .dotted else .implied) t⟩
  table : ∀ {key extent origin t} u, origin ≠ .inline → E ⟨key, extent, .table origin t⟩ →
    E ⟨key, extent, .table origin u⟩
  tables : ∀ {key extent elements} elements', E ⟨key, extent, .tables elements⟩ →
    E ⟨key, extent, .tables elements'⟩

lemma ne_inline_of_passable {dotted : Bool} {origin : Origin} (h : passable dotted origin = true) :
    origin ≠ .inline := by
  rintro rfl
  cases h

/-- **Changes at the end of a way keep a tree sound** if they keep the changed table sound. -/
lemma Changes.sound (hE : Stable E) {dotted : Bool} {D : Origin → Table → Table → Prop}
    (hD : ∀ o t t', D o t t' → t.Sound E → t'.Sound E) {way : List String} {o : Origin}
    {t t' : Table} (h : Changes dotted D way o t t') (ht : t.Sound E) : t'.Sound E := by
  induction h with
  | here change => exact hD _ _ _ change ht
  | fresh new _ ih => exact ht.concat new (hE.made ..) (sound_table.2 (ih .nil))
  | inside _ passed _ ih =>
    have hentry := ht.entries _ List.mem_append_cons_self
    have hcontent := sound_table.1 (ht.contents _ List.mem_append_cons_self)
    exact ht.change rfl (hE.table _ (ne_inline_of_passable passed) hentry)
      (sound_table.2 (ih hcontent))
  | @last key way o t₁ t₂ u u' extent elements _ _ ih =>
    have hentry := ht.entries _ List.mem_append_cons_self
    obtain ⟨headers, sound⟩ := sound_tables.1 (ht.contents _ List.mem_append_cons_self)
    rw [List.forall_mem_append, List.forall_mem_singleton] at headers sound
    refine ht.change rfl (hE.tables _ hentry) (.tables ?_ ?_)
    · exact List.forall_mem_append.2 ⟨headers.1, List.forall_mem_singleton.2 ⟨u', rfl⟩⟩
    · refine List.forall_mem_append.2 ⟨sound.1, List.forall_mem_singleton.2 ?_⟩
      exact sound_table.2 (ih (sound_table.1 sound.2))

/-! ### Assignments -/

/-- The entry that an assignment makes. -/
def Assignment.entry (a : Assignment) : Entry Node := ⟨a.key, a.extent, a.content⟩

/-- What an assignment does to the table at the end of its way: a new entry comes last. -/
def Assigns (a : Assignment) (t t' : Table) : Prop :=
  (∀ d ∈ t, d.key ≠ a.key) ∧ t' = t ++ [a.entry]

lemma changes_of_assign {a : Assignment} {o : Origin} {t t' : Table} (ht : t.Sound E)
    (h : assign o t a = some t') : Changes true (fun _ => Assigns a) a.way o t t' := by
  refine changes_of_within (fun reached t t' _ h => ?_) ht h
  split_ifs at h with _ hkey
  cases h
  exact ⟨entry?_eq_none_iff.1 (by simpa using hkey), rfl⟩

/-- Whether the entry of an assignment keeps a rule. -/
structure Assignment.Sound (E : Entry Node → Prop) (a : Assignment) : Prop where
  entry : E a.entry
  content : a.content.Sound E

lemma Assigns.sound {a : Assignment} (ha : a.Sound E) {t t' : Table} (h : Assigns a t t')
    (ht : t.Sound E) : t'.Sound E := by
  obtain ⟨hnew, rfl⟩ := h
  exact ht.concat hnew ha.entry ha.content

lemma Sound.assign (hE : Stable E) {a : Assignment} (ha : a.Sound E) {o : Origin} {t t' : Table}
    (ht : t.Sound E) (h : assign o t a = some t') : t'.Sound E :=
  (changes_of_assign ht h).sound hE (fun _ _ _ => Assigns.sound ha) ht

lemma Sound.assignAll (hE : Stable E) {as : List Assignment} (has : ∀ a ∈ as, a.Sound E)
    {o : Origin} {t t' : Table} (ht : t.Sound E) (h : assignAll o t as = some t') :
    t'.Sound E := by
  induction as generalizing t with
  | nil =>
    cases h
    exact ht
  | cons a as ih =>
    obtain ⟨u, hu, h⟩ := Option.bind_eq_some_iff.1 h
    exact ih (fun b hb => has b (List.mem_cons_of_mem _ hb))
      (ht.assign hE (has a List.mem_cons_self) hu) h

/-! ### Sections -/

/-- **What a section does to the table at the end of its way.** -/
inductive Defines (s : Section) : Table → Table → Prop
  | table {t u : Table} (new : ∀ d ∈ t, d.key ≠ s.key)
    (body : assignAll .header [] s.body = some u) :
    Defines s t (t ++ [⟨s.key, s.whole, .table .header u⟩])
  | list {t u : Table} (new : ∀ d ∈ t, d.key ≠ s.key)
    (body : assignAll .header [] s.body = some u) :
    Defines s t (t ++ [⟨s.key, s.whole, .tables [.table .header u]⟩])
  | completed {t₁ t₂ u u' : Table} {extent : Option Extent}
    (others : ∀ d ∈ t₁ ++ t₂, d.key ≠ s.key) (body : assignAll .header u s.body = some u') :
    Defines s (t₁ ++ ⟨s.key, extent, .table .implied u⟩ :: t₂)
      (t₁ ++ t₂ ++ [⟨s.key, s.whole, .table .header u'⟩])
  | element {t₁ t₂ u : Table} {extent : Option Extent} {elements : List Node}
    (others : ∀ d ∈ t₁ ++ t₂, d.key ≠ s.key) (body : assignAll .header [] s.body = some u) :
    Defines s (t₁ ++ ⟨s.key, extent, .tables elements⟩ :: t₂)
      (t₁ ++ ⟨s.key, (extent.getD s.extent).through s.whole,
        .tables (elements ++ [.table .header u])⟩ :: t₂)

lemma changes_of_define {s : Section} {t t' : Table} (ht : t.Sound E) (h : define t s = some t') :
    Changes false (fun _ => Defines s) s.way .header t t' := by
  refine changes_of_within (fun _ t t' ht h => ?_) ht h
  match hentry : t.entry? s.key, hrepeated : s.repeated with
  | none, false =>
    rw [hentry, hrepeated] at h
    obtain ⟨u, hu, h⟩ := Option.bind_eq_some_iff.1 h
    cases h
    exact .table (entry?_eq_none_iff.1 hentry) hu
  | none, true =>
    rw [hentry, hrepeated] at h
    obtain ⟨u, hu, h⟩ := Option.bind_eq_some_iff.1 h
    cases h
    exact .list (entry?_eq_none_iff.1 hentry) hu
  | some ⟨key, extent, content⟩, repeated =>
    obtain ⟨rfl, t₁, t₂, rfl, hothers⟩ := exists_split ht.keys_ne hentry
    rw [hentry, hrepeated] at h
    match content, repeated with
    | .table .implied u, false =>
      obtain ⟨u', hu', h⟩ := Option.bind_eq_some_iff.1 h
      cases h
      rw [erase_split hothers]
      exact .completed hothers hu'
    | .tables elements, true =>
      obtain ⟨u, hu, h⟩ := Option.bind_eq_some_iff.1 h
      cases h
      rw [replace_split hothers]
      exact .element hothers hu
    | .scalar _, _ => cases h
    | .array _, _ => cases h
    | .table .header _, _ => cases h
    | .table .dotted _, _ => cases h
    | .table .inline _, _ => cases h
    | .table .implied _, true => cases h
    | .tables _, false => cases h

/-- Whether all entries that a section makes keep a rule, if those that it changes did. -/
structure Section.Sound (E : Entry Node → Prop) (s : Section) : Prop where
  table : ∀ t, E ⟨s.key, s.whole, .table .header t⟩
  list : ∀ elements, E ⟨s.key, s.whole, .tables elements⟩
  element : ∀ {extent elements} elements', E ⟨s.key, extent, .tables elements⟩ →
    E ⟨s.key, (extent.getD s.extent).through s.whole, .tables elements'⟩
  body : ∀ a ∈ s.body, a.Sound E

lemma sound_headers {elements : List Table} (h : ∀ t ∈ elements, t.Sound E) :
    (Node.tables (elements.map (.table .header))).Sound E := by
  rw [sound_tables, List.forall_mem_map, List.forall_mem_map]
  exact ⟨fun t _ => ⟨t, rfl⟩, fun t ht => sound_table.2 (h t ht)⟩

lemma Defines.sound (hE : Stable E) {s : Section} (hs : s.Sound E) {t t' : Table}
    (h : Defines s t t') (ht : t.Sound E) : t'.Sound E := by
  cases h with
  | table new body =>
    have hu := Sound.nil.assignAll hE hs.body body
    exact ht.concat new (hs.table _) (sound_table.2 hu)
  | list new body =>
    have hu := Sound.nil.assignAll hE hs.body body
    exact ht.concat new (hs.list _) (sound_headers (List.forall_mem_singleton.2 hu))
  | completed others body =>
    have hu := sound_table.1 (ht.contents _ List.mem_append_cons_self)
    exact ht.remove.concat others (hs.table _) (sound_table.2 (hu.assignAll hE hs.body body))
  | element others body =>
    have hu := Sound.nil.assignAll hE hs.body body
    obtain ⟨headers, sound⟩ := sound_tables.1 (ht.contents _ List.mem_append_cons_self)
    refine ht.change rfl (hs.element _ (ht.entries _ List.mem_append_cons_self))
      (sound_tables.2 ⟨?_, ?_⟩)
    · exact List.forall_mem_append.2 ⟨headers, List.forall_mem_singleton.2 ⟨_, rfl⟩⟩
    · exact List.forall_mem_append.2 ⟨sound, List.forall_mem_singleton.2 (sound_table.2 hu)⟩

lemma Sound.define (hE : Stable E) {s : Section} (hs : s.Sound E) {t t' : Table}
    (ht : t.Sound E) (h : define t s = some t') : t'.Sound E :=
  (changes_of_define ht h).sound hE (fun _ _ _ => Defines.sound hE hs) ht

end Table

end PackScope.Toml
