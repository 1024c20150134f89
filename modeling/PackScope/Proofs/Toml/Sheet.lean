import PackScope.Proofs.Toml.Lines

/-!
Documents of two levels. Settings that come table by table, with no table and no key twice, define
one table for each of them, in order.
-/

namespace PackScope.Toml

/-- The tables of a document of two levels, each with its entries. -/
abbrev Sheet := List (String × List (String × Data))

/-- The settings of a table. -/
def settingsOf (p : String × List (String × Data)) : List Setting :=
  p.2.map fun e => ⟨p.1, e.1, e.2⟩

/-- The settings of a sheet, table by table. -/
def Sheet.settings (sheet : Sheet) : List Setting := sheet.flatMap settingsOf

/-- No table and no key in a table occurs twice, and no table is empty. -/
structure Sheet.Proper (sheet : Sheet) : Prop where
  tables : sheet.Pairwise fun a b => a.1 ≠ b.1
  keys : ∀ p ∈ sheet, p.2.Pairwise fun a b => a.1 ≠ b.1
  nonempty : ∀ p ∈ sheet, p.2 ≠ []

/-- Whether an entry has a place of its own and shows some data under a key. -/
def Entry.Holds (x : String × Data) (e : Entry Node) : Prop :=
  e.key = x.1 ∧ (∃ extent, e.extent = some extent) ∧ e.content.shown = x.2

/-- Whether an entry is the table that the settings of one table define. -/
def Entry.IsTableOf (p : String × List (String × Data)) (e : Entry Node) : Prop :=
  e.key = p.1 ∧ ∃ u, e.content = .table .dotted u ∧ List.Forall₂ Entry.Holds p.2 u

section

variable {t u : Table} {a : Table.Assignment} {name : String}

lemma entry?_append_of_none (h : t.entry? name = none) (u : Table) :
    Table.entry? (t ++ u) name = u.entry? name := by
  unfold Table.entry? at h ⊢
  rw [List.find?_append, h]
  rfl

/-- The first setting of a table makes the table. -/
lemma assign_first (hway : a.way = [name]) (ht : t.entry? name = none) :
    Table.assign .header t a =
      some (t ++ [⟨name, none, .table .dotted [⟨a.key, a.extent, a.content⟩]⟩]) := by
  rw [Table.assign, hway, Table.within]
  dsimp only
  rw [ht]
  rfl

lemma replace_last (ht : t.entry? name = none) (content content' : Node) :
    Table.replace (t ++ [⟨name, none, content⟩]) ⟨name, none, content'⟩ =
      t ++ [⟨name, none, content'⟩] := by
  have hne : ∀ d ∈ t, d.key ≠ name := by
    simpa [Table.entry?] using ht
  rw [Table.replace, List.map_append]
  congr 1
  · refine (List.map_congr_left fun d hd => ?_).trans (List.map_id t)
    exact if_neg (hne d hd)
  · simp

lemma assign_next (hway : a.way = [name]) (ht : t.entry? name = none)
    (hu : u.entry? a.key = none) :
    Table.assign .header (t ++ [⟨name, none, .table .dotted u⟩]) a =
      some (t ++ [⟨name, none, .table .dotted (u ++ [⟨a.key, a.extent, a.content⟩])⟩]) := by
  have hentry : Table.entry? (t ++ [⟨name, none, .table .dotted u⟩]) name =
      some ⟨name, none, .table .dotted u⟩ := by
    rw [entry?_append_of_none ht]
    simp [Table.entry?]
  rw [Table.assign, hway, Table.within]
  dsimp only
  rw [hentry]
  dsimp only [Table.within]
  rw [hu]
  exact congrArg some (replace_last ht _ _)

lemma entry?_snoc {e : Entry Node} (ht : t.entry? name = none) (he : e.key ≠ name) :
    Table.entry? (t ++ [e]) name = none := by
  rw [entry?_append_of_none ht]
  simp [Table.entry?, he]

lemma assignAll_cons {a : Table.Assignment} {as : List Table.Assignment} {t' : Table}
    (h : Table.assign .header t a = some t') :
    Table.assignAll .header t (a :: as) = Table.assignAll .header t' as := by
  rw [Table.assignAll, List.foldlM_cons, h]
  rfl

lemma assignAll_next {es : List (String × Data)} {as : List Table.Assignment}
    (h : List.Forall₂ Setting.MadeBy (settingsOf (name, es)) as) (ht : t.entry? name = none)
    (hes : es.Pairwise fun a b => a.1 ≠ b.1) (hu : ∀ e ∈ es, u.entry? e.1 = none) :
    ∃ v, List.Forall₂ Entry.Holds es v ∧
      Table.assignAll .header (t ++ [⟨name, none, .table .dotted u⟩]) as =
        some (t ++ [⟨name, none, .table .dotted (u ++ v)⟩]) := by
  induction es generalizing u as with
  | nil =>
    cases h
    refine ⟨[], .nil, ?_⟩
    rw [List.append_nil]
    rfl
  | cons e es ih =>
    obtain ⟨hne, hes⟩ := List.pairwise_cons.1 hes
    cases h with
    | @cons _ a _ as ha has =>
      obtain ⟨hway, hkey, hshown⟩ := ha
      have hfree : u.entry? a.key = none := hkey ▸ hu e (by simp)
      obtain ⟨v, hv, hall⟩ := ih (u := u ++ [⟨a.key, a.extent, a.content⟩]) has hes fun x hx =>
        entry?_snoc (hu x (List.mem_cons_of_mem _ hx)) (hkey ▸ hne x hx)
      refine ⟨⟨a.key, a.extent, a.content⟩ :: v, .cons ⟨hkey, ⟨_, rfl⟩, hshown⟩ hv, ?_⟩
      rw [assignAll_cons (assign_next hway ht hfree), hall, List.append_assoc]
      rfl

lemma assignAll_table {p : String × List (String × Data)} {as : List Table.Assignment}
    (h : List.Forall₂ Setting.MadeBy (settingsOf p) as) (hne : p.2 ≠ [])
    (hkeys : p.2.Pairwise fun a b => a.1 ≠ b.1) (ht : t.entry? p.1 = none) :
    ∃ e, e.IsTableOf p ∧ Table.assignAll .header t as = some (t ++ [e]) := by
  obtain ⟨name, es⟩ := p
  match es, hne with
  | e :: es, _ =>
    obtain ⟨hnew, hes⟩ := List.pairwise_cons.1 hkeys
    cases h with
    | @cons _ a _ as ha has =>
      obtain ⟨hway, hkey, hshown⟩ := ha
      have hfree : ∀ x ∈ es, Table.entry? [⟨a.key, a.extent, a.content⟩] x.1 = none := by
        intro x hx
        have hax : a.key ≠ x.1 := hkey ▸ hnew x hx
        simp [Table.entry?, hax]
      have has : List.Forall₂ Setting.MadeBy (settingsOf (name, es)) as := has
      obtain ⟨v, hv, hall⟩ := assignAll_next has ht hes hfree
      refine ⟨⟨name, none, .table .dotted (⟨a.key, a.extent, a.content⟩ :: v)⟩,
        ⟨rfl, _, rfl, .cons ⟨hkey, ⟨_, rfl⟩, hshown⟩ hv⟩, ?_⟩
      rw [assignAll_cons (assign_first hway ht), hall]
      rfl

lemma exists_append_of_forall₂ {α β : Type} {R : α → β → Prop} {l l' : List α} {bs : List β}
    (h : List.Forall₂ R (l ++ l') bs) :
    ∃ bs₁ bs₂, bs = bs₁ ++ bs₂ ∧ List.Forall₂ R l bs₁ ∧ List.Forall₂ R l' bs₂ := by
  induction l generalizing bs with
  | nil => exact ⟨[], bs, rfl, .nil, h⟩
  | cons a l ih =>
    cases h with
    | @cons _ b _ bs hab h =>
      obtain ⟨bs₁, bs₂, rfl, h₁, h₂⟩ := ih h
      exact ⟨b :: bs₁, bs₂, rfl, .cons hab h₁, h₂⟩

/-- **The settings of a sheet define its tables.** -/
theorem assignAll_settings {sheet : Sheet} (hsheet : sheet.Proper) {as : List Table.Assignment}
    (h : List.Forall₂ Setting.MadeBy sheet.settings as) (ht : ∀ p ∈ sheet, t.entry? p.1 = none) :
    ∃ u, List.Forall₂ Entry.IsTableOf sheet u ∧
      Table.assignAll .header t as = some (t ++ u) := by
  induction sheet generalizing t as with
  | nil =>
    cases h
    exact ⟨[], .nil, by rw [List.append_nil]; rfl⟩
  | cons p sheet ih =>
    obtain ⟨hne, htables⟩ := List.pairwise_cons.1 hsheet.tables
    have hrest : Sheet.Proper sheet := ⟨htables,
      fun q hq => hsheet.keys q (List.mem_cons_of_mem _ hq),
      fun q hq => hsheet.nonempty q (List.mem_cons_of_mem _ hq)⟩
    obtain ⟨as₁, as₂, rfl, h₁, h₂⟩ := exists_append_of_forall₂ h
    obtain ⟨e, he, hall₁⟩ := assignAll_table h₁ (hsheet.nonempty p (by simp))
      (hsheet.keys p (by simp)) (ht p (by simp))
    have ht' : ∀ q ∈ sheet, Table.entry? (t ++ [e]) q.1 = none := fun q hq =>
      entry?_snoc (ht q (List.mem_cons_of_mem _ hq)) (he.1 ▸ hne q hq)
    obtain ⟨u, hu, hall₂⟩ := ih hrest h₂ ht'
    refine ⟨e :: u, .cons he hu, ?_⟩
    rw [Table.assignAll, List.foldlM_append]
    change (Table.assignAll .header t as₁ >>= fun t => Table.assignAll .header t as₂) = _
    rw [hall₁]
    refine hall₂.trans ?_
    rw [List.append_assoc]
    rfl

end

/-- **A text of the settings of a sheet is read as the tables of the sheet.** -/
theorem ReadsLines.table {text : List Char} {sheet : Sheet} (h : ReadsLines text sheet.settings)
    (hmark : '\ufeff' ∉ text.head?) (hsheet : sheet.Proper) :
    ∃ root, Table.read? (.ofList text) = some root ∧ List.Forall₂ Entry.IsTableOf sheet root := by
  obtain ⟨as, hread, has⟩ := h.outline hmark
  obtain ⟨root, hroot, hall⟩ := assignAll_settings (t := []) hsheet has (by simp [Table.entry?])
  refine ⟨root, ?_, hroot⟩
  rw [Table.read?, String.toList_ofList, hread]
  change (Table.assignAll .header [] as >>= fun t => some t) = _
  rw [hall]
  rfl

end PackScope.Toml
