import PackScope.Proofs.Toml.Outlines
import PackScope.Proofs.Toml.Sheet

/-!
Keys that are assigned twice. Settings under two keys make tables of dotted keys only, and a text of
them is read only if no two are under the same keys.
-/

namespace PackScope.Toml

namespace Table

variable {E : Entry Node → Prop} {t t' u : Table} {a : Assignment} {first second : String}

/-- Whether there are only tables that dotted keys made. -/
def AllDotted (t : Table) : Prop := ∀ d ∈ t, ∃ u, d.content = .table .dotted u

/-- **Whether such a table has a key.** -/
def Has (t : Table) (first second : String) : Prop :=
  ∃ d ∈ t, d.key = first ∧ ∃ u, d.content = .table .dotted u ∧ ∃ e ∈ u, e.key = second

lemma has_append : Has (t ++ u) first second ↔ t.Has first second ∨ u.Has first second := by
  simp only [Has, List.mem_append, or_and_right, exists_or]

lemma has_cons {key : String} {extent : Option Extent} :
    Has (⟨key, extent, .table .dotted u⟩ :: t) first second ↔
      (key = first ∧ ∃ e ∈ u, e.key = second) ∨ t.Has first second := by
  simp [Has]

lemma not_has (h : ∀ d ∈ t, d.key ≠ first) : ¬ t.Has first second :=
  fun ⟨d, hd, hkey, _⟩ => h d hd hkey

/-- **An assignment under two keys** finds them free, and takes them. -/
lemma has_of_assign (ht : t.Sound E) (hdotted : t.AllDotted) (hway : a.way = [first])
    (h : assign .header t a = some t') :
    t'.AllDotted ∧ ¬ t.Has first a.key ∧
      ∀ first' second', t'.Has first' second' ↔
        t.Has first' second' ∨ first = first' ∧ a.key = second' := by
  have hchanges := changes_of_assign ht h
  rw [hway] at hchanges
  cases hchanges with
  | fresh new below =>
    obtain ⟨-, rfl⟩ : Assigns a [] _ := by cases below with | here change => exact change
    refine ⟨?_, not_has new, fun first' second' => ?_⟩
    · exact List.forall_mem_append.2 ⟨hdotted, List.forall_mem_singleton.2 ⟨_, rfl⟩⟩
    · have hentry : (∃ e ∈ [a.entry], e.key = second') ↔ a.key = second' := by
        simp [Assignment.entry]
      rw [if_pos rfl, List.nil_append, has_append, has_cons, hentry]
      exact or_congr_right (or_iff_left (not_has fun _ hd => absurd hd List.not_mem_nil))
  | @inside _ _ _ origin t₁ t₂ u u' extent others passed below =>
    obtain ⟨hnew, rfl⟩ : Assigns a u u' := by cases below with | here change => exact change
    obtain ⟨_, ⟨⟩⟩ := hdotted _ List.mem_append_cons_self
    rw [AllDotted, List.forall_mem_append, List.forall_mem_cons] at hdotted
    rw [List.forall_mem_append] at others
    refine ⟨?_, ?_, fun first' second' => ?_⟩
    · exact List.forall_mem_append.2 ⟨hdotted.1, List.forall_mem_cons.2 ⟨⟨_, rfl⟩, hdotted.2.2⟩⟩
    · rw [has_append, has_cons]
      rintro (h₁ | ⟨-, e, he, hkey⟩ | h₂)
      · exact not_has others.1 h₁
      · exact hnew e he hkey
      · exact not_has others.2 h₂
    · have hentry : (∃ e ∈ u ++ [a.entry], e.key = second') ↔
          (∃ e ∈ u, e.key = second') ∨ a.key = second' := by
        simp [Assignment.entry, or_and_right, exists_or]
      rw [has_append, has_append, has_cons, has_cons, hentry]
      simp only [and_or_left, or_left_comm, or_comm]
  | last others below =>
    obtain ⟨_, ⟨⟩⟩ := hdotted _ List.mem_append_cons_self

/-- Assignments under two keys find them free, and do so one after another. -/
lemma pairwise_of_assignAll (hE : Stable E) {ss : List Setting} {as : List Assignment}
    (has : List.Forall₂ Setting.MadeBy ss as) (hsound : ∀ a ∈ as, a.Sound E) (ht : t.Sound E)
    (hdotted : t.AllDotted) (h : assignAll .header t as = some t') :
    (∀ s ∈ ss, ¬ t.Has s.table s.key) ∧
      ss.Pairwise fun s s' => (s.table, s.key) ≠ (s'.table, s'.key) := by
  induction has generalizing t with
  | nil => exact ⟨fun _ hs => absurd hs List.not_mem_nil, .nil⟩
  | @cons s a ss as hs _ ih =>
    obtain ⟨hway, hkey, -⟩ := hs
    obtain ⟨u, hu, h⟩ := Option.bind_eq_some_iff.1 h
    rw [List.forall_mem_cons] at hsound
    obtain ⟨hdotted', hfree, hhas⟩ := has_of_assign ht hdotted hway hu
    rw [hkey] at hfree hhas
    obtain ⟨hrest, hpairwise⟩ := ih hsound.2 (ht.assign hE hsound.1 hu) hdotted' h
    refine ⟨List.forall_mem_cons.2 ⟨hfree, fun s' hs' ht => ?_⟩, .cons (fun s' hs' heq => ?_) hpairwise⟩
    · exact hrest s' hs' ((hhas _ _).2 (.inl ht))
    · exact hrest s' hs' ((hhas _ _).2 (.inr (Prod.mk.inj heq)))

end Table

/-- **A text of settings is read only if no two of them are under the same keys.** -/
theorem ReadsLines.pairwise_of_read? {text : List Char} {ss : List Setting} {root : Table}
    (h : ReadsLines text ss) (hmark : '\ufeff' ∉ text.head?)
    (hroot : Table.read? (.ofList text) = some root) :
    ss.Pairwise fun s s' => (s.table, s.key) ≠ (s'.table, s'.key) := by
  obtain ⟨as, hread, has⟩ := h.outline hmark
  have hplaced := (placed_of_outline hread).1
  rw [Table.read?, String.toList_ofList, hread] at hroot
  obtain ⟨_, ⟨⟩, hroot⟩ := Option.bind_eq_some_iff.1 hroot
  obtain ⟨t, ht, -⟩ := Option.bind_eq_some_iff.1 hroot
  exact (Table.pairwise_of_assignAll (stable_placed ..) has hplaced.sound .nil
    (fun d hd => absurd hd List.not_mem_nil) ht).2

end PackScope.Toml
