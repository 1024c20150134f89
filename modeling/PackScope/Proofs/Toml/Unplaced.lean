import Mathlib.Tactic.Lemma
import Mathlib.Tactic.SplitIfs
import PackScope.Toml.Shape

/-!
The tree of a document without its places. No assignment depends on where values stand, so trees
that differ only in that grow alike, and they have the same data.
-/

namespace PackScope.Toml

mutual

/-- **A node without the places of its parts.** -/
def Node.unplaced : Node → Node
  | .scalar s => .scalar s
  | .array items => .array (unplacedItems items)
  | .table origin entries => .table origin (unplacedEntries entries)
  | .tables elements => .tables (unplacedItems elements)

/-- Nodes without places. -/
def unplacedItems : List Node → List Node
  | [] => []
  | item :: rest => item.unplaced :: unplacedItems rest

/-- Entries without places; those that have one of their own still have one. -/
def unplacedEntries : List (Entry Node) → List (Entry Node)
  | [] => []
  | ⟨key, extent, content⟩ :: rest =>
    ⟨key, extent.map fun _ => default, content.unplaced⟩ :: unplacedEntries rest

end

/-- An entry without its place. -/
def Entry.unplaced (e : Entry Node) : Entry Node :=
  ⟨e.key, e.extent.map fun _ => default, e.content.unplaced⟩

/-- An assignment without its place. -/
def Table.Assignment.unplaced (a : Table.Assignment) : Table.Assignment :=
  ⟨a.way, a.key, default, a.content.unplaced⟩

lemma unplacedItems_eq_map (nodes : List Node) : unplacedItems nodes = nodes.map Node.unplaced := by
  induction nodes with
  | nil => rfl
  | cons node nodes ih => rw [unplacedItems, ih, List.map_cons]

lemma unplacedEntries_eq_map (t : Table) : unplacedEntries t = t.map Entry.unplaced := by
  induction t with
  | nil => rfl
  | cons e t ih =>
    rw [unplacedEntries, ih, List.map_cons]
    rfl

lemma unplaced_table (origin : Origin) (t : Table) :
    (Node.table origin t).unplaced = .table origin (t.map Entry.unplaced) := by
  rw [Node.unplaced, unplacedEntries_eq_map]

lemma unplaced_tables (elements : List Node) :
    (Node.tables elements).unplaced = .tables (elements.map Node.unplaced) := by
  rw [Node.unplaced, unplacedItems_eq_map]

/-! ### Changes -/

namespace Table

variable {change change' : Change} {origin : Origin}

lemma entry?_unplaced (t : Table) (key : String) :
    entry? (t.map Entry.unplaced) key = (t.entry? key).map Entry.unplaced :=
  List.find?_map ..

lemma replace_unplaced (t : Table) (e : Entry Node) :
    replace (t.map Entry.unplaced) e.unplaced = (t.replace e).map Entry.unplaced := by
  unfold replace
  rw [List.map_map, List.map_map]
  refine List.map_congr_left fun d _ => ?_
  exact (apply_ite Entry.unplaced _ _ _).symm

/-- Whether two changes are the same up to places. -/
def Alike (change change' : Change) : Prop :=
  ∀ origin t, change' origin (t.map Entry.unplaced) = (change origin t).map (List.map Entry.unplaced)

lemma inLast_unplaced (h : Alike change change') (elements : List Node) :
    inLast change' (elements.map Node.unplaced) =
      (inLast change elements).map (List.map Node.unplaced) := by
  unfold inLast
  rw [List.getLast?_map]
  match elements.getLast? with
  | none => rfl
  | some (.scalar _) => rfl
  | some (.array _) => rfl
  | some (.tables _) => rfl
  | some (.table origin t) =>
    rw [Option.map_some, unplaced_table]
    dsimp only
    rw [h]
    cases change origin t with
    | none => rfl
    | some u => simp [unplaced_table, List.map_dropLast]

lemma within_unplaced (h : Alike change change') (dotted : Bool) (way : List String) :
    Alike (within dotted change way) (within dotted change' way) := by
  induction way with
  | nil => exact h
  | cons key way ih =>
    intro origin t
    unfold within
    rw [entry?_unplaced]
    match t.entry? key with
    | none =>
      have hfresh := ih (if dotted then .dotted else .implied) []
      rw [List.map_nil] at hfresh
      dsimp only [Option.map_none]
      rw [hfresh]
      cases within dotted change way (if dotted then .dotted else .implied) [] with
      | none => rfl
      | some u => simp [Entry.unplaced, unplaced_table]
    | some ⟨_, extent, .table reached entries⟩ =>
      simp only [Option.map_some, Entry.unplaced, unplaced_table]
      rw [ih reached entries]
      cases passable dotted reached with
      | false => rfl
      | true =>
        cases within dotted change way reached entries with
        | none => rfl
        | some u =>
          refine congrArg some ?_
          rw [← replace_unplaced, Entry.unplaced, unplaced_table]
    | some ⟨_, extent, .tables elements⟩ =>
      simp only [Option.map_some, Entry.unplaced, unplaced_tables]
      rw [inLast_unplaced ih]
      cases inLast (within dotted change way) elements with
      | none => rfl
      | some elements' =>
        refine congrArg some ?_
        rw [← replace_unplaced, Entry.unplaced, unplaced_tables]
    | some ⟨_, extent, .scalar _⟩ => rfl
    | some ⟨_, extent, .array _⟩ => rfl

/-- **Assignments do not depend on places.** -/
lemma assign_unplaced (origin : Origin) (t : Table) (a : Assignment) :
    assign origin (t.map Entry.unplaced) a.unplaced =
      (assign origin t a).map (List.map Entry.unplaced) := by
  refine within_unplaced (fun reached t => ?_) true a.way origin t
  have hway : a.unplaced.way = a.way := rfl
  have hkey : a.unplaced.key = a.key := rfl
  rw [hway, hkey, entry?_unplaced, Option.isSome_map]
  split_ifs
  · rfl
  · rfl
  · simp [Entry.unplaced, Assignment.unplaced]

lemma assignAll_unplaced (origin : Origin) (t : Table) (as : List Assignment) :
    assignAll origin (t.map Entry.unplaced) (as.map Assignment.unplaced) =
      (assignAll origin t as).map (List.map Entry.unplaced) := by
  induction as generalizing t with
  | nil => rfl
  | cons a as ih =>
    unfold assignAll at ih ⊢
    rw [List.map_cons, List.foldlM_cons, List.foldlM_cons, assign_unplaced]
    cases assign origin t a with
    | none => rfl
    | some u => exact ih u

/-- Assignments that differ in places only make tables that do. -/
lemma assignAll_congr {as as' : List Assignment} {u : Table}
    (h : as.map Assignment.unplaced = as'.map Assignment.unplaced)
    (hu : assignAll origin [] as = some u) :
    ∃ u', assignAll origin [] as' = some u' ∧
      u.map Entry.unplaced = u'.map Entry.unplaced := by
  have he := assignAll_unplaced origin [] as
  rw [h, assignAll_unplaced, hu] at he
  obtain ⟨u', hu', e⟩ := Option.map_eq_some_iff.1 he
  exact ⟨u', hu', e.symm⟩

end Table

/-! ### Data -/

mutual

/-- **The data of a node do not depend on places.** -/
theorem data_unplaced : ∀ node : Node, node.unplaced.data = node.data
  | .scalar s => rfl
  | .array items => by rw [Node.unplaced, Node.data, Node.data, dataOfItems_unplaced items]
  | .tables elements => by rw [Node.unplaced, Node.data, Node.data, dataOfItems_unplaced elements]
  | .table origin [] => rfl
  | .table origin (⟨key, extent, content⟩ :: rest) => by
    rw [Node.unplaced, unplacedEntries, Node.data, Node.data, data_unplaced content,
      dataOfEntries_unplaced rest]
    have hspelled : content.unplaced.spelledDatetime = content.spelledDatetime := by
      cases content <;> rfl
    rw [hspelled]

theorem dataOfItems_unplaced : ∀ nodes : List Node,
    dataOfItems (unplacedItems nodes) = dataOfItems nodes
  | [] => rfl
  | node :: rest => by
    rw [unplacedItems, dataOfItems, dataOfItems, data_unplaced node, dataOfItems_unplaced rest]

theorem dataOfEntries_unplaced : ∀ t : List (Entry Node),
    dataOfEntries (unplacedEntries t) = dataOfEntries t
  | [] => rfl
  | ⟨key, extent, content⟩ :: rest => by
    rw [unplacedEntries, dataOfEntries, dataOfEntries, data_unplaced content,
      dataOfEntries_unplaced rest]

end

end PackScope.Toml
