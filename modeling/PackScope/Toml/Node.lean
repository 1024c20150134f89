import PackScope.KeyMap
import PackScope.Location
import PackScope.Toml.Basic

/-!
The tree of a TOML document: its data in the order in which they are defined, with the places where
they are written and what is still allowed to be added to each table.
-/

namespace PackScope

/-- The part of a text that an item covers, as the bytes left at its start and at its end. -/
structure Extent where
  fromStart : Nat
  afterEnd : Nat
  deriving DecidableEq, Repr, Inhabited

namespace Extent

/-- The part of the text from the start of one item to the end of another. -/
def through (first last : Extent) : Extent := ⟨first.fromStart, last.afterEnd⟩

/-- The range of a file that an item covers, from the bytes of the file. -/
def range (e : Extent) (filename : String) (bytes : List UInt8) : Range :=
  .ofBytes filename bytes (bytes.length - e.fromStart) (bytes.length - e.afterEnd)

end Extent

namespace Toml

/-- What makes a table, which decides what may be added to it: a header of its own, the header of a
table inside it, a dotted key, or braces. -/
inductive Origin where
  | header
  | implied
  | dotted
  | inline
  deriving DecidableEq, Repr, Inhabited

/-- An entry of a table, with its place in the text if it has one of its own. -/
structure Entry (α : Type) where
  key : String
  extent : Option Extent
  content : α
  deriving DecidableEq, Repr, Inhabited

/-- **A node of the tree of a document.** Tables under one repeated header are the elements of a
list of tables. -/
inductive Node where
  | scalar (s : Scalar)
  | array (items : List Node)
  | table (origin : Origin) (entries : List (Entry Node))
  | tables (elements : List Node)
  deriving Repr, Inhabited

namespace Node

mutual

/-- Whether two nodes are the same, part by part and with the same places. -/
def beq : Node → Node → Bool
  | scalar s, scalar t => s = t
  | array items, array others => beqItems items others
  | table origin entries, table other others => origin = other && beqEntries entries others
  | tables elements, tables others => beqItems elements others
  | _, _ => false

/-- Whether two lists have the same nodes. -/
def beqItems : List Node → List Node → Bool
  | [], [] => true
  | a :: rest, b :: others => a.beq b && beqItems rest others
  | _, _ => false

/-- Whether two tables have the same entries. -/
def beqEntries : List (Entry Node) → List (Entry Node) → Bool
  | [], [] => true
  | ⟨key, extent, a⟩ :: rest, ⟨other, place, b⟩ :: others =>
    key = other && extent = place && a.beq b && beqEntries rest others
  | _, _ => false

end

mutual

theorem beq_iff : ∀ a b : Node, a.beq b = true ↔ a = b
  | scalar s, b => by cases b <;> simp [beq]
  | array items, b | tables items, b => by cases b <;> simp [beq, beqItems_iff items]
  | table origin entries, b => by cases b <;> simp [beq, beqEntries_iff entries]

theorem beqItems_iff : ∀ as bs : List Node, beqItems as bs = true ↔ as = bs
  | [], bs => by cases bs <;> simp [beqItems]
  | a :: rest, bs => by cases bs <;> simp [beqItems, beq_iff a, beqItems_iff rest]

theorem beqEntries_iff : ∀ es fs : List (Entry Node), beqEntries es fs = true ↔ es = fs
  | [], fs => by cases fs <;> simp [beqEntries]
  | ⟨key, extent, a⟩ :: rest, fs => by
    rcases fs with _ | ⟨⟨other, place, b⟩, others⟩ <;>
      simp [beqEntries, beq_iff a, beqEntries_iff rest, and_assoc]

end

/-- Nodes are compared by a recursion over their parts, which the kernel can run. -/
instance : DecidableEq Node := fun a b => decidable_of_iff (a.beq b) (beq_iff a b)

end Node

/-- The entries of a table, in order of definition. -/
abbrev Table := List (Entry Node)

namespace Table

/-! ### Entries -/

/-- The entry of a key. -/
def entry? (t : Table) (key : String) : Option (Entry Node) := t.find? (·.key = key)

/-- Replaces the entry of a key, which keeps its place. -/
def replace (t : Table) (e : Entry Node) : Table := t.map fun d => if d.key = e.key then e else d

/-- Removes the entry of a key. -/
def erase (t : Table) (key : String) : Table := t.filter (·.key ≠ key)

/-! ### Ways through tables -/

/-- What happens to the table at the end of a way: from its origin and entries, its new entries. -/
abbrev Change := Origin → Table → Option Table

/-- Whether a way through tables may pass a table. A dotted key passes only tables that are there
for the sake of tables inside them, a header also those that have been defined. -/
def passable (dotted : Bool) : Origin → Bool
  | .header => !dotted
  | .implied | .dotted => true
  | .inline => false

/-- Changes the last element of a list of tables. -/
def inLast (change : Change) (elements : List Node) : Option (List Node) :=
  match elements.getLast? with
  | some (.table origin entries) => do
    return elements.dropLast ++ [.table origin (← change origin entries)]
  | _ => none

/-- **Changes the table at the end of a way**, making the tables that are missing on it. A list of
tables is passed through its last element. The flag tells a dotted key from a header. -/
def within (dotted : Bool) (change : Change) : List String → Change
  | [] => change
  | key :: way => fun _ t =>
    match t.entry? key with
    | none => do
      let origin := if dotted then .dotted else .implied
      return t ++ [⟨key, none, .table origin (← within dotted change way origin [])⟩]
    | some ⟨_, extent, .table origin entries⟩ => do
      if !passable dotted origin then none
      return t.replace ⟨key, extent, .table origin (← within dotted change way origin entries)⟩
    | some ⟨_, extent, .tables elements⟩ => do
      return t.replace ⟨key, extent, .tables (← inLast (within dotted change way) elements)⟩
    | some _ => none

/-! ### Definitions -/

/-- A value with the key that it is assigned to and its place in the text. -/
structure Assignment where
  way : List String
  key : String
  extent : Extent
  content : Node
  deriving Repr, Inhabited

/-- **Assigns a value.** A table that is reached by a dotted key must have been made by one, and no
key is assigned twice. -/
def assign (origin : Origin) (t : Table) (a : Assignment) : Option Table :=
  within true (fun reached t =>
    if (reached == .dotted) = a.way.isEmpty then none
    else if (t.entry? a.key).isSome then none
    else some (t ++ [⟨a.key, a.extent, a.content⟩])) a.way origin t

/-- Assigns values one after another. -/
def assignAll (origin : Origin) (t : Table) (as : List Assignment) : Option Table :=
  as.foldlM (assign origin) t

/-- A header with the assignments below it. A repeated header defines an element of a list of
tables. -/
structure Section where
  way : List String
  key : String
  repeated : Bool
  extent : Extent
  body : List Assignment
  deriving Repr, Inhabited

/-- A section from its header to the last value in its body. -/
def Section.whole (s : Section) : Extent :=
  match s.body.getLast? with
  | some a => s.extent.through a.extent
  | none => s.extent

/-- **Defines the table of a section.** A table that its own sub-tables implied is completed, and
moves behind all tables defined before it; any other table or value of that name is an error. -/
def define (t : Table) (s : Section) : Option Table :=
  within false (fun _ t =>
    match t.entry? s.key, s.repeated with
    | none, false => do
      return t ++ [⟨s.key, s.whole, .table .header (← assignAll .header [] s.body)⟩]
    | none, true => do
      return t ++ [⟨s.key, s.whole, .tables [.table .header (← assignAll .header [] s.body)]⟩]
    | some ⟨_, _, .table .implied entries⟩, false => do
      return t.erase s.key ++
        [⟨s.key, s.whole, .table .header (← assignAll .header entries s.body)⟩]
    | some ⟨_, extent, .tables elements⟩, true => do
      let element := .table .header (← assignAll .header [] s.body)
      return t.replace
        ⟨s.key, (extent.getD s.extent).through s.whole, .tables (elements ++ [element])⟩
    | _, _ => none) s.way .header t

end Table

end Toml

end PackScope
