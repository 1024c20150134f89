import PackScope.Toml.DatetimeReader
import PackScope.Toml.Key
import PackScope.Toml.Node
import PackScope.Toml.Numeral

/-!
TOML values as they are written. Arrays may spread over lines and may end in a comma; tables in
braces stand on one line and may not. Values nest up to a limit.
-/

namespace PackScope.Toml

/-! ### Places -/

/-- The number of bytes of a text in UTF-8. -/
def byteLength (cs : List Char) : Nat := cs.foldl (fun n c => n + c.utf8Size) 0

/-- What a reader gives, with the part of the text that it took. -/
def located {α : Type} (r : Reader α) : Reader (α × Extent) := do
  let before ← get
  let a ← r
  let after ← get
  return (a, ⟨byteLength before, byteLength after⟩)

/-! ### Values without parts -/

/-- A truth value. -/
def truthValue : Reader Scalar
  | 't' :: rest => (do Reader.word "rue".toList; return .boolean true : Reader _) rest
  | 'f' :: rest => (do Reader.word "alse".toList; return .boolean false : Reader _) rest
  | _ => none

/-- **A value without parts.** -/
def scalar : Reader Scalar := fun cs =>
  match cs with
  | '"' :: _ | '\'' :: _ => (do return .string (.ofList (← anyString)) : Reader _) cs
  | 't' :: _ | 'f' :: _ => truthValue cs
  | _ => (do
    match ← Reader.optional datetime with
    | some d => return .datetime d
    | none => numeral : Reader _) cs

/-! ### Arrays -/

/-- The items of an array and its closing bracket. There may be at most so many items. -/
def items (item : Reader Node) : Nat → Reader (List Node)
  | 0 => .fail
  | n + 1 => do
    filler
    if ← .found ']' then return []
    let first ← item
    filler
    if ← .found ',' then return first :: (← items item n)
    .exactly ']'
    return [first]

/-- An array behind its opening bracket. -/
def arrayRest (item : Reader Node) : Reader Node := do
  let bound := (← get).length
  return .array (← items item bound)

/-! ### Tables in braces -/

/-- A key, the equality sign, and a value. -/
def assignment (value : Reader Node) : Reader Table.Assignment := do
  let parts ← key
  .exactly '='
  blanks
  let (content, extent) ← located value
  return ⟨parts.dropLast, parts.getLastD "", extent, content⟩

/-- The assignments of a table and its closing brace. There may be at most so many of them. -/
def assignments (value : Reader Node) : Nat → Reader (List Table.Assignment)
  | 0 => .fail
  | n + 1 => do
    let first ← assignment value
    blanks
    if ← .found ',' then return first :: (← assignments value n)
    .exactly '\x7d'
    return [first]

/-- A table behind its opening brace. -/
def bracesRest (value : Reader Node) : Reader Node := do
  blanks
  if ← .found '\x7d' then return .table .inline []
  let bound := (← get).length
  let entries ← Table.assignAll .inline [] (← assignments value bound)
  return .table .inline entries

/-! ### Values -/

/-- **A value** that nests at most so many arrays and tables. -/
def nestedValue : Nat → Reader Node
  | 0 => do return .scalar (← scalar)
  | n + 1 => fun cs =>
    match cs with
    | '[' :: rest => arrayRest (nestedValue n) rest
    | '\x7b' :: rest => bracesRest (nestedValue n) rest
    | cs => (do return .scalar (← scalar) : Reader _) cs

/-- **A value.** -/
def value : Reader Node := nestedValue depthLimit

end PackScope.Toml
