/-!
Readers, which take a value off the front of a text. A reader fails or gives the value and the rest
of the text, and no reader looks at the text in front of it.
-/

namespace PackScope

/-- **A reader**: the state is the text still to be read. -/
abbrev Reader := StateT (List Char) Option

namespace Reader

variable {α : Type}

/-- Reads nothing and fails. -/
def fail : Reader α := fun _ => none

/-- The next character, if it satisfies a test. -/
def satisfying (test : Char → Bool) : Reader Char
  | c :: rest => if test c then some (c, rest) else none
  | [] => none

/-- A given character. -/
def exactly (c : Char) : Reader Unit := do
  let _ ← satisfying (· = c)

/-- A given text. -/
def word : List Char → Reader Unit
  | [] => pure ()
  | c :: cs => do exactly c; word cs

/-- Whether a given character comes next; it is taken if it does. -/
def found (c : Char) : Reader Bool
  | d :: rest => some (if d = c then (true, rest) else (false, d :: rest))
  | [] => some (false, [])

/-- All characters up to the first one that fails a test. -/
def run (test : Char → Bool) : Reader (List Char) :=
  fun cs => some (cs.takeWhile test, cs.dropWhile test)

/-- Drops all characters up to the first one that fails a test. -/
def skip (test : Char → Bool) : Reader Unit :=
  fun cs => some ((), cs.dropWhile test)

/-- What a reader gives, or nothing and an untouched text if it fails. -/
def optional (r : Reader α) : Reader (Option α) := fun cs =>
  match r cs with
  | some (a, rest) => some (some a, rest)
  | none => some (none, cs)

/-- Succeeds at the end of the text only. -/
def atEnd : Reader Unit
  | [] => some ((), [])
  | _ :: _ => none

/-- The value of a whole text. -/
def readAll (r : Reader α) (cs : List Char) : Option α :=
  match r cs with
  | some (a, []) => some a
  | _ => none

end Reader

end PackScope
