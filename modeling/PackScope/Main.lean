import PackScope.Command.Run

/-!
The program itself: it reads the files that its arguments name, works on their contents, and prints
or writes what comes out.
-/

namespace PackScope

/-- The fault that an error of the system stands for. -/
def FileFault.ofError : IO.Error → FileFault
  | .noFileOrDirectory .. => .missing
  | .inappropriateType none .. => .isDirectory
  | .inappropriateType (some _) .. => .notDirectory
  | .invalidArgument .. => .nameTooLong
  | e => .other (toString e)

/-- Reads a path as a text. -/
def readPath (path : String) : IO (Except FileFault String) := do
  try
    match String.fromUTF8? (← IO.FS.readBinFile path) with
    | some text => return .ok text
    | none => return .error .notText
  catch e => return .error (.ofError e)

/-- The files at some paths, as they are when they are read. -/
def readPaths (paths : List String) : IO Files := do
  let contents ← paths.mapM fun path => do return (path, ← readPath path)
  return ⟨fun path => (contents.lookup path).getD (.error .missing), fun _ => none⟩

/-- Does what an outcome says. -/
def carryOut (o : Outcome) : IO UInt32 := do
  IO.print o.stdout
  let o ← match o.written with
    | none => pure o
    | some (path, text) =>
      try
        IO.FS.writeFile path text
        pure o
      catch e => pure (.failed (.file path (.ofError e)))
  IO.eprint o.stderr
  return o.status

end PackScope

open PackScope in
/-- Runs the program with its arguments. -/
def main (args : List String) : IO UInt32 := do
  let request := Arguments.read args
  carryOut (request.run (← readPaths request.inputs))
