import PackScope.Command.Arguments
import PackScope.Command.Outcome
import PackScope.LegacyFile
import PackScope.Manifest.Reader
import PackScope.OverrideFile
import PackScope.Scope

/-!
Running a command. All files are read before anything is written, so a command that fails on a file
leaves no trace; reports on variables do not keep the result from being printed.
-/

namespace PackScope

namespace Command

/-! ### Reading -/

/-- Reads the variables of an override file. -/
def readOverrides (files : Files) (path : String) : Except Failure VariableSet := do
  let text ← (files.read path).mapError (.file path)
  (OverrideFile.read path text).mapError (.overrideFile path)

/-- The variables of override files, each layered over those before it. -/
def readLayers (files : Files) (paths : List String) : Except Failure VariableSet :=
  paths.foldlM (fun set path => do return set.overlay (← readOverrides files path)) .empty

/-- Reads the variables of a legacy file. -/
def readLegacy (files : Files) (path : String) : Except Failure LegacySet := do
  let text ← (files.read path).mapError (.file path)
  (LegacyFile.read path text).mapError (.legacyFile path)

/-- Reads a manifest. -/
def readManifest (files : Files) (path : String) : Except Failure Manifest := do
  let text ← (files.read path).mapError fun fault =>
    if fault.isAbsence then .noManifest path else .manifestFile fault
  (Manifest.read text).mapError .manifest

/-! ### Commands -/

/-- Prints the dump of a store, or writes it to a file. -/
def emit (files : Files) (store : Store) : Option String → Except Failure Outcome
  | none => .ok { stdout := store.dump }
  | some path =>
    match files.writeFault? path with
    | some fault => .error (.file path fault)
    | none => .ok { written := some (path, store.dump) }

/-- What a command does, if all that it reads can be read. -/
def perform (files : Files) : Command → Except Failure Outcome
  | varfile paths output => do
    emit files (.unified (← readLayers files paths)) output
  | context manifest paths => do
    let pack := (← readManifest files manifest).toPack
    let (scope, reports) := (Store.unified (← readLayers files paths)).scope pack
    return .printing scope.toJson reports
  | flattenLegacy path => do
    let store := Store.legacy (← readLegacy files path)
    return .printing store.flat store.flatFailures
  | flatten paths => do
    let store := Store.unified (← readLayers files paths)
    return .printing store.flat store.flatFailures

/-- **Runs a command.** -/
def run (files : Files) (command : Command) : Outcome :=
  match command.perform files with
  | .ok outcome => outcome
  | .error failure => .failed failure

/-- The paths that a command reads, in the order in which it reads them. -/
def inputs : Command → List String
  | varfile paths _ => paths
  | context manifest paths => manifest :: paths
  | flattenLegacy path => [path]
  | flatten paths => paths

end Command

namespace Request

/-- **Does what is asked for.** -/
def run (files : Files) : Request → Outcome
  | .command c => c.run files
  | .help => { stdout := usageText }
  | .version => { stdout := versionText }
  | .misuse => .failed .misuse

/-- The paths that are read to do what is asked for. -/
def inputs : Request → List String
  | .command c => c.inputs
  | _ => []

end Request

end PackScope
