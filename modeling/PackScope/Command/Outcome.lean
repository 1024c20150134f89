import PackScope.Command.Files
import PackScope.Diagnostic
import PackScope.Json.Printer
import PackScope.Manifest.Validation

/-!
What comes of running the program: what it prints, the file that it writes, what it reports, and the
failure that it ends with, if it fails.
-/

namespace PackScope

/-- The name and the version of the program. -/
def versionText : String := "packvars 0.1.0\n"

/-- How the program is used. -/
def usageText : String :=
  "Usage: packvars [-v] <command>\n\n" ++
  "  varfile <FILES>... [-o <FILE>]           merge override files into one\n" ++
  "  context -p <FILE> [--vars <FILE>]...     print the scope of a pack as JSON\n" ++
  "  flatten [--legacy <FILE>] [--vars <FILE>]...\n" ++
  "                                           print the flat map as JSON\n"

/-! ### Failures -/

/-- **Why the program fails.** -/
inductive Failure where
  | misuse
  | file (path : String) (fault : FileFault)
  | noManifest (path : String)
  | manifestFile (fault : FileFault)
  | manifest (e : ManifestError)
  | overrideFile (path : String) (e : ReadError)
  | legacyFile (path : String) (e : ReadError)
  | failedVariables (count : Nat)
  deriving DecidableEq, Repr, Inhabited

/-- What is wrong with a text that cannot be read. -/
def ReadError.message (format : String) : ReadError → String
  | malformed => "not a well-formed " ++ format ++ " text"
  | mismatch m => m.message

namespace Failure

/-- What failed. -/
def subject : Failure → String
  | misuse => "these arguments make no sense\n\n" ++ usageText
  | file path fault => path ++ ": " ++ fault.message
  | noManifest path => "pack manifest not found: " ++ path
  | manifestFile fault => "I/O error: " ++ fault.message
  | manifest (.unreadable _) => "failed to parse pack manifest: "
  | manifest e => e.message
  | overrideFile path _ => "failed to parse override file " ++ path ++ ": "
  | legacyFile path _ => "failed to parse legacy variables " ++ path ++ ": "
  | failedVariables count => s!"{count} variable error(s) found"

/-- Why a text could not be read, for a failure to read one. -/
def cause? : Failure → Option String
  | manifest (.unreadable e) => some (e.message "TOML")
  | overrideFile _ e => some (e.message "TOML")
  | legacyFile _ e => some (e.message "JSON")
  | _ => none

/-- The message for a failure. -/
def message (f : Failure) : String := f.subject ++ f.cause?.getD ""

end Failure

/-! ### Outcomes -/

/-- **What the program does.** -/
structure Outcome where
  stdout : String := ""
  written : Option (String × String) := none
  reports : Diagnostics := []
  failure : Option Failure := none
  deriving Repr, Inhabited

namespace Outcome

/-- The outcome of a failure before anything was printed or written. -/
def failed (f : Failure) : Outcome := { failure := some f }

/-- The exit status. -/
def status (o : Outcome) : UInt32 :=
  match o.failure with
  | none => 0
  | some .misuse => 2
  | some _ => 1

/-- Messages, each on a line. -/
def lines (messages : List String) : String := String.join (messages.map (· ++ "\n"))

/-- What is printed as messages: the reports, and the failure. -/
def stderr (o : Outcome) : String :=
  lines (o.reports.map Diagnostic.text ++
    o.failure.toList.map fun f => "error: " ++ f.message)

/-- The outcome of printing JSON data with reports: it is a failure if a report is an error. -/
def printing (json : Json) (reports : Diagnostics) : Outcome where
  stdout := json.prettyText ++ "\n"
  reports := reports
  failure :=
    if reports.hasErrors then some (.failedVariables reports.errors.length) else none

end Outcome

end PackScope
