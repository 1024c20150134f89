import PackScope.Location

/-!
Problem reports. Work on a batch of variables goes on past a failure and hands its reports back as
a list, in the order in which they were found.
-/

namespace PackScope

/-- How serious a report is. -/
inductive Severity
  | error
  | warning
  deriving DecidableEq, Repr, Inhabited

/-- The word for a severity. -/
def Severity.text : Severity → String
  | .error => "error"
  | .warning => "warning"

/-- One report: what happened, the particulars, and the declaration that it is about. -/
structure Diagnostic where
  severity : Severity
  summary : String
  detail : String
  subject : Option Range := none
  deriving DecidableEq, Repr, Inhabited

namespace Diagnostic

/-- Whether a report is an error. -/
def isError (d : Diagnostic) : Bool := d.severity = .error

/-- A report on one line, led by the place it is about. -/
def text (d : Diagnostic) : String :=
  (match d.subject with
    | some range => range.text ++ ": "
    | none => "") ++
  d.severity.text ++ ": " ++ d.summary ++
  (if d.detail.isEmpty then "" else "; " ++ d.detail)

end Diagnostic

/-- Reports in the order in which they were found. -/
abbrev Diagnostics := List Diagnostic

namespace Diagnostics

/-- The reports that are errors. -/
def errors (ds : Diagnostics) : Diagnostics := ds.filter Diagnostic.isError

/-- Whether any report is an error. -/
def hasErrors (ds : Diagnostics) : Bool := ds.any Diagnostic.isError

/-- The reports, one on a line. -/
def text (ds : Diagnostics) : String := "\n".intercalate (ds.map Diagnostic.text)

end Diagnostics

end PackScope
