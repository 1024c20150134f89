import PackScope.Json.Basic
import PackScope.Location

/-!
Places in source texts as JSON objects.
-/

namespace PackScope

/-- A position as an object. -/
def Position.toJson (p : Position) : Json :=
  .object [("line", .integer p.line), ("column", .integer p.column), ("byte", .integer p.byte)]

/-- A range as an object. -/
def Range.toJson (r : Range) : Json :=
  .object [("filename", .string r.filename), ("start", r.start.toJson), ("end", r.stop.toJson)]

end PackScope
