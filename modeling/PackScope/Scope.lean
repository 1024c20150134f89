import PackScope.Pack
import PackScope.Store

/-!
Template scopes. A scope shows a template the current pack and, under their keys, the scopes of the
packs that it depends on. The key of the current pack is reserved, and of two dependencies with one
key the last one is shown.
-/

namespace PackScope

/-- The key that stands for the current pack. -/
def currentKey : String := "_self"

/-- What a scope shows of one pack. -/
structure PackView where
  pack : Pack
  vars : List (String × Json)
  metadata : List (String × Json)
  deriving Repr, Inhabited

/-- **A scope**: the current pack, and the scopes of its dependencies in key order. -/
structure Scope where
  current : PackView
  dependencies : List (String × Scope)
  deriving Repr, Inhabited

/-! ### Reports -/

/-- A dependency of a pack, as it is named in reports. -/
def dependencyLabel (pack : String) (dependency : Pack) : String :=
  "dependency '" ++ dependency.name ++ "' at '" ++ dependency.path.text ++
    "' of pack '" ++ pack ++ "'"

/-- The report of a dependency that has the reserved key. -/
def reservedKey (pack : String) (dependency : Pack) : Diagnostic where
  severity := .error
  summary := "Dependency key is reserved"
  detail :=
    dependencyLabel pack dependency ++ " uses the key '" ++ currentKey ++
      "', which holds the current pack; it was not added"

/-- The report of a dependency that has the key of an earlier one. -/
def repeatedKey (pack : String) (dependency : Pack) : Diagnostic where
  severity := .warning
  summary := "Duplicate dependency key"
  detail :=
    dependencyLabel pack dependency ++ " reuses the key '" ++ dependency.key ++
      "'; the last one was kept"

namespace Scope

/-! ### Scopes of packs -/

mutual

/-- **The scope of a pack**, and the reports: on its own variables, then on each dependency. What is
shown of the variables of a pack is given, with the reports on them. -/
def ofPack (own : PackId → List (String × Json) × Diagnostics) : Pack → Scope × Diagnostics
  | ⟨name, aliasName, path, chosen, metadata, dependencies⟩ =>
    let (vars, failures) := own path
    let pack := ⟨name, aliasName, path, chosen, metadata, dependencies⟩
    let (nested, reports) := ofDependencies own name [] dependencies
    (⟨⟨pack, vars, metadata.fields⟩, nested⟩, failures ++ reports)

/-- The scopes of dependencies, added to those of earlier ones, and the reports. -/
def ofDependencies (own : PackId → List (String × Json) × Diagnostics) (parent : String)
    (earlier : List (String × Scope)) : List Pack → List (String × Scope) × Diagnostics
  | [] => (earlier, [])
  | dependency :: rest =>
    if dependency.key = currentKey then
      let (scopes, reports) := ofDependencies own parent earlier rest
      (scopes, reservedKey parent dependency :: reports)
    else
      let (scope, below) := ofPack own dependency
      let repeated := (Entries.get? dependency.key earlier).isSome
      let (scopes, reports) :=
        ofDependencies own parent (Entries.insert dependency.key scope earlier) rest
      (scopes, below ++ (if repeated then [repeatedKey parent dependency] else []) ++ reports)

end

/-! ### Reading -/

/-- The scope of a direct dependency. -/
def dependency? (s : Scope) (key : String) : Option Scope := Entries.get? key s.dependencies

/-- All keys of a scope with the reserved one, sorted. -/
def keys (s : Scope) : List String := sortKeys (currentKey :: s.dependencies.map Prod.fst)

/-! ### Renderings -/

mutual

/-- **The JSON object of a scope**, in key order at every level. -/
def toJson : Scope → Json
  | ⟨current, dependencies⟩ =>
    .object (insertAll dependencies
      [(currentKey, .object
        [("meta", .object current.metadata), ("vars", .object current.vars)])])

/-- Adds the JSON objects of dependencies to an object. -/
def insertAll : List (String × Scope) → List (String × Json) → List (String × Json)
  | [], entries => entries
  | (key, scope) :: rest, entries => insertAll rest (Entries.insert key scope.toJson entries)

end

mutual

/-- **The JSON object of a scope as it is written out**: the current pack first, its variables
before its metadata, and then the dependencies in key order. -/
def written : Scope → Json
  | ⟨current, dependencies⟩ =>
    .object ((currentKey, .object
      [("vars", .object current.vars), ("meta", .object current.metadata)]) ::
      writtenAll dependencies)

/-- The entries of dependencies as they are written out. -/
def writtenAll : List (String × Scope) → List (String × Json)
  | [] => []
  | (key, scope) :: rest => (key, scope.written) :: writtenAll rest

end

end Scope

/-- The scope of a pack over the variables of a store, and the reports. -/
def Store.scope (store : Store) (pack : Pack) : Scope × Diagnostics :=
  Scope.ofPack store.contents.converted pack

end PackScope
