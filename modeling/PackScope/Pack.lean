import PackScope.Identifier
import PackScope.Json.Basic

/-!
Trees of packs. Each pack carries the name under which its variables are declared, which follows
from its place in the tree unless it was chosen.
-/

namespace PackScope

/-! ### Metadata -/

/-- What is known of the application that a pack belongs to. -/
structure AppInfo where
  url : Option String := none
  deriving DecidableEq, Repr, Inhabited

/-- What is known of a pack. -/
structure PackInfo where
  name : String
  description : Option String := none
  version : Option String := none
  url : Option String := none
  deriving DecidableEq, Repr, Inhabited

/-- What templates can see of a pack beside its variables. -/
structure Metadata where
  app : AppInfo := {}
  pack : PackInfo
  deriving DecidableEq, Repr, Inhabited

/-- An entry of an object for a text that may be missing. -/
def optionalField (key : String) (text : Option String) : List (String × Json) :=
  match text with
  | some text => [(key, .string text)]
  | none => []

/-- The entries that describe an application. -/
def AppInfo.fields (app : AppInfo) : List (String × Json) := optionalField "url" app.url

/-- The entries that describe a pack and its application, in key order. -/
def Metadata.fields (m : Metadata) : List (String × Json) :=
  [("app", .object m.app.fields),
   ("pack", .object (optionalField "description" m.pack.description ++
      [("name", .string m.pack.name)] ++ optionalField "url" m.pack.url ++
      optionalField "version" m.pack.version))]

/-! ### Packs -/

/-- **A pack with the packs that it depends on.** Its variables are declared under `path`, which was
chosen for it or else follows from its place. -/
structure Pack where
  name : String
  aliasName : Option String
  path : PackId
  pathChosen : Bool
  metadata : Metadata
  dependencies : List Pack
  deriving Repr, Inhabited

namespace Pack

/-- A pack that depends on nothing. Its variables are declared under its name. -/
def new (name : String) : Pack where
  name := name
  aliasName := none
  path := ⟨name⟩
  pathChosen := false
  metadata := { pack := { name := name } }
  dependencies := []

/-- The key of a pack among the dependencies of another: its alias, or its name. -/
def key (p : Pack) : String := p.aliasName.getD p.name

mutual

/-- Moves a pack below a parent path. A chosen path stays. -/
def rebase (parent : PackId) : Pack → Pack
  | ⟨name, aliasName, path, chosen, metadata, dependencies⟩ =>
    let path := if chosen then path else parent.join (aliasName.getD name)
    ⟨name, aliasName, path, chosen, metadata, rebaseAll path dependencies⟩

/-- Moves packs below a parent path. -/
def rebaseAll (parent : PackId) : List Pack → List Pack
  | [] => []
  | p :: rest => p.rebase parent :: rebaseAll parent rest

end

/-! ### Building -/

/-- Gives a pack an alias. Its path follows when it becomes a dependency. -/
def withAlias (p : Pack) (aliasName : String) : Pack := { p with aliasName := some aliasName }

/-- Describes a pack; its own name stays. -/
def withMetadata (p : Pack) (metadata : Metadata) : Pack := { p with metadata := metadata }

/-- Chooses the path of a pack and moves its dependencies below it. -/
def withPath (p : Pack) (path : PackId) : Pack :=
  { p with path := path, pathChosen := true, dependencies := rebaseAll path p.dependencies }

/-- Adds a dependency, below the path of the pack. -/
def withDependency (p dependency : Pack) : Pack :=
  { p with dependencies := p.dependencies ++ [dependency.rebase p.path] }

/-- One step in building a pack. -/
inductive Step where
  | aliasName (name : String)
  | path (path : PackId)
  | metadata (metadata : Metadata)
  | dependency (pack : Pack)

/-- Takes one step. -/
def step (p : Pack) : Step → Pack
  | .aliasName name => p.withAlias name
  | .path path => p.withPath path
  | .metadata metadata => p.withMetadata metadata
  | .dependency pack => p.withDependency pack

/-- **The pack built by some steps.** -/
def build (name : String) (steps : List Step) : Pack := steps.foldl step (new name)

end Pack

end PackScope
