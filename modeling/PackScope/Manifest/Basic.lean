import PackScope.Mismatch
import PackScope.Pack

/-!
Pack manifests: the description of a pack and of all that it depends on.
-/

namespace PackScope

/-- **A manifest**: a pack, its application, the key it wants among the dependencies of another, and
the packs that it depends on. -/
structure Manifest where
  pack : PackInfo
  app : AppInfo := {}
  aliasName : Option String := none
  dependencies : List Manifest := []
  deriving Repr, Inhabited

namespace Manifest

mutual

/-- Whether two manifests are the same, with all dependencies in the same order. -/
def beq : Manifest → Manifest → Bool
  | ⟨pack, app, aliasName, dependencies⟩, ⟨pack', app', aliasName', dependencies'⟩ =>
    pack = pack' && app = app' && aliasName = aliasName' && beqAll dependencies dependencies'

/-- Whether two lists have the same manifests. -/
def beqAll : List Manifest → List Manifest → Bool
  | [], [] => true
  | m :: rest, n :: others => m.beq n && beqAll rest others
  | _, _ => false

end

mutual

theorem beq_iff : ∀ m n : Manifest, m.beq n = true ↔ m = n
  | ⟨_, _, _, dependencies⟩, n => by cases n; simp [beq, beqAll_iff dependencies, and_assoc]

theorem beqAll_iff : ∀ ms ns : List Manifest, beqAll ms ns = true ↔ ms = ns
  | [], ns => by cases ns <;> simp [beqAll]
  | m :: rest, ns => by cases ns <;> simp [beqAll, beq_iff m, beqAll_iff rest]

end

/-- Manifests are compared by a recursion over their parts, which the kernel can run. -/
instance : DecidableEq Manifest := fun m n => decidable_of_iff (m.beq n) (beq_iff m n)

end Manifest

/-- What is wrong with the name of a pack. -/
inductive NameFault where
  | empty
  | reserved
  | characters
  deriving DecidableEq, Repr, Inhabited

/-- **Why a text is not accepted as a manifest.** -/
inductive ManifestError where
  | unreadable (e : ReadError)
  | invalidName (name : String) (fault : NameFault)
  | duplicateDependency (pack key : String)
  deriving DecidableEq, Repr, Inhabited

namespace Manifest

/-- The key of a manifest among the dependencies of another: its alias, or the name of its pack. -/
def key (m : Manifest) : String := m.aliasName.getD m.pack.name

mutual

/-- **The tree of packs that a manifest describes.** -/
def toPack : Manifest → Pack
  | ⟨pack, app, aliasName, dependencies⟩ =>
    let described := (Pack.new pack.name).withMetadata ⟨app, pack⟩
    let named := match aliasName with
      | some aliasName => described.withAlias aliasName
      | none => described
    attach named dependencies

/-- A pack with the packs of some manifests as dependencies. -/
def attach (p : Pack) : List Manifest → Pack
  | [] => p
  | m :: rest => attach (p.withDependency m.toPack) rest

end

/-- The entries of a pack in a manifest. -/
def packFields (pack : PackInfo) : List (String × Json) :=
  [("name", .string pack.name)] ++ optionalField "description" pack.description ++
    optionalField "version" pack.version ++ optionalField "url" pack.url

mutual

/-- The JSON object of a manifest, with its fields in the order in which they are declared. -/
def toJson : Manifest → Json
  | ⟨pack, app, aliasName, dependencies⟩ =>
    .object
      [("pack", .object (packFields pack)),
       ("app", .object app.fields),
       ("alias", match aliasName with | some aliasName => .string aliasName | none => .null),
       ("dependencies", .array (allToJson dependencies))]

/-- The JSON objects of several manifests. -/
def allToJson : List Manifest → List Json
  | [] => []
  | m :: rest => m.toJson :: allToJson rest

end

end Manifest

end PackScope
