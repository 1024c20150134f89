import PackScope.Manifest.Validation
import PackScope.Toml.Document
import PackScope.Toml.Shape

/-!
Manifests as they are read from TOML. A record is a table with named fields, or an array with its
fields in the order in which they are declared; fields that are not known and items behind the last
field are ignored. Fields are read in the order in which they are defined in the text, and a missing
field is noticed after that.
-/

namespace PackScope

open Toml

namespace Toml

/-- The text of a node that is one. -/
def Node.text : Node → Except Mismatch String
  | scalar (.string s) => .ok s
  | node => .error (.kind node.found "a string")

/-- The text of a node, for a field that may be missing. -/
def Node.optionalText (node : Node) : Except Mismatch (Option String) := node.text.map some

/-- The text of the first of some items, if there is one. -/
def firstText : List Node → Except Mismatch (Option String)
  | [] => .ok none
  | item :: _ => item.optionalText

/-- The fields of a record: by name, or by position. A date-time is a record without any field that
is known. -/
inductive Fields where
  | named (entries : Table)
  | positional (items : List Node)

/-- The fields of a node that stands for a record. -/
def Node.fields (record : String) : Node → Except Mismatch Fields
  | table _ entries => .ok (.named entries)
  | array items | tables items => .ok (.positional items)
  | scalar (.datetime _) => .ok (.named [])
  | node => .error (.kind node.found ("struct " ++ record))

end Toml

/-! ### Applications and packs -/

/-- The application that a node describes. -/
def AppInfo.ofNode (node : Node) : Except Mismatch AppInfo := do
  match ← node.fields "AppMetadata" with
  | .positional items => return ⟨← firstText items⟩
  | .named entries =>
    entries.foldlM (fun app e => do
      if e.key = "url" then return ⟨← e.content.optionalText⟩ else return app) {}

/-- The fields of a pack that have been read so far. -/
structure PackDraft where
  name : Option String := none
  info : PackInfo := { name := "" }

/-- Reads one field of a pack. -/
def PackDraft.read (draft : PackDraft) (e : Entry Node) : Except Mismatch PackDraft := do
  if e.key = "name" then return { draft with name := some (← e.content.text) }
  else if e.key = "description" then
    return { draft with info.description := ← e.content.optionalText }
  else if e.key = "version" then return { draft with info.version := ← e.content.optionalText }
  else if e.key = "url" then return { draft with info.url := ← e.content.optionalText }
  else return draft

/-- The pack of a draft, which must have a name. -/
def PackDraft.finish (draft : PackDraft) : Except Mismatch PackInfo :=
  match draft.name with
  | some name => .ok { draft.info with name := name }
  | none => .error (.missingField "name")

/-- The pack that a node describes. -/
def PackInfo.ofNode (node : Node) : Except Mismatch PackInfo := do
  match ← node.fields "PackInfo" with
  | .positional [] => throw (.tooShort 0 "PackInfo" 4)
  | .positional (name :: rest) =>
    return ⟨← name.text, ← firstText rest, ← firstText (rest.drop 1), ← firstText (rest.drop 2)⟩
  | .named entries => (← entries.foldlM PackDraft.read {}).finish

namespace Manifest

/-! ### Manifests -/

/-- The fields of a manifest that have been read so far. -/
structure Draft where
  pack : Option PackInfo := none
  app : AppInfo := {}
  aliasName : Option String := none
  dependencies : List Manifest := []

/-- The manifest of a draft, which must have a pack. -/
def Draft.finish (draft : Draft) : Except Mismatch Manifest :=
  match draft.pack with
  | some pack => .ok ⟨pack, draft.app, draft.aliasName, draft.dependencies⟩
  | none => .error (.missingField "pack")

mutual

/-- **The manifest that a node describes.** -/
def ofNode : Node → Except Mismatch Manifest
  | .table _ entries => do (← readFields {} entries).finish
  | .array items | .tables items => ofItems items
  | .scalar (.datetime _) => ({} : Draft).finish
  | .scalar s => .error (.kind s.found "struct PackManifest")

/-- Reads the fields of a table one after another. -/
def readFields (draft : Draft) : List (Entry Node) → Except Mismatch Draft
  | [] => .ok draft
  | ⟨key, _, content⟩ :: rest => do
    let draft : Draft ←
      if key = "pack" then pure { draft with pack := some (← PackInfo.ofNode content) }
      else if key = "app" then pure { draft with app := ← AppInfo.ofNode content }
      else if key = "alias" then pure { draft with aliasName := ← content.optionalText }
      else if key = "dependencies" then
        pure { draft with dependencies := ← dependenciesOf content }
      else pure draft
    readFields draft rest

/-- The manifest whose fields are the items of an array. -/
def ofItems : List Node → Except Mismatch Manifest
  | [] => .error (.tooShort 0 "PackManifest" 4)
  | [pack] => do return ⟨← PackInfo.ofNode pack, {}, none, []⟩
  | [pack, app] => do return ⟨← PackInfo.ofNode pack, ← AppInfo.ofNode app, none, []⟩
  | [pack, app, aliasName] => do
    return ⟨← PackInfo.ofNode pack, ← AppInfo.ofNode app, ← aliasName.optionalText, []⟩
  | pack :: app :: aliasName :: dependencies :: _ => do
    return ⟨← PackInfo.ofNode pack, ← AppInfo.ofNode app, ← aliasName.optionalText,
      ← dependenciesOf dependencies⟩

/-- The manifests of the packs that a node lists as dependencies. -/
def dependenciesOf : Node → Except Mismatch (List Manifest)
  | .array items | .tables items => ofAll items
  | .table _ _ => .error (.kind .map "a sequence")
  | .scalar s => .error (.kind s.found "a sequence")

/-- The manifests of several nodes. -/
def ofAll : List Node → Except Mismatch (List Manifest)
  | [] => .ok []
  | node :: rest => do return (← ofNode node) :: (← ofAll rest)

end

/-- The manifest of a text, before its names are checked. -/
def parse (text : String) : Except ReadError Manifest :=
  match Table.read? text with
  | none => .error .malformed
  | some root => (ofNode (.table .header root)).mapError .mismatch

/-- **Reads a manifest** and checks its names. -/
def read (text : String) : Except ManifestError Manifest := do
  let m ← (parse text).mapError .unreadable
  m.check
  return m

end Manifest

end PackScope
