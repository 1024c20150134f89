import PackScope.Manifest.Basic
import PackScope.Scope

/-!
The rules for the names in a manifest. Names are made of letters, digits, hyphens and underscores,
the key of the current pack is reserved, and no pack has two dependencies with one key. Of several
faults the one that is met first is reported.
-/

namespace PackScope

/-- What is wrong with a name, in words. -/
def NameFault.reason : NameFault → String
  | empty => "pack name must not be empty"
  | reserved => "'" ++ currentKey ++ "' is reserved for the current pack"
  | characters =>
    "pack name must contain only alphanumeric characters, hyphens, or underscores"

/-- The message for a rejected manifest; a text that cannot be read has its own message. -/
def ManifestError.message : ManifestError → String
  | unreadable .malformed => ""
  | unreadable (.mismatch m) => m.message
  | invalidName name fault => "invalid pack name '" ++ name ++ "': " ++ fault.reason
  | duplicateDependency pack key =>
    "pack '" ++ pack ++ "' declares more than one dependency named '" ++ key ++ "'"

namespace Manifest

/-- Whether a character may stand in the name of a pack. -/
def isNameChar (c : Char) : Bool := c.isAlphanum || c = '-' || c = '_'

/-- What is wrong with a name, if anything is. -/
def nameFault? (name : String) : Option NameFault :=
  if name.isEmpty then some .empty
  else if name = currentKey then some .reserved
  else if !name.toList.all isNameChar then some .characters
  else none

/-- Checks a name. -/
def checkName (name : String) : Except ManifestError Unit :=
  match nameFault? name with
  | some fault => .error (.invalidName name fault)
  | none => .ok ()

/-- Checks a name that may be missing. -/
def checkAlias : Option String → Except ManifestError Unit
  | some name => checkName name
  | none => .ok ()

mutual

/-- **Checks a manifest**: its name, its alias, and then its dependencies. -/
def check : Manifest → Except ManifestError Unit
  | ⟨pack, _, aliasName, dependencies⟩ => do
    checkName pack.name
    checkAlias aliasName
    checkDependencies pack.name [] dependencies

/-- Checks dependencies one after another, each whole before its key is compared with the keys of
those before it. -/
def checkDependencies (pack : String) (earlier : List String) :
    List Manifest → Except ManifestError Unit
  | [] => .ok ()
  | m :: rest => do
    m.check
    if m.key ∈ earlier then throw (.duplicateDependency pack m.key)
    checkDependencies pack (m.key :: earlier) rest

end

end Manifest

end PackScope
