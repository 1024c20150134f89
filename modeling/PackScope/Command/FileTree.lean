import PackScope.Command.Files

/-!
Trees of files. A path is followed name by name from the root of a tree or from its current
directory, and every name but the last one must be that of a directory. There are no symbolic links
and no permissions in a tree, so a path fails only for what is or is not at its names; and paths are
texts, so there is none that is not UTF-8.
-/

namespace PackScope

/-- The names of the directories from the root to a place, and the name of the place. -/
abbrev Place := List String

/-- **A tree of files**: its files with their bytes, directories that need not hold any files, and
the directory at which relative paths start. -/
structure FileTree where
  files : List (Place × ByteArray)
  directories : List Place := []
  current : Place := []

/-- A path taken apart: whether it starts at the root, its names, and whether a slash ends it. -/
structure PathParts where
  fromRoot : Bool
  names : List String
  slash : Bool
  deriving DecidableEq, Repr

/-- The parts of a path. Several slashes in a row are one. -/
def PathParts.ofText (path : String) : PathParts where
  fromRoot := path.startsWith "/"
  names := (path.splitOn "/").filter fun name => !name.isEmpty
  slash := path.endsWith "/"

namespace FileTree

/-- The number of bytes that a name may have. -/
def nameLimit : Nat := 255

/-- The number of bytes that a path may have. -/
def pathLimit : Nat := 4095

/-- The bytes of the file at a place. -/
def file? (t : FileTree) (place : Place) : Option ByteArray := t.files.lookup place

/-- Whether a directory is at a place, such as one that something is in. -/
def isDirectory (t : FileTree) (place : Place) : Bool :=
  place.isPrefixOf t.current || t.directories.any (fun d => place.isPrefixOf d) ||
    t.files.any fun f => place.isPrefixOf f.1.dropLast

/-! ### Following paths -/

/-- Goes from a place to the one that a name stands for there. -/
def step (t : FileTree) (place : Place) (name : String) : Except FileFault Place :=
  if !t.isDirectory place then .error .notDirectory
  else if name = "." then .ok place
  else if name = ".." then .ok place.dropLast
  else if nameLimit < name.utf8ByteSize then .error .nameTooLong
  else
    let next := place ++ [name]
    if (t.file? next).isSome || t.isDirectory next then .ok next else .error .missing

/-- Follows names from the start of a path. -/
def follow (t : FileTree) (p : PathParts) (names : List String) : Except FileFault Place :=
  names.foldlM t.step (if p.fromRoot then [] else t.current)

/-- The parts of a path that is neither empty nor too long. -/
def parts (path : String) : Except FileFault PathParts :=
  if path.isEmpty then .error .missing
  else if pathLimit < path.utf8ByteSize then .error .nameTooLong
  else .ok (.ofText path)

/-- The place of a path to be read. A slash at the end asks for a directory. -/
def source (t : FileTree) (path : String) : Except FileFault Place := do
  let p ← parts path
  t.follow p (if p.slash then p.names ++ ["."] else p.names)

/-- **Reads a path.** -/
def read (t : FileTree) (path : String) : Except FileFault String := do
  match t.file? (← t.source path) with
  | none => throw .isDirectory
  | some bytes =>
    match String.fromUTF8? bytes with
    | some text => return text
    | none => throw .notText

/-- **The place of a path to be written**, whether a file is there or not. -/
def target (t : FileTree) (path : String) : Except FileFault Place := do
  let p ← parts path
  match p.names.getLast? with
  | none => throw .isDirectory
  | some name =>
    let parent ← t.follow p p.names.dropLast
    if !t.isDirectory parent then throw .notDirectory
    if p.slash || name = "." || name = ".." then throw .isDirectory
    if nameLimit < name.utf8ByteSize then throw .nameTooLong
    if t.isDirectory (parent ++ [name]) then throw .isDirectory
    return parent ++ [name]

/-- What hinders writing to a path. -/
def writeFault? (t : FileTree) (path : String) : Option FileFault :=
  match t.target path with
  | .ok _ => none
  | .error fault => some fault

/-- The files of a tree. -/
def toFiles (t : FileTree) : Files := ⟨t.read, t.writeFault?⟩

end FileTree

end PackScope
