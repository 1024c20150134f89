/-!
Files as a command sees them: what is read at a path, or a reason why nothing can be.
-/

namespace PackScope

/-- Why a path cannot be read or written as a text. -/
inductive FileFault where
  | missing
  | isDirectory
  | notDirectory
  | nameTooLong
  | notText
  | other (message : String)
  deriving DecidableEq, Repr, Inhabited

/-- The message for a fault. -/
def FileFault.message : FileFault → String
  | missing => "No such file or directory (os error 2)"
  | isDirectory => "Is a directory (os error 21)"
  | notDirectory => "Not a directory (os error 20)"
  | nameTooLong => "File name too long (os error 36)"
  | notText => "stream did not contain valid UTF-8"
  | other message => message

/-- Whether a fault means that nothing is found at the path. -/
def FileFault.isAbsence : FileFault → Bool
  | missing | notDirectory | nameTooLong => true
  | _ => false

/-- **The files**: what is read at a path, and what hinders writing to it, if anything does. -/
structure Files where
  read : String → Except FileFault String
  writeFault? : String → Option FileFault

end PackScope
