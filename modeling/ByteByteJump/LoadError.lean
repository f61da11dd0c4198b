/-!
# Why a program image was not loaded

The image does not fit into memory, or it cannot be read in the first place.
-/

namespace ByteByteJump

/-- Why the bytes of a named file could not be had. -/
inductive ReadFailure where
  | notFound
  | notADirectory
  | isADirectory
  | nameTooLong
  | nullInName
  | permissionDenied
  | other (description : String)
  deriving DecidableEq, Repr

namespace ReadFailure

/-- The description of a failure, with its number where it has a common one. -/
def message : ReadFailure → String
  | notFound => "No such file or directory (os error 2)"
  | permissionDenied => "Permission denied (os error 13)"
  | notADirectory => "Not a directory (os error 20)"
  | isADirectory => "Is a directory (os error 21)"
  | nameTooLong => "File name too long (os error 36)"
  | nullInName => "file name contained an unexpected NUL byte"
  | other description => description

end ReadFailure

inductive LoadError where
  | tooLarge (length capacity : Nat)
  | unreadable (path : String) (failure : ReadFailure)
  deriving DecidableEq, Repr

namespace LoadError

def message : LoadError → String
  | tooLarge length capacity =>
    s!"program image is {length} bytes but memory holds {capacity}"
  | unreadable path _ => s!"cannot read program image {path}"

def cause : LoadError → Option ReadFailure
  | tooLarge _ _ => none
  | unreadable _ failure => some failure

end LoadError

end ByteByteJump
