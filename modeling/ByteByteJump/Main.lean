import ByteByteJump.Program

/-!
# The command

The command line itself: it reads the file that the arguments name, has the command line answered
and prints the answer. This build has no support for JSON.
-/

namespace ByteByteJump

/-- An error number that systems report as it is or negated. -/
def isCode (number : Nat) (code : UInt32) : Bool :=
  code.toNat == number || code.toNat + number == 0x100000000

/-- Why a file could not be read, from the report of the system. -/
def ReadFailure.ofReport : IO.Error → ReadFailure
  | .noFileOrDirectory .. => .notFound
  | .permissionDenied .. => .permissionDenied
  | .inappropriateType _ code _ => if isCode 20 code then .notADirectory else .isADirectory
  | .invalidArgument _ code _ => if isCode 36 code then .nameTooLong else .nullInName
  | report => .other report.toString

/-- The bytes of a file, or why there are none. -/
def readFile (path : String) : IO (Except ReadFailure ByteArray) := do
  match ← (IO.FS.readBinFile path).toBaseIO with
  | .ok content => return .ok content
  | .error report => return .error (.ofReport report)

/-- What came of reading the file that a command line names, if it names one. -/
def readNamedFile (arguments : List String) : IO (Except ReadFailure ByteArray) := do
  match Program.request arguments with
  | .ok (.run { rom := some path, .. }) => readFile path
  | _ => return .error .notFound

end ByteByteJump

/-- Answers a command line. -/
def main (arguments : List String) : IO UInt32 := do
  let content ← ByteByteJump.readNamedFile arguments
  let outcome := ByteByteJump.Program.answer false arguments fun _ => content
  IO.print outcome.output
  IO.eprint outcome.errors
  return UInt32.ofNat outcome.exitCode
