import ByteByteJump.Checksum
import ByteByteJump.Image.Demo
import ByteByteJump.Keypad.Reader
import ByteByteJump.Machine.Basic

/-!
# The command line

A command runs a program image and says what became of it. The image is loaded, the machine runs
without a screen for the number of frames asked for, and its counters are printed with a checksum of
the last picture.

Three things are left to other libraries: finding options in arguments, laying out reports of
errors, and writing JSON. So `execute` starts from options that were found, and is given the other
two; what comes of reading a file is given by a function.
-/

namespace ByteByteJump.CommandLine

/-- What a command line says. The key state is the text that was given for it. -/
structure Options where
  rom : Option String
  frames : Option UInt64
  keyText : Option String
  json : Bool
  deriving DecidableEq, Repr

/-- The keys that are held: none unless a text was given for them. -/
def Options.keys (o : Options) : Except Keys.ReadError Keys :=
  match o.keyText with
  | none => .ok Keys.empty
  | some text => Keys.read text

/-- What a command leaves to libraries: the report of a key state that cannot be read, the report of
an error from its outermost context down to its first cause, and, in a build with support for it,
counters as JSON. -/
structure Libraries where
  refusal : Keys.ReadError → String
  report : List String → String
  json? : Option (Machine.Stats → Except String String)

/-- What a command leaves behind: an exit code, what it printed, and what it printed as an error. -/
structure Outcome where
  exitCode : Nat
  output : String
  errors : String
  deriving DecidableEq, Repr

namespace Outcome

def success (output : String) : Outcome := ⟨0, output, ""⟩

def failure (errors : String) : Outcome := ⟨1, "", errors⟩

/-- A sum that is refused ends the command at once. -/
def panic (cause : Overflow) : Outcome := ⟨101, "", cause.message ++ "\n"⟩

/-- The outcome of an error with its contexts and causes. -/
def error (lib : Libraries) (chain : List String) : Outcome :=
  .failure ("Error: " ++ lib.report chain ++ "\n")

end Outcome

/-! ## Reports of a run -/

/-- Lines of text, each with its end. -/
def lines (ls : List String) : String := String.join (ls.map (· ++ "\n"))

/-- The counters of a machine and a checksum of its picture. -/
def report (m : Machine) : String :=
  let stats := m.stats
  lines
    [ "BytePusher"
    , "=========="
    , "  Frames:       " ++ Numeral.decimal stats.frameCount.toNat
    , "  Instructions: " ++ Numeral.decimal stats.totalCycles.toNat
    , "  PC:           0x" ++ Numeral.hex 6 stats.pc.toNat
    , "  Frame hash:   0x" ++ Numeral.hex 8 (Checksum.ofBytes m.frame.bytes).toNat ]

def printJson (lib : Libraries) (stats : Machine.Stats) : Outcome :=
  match lib.json? with
  | none => .error lib ["JSON output needs the `serde` feature"]
  | some write =>
    match write stats with
    | .error cause => .error lib [cause]
    | .ok text => .success (text ++ "\n")

/-! ## Running -/

/-- Runs a loaded machine for a number of frames. -/
def runHeadless (lib : Libraries) (m : Machine) (frames : UInt64) (keys : Keys) (json : Bool) :
    Outcome :=
  match m.runFrames frames.toNat keys with
  | .error cause => .panic cause
  | .ok m => if json then printJson lib m.stats else .success (report m)

/-- The image that options name, with what it is called: a file, or else the demo. `read` gives what
comes of reading a file. -/
def load (rom : Option String) (read : String → Except ReadFailure ByteArray) :
    String × Except LoadError Machine :=
  match rom with
  | none => ("built-in demo", Machine.initial.load Demo.image.bytes)
  | some path => (path, Machine.initial.loadFile path (read path))

/-- Executes a command. -/
def execute (lib : Libraries) (o : Options) (read : String → Except ReadFailure ByteArray) :
    Outcome :=
  match o.keys with
  | .error e => .failure (lib.refusal e)
  | .ok keys =>
    match load o.rom read with
    | (name, .error e) =>
      .error lib (["loading " ++ name, e.message] ++ (e.cause.map ReadFailure.message).toList)
    | (_, .ok m) =>
      match o.frames with
      | none =>
        .error lib ["built without the `frontend` feature; pass --frames to run headless"]
      | some frames => runHeadless lib m frames keys o.json

end ByteByteJump.CommandLine
