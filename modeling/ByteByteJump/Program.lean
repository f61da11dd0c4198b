import ByteByteJump.CommandLine

/-!
# The program

The outer layer of the command: what the libraries do that `CommandLine.execute` leaves open. The
arguments are read here, usage is explained, and JSON and the reports of errors are laid out. No
result of this library depends on it.

Options that take a value take the next argument, whatever it is; two dashes end the options, so
that all that follows is positional. The first fault decides.
-/

namespace ByteByteJump.Program

open CommandLine

/-! ## Texts -/

def usage : String := lines
  [ "Usage: bytepusher [--frames <frames>] [--keys <keys>] [--scale <scale>] [--json] [--] [<rom>]"
  , ""
  , "BytePusher virtual machine."
  , ""
  , "Positional Arguments:"
  , "  rom               program image to run; the built-in demo when omitted"
  , ""
  , "Options:"
  , "  --frames          run headless for this many frames, then print statistics and"
  , "                    exit"
  , "  --keys            key state (hex) held down during a headless run"
  , "  --scale           window scale factor"
  , "  --json            print headless statistics as JSON"
  , "  --help, help      display usage information"
  , "" ]

/-- A fault of the arguments, with a hint. -/
def usageReport (fault : String) : String :=
  fault ++ "\nRun bytepusher --help for more information.\n"

def badValue (option value reason : String) : String :=
  "Error parsing option '" ++ option ++ "' with value '" ++ value ++ "': " ++ reason ++ "\n"

/-- A text whose lines behind the first are moved right. -/
def indented (first margin text : String) : String :=
  first ++ ("\n" ++ margin).intercalate (text.splitOn "\n")

/-- An error above its causes, which are numbered if there are more than one. -/
def errorReport : List String → String
  | [] => ""
  | [message] => message
  | [message, cause] => message ++ "\n\nCaused by:\n" ++ indented "    " "    " cause
  | message :: causes =>
    let numbered := causes.zipIdx.map fun (cause, i) =>
      indented ("    " ++ Numeral.decimal i ++ ": ") "       " cause
    message ++ "\n\nCaused by:\n" ++ "\n".intercalate numbered

def jsonText (stats : Machine.Stats) : String := "\n".intercalate
  [ "\x7b"
  , "  \"total_cycles\": " ++ Numeral.decimal stats.totalCycles.toNat ++ ","
  , "  \"frame_count\": " ++ Numeral.decimal stats.frameCount.toNat ++ ","
  , "  \"pc\": " ++ Numeral.decimal stats.pc.toNat
  , "\x7d" ]

/-- The libraries of a build with or without support for JSON. -/
def libraries (jsonSupport : Bool) : Libraries where
  refusal e := usageReport (badValue "--keys" e.text e.message)
  report := errorReport
  json? := if jsonSupport then some fun stats => .ok (jsonText stats) else none

/-! ## Arguments -/

/-- The options that take a value. -/
inductive OptionName where
  | frames
  | keys
  | scale

def OptionName.ofText? : String → Option OptionName
  | "--frames" => some frames
  | "--keys" => some keys
  | "--scale" => some scale
  | _ => none

/-- The options found so far. The size of a window is checked, but no window is opened. -/
structure Found extends Options where
  scale : Option UInt32

/-- What arguments ask for. -/
inductive Request where
  | help
  | run (o : Options)

/-- The value of an option that may be given once: refused if it is there already, else read. -/
def once {α : Type} (old : Option α) (value : Except String α) : Except String (Option α) :=
  match old with
  | some _ => .error "duplicate values provided"
  | none => value.map some

/-- A number in base ten that is at most `limit`. -/
def number (limit : Nat) (value : String) : Except String Nat :=
  (Numeral.read 10 limit value.toList).mapError NumeralError.message

/-- A text that is a key state. -/
def keyText (value : String) : Except String String :=
  ((Keys.read value).map fun _ => value).mapError Keys.ReadError.message

namespace Found

def initial : Found := ⟨⟨none, none, none, false⟩, none⟩

def assign (f : Found) (name : OptionName) (value : String) : Except String Found :=
  match name with
  | .frames => do
    let frames ← once f.frames ((number 0xFFFFFFFFFFFFFFFF value).map UInt64.ofNat)
    return { f with frames }
  | .keys => do
    let keyText ← once f.keyText (keyText value)
    return { f with keyText }
  | .scale => do
    let scale ← once f.scale ((number 0xFFFFFFFF value).map UInt32.ofNat)
    return { f with scale }

def unrecognized (argument : String) : String := "Unrecognized argument: " ++ argument ++ "\n"

/-- A positional argument is the program image, and there is one at most. -/
def addPositional (f : Found) (argument : String) : Except String Found :=
  match f.rom with
  | none => .ok { f with rom := some argument }
  | some _ => .error (unrecognized argument)

def isHelp (argument : String) : Bool := argument == "--help" || argument == "help"

def isOption (argument : String) : Bool := argument.toList.head? == some '-'

def conclude (help : Bool) (f : Found) : Request := if help then .help else .run f.toOptions

/-- Reads the arguments behind those in which `f` was found; `help` says whether help was asked
for. -/
def readArguments (help : Bool) (f : Found) : List String → Except String Request
  | [] => .ok (conclude help f)
  | argument :: rest =>
    if isHelp argument then readArguments true f rest
    else if argument = "--" then (rest.foldlM addPositional f).map (conclude help)
    else if isOption argument then
      if help then .error "Trailing arguments are not allowed after `help`."
      else if argument = "--json" then readArguments help { f with json := true } rest
      else
        match OptionName.ofText? argument, rest with
        | none, _ => .error (unrecognized argument)
        | some _, [] => .error ("No value provided for option '" ++ argument ++ "'.\n")
        -- the next argument is the value, even if it looks like an option
        | some name, value :: rest =>
          match f.assign name value with
          | .error reason => .error (badValue argument value reason)
          | .ok f => readArguments help f rest
    else
      match f.addPositional argument with
      | .error fault => .error fault
      | .ok f => readArguments help f rest

end Found

def request (arguments : List String) : Except String Request :=
  Found.readArguments false Found.initial arguments

/-- Answers a command line, given what comes of reading a file. -/
def answer (jsonSupport : Bool) (arguments : List String)
    (read : String → Except ReadFailure ByteArray) : Outcome :=
  match request arguments with
  | .error fault => .failure (usageReport fault)
  | .ok .help => .success usage
  | .ok (.run o) => execute (libraries jsonSupport) o read

end ByteByteJump.Program
