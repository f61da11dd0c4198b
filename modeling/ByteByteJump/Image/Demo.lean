import ByteByteJump.Image.Basic

/-!
# The demo

The image that runs when no other is given: a test card, and tones for the keys 0 to 7. Its program
is one instruction, which loops and copies the low byte of the key state into the address of the
audio page. So every combination of these keys has a page of its own: page 0 is silence, on any
other the lowest held key gives a square wave.
-/

namespace ByteByteJump.Demo

def entry : UInt32 := 0x100

def videoPage : UInt8 := 0x01

/-- The first of 256 audio pages, by the two high bytes of its address. -/
def audioBank : UInt16 := 0x0200

def amplitude : UInt8 := 0x20

def loop : Instruction where
  source := Header.keys + 1
  dest := Header.audioPage + 1
  next := entry

/-! ## The test card -/

/-- The palette index in column `x` and row `y`: squares of sixteen pixels, counted row by row. -/
def cardIndex (x y : Nat) : UInt8 := (y / 16 * 16 + x / 16).toUInt8

def card : ByteArray := Bytes.ofFn 0x10000 fun i => cardIndex (i % 256) (i / 256)

/-! ## The tones -/

/-- The number of zeros at the end of a number in base two; zero for zero. -/
def trailingZeros (n : Nat) : Nat :=
  if n % 2 = 1 ∨ n = 0 then 0 else trailingZeros (n / 2) + 1
termination_by n
decreasing_by omega

/-- Half a wave of the tone for the lowest key in a low key byte, in samples. -/
def halfPeriod (held : Nat) : Nat := 128 >>> trailingZeros held

def wave (held n : Nat) : UInt8 :=
  if n / halfPeriod held % 2 = 0 then amplitude else -amplitude

def tone (held : Nat) : ByteArray :=
  if held = 0 then Bytes.replicate 0x100 0 else Bytes.ofFn 0x100 (wave held)

/-! ## The image -/

def program : Image :=
  (((Image.empty.entryPoint entry).videoPage videoPage).audioPage audioBank).instruction entry loop

def toneAddress (held : Nat) : UInt32 := audioBank.toUInt32 * 0x100 + UInt32.ofNat held * 0x100

def image : Image :=
  (List.range 256).foldl (fun img held => img.poke (toneAddress held) (tone held))
    (program.poke (videoPage.toUInt32 * 0x10000) card)

end ByteByteJump.Demo
