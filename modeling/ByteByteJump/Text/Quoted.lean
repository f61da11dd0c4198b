import ByteByteJump.Numeral
import ByteByteJump.Text.Printable

/-!
# Quoted text

A text inside a message stands between double quotes, with the quote and the backslash escaped and
nothing invisible left in it.
-/

namespace ByteByteJump.Text.Quoted

def encodeChar (c : Char) : List Char :=
  if c = '\x00' then ['\\', '0']
  else if c = '\t' then ['\\', 't']
  else if c = '\r' then ['\\', 'r']
  else if c = '\n' then ['\\', 'n']
  else if c = '"' ∨ c = '\\' then ['\\', c]
  else if isPrintable c then [c]
  else
    ['\\', 'u', '\x7b'] ++ (Numeral.digits 16 c.toNat).map Char.toLower ++ ['\x7d']

def encodeChars (cs : List Char) : List Char := cs.flatMap encodeChar

def encode (s : String) : String :=
  String.ofList (['"'] ++ encodeChars s.toList ++ ['"'])

end ByteByteJump.Text.Quoted
