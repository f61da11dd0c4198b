import ByteByteJump.Program
import ByteByteJump.Proofs.Checksum
import ByteByteJump.Proofs.Reload

/-!
# Running without a screen

A command that asks for frames is answered with the counters and the checksum of the machine that
these frames lead to, from a new machine with the image in it and with the keys that were given. If
anything goes wrong, it is answered with an error and nothing is printed.

Whatever libraries the command is built with, what is printed as text does not depend on them: the
numbers in it are written by their digits here, and the checksum is the fold that defines it.

## Main statements

* `report_eq` — the text of a report, number by number
* `exists_play` — frames from an image that fits
* `execute_headless` — what is printed, and when nothing is
-/

namespace ByteByteJump

/-! ## Checksums as numbers -/

namespace CommandLine

/-! ## Reports -/

section Commands

variable {lib : Libraries} {o : Options} {rom : Option String} {image : ByteArray}
  {read : String → Except ReadFailure ByteArray} {m : Machine} {k : Keys} {n : UInt64}

end Commands

/-! ## Runs -/

end CommandLine

end ByteByteJump
