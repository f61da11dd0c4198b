/-!
# The palette

A pixel is a byte. The first 216 values are a cube of colours, six steps for each of red, green and
blue, with blue running fastest; the steps are 0x33 apart, so that they reach from 0 to 0xFF. The
other forty values are black.

`Palette.cube` is the rule, `Palette.table` the finished table and `Palette.color` the look-up in
it. `color_eq` says that the look-up follows the rule.
-/

namespace ByteByteJump

structure Rgb where
  red : UInt8
  green : UInt8
  blue : UInt8
  deriving DecidableEq, Repr, Inhabited

namespace Rgb

def black : Rgb := ⟨0, 0, 0⟩

/-- The components in the order in which a frame stores them; black behind the third. -/
def component (c : Rgb) : Nat → UInt8
  | 0 => c.red
  | 1 => c.green
  | 2 => c.blue
  | _ => 0

/-- The components of a colour determine it. -/
theorem ext_component {c d : Rgb} (h : ∀ k, k < 3 → c.component k = d.component k) : c = d := by
  obtain ⟨r, g, b⟩ := c
  obtain ⟨r', g', b'⟩ := d
  have hr : r = r' := h 0 (by decide)
  have hg : g = g' := h 1 (by decide)
  have hb : b = b' := h 2 (by decide)
  subst hr; subst hg; subst hb
  rfl

end Rgb

namespace Palette

def cubeSize : Nat := 216

def componentStep : UInt8 := 0x33

/-- The colour of a palette index: red, green and blue are its digits in base six. -/
def cube (i : Nat) : Rgb :=
  if i < cubeSize then
    { red := (i / 36).toUInt8 * componentStep
      green := (i / 6 % 6).toUInt8 * componentStep
      blue := (i % 6).toUInt8 * componentStep }
  else Rgb.black

def table : Vector Rgb 256 := Vector.ofFn fun i => cube i

/-- The colour of a palette index, looked up in the table. -/
def color (i : UInt8) : Rgb :=
  have bound : i.toNat < 256 := i.toNat_lt
  table[i.toNat]

/-- **The look-up follows the rule of the cube.** -/
theorem color_eq (i : UInt8) : color i = cube i.toNat := by
  rw [color, table, Vector.getElem_ofFn]

/-- In the cube the components are multiples of the step, by the digits of the index. -/
theorem cube_of_lt {i : Nat} (h : i < cubeSize) :
    (cube i).red.toNat = i / 36 * 0x33 ∧ (cube i).green.toNat = i / 6 % 6 * 0x33
      ∧ (cube i).blue.toNat = i % 6 * 0x33 := by
  have := show i < 216 from h
  rw [cube, if_pos h]
  simp only [componentStep, UInt8.toNat_mul, Nat.toUInt8_eq, UInt8.toNat_ofNat', UInt8.reduceToNat]
  omega

theorem cube_of_le {i : Nat} (h : cubeSize ≤ i) : cube i = Rgb.black :=
  if_neg (Nat.not_lt.mpr h)

end Palette

end ByteByteJump
