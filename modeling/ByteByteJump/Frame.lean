import ByteByteJump.Header
import ByteByteJump.Palette

/-!
# The frame

The screen has 256 rows of 256 pixels. When a frame is done, the video page that the header names
is taken through the palette, row by row, and that picture stands until the next frame is done.

## Main statements

* `size_videoPage` — the video page is whole, so every pixel of the picture is new
* `pixel_ofMemory` — the pixel in column `x` and row `y` is the colour of the byte at `256 y + x`
* `get_bytes` — the picture as a stream of bytes, three to a pixel
-/

namespace ByteByteJump

namespace Frame

def width : Nat := 256

def height : Nat := 256

/-- The number of pixels. -/
def area : Nat := 65536

/-- The number of bytes, three for each pixel. -/
def byteCount : Nat := 196608

end Frame

/-- A picture, row by row. -/
structure Frame where
  pixels : Vector Rgb Frame.area
  deriving DecidableEq

namespace Frame

def blank : Frame := ⟨Vector.replicate area Rgb.black⟩

/-! ## From memory -/

def videoPage (m : Memory) : ByteArray := m.slice m.videoPage.toNat area

/-- **The video page is whole**: it is never cut at the end of memory. -/
theorem size_videoPage (m : Memory) : (videoPage m).size = area := by
  have := m.videoPage_lt
  rw [videoPage, Memory.size_slice, Memory.capacity_eq]
  rw [Memory.addressSpace_eq] at this
  show min (_ + 65536) _ - _ = 65536
  omega

theorem page_videoPage (m : Memory) : m.page m.videoPage area = .ok (videoPage m) := by
  have := m.videoPage_lt
  rw [Memory.addressSpace_eq] at this
  have offset : Memory.offset m.videoPage = m.videoPage.toNat :=
    Memory.offset_of_lt (by rw [Memory.addressSpace_eq]; omega)
  rw [Memory.page_of_lt (by rw [offset]; show _ + 65536 < _; omega), offset]
  rfl

/-- The picture of a memory: its video page, each byte through the palette. -/
def ofMemory (m : Memory) : Frame :=
  let page := videoPage m
  ⟨Vector.ofFn fun i => Palette.color (Bytes.get page i)⟩

/-! ## Pixels -/

/-- Row by row, every pixel has a position below the number of pixels. -/
theorem position_lt {x y : Nat} (h : x < width ∧ y < height) : y * width + x < area := by
  obtain ⟨hx, hy⟩ := h
  have hx : x < 256 := hx
  have hy : y < 256 := hy
  show y * 256 + x < 65536
  omega

/-- The pixel in column `x` and row `y`, if there are such. -/
def pixel (f : Frame) (x y : Nat) : Option Rgb :=
  if h : x < width ∧ y < height then
    have position := position_lt h
    some f.pixels[y * width + x]
  else none

/-- **A pixel of the picture is the colour of its byte in memory.** -/
theorem pixel_ofMemory (m : Memory) {x y : Nat} (hx : x < width) (hy : y < height) :
    (ofMemory m).pixel x y
      = some (Palette.color (m.byteAt (m.videoPage.toNat + (y * width + x)))) := by
  rw [pixel, dif_pos ⟨hx, hy⟩, ofMemory]
  simp only [Vector.getElem_ofFn, videoPage]
  rw [Memory.get_slice m (position_lt ⟨hx, hy⟩)]

theorem pixel_eq_none (f : Frame) {x y : Nat} (h : width ≤ x ∨ height ≤ y) :
    f.pixel x y = none := by
  rw [pixel, dif_neg]
  omega

theorem pixel_blank {x y : Nat} (hx : x < width) (hy : y < height) :
    blank.pixel x y = some Rgb.black := by
  rw [pixel, dif_pos ⟨hx, hy⟩]
  simp only [blank, Vector.getElem_replicate]

/-! ## The stream of bytes -/

/-- The pixel at a position of the stream; black behind the last. -/
@[inline] def pixelAt (f : Frame) (i : Nat) : Rgb :=
  if h : i < area then f.pixels[i] else Rgb.black

/-- The picture as a stream of bytes: red, green and blue of each pixel in order. -/
def bytes (f : Frame) : ByteArray :=
  Bytes.ofFn byteCount fun i => (f.pixelAt (i / 3)).component (i % 3)

@[simp] theorem size_bytes (f : Frame) : f.bytes.size = byteCount := Bytes.size_ofFn ..

/-- **Component `k` of pixel `(x, y)` is byte `3 (256 y + x) + k` of the stream.** -/
theorem get_bytes (f : Frame) {x y k : Nat} (hx : x < width) (hy : y < height) (hk : k < 3) :
    Bytes.get f.bytes (3 * (width * y + x) + k)
      = (f.pixelAt (y * width + x)).component k := by
  have hx : x < 256 := hx
  have hy : y < 256 := hy
  rw [bytes, Bytes.get_ofFn, if_pos (by show 3 * (256 * y + x) + k < 196608; omega)]
  have pixel : (3 * (256 * y + x) + k) / 3 = y * 256 + x := by omega
  have component : (3 * (256 * y + x) + k) % 3 = k := by omega
  rw [show (3 * (width * y + x) + k) / 3 = y * width + x from pixel,
    show (3 * (width * y + x) + k) % 3 = k from component]

theorem pixel_eq_pixelAt (f : Frame) {x y : Nat} (hx : x < width) (hy : y < height) :
    f.pixel x y = some (f.pixelAt (y * width + x)) := by
  rw [pixel, dif_pos ⟨hx, hy⟩, pixelAt, dif_pos (position_lt ⟨hx, hy⟩)]

/-- **The pixels of a picture determine it.** -/
theorem ext_pixel {f g : Frame} (h : ∀ x < width, ∀ y < height, f.pixel x y = g.pixel x y) :
    f = g := by
  obtain ⟨p⟩ := f
  obtain ⟨q⟩ := g
  refine congrArg Frame.mk (Vector.ext fun i hi => ?_)
  have column : i % 256 < width := Nat.mod_lt _ (by decide)
  have row : i / 256 < height := Nat.div_lt_of_lt_mul hi
  have position : i / 256 * width + i % 256 = i := Nat.div_add_mod' i 256
  have same := h _ column _ row
  rw [pixel_eq_pixelAt _ column row, pixel_eq_pixelAt _ column row, position, pixelAt, pixelAt,
    dif_pos hi, dif_pos hi] at same
  exact Option.some.inj same

end Frame

end ByteByteJump
