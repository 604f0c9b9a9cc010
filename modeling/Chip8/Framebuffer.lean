import Chip8.Error

/-!
# Framebuffer

The screen of 64 by 32 pixels and the flag that tells a host that it changed. A pixel is a byte; it
is off at zero and on at any other value. Both coordinates wrap for every pixel by itself, so a
sprite that leaves the screen on one side comes in on the other.

A sprite is a list of rows of eight pixels. `Framebuffer.litCells` is the list of the pixels that
its set bits fall on, and drawing flips the lowest bit of each, one after the other. On a screen of
zeros and ones this turns off what is on and on what is off.

## Main definitions

* `Framebuffer` — pixels and changed flag
* `Framebuffer.draw` — draws a sprite and tells whether it met a pixel that is on
* `Framebuffer.takeChanged` — the pixels, if they changed since they were last taken
* `Framebuffer.render` — the screen as lines of text
-/

namespace Chip8

/-- The number of pixels of a line. -/
abbrev screenWidth : Nat := 64

/-- The number of lines of the screen. -/
abbrev screenHeight : Nat := 32

/-- The number of pixels of the screen. -/
abbrev pixelCount : Nat := 2048

/-- The pixels of the screen, line by line. -/
abbrev Pixels := Vector UInt8 pixelCount

/-- The pixel of a truth value. -/
def pixelOf (on : Bool) : UInt8 := if on then 1 else 0

/-- The screen and its changed flag. -/
structure Framebuffer where
  pixels : Pixels
  changed : Bool
  deriving DecidableEq

namespace Framebuffer

/-- The dark screen, unchanged. -/
def blank : Framebuffer := ⟨Vector.replicate pixelCount 0, false⟩

/-- The pixel that a pair of coordinates denotes. -/
def cell (x y : Int) : Fin pixelCount :=
  ⟨(y % 32).toNat * 64 + (x % 64).toNat, by
    have h₁ := Int.emod_nonneg y (b := 32) (by omega)
    have h₂ := Int.emod_lt_of_pos y (b := 32) (by omega)
    have h₃ := Int.emod_nonneg x (b := 64) (by omega)
    have h₄ := Int.emod_lt_of_pos x (b := 64) (by omega)
    show _ < 2048
    omega⟩

/-! ### Single pixels -/

/-- The pixel at a pair of coordinates. -/
def pixel (f : Framebuffer) (x y : Int) : UInt8 := f.pixels[cell x y]

/-- The screen with a pixel switched on or off; the changed flag stays. -/
def setPixel (f : Framebuffer) (x y : Int) (on : Bool) : Framebuffer :=
  { f with pixels := f.pixels.set (cell x y) (pixelOf on) }

/-! ### Sprites -/

/-- Whether the bit `b` of a row is set, counted from the most significant of eight. -/
def rowBit (row : Int) (b : Nat) : Bool := row >>> (7 - b) % 2 = 1

/-- The pixels that the set bits of one row fall on, from left to right. -/
def litRow (x y row : Int) : List (Fin pixelCount) :=
  ((List.range 8).filter (rowBit row)).map fun b : Nat => cell (x + b) y

/-- The pixels that the set bits of a sprite at the given place fall on, row by row. A sprite of
more than 32 rows meets a pixel more than once. -/
def litCells (x y : Int) : List Int → List (Fin pixelCount)
  | [] => []
  | row :: rest => litRow x y row ++ litCells x (y + 1) rest

/-- Flips pixels one after the other and tells whether one of them was on. -/
def flipAll (p : Pixels) : List (Fin pixelCount) → Pixels × Bool
  | [] => (p, false)
  | c :: rest =>
    let (q, met) := flipAll (p.set c (p[c] ^^^ 1)) rest
    (q, p[c] != 0 || met)

/-- Draws a sprite with its left upper corner at the given place, and tells whether it met a pixel
that was on. The screen counts as changed even if the sprite is empty. -/
def draw (f : Framebuffer) (x y : Int) (rows : List Int) : Framebuffer × Bool :=
  let (pixels, collision) := flipAll f.pixels (litCells x y rows)
  (⟨pixels, true⟩, collision)

/-! ### The whole screen -/

/-- Switches all pixels off and marks the screen as changed. -/
def clear (_ : Framebuffer) : Framebuffer := { blank with changed := true }

/-- Switches all pixels off and marks the screen as unchanged. -/
def reset (f : Framebuffer) : Framebuffer :=
  { f with pixels := Vector.replicate pixelCount 0, changed := false }

/-- The same pixels, marked as unchanged. -/
def clearChanged (f : Framebuffer) : Framebuffer := { f with changed := false }

/-- The pixels if they changed since they were last taken. -/
def takeChanged (f : Framebuffer) : Framebuffer × Option Pixels :=
  if f.changed then (f.clearChanged, some f.pixels) else (f, none)

/-- The screen of the given pixels, which must be as many as the screen has. -/
def restore (pixels : List UInt8) (changed : Bool) : Except Error Framebuffer :=
  if h : pixels.toArray.size = pixelCount then .ok ⟨⟨pixels.toArray, h⟩, changed⟩
  else .error (.pixelCount pixels.length)

/-- The lines of the screen from top to bottom. -/
def lines (f : Framebuffer) : List (List UInt8) :=
  (List.range screenHeight).map fun y => (f.pixels.toList.drop (y * screenWidth)).take screenWidth

/-- The screen as lines of text. -/
def render (f : Framebuffer) (on : String := "#") (off : String := ".") : String :=
  String.intercalate "\n" (f.lines.map fun line =>
    String.join (line.map fun p => if p = 0 then off else on))

end Framebuffer

end Chip8
