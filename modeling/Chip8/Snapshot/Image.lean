import Chip8.AddressSet
import Chip8.Bytes
import Chip8.Dialect
import Chip8.Disassembly
import Chip8.Framebuffer
import Chip8.Keypad

/-!
# Machine images

The state of a machine as plain data, as it goes into a snapshot and comes out of one. An image may
hold anything; `Image.Valid` singles out those that describe a machine.

## Main definitions

* `Image` — the fields of a machine
* `Image.wordAtPc` — the word that the machine would execute next
* `Image.InRange`, `Image.Valid` — the sizes and ranges of the fields, the images of machines
-/

namespace Chip8

/-- The state of a machine as plain data. -/
structure Image where
  memory : Bytes
  registers : List Int
  index : Int
  pc : Int
  stack : List Int
  sp : Int
  delay : Int
  sound : Int
  framebuffer : Bytes
  changed : Bool
  keys : List Int
  running : Bool
  dialect : Dialect
  latch : Option Int
  breakpoints : AddressSet
  deriving DecidableEq

namespace Image

/-- The byte of a memory at an address modulo the size of a machine's memory. -/
def byteAt (memory : Bytes) (address : Nat) : UInt8 := memory.getD (address % memorySize) 0

/-- The word of a memory at an address. -/
def wordAt (memory : Bytes) (address : Nat) : UInt16 :=
  UInt16.ofNat (Bytes.wordOf (byteAt memory address) (byteAt memory (address + 1)))

/-- The word that the machine would execute next. -/
def wordAtPc (image : Image) : UInt16 := wordAt image.memory image.pc.toNat

/-- Every field of the image has its size and range. -/
structure InRange (image : Image) : Prop where
  memory_length : image.memory.length = memorySize
  registers_length : image.registers.length = 16
  registers_range : ∀ r ∈ image.registers, 0 ≤ r ∧ r < 256
  index_range : 0 ≤ image.index ∧ image.index < 65536
  pc_range : 0 ≤ image.pc ∧ image.pc < 65536
  stack_length : image.stack.length = 16
  stack_range : ∀ a ∈ image.stack, 0 ≤ a ∧ a < 65536
  sp_range : 0 ≤ image.sp ∧ image.sp ≤ 16
  delay_range : 0 ≤ image.delay ∧ image.delay < 256
  sound_range : 0 ≤ image.sound ∧ image.sound < 256
  framebuffer_length : image.framebuffer.length = pixelCount
  framebuffer_values : ∀ p ∈ image.framebuffer, p = 0 ∨ p = 1
  keys_length : image.keys.length = keyCount
  keys_values : ∀ k ∈ image.keys, k = 0 ∨ k = 1
  breakpoints_range : ∀ a ∈ image.breakpoints, 0 ≤ a ∧ a < 65536
  latch_range : ∀ k ∈ image.latch, 0 ≤ k ∧ k < 16

/-- The images that describe a machine: every field has its size and range, and a latched key means
that the machine waits for the release of a key at `pc`. -/
structure Valid (image : Image) : Prop extends InRange image where
  latch_waits : image.latch.isSome →
    image.dialect.keyWaitOnRelease = true ∧ Instruction.IsKeyWait image.wordAtPc

end Image

end Chip8
