import Chip8.Document.Value
import Chip8.Snapshot.Image

/-!
# Snapshot codec

The binary form of an image, a record of fixed order with all words big-endian:

```
magic "C8ST", version, memory 4096, registers 16, index 2, pc 2, stack 16 * 2, sp,
delay, sound, framebuffer 2048, changed, keys 16, running, dialect flags, latch,
number of breakpoints 2, breakpoints 2 each
```

The latch is 255 when no key is latched. Breakpoints are written in increasing order and read in any
order.

## Main definitions

* `Snapshot.encode` — the bytes of an image
* `Snapshot.decode` — the image of bytes, or the first fault found in them

## Implementation notes

Writing cuts or pads the fields that are byte strings and masks words, and refuses numbers too large
for a field of one byte. Reading accepts only what describes a machine.
-/

namespace Chip8

namespace Snapshot

/-- The bytes with which every snapshot begins. -/
def magic : Bytes := [0x43, 0x38, 0x53, 0x54]

/-- The version of the format. -/
abbrev version : Nat := 1

/-- The latch field of an image without a latched key. -/
abbrev noLatch : Nat := 0xFF

/-! ### Dialect flags -/

/-- The flags of a dialect, one bit each. -/
def encodeDialect (d : Dialect) : Nat :=
  (if d.shiftUsesVy then 1 else 0) + (if d.keyWaitOnRelease then 2 else 0) +
    (if d.loadStoreIncrementsIndex then 4 else 0)

/-- The dialect of flags. -/
def decodeDialect (flags : Nat) : Dialect :=
  ⟨flags % 2 = 1, flags / 2 % 2 = 1, flags / 4 % 2 = 1⟩

/-! ### Writing -/

/-- A number as a field of one byte. -/
def byteField (n : Int) : Except Error UInt8 :=
  if 0 ≤ n ∧ n < 256 then .ok (UInt8.ofInt n) else .error .fieldOverflow

/-- A truth value as a field of one byte. -/
def flagField (b : Bool) : UInt8 := if b then 1 else 0

/-- A number as a word, masked to sixteen bits. -/
def maskedWord (n : Int) : Bytes := Bytes.ofWord (n % 65536).toNat

/-- The fields of a snapshot behind the registers, up to the number of breakpoints. -/
def encodeState (image : Image) (keys : Bytes) (sp delay sound latch : UInt8) : Bytes :=
  maskedWord image.index ++ maskedWord image.pc ++ image.stack.flatMap maskedWord ++
    [sp, delay, sound] ++ Bytes.fit pixelCount image.framebuffer ++ [flagField image.changed] ++
    Bytes.fit keyCount keys ++
    [flagField image.running, UInt8.ofNat (encodeDialect image.dialect), latch] ++
    Bytes.ofWord image.breakpoints.size

/-- The bytes of an image. Registers and keys that are no bytes are reported before any other number
that is too large for its field. -/
def encode (image : Image) : Except Error Bytes := do
  let registers ← Bytes.ofInts image.registers
  let keys ← Bytes.ofInts image.keys
  if image.stack.length ≠ stackDepth then
    .error .fieldOverflow
  else
    let sp ← byteField image.sp
    let delay ← byteField image.delay
    let sound ← byteField image.sound
    let latch ← byteField (image.latch.getD noLatch)
    if image.breakpoints.size < 65536 ∧ image.breakpoints.toList.all fun a => 0 ≤ a ∧ a < 65536 then
      .ok (magic ++ [UInt8.ofNat version] ++ Bytes.fit memorySize image.memory ++
        Bytes.fit 16 registers ++ encodeState image keys sp delay sound latch ++
        image.breakpoints.toList.flatMap maskedWord)
    else
      .error .fieldOverflow

/-! ### Reading -/

/-- What a snapshot is read from: a byte string, or another value, which is refused. -/
inductive Source where
  | bytes (data : Bytes)
  | other (value : Value)

/-- The different values of a field that are neither 0 nor 1, in increasing order. -/
def strayValues (field : Bytes) : List Nat :=
  (List.range 256).filter fun n => 2 ≤ n && field.contains (UInt8.ofNat n)

/-- A flag of one byte. -/
def readFlag (byte : UInt8) (fault : Nat → SnapshotError) : Except SnapshotError Bool :=
  if byte = 0 then .ok false else if byte = 1 then .ok true else .error (fault byte.toNat)

/-- The latched key of a snapshot: the wait for a release must be in progress. -/
def readLatch (latch flags : Nat) (memory : Bytes) (pc : Nat) :
    Except SnapshotError (Option Int) :=
  if latch = noLatch then .ok none
  else if keyCount ≤ latch then .error (.latchNotKey latch)
  else if flags / 2 % 2 = 0 then .error .latchWithoutRelease
  else
    let word := Image.wordAt memory pc
    if Instruction.IsKeyWait word then .ok (some (latch : Int))
    else .error (.latchNotWaiting word.toNat pc)

/-- The field of the given place and size. -/
def field (data : Bytes) (offset size : Nat) : Bytes := (data.drop offset).take size

/-- The byte at a place. -/
def byteAt (data : Bytes) (offset : Nat) : UInt8 := data.getD offset 0

/-- The word at a place. -/
def wordAt (data : Bytes) (offset : Nat) : Nat :=
  Bytes.wordOf (byteAt data offset) (byteAt data (offset + 1))

/-- The image of a byte string that is long enough for all fixed fields. -/
def decodeFields (data : Bytes) : Except SnapshotError Image := do
  let memory := field data 5 memorySize
  let registers := field data 4101 16
  let pc := wordAt data 4119
  let sp := (byteAt data 4153).toNat
  let framebuffer := field data 4156 pixelCount
  let keys := field data 6205 keyCount
  let flags := (byteAt data 6222).toNat
  let count := wordAt data 6224
  let expected := snapshotFixedSize + 2 * count
  if data.length ≠ expected then
    .error (.lengthMismatch data.length expected count)
  else if stackDepth < sp then
    .error (.stackPointer sp)
  else if strayValues framebuffer ≠ [] then
    .error (.pixelValues (strayValues framebuffer))
  else if strayValues keys ≠ [] then
    .error (.keyValues (strayValues keys))
  else if 8 ≤ flags then
    .error (.unknownFlags flags)
  else
    let latch ← readLatch (byteAt data 6223).toNat flags memory pc
    let changed ← readFlag (byteAt data 6204) .changedFlag
    let running ← readFlag (byteAt data 6221) .runningFlag
    .ok {
      memory
      registers := registers.map fun b => (b.toNat : Int)
      index := wordAt data 4117
      pc
      stack := (Bytes.toWords (field data 4121 32)).map fun w : Nat => (w : Int)
      sp
      delay := (byteAt data 4154).toNat
      sound := (byteAt data 4155).toNat
      framebuffer
      changed
      keys := keys.map fun b => (b.toNat : Int)
      running
      dialect := decodeDialect flags
      latch
      breakpoints := AddressSet.ofList
        ((Bytes.toWords (data.drop snapshotFixedSize)).map fun w : Nat => (w : Int)) }

/-- The image of a source, or the first fault found in it. -/
def decode : Source → Except SnapshotError Image
  | .other value => .error (.notBytes value.typeName)
  | .bytes data =>
    if data.length < 5 then .error (.shortHeader data.length)
    else if data.take 4 ≠ magic then .error (.badMagic (data.take 4))
    else if byteAt data 4 ≠ UInt8.ofNat version then .error (.badVersion (byteAt data 4).toNat)
    else if data.length < snapshotFixedSize then .error (.truncated data.length)
    else decodeFields data

end Snapshot

end Chip8
