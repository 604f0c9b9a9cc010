import Chip8.Proofs.Snapshot.Layout

/-!
# Reading within the bytes

The readers behind `Snapshot.decode` are total: outside of a byte string they find zeros. So the
decoder by itself does not tell whether it looks only where there are bytes. Here a snapshot is read
a second time, by readers that break off where there is none, and the two readings agree. Hence no
byte string leads a read out of its bounds, neither by its length, nor by the number of breakpoints
that it claims to have, nor by the pc at which the word for the latch is looked up.

## Main definitions

* `Snapshot.ReadFault` — a refusal, or a read outside of the bytes
* `Snapshot.Checked.decode` — the image of a source, by readers that check their places

## Main results

* `Snapshot.Checked.fields_eq` — behind the length check no field is missed
* `Snapshot.Checked.decode_eq` — checked reading is reading
-/

namespace Chip8

namespace Snapshot

variable {data : Bytes}

/-- Why a checked reading gives no image. -/
inductive ReadFault where
  | refused (reason : SnapshotError)
  /-- There is no byte at a place that was to be read. -/
  | outside
  deriving DecidableEq, Repr

namespace Checked

/-! ### Readers -/

/-- The byte at a place. -/
def byte (data : Bytes) (offset : Nat) : Except ReadFault UInt8 :=
  match data[offset]? with
  | some b => .ok b
  | none => .error .outside

/-- The field of the given place and size. -/
def block (data : Bytes) (offset size : Nat) : Except ReadFault Bytes :=
  if offset + size ≤ data.length then .ok (field data offset size) else .error .outside

/-- The word at a place. -/
def word (data : Bytes) (offset : Nat) : Except ReadFault Nat := do
  let high ← byte data offset
  let low ← byte data (offset + 1)
  .ok (Bytes.wordOf high low)

/-- A number of words, one after the other. -/
def words (data : Bytes) (offset : Nat) : Nat → Except ReadFault (List Nat)
  | 0 => .ok []
  | count + 1 => do
    let first ← word data offset
    let rest ← words data (offset + 2) count
    .ok (first :: rest)

/-- The latched key of a snapshot. Only a latch that could be one looks at the memory. -/
def latch (latch flags : Nat) (memory : Bytes) (pc : Nat) : Except ReadFault (Option Int) :=
  if latch = noLatch then .ok none
  else if keyCount ≤ latch then .error (.refused (.latchNotKey latch))
  else if flags / 2 % 2 = 0 then .error (.refused .latchWithoutRelease)
  else do
    let high ← byte memory (pc % memorySize)
    let low ← byte memory ((pc + 1) % memorySize)
    let word := UInt16.ofNat (Bytes.wordOf high low)
    if Instruction.IsKeyWait word then .ok (some (latch : Int))
    else .error (.refused (.latchNotWaiting word.toNat pc))

/-- The image of a byte string: all fixed fields are read at once, before any of them is checked,
and the breakpoints after the checks. -/
def fields (data : Bytes) : Except ReadFault Image := do
  let memory ← block data 5 memorySize
  let registers ← block data 4101 16
  let index ← word data 4117
  let pc ← word data 4119
  let stack ← words data 4121 16
  let sp ← byte data 4153
  let delay ← byte data 4154
  let sound ← byte data 4155
  let framebuffer ← block data 4156 pixelCount
  let changed ← byte data 6204
  let keys ← block data 6205 keyCount
  let running ← byte data 6221
  let flags ← byte data 6222
  let latched ← byte data 6223
  let count ← word data 6224
  let expected := snapshotFixedSize + 2 * count
  if data.length ≠ expected then
    .error (.refused (.lengthMismatch data.length expected count))
  else if stackDepth < sp.toNat then
    .error (.refused (.stackPointer sp.toNat))
  else if strayValues framebuffer ≠ [] then
    .error (.refused (.pixelValues (strayValues framebuffer)))
  else if strayValues keys ≠ [] then
    .error (.refused (.keyValues (strayValues keys)))
  else if 8 ≤ flags.toNat then
    .error (.refused (.unknownFlags flags.toNat))
  else
    let latch ← latch latched.toNat flags.toNat memory pc
    let breakpoints ← words data snapshotFixedSize count
    let changed ← (readFlag changed .changedFlag).mapError .refused
    let running ← (readFlag running .runningFlag).mapError .refused
    .ok {
      memory
      registers := registers.map fun b => (b.toNat : Int)
      index
      pc
      stack := stack.map fun w : Nat => (w : Int)
      sp := sp.toNat
      delay := delay.toNat
      sound := sound.toNat
      framebuffer
      changed
      keys := keys.map fun b => (b.toNat : Int)
      running
      dialect := decodeDialect flags.toNat
      latch
      breakpoints := AddressSet.ofList (breakpoints.map fun w : Nat => (w : Int)) }

/-- The image of a source. -/
def decode : Source → Except ReadFault Image
  | .other value => .error (.refused (.notBytes value.typeName))
  | .bytes data =>
    if data.length < 5 then .error (.refused (.shortHeader data.length))
    else do
      let found ← block data 0 4
      let version ← byte data 4
      if found ≠ magic then .error (.refused (.badMagic found))
      else if version ≠ UInt8.ofNat Snapshot.version then
        .error (.refused (.badVersion version.toNat))
      else if data.length < snapshotFixedSize then .error (.refused (.truncated data.length))
      else fields data

/-! ### Readers within the bytes -/

theorem byteAt_eq_getElem {offset : Nat} (h : offset < data.length) :
    byteAt data offset = data[offset] := by
  rw [byteAt, List.getD_eq_getElem?_getD, List.getElem?_eq_getElem h, Option.getD_some]

theorem byte_of_lt {offset : Nat} (h : offset < data.length) :
    byte data offset = .ok (byteAt data offset) := by
  rw [byte, List.getElem?_eq_getElem h, byteAt_eq_getElem h]

theorem block_of_le {offset size : Nat} (h : offset + size ≤ data.length) :
    block data offset size = .ok (field data offset size) := if_pos h

theorem word_of_lt {offset : Nat} (h : offset + 1 < data.length) :
    word data offset = .ok (wordAt data offset) := by
  rw [word, byte_of_lt (Nat.lt_of_succ_lt h), byte_of_lt h]
  rfl

/-- A field begins with the byte at its place. -/
theorem field_succ {offset : Nat} (size : Nat) (h : offset < data.length) :
    field data offset (size + 1) = byteAt data offset :: field data (offset + 1) size := by
  rw [field, List.drop_eq_getElem_cons h, List.take_succ_cons, byteAt_eq_getElem h, field]

/-- Words within the bytes are the words of their field. -/
theorem words_of_le {offset : Nat} (count : Nat) (h : offset + 2 * count ≤ data.length) :
    words data offset count = .ok (Bytes.toWords (field data offset (2 * count))) := by
  induction count generalizing offset with
  | zero => rw [words, Nat.mul_zero, field, List.take_zero, Bytes.toWords]; simp
  | succ count ih =>
    have hfirst : offset + 1 < data.length := by omega
    have hfield : field data offset (2 * (count + 1)) =
        byteAt data offset :: byteAt data (offset + 1) :: field data (offset + 2) (2 * count) := by
      rw [Nat.mul_succ, field_succ _ (Nat.lt_of_succ_lt hfirst), field_succ _ hfirst]
    rw [words, word_of_lt hfirst, ih (by omega), hfield, Bytes.toWords]
    rfl

/-- The memory has a cell for every pc, so the word for the latch is within it. -/
theorem latch_eq {memory : Bytes} (h : memory.length = memorySize) (key flags pc : Nat) :
    latch key flags memory pc = (readLatch key flags memory pc).mapError .refused := by
  have hcell : ∀ address : Nat, address % memorySize < memory.length := by
    intro address
    rw [h]
    exact Nat.mod_lt _ (by decide)
  rw [latch, readLatch, byte_of_lt (hcell pc), byte_of_lt (hcell (pc + 1))]
  split
  · rfl
  · split
    · rfl
    · split
      · rfl
      · show (if Instruction.IsKeyWait (Image.wordAt memory pc) then _ else _) =
          Except.mapError _ (if Instruction.IsKeyWait (Image.wordAt memory pc) then _ else _)
        split <;> rfl

/-! ### Reading -/

/-- The breakpoints are all that is left behind the fixed fields. -/
theorem field_rest {count : Nat} (h : data.length = snapshotFixedSize + 2 * count) :
    field data snapshotFixedSize (2 * count) = data.drop snapshotFixedSize := by
  refine List.take_of_length_le ?_
  rw [List.length_drop]
  omega

/-- **Behind the length check no field is missed.** -/
theorem fields_eq (h : snapshotFixedSize ≤ data.length) :
    fields data = (decodeFields data).mapError .refused := by
  have hlen : 6226 ≤ data.length := h
  have hmemory : 5 + memorySize ≤ data.length := by
    show 5 + 4096 ≤ data.length
    omega
  have hframe : 4156 + pixelCount ≤ data.length := by
    show 4156 + 2048 ≤ data.length
    omega
  have hkeys : 6205 + keyCount ≤ data.length := by
    show 6205 + 16 ≤ data.length
    omega
  rw [fields, decodeFields, block_of_le hmemory, block_of_le (by omega), word_of_lt (by omega),
    word_of_lt (by omega), words_of_le 16 (by omega), byte_of_lt (by omega), byte_of_lt (by omega),
    byte_of_lt (by omega), block_of_le hframe, byte_of_lt (by omega), block_of_le hkeys,
    byte_of_lt (by omega), byte_of_lt (by omega), byte_of_lt (by omega), word_of_lt (by omega)]
  refine Except.mapError_ite_error fun hlength => ?_
  refine Except.mapError_ite_error fun _ => ?_
  refine Except.mapError_ite_error fun _ => ?_
  refine Except.mapError_ite_error fun _ => ?_
  refine Except.mapError_ite_error fun _ => ?_
  have hrest : data.length = snapshotFixedSize + 2 * wordAt data 6224 := not_not.1 hlength
  rw [latch_eq (length_field hmemory), words_of_le _ (Nat.le_of_eq hrest.symm), field_rest hrest,
    Except.mapError_bind]
  -- the flags are read last, in the same order
  refine congrArg _ (funext fun key => ?_)
  cases readFlag (byteAt data 6204) .changedFlag with
  | error reason => rfl
  | ok changed => cases readFlag (byteAt data 6221) .runningFlag <;> rfl

/-- **Checked reading is reading**, so no read leaves the bytes. -/
theorem decode_eq (source : Source) :
    decode source = (Snapshot.decode source).mapError .refused := by
  cases source with
  | other value => rfl
  | bytes data =>
    refine Except.mapError_ite_error fun hheader => ?_
    rw [block_of_le (by omega), byte_of_lt (by omega)]
    refine Except.mapError_ite_error fun _ => ?_
    refine Except.mapError_ite_error fun _ => ?_
    refine Except.mapError_ite_error fun hfixed => ?_
    exact fields_eq (Nat.not_lt.1 hfixed)

end Checked

end Snapshot

end Chip8
