import Chip8.Proofs.Bytes
import Chip8.Proofs.Except
import Chip8.Snapshot.Codec
import Mathlib.Data.List.Basic

/-!
# The layout of a snapshot

Reading checks a dozen things, one after the other, and gives the first fault. All of them but one
are about single fields, and they are independent of each other; `Layout` gathers them. The one that
is left is the latch, whose check reads the memory at pc. So a byte string that has the layout is
decoded as its latch is read, and one that is decoded has the layout.

## Main definitions

* `Snapshot.Layout` — the byte strings whose fields are sound, but for the latch
* `Snapshot.imageOf` — the image of the fields with a given latch

## Main results

* `Snapshot.decode_of_layout`, `Snapshot.layout_of_decode` — decoding in terms of both
* `Snapshot.readLatch_eq_ok_iff` — the latches that are read
* `Snapshot.valid_of_decode` — what is decoded describes a machine
-/

namespace Chip8

/-! ### Bytes and words -/

namespace Bytes

theorem wordOf_lt (high low : UInt8) : wordOf high low < 65536 := by
  have := high.toNat_lt
  have := low.toNat_lt
  unfold wordOf
  omega

theorem toWords_lt {bs : Bytes} {w : Nat} (h : w ∈ toWords bs) : w < 65536 := by
  induction bs using toWords.induct with
  | case1 high low rest ih =>
    rw [toWords, List.mem_cons] at h
    rcases h with rfl | h
    · exact wordOf_lt high low
    · exact ih h
  | case2 bs hbs =>
    rw [toWords] at h
    · cases h
    · exact hbs

theorem length_toWords : ∀ bs : Bytes, (toWords bs).length = bs.length / 2
  | [] => rfl
  | [_] => by simp [toWords]
  | _ :: _ :: rest => by
    simp only [toWords, List.length_cons, length_toWords rest]
    omega

end Bytes

namespace Snapshot

variable {data : Bytes}

/-! ### Fields -/

theorem length_field {offset size : Nat} (h : offset + size ≤ data.length) :
    (field data offset size).length = size := by
  rw [field, List.length_take, List.length_drop]
  omega

/-- Reading a byte of a field is reading it at its own place. -/
theorem getD_field (data : Bytes) (offset : Nat) {size j : Nat} (h : j < size) :
    (field data offset size).getD j 0 = data.getD (offset + j) 0 := by
  simp only [field, List.getD_eq_getElem?_getD, List.getElem?_take_of_lt h, List.getElem?_drop]

theorem byteAt_eq_field (data : Bytes) (offset : Nat) :
    byteAt data offset = (field data offset 1).getD 0 0 :=
  (getD_field data offset Nat.one_pos).symm

theorem wordAt_eq_field (data : Bytes) (offset : Nat) :
    wordAt data offset =
      Bytes.wordOf ((field data offset 2).getD 0 0) ((field data offset 2).getD 1 0) := by
  rw [getD_field data offset (by decide), getD_field data offset (by decide)]
  rfl

theorem wordAt_lt (data : Bytes) (offset : Nat) : wordAt data offset < 65536 :=
  Bytes.wordOf_lt _ _

/-! ### Zeros and ones -/

/-- A field has no stray values when all its bytes are zeros and ones. -/
theorem strayValues_eq_nil_iff {bs : Bytes} :
    strayValues bs = [] ↔ ∀ b ∈ bs, b = 0 ∨ b = 1 := by
  simp only [strayValues, List.filter_eq_nil_iff, List.mem_range, Bool.and_eq_true,
    decide_eq_true_eq, List.contains_iff_mem, not_and]
  constructor
  · intro h b hb
    have hlt := b.toNat_lt
    have hsmall : ¬ 2 ≤ b.toNat := by
      intro h2
      exact h b.toNat (by omega) h2 (by simpa using hb)
    have hcases : b.toNat = 0 ∨ b.toNat = 1 := by omega
    exact hcases.imp (UInt8.toNat_inj.1 ·) (UInt8.toNat_inj.1 ·)
  · intro h n hn h2 hmem
    have hcases := h _ hmem
    rw [← UInt8.toNat_inj, ← UInt8.toNat_inj, UInt8.toNat_ofNat'] at hcases
    have : n % 256 = n := Nat.mod_eq_of_lt hn
    simp at hcases
    omega

/-- A flag of one byte is read when it is zero or one. -/
theorem readFlag_of_binary {byte : UInt8} (h : byte = 0 ∨ byte = 1) (fault : Nat → SnapshotError) :
    readFlag byte fault = .ok (byte == 1) := by
  rcases h with rfl | rfl <;> rfl

theorem binary_of_readFlag {byte : UInt8} {fault : Nat → SnapshotError} {b : Bool}
    (h : readFlag byte fault = .ok b) : byte = 0 ∨ byte = 1 := by
  unfold readFlag at h
  split at h
  · left; assumption
  · split at h
    · right; assumption
    · cases h

/-! ### The latch -/

/-- A latch is read when it is empty, or when it is a key, the dialect waits for a release, and the
word at pc waits for a key. -/
theorem readLatch_eq_ok_iff {latch flags pc : Nat} {memory : Bytes} {result : Option Int} :
    readLatch latch flags memory pc = .ok result ↔
      (latch = noLatch ∧ result = none) ∨
        (latch < keyCount ∧ flags / 2 % 2 = 1 ∧ Instruction.IsKeyWait (Image.wordAt memory pc) ∧
          result = some (latch : Int)) := by
  unfold readLatch
  dsimp only
  split
  · grind
  · split
    · grind
    · split
      · grind
      · split <;> grind

/-! ### Decoding -/

/-- The byte strings whose fields are sound, each for itself. Only the latch is left out. -/
structure Layout (data : Bytes) : Prop where
  magic_eq : data.take 4 = magic
  version_eq : byteAt data 4 = UInt8.ofNat version
  length_eq : data.length = snapshotFixedSize + 2 * wordAt data 6224
  sp_le : (byteAt data 4153).toNat ≤ stackDepth
  framebuffer_values : ∀ b ∈ field data 4156 pixelCount, b = 0 ∨ b = 1
  keys_values : ∀ b ∈ field data 6205 keyCount, b = 0 ∨ b = 1
  flags_lt : (byteAt data 6222).toNat < 8
  changed_flag : byteAt data 6204 = 0 ∨ byteAt data 6204 = 1
  running_flag : byteAt data 6221 = 0 ∨ byteAt data 6221 = 1

/-- The image of the fields of a byte string with a given latch. -/
def imageOf (data : Bytes) (latch : Option Int) : Image where
  memory := field data 5 memorySize
  registers := (field data 4101 16).map fun b => (b.toNat : Int)
  index := wordAt data 4117
  pc := wordAt data 4119
  stack := (Bytes.toWords (field data 4121 32)).map fun w : Nat => (w : Int)
  sp := (byteAt data 4153).toNat
  delay := (byteAt data 4154).toNat
  sound := (byteAt data 4155).toNat
  framebuffer := field data 4156 pixelCount
  changed := byteAt data 6204 == 1
  keys := (field data 6205 keyCount).map fun b => (b.toNat : Int)
  running := byteAt data 6221 == 1
  dialect := decodeDialect (byteAt data 6222).toNat
  latch := latch
  breakpoints := AddressSet.ofList
    ((Bytes.toWords (data.drop snapshotFixedSize)).map fun w : Nat => (w : Int))

/-- The latch field of a byte string as it is read. -/
def latchOf (data : Bytes) : Except SnapshotError (Option Int) :=
  readLatch (byteAt data 6223).toNat (byteAt data 6222).toNat (field data 5 memorySize)
    (wordAt data 4119)

/-- A byte string that has the layout is decoded as its latch is read. -/
theorem decode_of_layout (h : Layout data) :
    decode (.bytes data) = (latchOf data).map (imageOf data) := by
  have hfixed : snapshotFixedSize = 6226 := rfl
  have hlen := h.length_eq
  have hframe := strayValues_eq_nil_iff.2 h.framebuffer_values
  have hkeys := strayValues_eq_nil_iff.2 h.keys_values
  have hflags := h.flags_lt
  rw [decode, if_neg (by omega), if_neg (not_not_intro h.magic_eq),
    if_neg (not_not_intro h.version_eq), if_neg (by omega), decodeFields, latchOf]
  rw [if_neg (not_not_intro h.length_eq), if_neg (Nat.not_lt.2 h.sp_le),
    if_neg (not_not_intro hframe), if_neg (not_not_intro hkeys), if_neg (Nat.not_le.2 hflags),
    readFlag_of_binary h.changed_flag, readFlag_of_binary h.running_flag]
  cases readLatch (byteAt data 6223).toNat (byteAt data 6222).toNat (field data 5 memorySize)
    (wordAt data 4119) <;> rfl

/-- A byte string that is decoded has the layout. -/
theorem layout_of_decode {image : Image} (h : decode (.bytes data) = .ok image) : Layout data := by
  rw [decode] at h
  obtain ⟨-, h⟩ := Except.ite_error_eq_ok.1 h
  obtain ⟨hmagic, h⟩ := Except.ite_error_eq_ok.1 h
  obtain ⟨hversion, h⟩ := Except.ite_error_eq_ok.1 h
  obtain ⟨-, h⟩ := Except.ite_error_eq_ok.1 h
  obtain ⟨hlength, h⟩ := Except.ite_error_eq_ok.1 h
  obtain ⟨hsp, h⟩ := Except.ite_error_eq_ok.1 h
  obtain ⟨hframe, h⟩ := Except.ite_error_eq_ok.1 h
  obtain ⟨hkeys, h⟩ := Except.ite_error_eq_ok.1 h
  obtain ⟨hflags, h⟩ := Except.ite_error_eq_ok.1 h
  obtain ⟨latch, -, h⟩ := Except.bind_eq_ok.1 h
  obtain ⟨changed, hchanged, h⟩ := Except.bind_eq_ok.1 h
  obtain ⟨running, hrunning, -⟩ := Except.bind_eq_ok.1 h
  exact {
    magic_eq := not_not.1 hmagic
    version_eq := not_not.1 hversion
    length_eq := not_not.1 hlength
    sp_le := Nat.not_lt.1 hsp
    framebuffer_values := strayValues_eq_nil_iff.1 (not_not.1 hframe)
    keys_values := strayValues_eq_nil_iff.1 (not_not.1 hkeys)
    flags_lt := Nat.not_le.1 hflags
    changed_flag := binary_of_readFlag hchanged
    running_flag := binary_of_readFlag hrunning }

/-! ### Decoded images -/

theorem latchOf_of_decode {image : Image} (h : decode (.bytes data) = .ok image) :
    ∃ latch, latchOf data = .ok latch ∧ image = imageOf data latch := by
  rw [decode_of_layout (layout_of_decode h)] at h
  obtain ⟨latch, hlatch, rfl⟩ := Except.map_eq_ok.1 h
  exact ⟨latch, hlatch, rfl⟩

theorem toNat_binary {b : UInt8} (h : b = 0 ∨ b = 1) :
    (b.toNat : Int) = 0 ∨ (b.toNat : Int) = 1 := by
  rcases h with rfl | rfl
  · left; rfl
  · right; rfl

/-- The image of sound fields is in range, whatever its latch is. -/
theorem inRange_imageOf (h : Layout data) {latch : Option Int}
    (hl : ∀ k ∈ latch, 0 ≤ k ∧ k < 16) : (imageOf data latch).InRange := by
  have hlen : data.length = 6226 + 2 * wordAt data 6224 := h.length_eq
  have hword : ∀ {bs : Bytes} {a : Int}, a ∈ (Bytes.toWords bs).map (fun w : Nat => (w : Int)) →
      0 ≤ a ∧ a < 65536 := by
    intro bs a ha
    obtain ⟨w, hw, rfl⟩ := List.mem_map.1 ha
    have := Bytes.toWords_lt hw
    omega
  have hmem : 5 + memorySize ≤ data.length := by
    show 5 + 4096 ≤ data.length
    omega
  have hframe : 4156 + pixelCount ≤ data.length := by
    show 4156 + 2048 ≤ data.length
    omega
  have hkeys : 6205 + keyCount ≤ data.length := by
    show 6205 + 16 ≤ data.length
    omega
  refine {
    memory_length := length_field hmem
    registers_length := ?_
    registers_range := fun r hr => ?_
    index_range := ?_
    pc_range := ?_
    stack_length := ?_
    stack_range := fun a ha => hword ha
    sp_range := ?_
    delay_range := Bytes.toNat_range _
    sound_range := Bytes.toNat_range _
    framebuffer_length := length_field hframe
    framebuffer_values := h.framebuffer_values
    keys_length := ?_
    keys_values := fun k hk => ?_
    breakpoints_range := fun a ha => hword (AddressSet.mem_ofList.1 ha)
    latch_range := hl }
  · rw [imageOf, List.length_map, length_field (by omega)]
  · obtain ⟨b, -, rfl⟩ := List.mem_map.1 hr
    exact Bytes.toNat_range b
  · have := wordAt_lt data 4117
    exact ⟨Int.natCast_nonneg _, by simp only [imageOf]; omega⟩
  · have := wordAt_lt data 4119
    exact ⟨Int.natCast_nonneg _, by simp only [imageOf]; omega⟩
  · rw [imageOf, List.length_map, Bytes.length_toWords, length_field (by omega)]
  · have hsp : (byteAt data 4153).toNat ≤ 16 := h.sp_le
    exact ⟨Int.natCast_nonneg _, by simp only [imageOf]; omega⟩
  · rw [imageOf, List.length_map, length_field hkeys]
  · obtain ⟨b, hb, rfl⟩ := List.mem_map.1 hk
    exact toNat_binary (h.keys_values b hb)

/-- **What is decoded describes a machine.** -/
theorem valid_of_decode {source : Source} {image : Image} (h : decode source = .ok image) :
    image.Valid := by
  cases source with
  | other value => cases h
  | bytes data =>
    obtain ⟨latch, hread, rfl⟩ := latchOf_of_decode h
    rcases readLatch_eq_ok_iff.1 hread with ⟨-, rfl⟩ | ⟨hkey, hrelease, hwait, rfl⟩
    · exact { inRange_imageOf (layout_of_decode h) (by simp) with latch_waits := by simp [imageOf] }
    · have hrange : ∀ k ∈ some (((byteAt data 6223).toNat : Nat) : Int), 0 ≤ k ∧ k < 16 := by
        intro k hk
        obtain rfl := Option.mem_some_iff.1 hk
        exact ⟨Int.natCast_nonneg _, Int.ofNat_lt.2 hkey⟩
      refine { inRange_imageOf (layout_of_decode h) hrange with latch_waits := fun _ => ⟨?_, hwait⟩ }
      exact decide_eq_true hrelease

end Snapshot

end Chip8
