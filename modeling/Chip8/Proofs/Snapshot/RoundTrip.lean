import Chip8.Proofs.Bytes
import Chip8.Proofs.Snapshot.Layout
import Mathlib.Algebra.BigOperators.Group.List.Basic
import Mathlib.Algebra.GroupWithZero.Nat

/-!
# The round trip of the snapshot codec

A snapshot is eighteen parts laid end to end, and all but the last have a size of their own. So
where a part begins is a sum of sizes that do not depend on the image, and a field read at that place
is the part. Reading the image of the fields back then comes down to one inverse pair for each kind
of part: bytes, words, flags and the dialect.

## Main definitions

* `Snapshot.parts` — the parts of the bytes of an image

## Main results

* `Snapshot.encode_eq`, `Snapshot.encode_of_full` — an image in range is written as its parts, or has
  too many breakpoints
* `Snapshot.field_parts` — a field at the place of a part is that part
* `Snapshot.layout_parts`, `Snapshot.imageOf_parts` — the parts have the layout, and the image
* `Snapshot.decode_parts`, `Snapshot.decode_parts_of_stale` — the bytes of an image are decoded to
  it, or refused for its latch
* `Snapshot.decode_encode` — images that describe machines keep everything in their bytes
-/

namespace Chip8

namespace Snapshot

/-! ### Words of numbers -/

/-- A number that is a word is not changed by the mask. -/
theorem maskedWord_of_range {n : Int} (h : 0 ≤ n ∧ n < 65536) :
    maskedWord n = Bytes.ofWord n.toNat := by
  rw [maskedWord, Int.emod_eq_of_lt h.1 h.2]

/-- Numbers that are words are written as such, one after the other. -/
theorem flatMap_maskedWord {l : List Int} (h : ∀ a ∈ l, 0 ≤ a ∧ a < 65536) :
    l.flatMap maskedWord = (l.map Int.toNat).flatMap Bytes.ofWord := by
  rw [List.flatMap_map]
  exact List.flatMap_congr fun a ha => maskedWord_of_range (h a ha)

/-- Numbers that are words are read as they were written. -/
theorem toWords_flatMap_maskedWord {l : List Int} (h : ∀ a ∈ l, 0 ≤ a ∧ a < 65536) :
    (Bytes.toWords (l.flatMap maskedWord)).map (fun w : Nat => (w : Int)) = l := by
  have hwords : ∀ w ∈ l.map Int.toNat, w < 65536 := by
    intro w hw
    obtain ⟨a, ha, rfl⟩ := List.mem_map.1 hw
    have := h a ha
    omega
  rw [flatMap_maskedWord h, Bytes.toWords_flatMap_ofWord hwords, List.map_map]
  exact (List.map_congr_left fun a ha => Int.toNat_of_nonneg (h a ha).1).trans (List.map_id l)

theorem length_flatMap_maskedWord (l : List Int) : (l.flatMap maskedWord).length = 2 * l.length := by
  have hwords : l.flatMap maskedWord = (l.map fun n => (n % 65536).toNat).flatMap Bytes.ofWord := by
    rw [List.flatMap_map]
    rfl
  rw [hwords, Bytes.length_flatMap_ofWord, List.length_map]

/-! ### Flags -/

theorem flagField_binary (b : Bool) : flagField b = 0 ∨ flagField b = 1 := by
  cases b
  · left; rfl
  · right; rfl

theorem flagField_eq_one (b : Bool) : (flagField b == 1) = b := by
  cases b <;> rfl

theorem encodeDialect_lt (d : Dialect) : encodeDialect d < 8 := by
  obtain ⟨a, b, c⟩ := d
  cases a <;> cases b <;> cases c <;> decide

theorem decodeDialect_encodeDialect (d : Dialect) : decodeDialect (encodeDialect d) = d := by
  obtain ⟨a, b, c⟩ := d
  cases a <;> cases b <;> cases c <;> rfl

/-- The flag of the wait for a release is the second bit. -/
theorem keyWait_bit_eq_zero_iff (d : Dialect) :
    encodeDialect d / 2 % 2 = 0 ↔ d.keyWaitOnRelease = false := by
  obtain ⟨a, b, c⟩ := d
  cases a <;> cases b <;> cases c <;> decide

/-! ### Parts -/

variable {image : Image}

/-- The parts of the bytes of an image, in their order. -/
def parts (image : Image) : List Bytes := [
  magic,
  [UInt8.ofNat version],
  image.memory,
  image.registers.map UInt8.ofInt,
  maskedWord image.index,
  maskedWord image.pc,
  image.stack.flatMap maskedWord,
  [UInt8.ofInt image.sp],
  [UInt8.ofInt image.delay],
  [UInt8.ofInt image.sound],
  image.framebuffer,
  [flagField image.changed],
  image.keys.map UInt8.ofInt,
  [flagField image.running],
  [UInt8.ofNat (encodeDialect image.dialect)],
  [UInt8.ofInt (image.latch.getD noLatch)],
  Bytes.ofWord image.breakpoints.size,
  image.breakpoints.toList.flatMap maskedWord]

/-- The sizes of the parts, without that of the last. -/
def partSizes : List Nat := [4, 1, 4096, 16, 2, 2, 32, 1, 1, 1, 2048, 1, 16, 1, 1, 1, 2]

theorem keys_range (h : image.InRange) : ∀ k ∈ image.keys, 0 ≤ k ∧ k < 256 := by
  intro k hk
  rcases h.keys_values k hk with rfl | rfl <;> decide

theorem sp_field_range (h : image.InRange) : 0 ≤ image.sp ∧ image.sp < 256 := by
  have := h.sp_range
  omega

theorem latch_field_range (h : image.InRange) :
    0 ≤ image.latch.getD noLatch ∧ image.latch.getD noLatch < 256 := by
  cases hl : image.latch with
  | none => decide
  | some k =>
    have := h.latch_range k hl
    exact ⟨this.1, by show k < 256; omega⟩

/-- Whether an image in range can be written hangs on the number of its breakpoints alone. -/
theorem encode_eq_ite (h : image.InRange) :
    encode image =
      if image.breakpoints.size < 65536 then .ok (parts image).flatten
      else .error .fieldOverflow := by
  have hbreak : image.breakpoints.toList.all (fun a => 0 ≤ a ∧ a < 65536) = true :=
    List.all_eq_true.2 fun a ha => decide_eq_true (h.breakpoints_range a ha)
  have hregisters : (image.registers.map UInt8.ofInt).length = 16 := by
    rw [List.length_map, h.registers_length]
  have hkeys : (image.keys.map UInt8.ofInt).length = keyCount := by
    rw [List.length_map, h.keys_length]
  rw [encode, Bytes.ofInts_of_range h.registers_range, Bytes.ofInts_of_range (keys_range h)]
  simp only [bind, Except.bind, byteField]
  rw [if_neg (not_not_intro h.stack_length), if_pos (sp_field_range h), if_pos h.delay_range,
    if_pos h.sound_range, if_pos (latch_field_range h)]
  dsimp only
  by_cases hcount : image.breakpoints.size < 65536
  · rw [if_pos ⟨hcount, hbreak⟩, if_pos hcount, encodeState, Bytes.fit_of_length h.memory_length,
      Bytes.fit_of_length hregisters, Bytes.fit_of_length h.framebuffer_length,
      Bytes.fit_of_length hkeys]
    -- both sides are now the same parts, only bracketed differently
    simp only [parts, List.flatten_cons, List.flatten_nil, List.append_nil, List.append_assoc,
      List.cons_append, List.nil_append]
  · rw [if_neg fun hboth => hcount hboth.1, if_neg hcount]

/-- **An image in range is written as its parts.** -/
theorem encode_eq (h : image.InRange) (hcount : image.breakpoints.size < 65536) :
    encode image = .ok (parts image).flatten := by
  rw [encode_eq_ite h, if_pos hcount]

/-- An image with too many breakpoints for their number is not written. -/
theorem encode_of_full (h : image.InRange) (hcount : ¬ image.breakpoints.size < 65536) :
    encode image = .error .fieldOverflow := by
  rw [encode_eq_ite h, if_neg hcount]

theorem map_length_parts (h : image.InRange) :
    (parts image).map List.length = partSizes ++ [2 * image.breakpoints.size] := by
  simp only [parts, List.map_cons, List.map_nil, h.memory_length, List.length_map,
    h.registers_length, length_flatMap_maskedWord, h.stack_length, h.framebuffer_length,
    h.keys_length]
  rfl

/-- **A field at the place and of the size of a part is that part.** -/
theorem field_parts (h : image.InRange) (i : Nat) {part : Bytes} {size : Nat} (hi : i < 17)
    (hpart : (parts image)[i]? = some part) (hsize : part.length = size) :
    field (parts image).flatten (partSizes.take i).sum size = part := by
  have htake : ((parts image).map List.length).take i = partSizes.take i := by
    rw [map_length_parts h, List.take_append_of_le_length (by rw [partSizes]; simp; omega)]
  obtain ⟨hlen, rfl⟩ := List.getElem?_eq_some_iff.1 hpart
  -- what is left behind the parts in front begins with the part itself
  rw [← hsize, field, ← htake, List.drop_sum_flatten, List.drop_eq_getElem_cons hlen,
    List.flatten_cons, List.take_left]

theorem byteAt_parts (h : image.InRange) (i : Nat) {b : UInt8} (hi : i < 17)
    (hpart : (parts image)[i]? = some [b]) :
    byteAt (parts image).flatten (partSizes.take i).sum = b := by
  rw [byteAt_eq_field, field_parts h i hi hpart List.length_singleton]
  rfl

theorem byteAt_parts_ofInt (h : image.InRange) (i : Nat) {n : Int} (hi : i < 17)
    (hn : 0 ≤ n ∧ n < 256) (hpart : (parts image)[i]? = some [UInt8.ofInt n]) :
    ((byteAt (parts image).flatten (partSizes.take i).sum).toNat : Int) = n := by
  rw [byteAt_parts h i hi hpart, Bytes.toNat_ofInt hn]

theorem wordAt_parts (h : image.InRange) (i : Nat) {w : Nat} (hi : i < 17) (hw : w < 65536)
    (hpart : (parts image)[i]? = some (Bytes.ofWord w)) :
    wordAt (parts image).flatten (partSizes.take i).sum = w := by
  have hfield : field (parts image).flatten (partSizes.take i).sum 2 = Bytes.ofWord w :=
    field_parts h i hi hpart rfl
  rw [wordAt_eq_field, hfield]
  exact Bytes.wordOf_ofNat hw

theorem wordAt_parts_masked (h : image.InRange) (i : Nat) {n : Int} (hi : i < 17)
    (hn : 0 ≤ n ∧ n < 65536) (hpart : (parts image)[i]? = some (maskedWord n)) :
    (wordAt (parts image).flatten (partSizes.take i).sum : Int) = n := by
  rw [maskedWord_of_range hn] at hpart
  rw [wordAt_parts h i hi (by omega) hpart, Int.toNat_of_nonneg hn.1]

/-! ### Reading the parts -/

theorem flags_parts (h : image.InRange) :
    (byteAt (parts image).flatten 6222).toNat = encodeDialect image.dialect := by
  have hbyte : byteAt (parts image).flatten 6222 = UInt8.ofNat (encodeDialect image.dialect) :=
    byteAt_parts h 14 (by decide) rfl
  have hlt := encodeDialect_lt image.dialect
  rw [hbyte, UInt8.toNat_ofNat_of_lt' (Nat.lt_trans hlt (by decide))]

theorem memory_parts (h : image.InRange) :
    field (parts image).flatten 5 memorySize = image.memory :=
  field_parts h 2 (by decide) rfl h.memory_length

theorem pc_parts (h : image.InRange) : (wordAt (parts image).flatten 4119 : Int) = image.pc :=
  wordAt_parts_masked h 5 (by decide) h.pc_range rfl

theorem framebuffer_parts (h : image.InRange) :
    field (parts image).flatten 4156 pixelCount = image.framebuffer :=
  field_parts h 10 (by decide) rfl h.framebuffer_length

theorem keys_parts (h : image.InRange) :
    field (parts image).flatten 6205 keyCount = image.keys.map UInt8.ofInt :=
  field_parts h 12 (by decide) rfl ((List.length_map _).trans h.keys_length)

theorem changed_parts (h : image.InRange) :
    byteAt (parts image).flatten 6204 = flagField image.changed :=
  byteAt_parts h 11 (by decide) rfl

theorem running_parts (h : image.InRange) :
    byteAt (parts image).flatten 6221 = flagField image.running :=
  byteAt_parts h 13 (by decide) rfl

/-- The tail behind the fixed fields is the last part. -/
theorem drop_parts (h : image.InRange) :
    (parts image).flatten.drop snapshotFixedSize =
      image.breakpoints.toList.flatMap maskedWord := by
  have htake : ((parts image).map List.length).take 17 = partSizes := by
    rw [map_length_parts h]
    exact List.take_left' rfl
  have hdrop := List.drop_sum_flatten (parts image) 17
  rw [htake] at hdrop
  exact hdrop.trans (List.append_nil _)

/-- The bytes of an image in range have the layout. -/
theorem layout_parts (h : image.InRange) (hcount : image.breakpoints.size < 65536) :
    Layout (parts image).flatten where
  magic_eq := field_parts h 0 (by decide) rfl rfl
  version_eq := byteAt_parts h 1 (by decide) rfl
  length_eq := by
    have hword : wordAt (parts image).flatten 6224 = image.breakpoints.size :=
      wordAt_parts h 16 (by decide) hcount rfl
    rw [List.length_flatten, map_length_parts h, hword, List.sum_append, List.sum_singleton]
    rfl
  sp_le := by
    have hsp : ((byteAt (parts image).flatten 4153).toNat : Int) = image.sp :=
      byteAt_parts_ofInt h 7 (by decide) (sp_field_range h) rfl
    have hle := h.sp_range.2
    show (byteAt (parts image).flatten 4153).toNat ≤ 16
    omega
  framebuffer_values := by
    rw [framebuffer_parts h]
    exact h.framebuffer_values
  keys_values := by
    rw [keys_parts h]
    intro b hb
    obtain ⟨k, hk, rfl⟩ := List.mem_map.1 hb
    exact (h.keys_values k hk).imp (fun hz => by rw [hz]; rfl) (fun ho => by rw [ho]; rfl)
  flags_lt := by
    rw [flags_parts h]
    exact encodeDialect_lt image.dialect
  changed_flag := by
    rw [changed_parts h]
    exact flagField_binary image.changed
  running_flag := by
    rw [running_parts h]
    exact flagField_binary image.running

/-- **The image of the bytes of an image is that image.** -/
theorem imageOf_parts (h : image.InRange) :
    imageOf (parts image).flatten image.latch = image := by
  have hregisters : field (parts image).flatten 4101 16 = image.registers.map UInt8.ofInt :=
    field_parts h 3 (by decide) rfl ((List.length_map _).trans h.registers_length)
  have hindex : (wordAt (parts image).flatten 4117 : Int) = image.index :=
    wordAt_parts_masked h 4 (by decide) h.index_range rfl
  have hstack : field (parts image).flatten 4121 32 = image.stack.flatMap maskedWord := by
    refine field_parts h 6 (by decide) rfl ?_
    rw [length_flatMap_maskedWord, h.stack_length]
  have hsp : ((byteAt (parts image).flatten 4153).toNat : Int) = image.sp :=
    byteAt_parts_ofInt h 7 (by decide) (sp_field_range h) rfl
  have hdelay : ((byteAt (parts image).flatten 4154).toNat : Int) = image.delay :=
    byteAt_parts_ofInt h 8 (by decide) h.delay_range rfl
  have hsound : ((byteAt (parts image).flatten 4155).toNat : Int) = image.sound :=
    byteAt_parts_ofInt h 9 (by decide) h.sound_range rfl
  rw [imageOf, memory_parts h, hregisters, Bytes.map_toNat_map_ofInt h.registers_range, hindex,
    pc_parts h, hstack, toWords_flatMap_maskedWord h.stack_range, hsp, hdelay, hsound,
    framebuffer_parts h, changed_parts h, flagField_eq_one, keys_parts h,
    Bytes.map_toNat_map_ofInt (keys_range h), running_parts h, flagField_eq_one, flags_parts h,
    decodeDialect_encodeDialect, drop_parts h, toWords_flatMap_maskedWord h.breakpoints_range,
    AddressSet.ofList_toList]

/-- The latch of an image in range is read when the image waits for a release of it. -/
theorem latchOf_parts (h : image.InRange) :
    latchOf (parts image).flatten =
      match image.latch with
      | none => .ok none
      | some k =>
        if image.dialect.keyWaitOnRelease = false then .error .latchWithoutRelease
        else if Instruction.IsKeyWait image.wordAtPc then .ok (some k)
        else .error (.latchNotWaiting image.wordAtPc.toNat image.pc.toNat) := by
  have hlatch : ((byteAt (parts image).flatten 6223).toNat : Int) = image.latch.getD noLatch :=
    byteAt_parts_ofInt h 15 (by decide) (latch_field_range h) rfl
  have hpc : wordAt (parts image).flatten 4119 = image.pc.toNat := by
    have := pc_parts h
    omega
  rw [latchOf, readLatch, flags_parts h, memory_parts h, hpc]
  cases hl : image.latch with
  | none =>
    rw [hl] at hlatch
    exact if_pos (Int.ofNat_inj.1 hlatch)
  | some k =>
    have hk := h.latch_range k hl
    rw [hl, Option.getD_some] at hlatch
    generalize (byteAt (parts image).flatten 6223).toNat = b at hlatch ⊢
    have hne : b ≠ noLatch := by
      show b ≠ 255
      omega
    have hkey : b < keyCount := by
      show b < 16
      omega
    rw [if_neg hne, if_neg (Nat.not_le.2 hkey)]
    simp only [keyWait_bit_eq_zero_iff, hlatch]
    rfl

/-! ### The round trip -/

/-- **The round trip.** The bytes of an image that describes a machine are decoded to it. -/
theorem decode_parts (h : image.Valid) (hcount : image.breakpoints.size < 65536) :
    decode (.bytes (parts image).flatten) = .ok image := by
  have hlatch : latchOf (parts image).flatten = .ok image.latch := by
    rw [latchOf_parts h.toInRange]
    cases hl : image.latch with
    | none => rfl
    | some k =>
      obtain ⟨hrelease, hwait⟩ := h.latch_waits (by rw [hl]; rfl)
      rw [hrelease]
      exact if_pos hwait
  rw [decode_of_layout (layout_parts h.toInRange hcount), hlatch]
  exact congrArg Except.ok (imageOf_parts h.toInRange)

/-- An image in range is refused if a key is latched and the word at pc waits for none. -/
theorem decode_parts_of_stale (h : image.InRange) (hcount : image.breakpoints.size < 65536)
    (hlatch : image.latch.isSome) (hrelease : image.dialect.keyWaitOnRelease = true)
    (hwait : ¬ Instruction.IsKeyWait image.wordAtPc) :
    decode (.bytes (parts image).flatten) =
      .error (.latchNotWaiting image.wordAtPc.toNat image.pc.toNat) := by
  have hread : latchOf (parts image).flatten =
      .error (.latchNotWaiting image.wordAtPc.toNat image.pc.toNat) := by
    obtain ⟨k, hk⟩ := Option.isSome_iff_exists.1 hlatch
    rw [latchOf_parts h, hk, hrelease]
    exact if_neg hwait
  rw [decode_of_layout (layout_parts h hcount), hread]
  rfl

/-- **Images that describe machines keep everything in their bytes.** Such an image is written, its
bytes are decoded to it, and no other one has the same bytes. -/
theorem decode_encode (h : image.Valid) (hcount : image.breakpoints.size < 65536) :
    (∃ data, encode image = .ok data ∧ decode (.bytes data) = .ok image) ∧
      ∀ other : Image, other.Valid → other.breakpoints.size < 65536 →
        encode other = encode image → other = image := by
  have hdata := encode_eq h.toInRange hcount
  have hdecode := decode_parts h hcount
  refine ⟨⟨_, hdata, hdecode⟩, fun other hother hsize heq => ?_⟩
  have hsame : (parts other).flatten = (parts image).flatten := by
    rw [encode_eq hother.toInRange hsize, hdata] at heq
    exact Except.ok.inj heq
  have hback := decode_parts hother hsize
  rw [hsame, hdecode] at hback
  exact (Except.ok.inj hback).symm

/-- An image in the middle of a wait for the release of a key, with two breakpoints. -/
def waitingImage : Image where
  memory := 0xF5 :: 0x0A :: List.replicate 4094 0
  registers := List.replicate 16 255
  index := 65535
  pc := 4096
  stack := List.replicate 16 65535
  sp := 16
  delay := 1
  sound := 255
  framebuffer := List.replicate 2048 1
  changed := true
  keys := List.replicate 16 1
  running := false
  dialect := ⟨true, true, false⟩
  latch := some 15
  breakpoints := ⟨[0, 65535], by decide⟩

theorem valid_waitingImage : waitingImage.Valid where
  memory_length := by
    simp only [waitingImage, List.length_cons, List.length_replicate]
  registers_length := List.length_replicate
  registers_range := fun r hr => by
    rw [List.eq_of_mem_replicate hr]
    decide
  index_range := by decide
  pc_range := by decide
  stack_length := List.length_replicate
  stack_range := fun a ha => by
    rw [List.eq_of_mem_replicate ha]
    decide
  sp_range := by decide
  delay_range := by decide
  sound_range := by decide
  framebuffer_length := List.length_replicate
  framebuffer_values := fun b hb => .inr (List.eq_of_mem_replicate hb)
  keys_length := List.length_replicate
  keys_values := fun k hk => .inr (List.eq_of_mem_replicate hk)
  breakpoints_range := by
    show ∀ a ∈ [(0 : Int), 65535], 0 ≤ a ∧ a < 65536
    decide
  latch_range := by
    show ∀ k ∈ some (15 : Int), 0 ≤ k ∧ k < 16
    decide
  latch_waits := fun _ => ⟨rfl, by decide⟩

theorem decode_encode_waitingImage :
    waitingImage.Valid ∧ waitingImage.breakpoints.size < 65536 ∧
      (∃ data, encode waitingImage = .ok data ∧ decode (.bytes data) = .ok waitingImage) ∧
      ∀ other : Image, other.Valid → other.breakpoints.size < 65536 →
        encode other = encode waitingImage → other = waitingImage :=
  ⟨valid_waitingImage, by decide, decode_encode valid_waitingImage (by decide)⟩

end Snapshot

end Chip8
