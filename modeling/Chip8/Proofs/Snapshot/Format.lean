import Chip8.Proofs.Snapshot.Checked
import Chip8.Proofs.Snapshot.RoundTrip
import Mathlib.Data.Nat.Basic

/-!
# The byte strings that are snapshots

The format of a snapshot as a property of bytes, and the decoder measured against it: it accepts the
byte strings of this format and nothing else, on the way it reads only where there are bytes, and
what it accepts can be written again. The number of breakpoints needs no clause for that. It is read
from a field of sixteen bits, and the set of the breakpoints has no more members than were written.

## Main definitions

* `Snapshot.Format` — the byte strings that are snapshots

## Main results

* `Snapshot.exists_decode_iff` — they are the byte strings that are decoded
* `Snapshot.encode_of_decode` — what is decoded can be encoded
* `Snapshot.decode_exact` — all of it, for every source
-/

namespace Chip8

namespace Snapshot

variable {data : Bytes} {image : Image} {source : Source}

/-- The byte strings that are snapshots. Besides the layout, a latched key must be one for whose
release the word at pc waits. -/
structure Format (data : Bytes) : Prop extends Layout data where
  latch_waits : (byteAt data 6223).toNat = noLatch ∨
    ((byteAt data 6223).toNat < keyCount ∧ (byteAt data 6222).toNat / 2 % 2 = 1 ∧
      Instruction.IsKeyWait (Image.wordAt (field data 5 memorySize) (wordAt data 4119)))

/-! ### Acceptance -/

/-- The latch is read when it is empty or waited for. -/
theorem exists_latchOf_iff :
    (∃ latch, latchOf data = .ok latch) ↔
      (byteAt data 6223).toNat = noLatch ∨
        ((byteAt data 6223).toNat < keyCount ∧ (byteAt data 6222).toNat / 2 % 2 = 1 ∧
          Instruction.IsKeyWait (Image.wordAt (field data 5 memorySize) (wordAt data 4119))) := by
  constructor
  · rintro ⟨latch, hlatch⟩
    rcases readLatch_eq_ok_iff.1 hlatch with ⟨hnone, -⟩ | ⟨hkey, hrelease, hwait, -⟩
    · exact .inl hnone
    · exact .inr ⟨hkey, hrelease, hwait⟩
  · rintro (hnone | ⟨hkey, hrelease, hwait⟩)
    · exact ⟨none, readLatch_eq_ok_iff.2 (.inl ⟨hnone, rfl⟩)⟩
    · exact ⟨_, readLatch_eq_ok_iff.2 (.inr ⟨hkey, hrelease, hwait, rfl⟩)⟩

/-- **The byte strings that are decoded are the snapshots.** -/
theorem exists_decode_iff : (∃ image, decode (.bytes data) = .ok image) ↔ Format data := by
  constructor
  · rintro ⟨image, h⟩
    obtain ⟨latch, hlatch, -⟩ := latchOf_of_decode h
    exact { layout_of_decode h with latch_waits := exists_latchOf_iff.1 ⟨latch, hlatch⟩ }
  · intro h
    obtain ⟨latch, hlatch⟩ := exists_latchOf_iff.2 h.latch_waits
    refine ⟨imageOf data latch, ?_⟩
    rw [decode_of_layout h.toLayout, hlatch]
    rfl

/-! ### Writing again -/

/-- There are no more breakpoints than the number in front of them says. -/
theorem size_breakpoints_le (h : Layout data) (latch : Option Int) :
    (imageOf data latch).breakpoints.size ≤ wordAt data 6224 := by
  have hlen : data.length = 6226 + 2 * wordAt data 6224 := h.length_eq
  refine (AddressSet.size_ofList_le _).trans (Nat.le_of_eq ?_)
  rw [List.length_map, Bytes.length_toWords, List.length_drop]
  show (data.length - 6226) / 2 = wordAt data 6224
  omega

/-- **What is decoded can be encoded.** -/
theorem encode_of_decode (h : decode source = .ok image) :
    encode image = .ok (parts image).flatten := by
  cases source with
  | other value => cases h
  | bytes data =>
    have hvalid : image.Valid := valid_of_decode h
    obtain ⟨latch, -, rfl⟩ := latchOf_of_decode h
    have hle := size_breakpoints_le (layout_of_decode h) latch
    exact encode_eq hvalid.toInRange (Nat.lt_of_le_of_lt hle (wordAt_lt data 6224))

/-! ### The decoder -/

/-- **The decoder accepts its format and nothing else.** Whatever the source is, no read leaves its
bytes; an image comes out precisely for the byte strings of the format, and a refusal for all other
sources; and an image that comes out describes a machine and can be written. -/
theorem decode_exact (source : Source) :
    Checked.decode source = (decode source).mapError .refused ∧
      ((∃ image, decode source = .ok image) ↔ ∃ data, source = .bytes data ∧ Format data) ∧
      ∀ image, decode source = .ok image → image.Valid ∧ ∃ data, encode image = .ok data := by
  refine ⟨Checked.decode_eq source, ?_, fun image h => ⟨valid_of_decode h, _, encode_of_decode h⟩⟩
  cases source with
  | other value =>
    constructor
    · rintro ⟨image, ⟨⟩⟩
    · rintro ⟨data, ⟨⟩, -⟩
  | bytes data =>
    rw [exists_decode_iff]
    constructor
    · intro h
      exact ⟨data, rfl, h⟩
    · rintro ⟨data, ⟨⟩, h⟩
      exact h

theorem decode_exact_waitingImage :
    decode (.bytes (parts waitingImage).flatten) = .ok waitingImage ∧
      Checked.decode (.bytes (parts waitingImage).flatten) = .ok waitingImage ∧
      Format (parts waitingImage).flatten ∧ waitingImage.Valid ∧
      ∃ data, encode waitingImage = .ok data := by
  have hdecode := decode_parts valid_waitingImage (by decide)
  obtain ⟨hchecked, hformat, himage⟩ := decode_exact (.bytes (parts waitingImage).flatten)
  obtain ⟨data, ⟨⟩, hdata⟩ := hformat.1 ⟨waitingImage, hdecode⟩
  rw [hdecode] at hchecked
  exact ⟨hdecode, hchecked, hdata, himage waitingImage hdecode⟩

end Snapshot

end Chip8
