import Chip8.Proofs.Snapshot.Format

/-!
# The canonical form of a snapshot

Breakpoints are read in any order and any number of times, and written in increasing order and once
each. That is the only freedom that the format leaves: every other field is written again as it was
read, byte for byte. So writing what was read keeps a byte string up to the number of its
breakpoints, and puts the breakpoints in order behind it.

The proof goes through the parts again. Cutting the fixed fields out of a byte string, one after the
other, and laying them end to end gives them back, whatever their sizes are. What is left are
the inverse pairs of the round trip, read in the other direction: here the number of bytes and the
checks of the layout take the place of the ranges of an image.

## Main definitions

* `Snapshot.breakpointWords` — the breakpoints of a byte string, in the order in which they stand
* `Snapshot.withBreakpoints` — the same fixed fields with other breakpoints
* `Snapshot.cut` — the fields of given sizes, one after the other

## Main results

* `Snapshot.decode_withBreakpoints` — breakpoints are read in any order and any number of times
* `Snapshot.flatten_parts_imageOf` — the other fields are written as they were read
* `Snapshot.encode_decode_canonical` — writing what was read puts the breakpoints in order
-/

namespace Chip8

/-! ### Bytes and words -/

namespace Bytes

theorem ofWord_wordOf (high low : UInt8) : ofWord (wordOf high low) = [high, low] := by
  have hhigh := high.toNat_lt
  have hlow := low.toNat_lt
  have hdiv : (high.toNat * 256 + low.toNat) / 256 = high.toNat := by omega
  have hmod : (high.toNat * 256 + low.toNat) % 256 = low.toNat := by omega
  have hword : UInt8.ofNat (high.toNat * 256 + low.toNat) = low := by
    refine UInt8.toNat_inj.1 ?_
    rw [UInt8.toNat_ofNat']
    exact hmod
  rw [wordOf, ofWord, hdiv, hword, UInt8.ofNat_toNat]

/-- The words of an even number of bytes are written as those bytes. -/
theorem flatMap_ofWord_toWords : ∀ {bs : Bytes}, bs.length % 2 = 0 →
    (toWords bs).flatMap ofWord = bs
  | [], _ => rfl
  | [_], h => absurd h Nat.one_ne_zero
  | high :: low :: rest, h => by
    have hrest : rest.length % 2 = 0 := by
      rw [List.length_cons, List.length_cons] at h
      omega
    rw [toWords, List.flatMap_cons, ofWord_wordOf, flatMap_ofWord_toWords hrest]
    rfl

end Bytes

namespace Snapshot

variable {data : Bytes} {image : Image} {words : List Nat} {latch : Option Int}

/-! ### Fields one after the other -/

/-- The fields of given sizes, one after the other from a place on. -/
def cut (data : Bytes) (offset : Nat) : List Nat → List Bytes
  | [] => []
  | size :: rest => field data offset size :: cut data (offset + size) rest

theorem field_append (data : Bytes) (offset size rest : Nat) :
    field data offset size ++ field data (offset + size) rest =
      field data offset (size + rest) := by
  rw [field, field, field, List.take_add, List.drop_drop]

/-- **Fields that were cut out are the field of all of them when they are laid end to end.** -/
theorem flatten_cut (data : Bytes) (offset : Nat) (sizes : List Nat) :
    (cut data offset sizes).flatten = field data offset sizes.sum := by
  induction sizes generalizing offset with
  | nil => exact List.take_zero.symm
  | cons size rest ih =>
    rw [cut, List.flatten_cons, ih, field_append, List.sum_cons]

theorem field_one {offset : Nat} (h : offset < data.length) :
    field data offset 1 = [byteAt data offset] := by
  rw [Checked.field_succ 0 h, field, List.take_zero]

/-- A word is written as the two bytes from which it was read. -/
theorem maskedWord_wordAt {offset : Nat} (h : offset + 1 < data.length) :
    maskedWord (wordAt data offset) = field data offset 2 := by
  have hlt := wordAt_lt data offset
  rw [maskedWord_of_range ⟨by omega, by omega⟩, Int.toNat_natCast, wordAt, Bytes.ofWord_wordOf,
    Checked.field_succ 1 (Nat.lt_of_succ_lt h), field_one h]

/-! ### Flags and latch -/

theorem flagField_of_binary {b : UInt8} (h : b = 0 ∨ b = 1) : flagField (b == 1) = b := by
  rcases h with rfl | rfl <;> rfl

theorem encodeDialect_decodeDialect {flags : Nat} (h : flags < 8) :
    encodeDialect (decodeDialect flags) = flags := by
  have hall : ∀ f : Fin 8, encodeDialect (decodeDialect f) = f := by decide
  exact hall ⟨flags, h⟩

/-- A latch is written as the byte from which it was read. -/
theorem latch_of_latchOf (h : latchOf data = .ok latch) :
    UInt8.ofInt (latch.getD noLatch) = byteAt data 6223 := by
  rcases readLatch_eq_ok_iff.1 h with ⟨hnone, rfl⟩ | ⟨-, -, -, rfl⟩
  · exact UInt8.toNat_inj.1 hnone.symm
  · exact Bytes.ofInt_toNat _

/-! ### Other breakpoints -/

/-- Where the number of breakpoints stands. -/
abbrev countOffset : Nat := 6224

/-- The breakpoints of a byte string, in the order in which they stand. -/
def breakpointWords (data : Bytes) : List Nat := Bytes.toWords (data.drop snapshotFixedSize)

/-- The fixed fields of a byte string with other breakpoints behind them, and with their number. -/
def withBreakpoints (data : Bytes) (words : List Nat) : Bytes :=
  data.take countOffset ++ (Bytes.ofWord words.length ++ words.flatMap Bytes.ofWord)

theorem Layout.countOffset_le (h : Layout data) : countOffset ≤ data.length := by
  have hlength : data.length = 6226 + 2 * wordAt data 6224 := h.length_eq
  show 6224 ≤ data.length
  omega

theorem field_withBreakpoints (hlen : countOffset ≤ data.length) {offset size : Nat}
    (h : offset + size ≤ countOffset) :
    field (withBreakpoints data words) offset size = field data offset size := by
  have hoffset : offset ≤ (data.take countOffset).length := by
    rw [List.length_take]
    omega
  have hsize : size ≤ ((data.take countOffset).drop offset).length := by
    rw [List.length_drop, List.length_take]
    omega
  rw [field, withBreakpoints, List.drop_append_of_le_length hoffset,
    List.take_append_of_le_length hsize, List.drop_take, List.take_take, Nat.min_eq_left (by omega),
    field]

theorem byteAt_withBreakpoints (hlen : countOffset ≤ data.length) {offset : Nat}
    (h : offset < countOffset) :
    byteAt (withBreakpoints data words) offset = byteAt data offset := by
  rw [byteAt_eq_field, field_withBreakpoints hlen h, ← byteAt_eq_field]

theorem wordAt_withBreakpoints (hlen : countOffset ≤ data.length) {offset : Nat}
    (h : offset + 2 ≤ countOffset) :
    wordAt (withBreakpoints data words) offset = wordAt data offset := by
  rw [wordAt_eq_field, field_withBreakpoints hlen h, ← wordAt_eq_field]

theorem drop_withBreakpoints (hlen : countOffset ≤ data.length) :
    (withBreakpoints data words).drop countOffset =
      Bytes.ofWord words.length ++ words.flatMap Bytes.ofWord :=
  List.drop_left' (List.length_take_of_le hlen)

theorem count_withBreakpoints (hlen : countOffset ≤ data.length) (hn : words.length < 65536) :
    wordAt (withBreakpoints data words) countOffset = words.length := by
  have hfield : field (withBreakpoints data words) countOffset 2 = Bytes.ofWord words.length := by
    rw [field, drop_withBreakpoints hlen]
    exact List.take_left' rfl
  rw [wordAt_eq_field, hfield]
  exact Bytes.wordOf_ofNat hn

theorem breakpointWords_withBreakpoints (hlen : countOffset ≤ data.length)
    (hw : ∀ w ∈ words, w < 65536) : breakpointWords (withBreakpoints data words) = words := by
  have hdrop : (withBreakpoints data words).drop snapshotFixedSize =
      words.flatMap Bytes.ofWord := by
    have hfixed : snapshotFixedSize = countOffset + 2 := rfl
    rw [hfixed, ← List.drop_drop, drop_withBreakpoints hlen]
    exact List.drop_left' rfl
  rw [breakpointWords, hdrop, Bytes.toWords_flatMap_ofWord hw]

theorem length_withBreakpoints (hlen : countOffset ≤ data.length) :
    (withBreakpoints data words).length = snapshotFixedSize + 2 * words.length := by
  have hfixed : snapshotFixedSize = countOffset + 2 := rfl
  have hcount : (Bytes.ofWord words.length).length = 2 := rfl
  rw [withBreakpoints, List.length_append, List.length_append, List.length_take_of_le hlen, hcount,
    Bytes.length_flatMap_ofWord, hfixed, Nat.add_assoc]

/-- What a byte string with the layout holds behind its fixed fields are its breakpoints. -/
theorem withBreakpoints_breakpointWords (h : Layout data) :
    withBreakpoints data (breakpointWords data) = data := by
  have hlen : data.length = 6226 + 2 * wordAt data 6224 := h.length_eq
  have heven : (data.drop snapshotFixedSize).length % 2 = 0 := by
    rw [List.length_drop]
    show (data.length - 6226) % 2 = 0
    omega
  have hcount : (breakpointWords data).length = wordAt data 6224 := by
    rw [breakpointWords, Bytes.length_toWords, List.length_drop]
    show (data.length - 6226) / 2 = wordAt data 6224
    omega
  have hword : Bytes.ofWord (wordAt data 6224) = field data countOffset 2 := by
    have hmasked : maskedWord (wordAt data 6224) = field data 6224 2 := maskedWord_wordAt (by omega)
    have hlt := wordAt_lt data 6224
    rwa [maskedWord_of_range ⟨by omega, by omega⟩, Int.toNat_natCast] at hmasked
  have hrest : field data countOffset 2 ++ data.drop snapshotFixedSize = data.drop countOffset := by
    have hfixed : data.drop snapshotFixedSize = (data.drop countOffset).drop 2 := by
      rw [List.drop_drop]
    rw [hfixed]
    exact List.take_append_drop 2 (data.drop countOffset)
  rw [withBreakpoints, hcount, hword, breakpointWords, Bytes.flatMap_ofWord_toWords heven, hrest,
    List.take_append_drop]

/-- **Breakpoints are read in any order and any number of times.** With any words in the place of
the breakpoints a byte string is still decoded, to the same image but for the set of its
breakpoints. -/
theorem decode_withBreakpoints (h : decode (.bytes data) = .ok image) (hw : ∀ w ∈ words, w < 65536)
    (hn : words.length < 65536) :
    decode (.bytes (withBreakpoints data words)) =
      .ok { image with breakpoints := AddressSet.ofList (words.map fun w : Nat => (w : Int)) } := by
  have hlayout := layout_of_decode h
  obtain ⟨latch, hlatch, rfl⟩ := latchOf_of_decode h
  have hlen := hlayout.countOffset_le
  have hfield {offset size : Nat} (ho : offset + size ≤ countOffset) :
      field (withBreakpoints data words) offset size = field data offset size :=
    field_withBreakpoints hlen ho
  have hbyte {offset : Nat} (ho : offset < countOffset) :
      byteAt (withBreakpoints data words) offset = byteAt data offset :=
    byteAt_withBreakpoints hlen ho
  have hword {offset : Nat} (ho : offset + 2 ≤ countOffset) :
      wordAt (withBreakpoints data words) offset = wordAt data offset :=
    wordAt_withBreakpoints hlen ho
  have hmagic : field (withBreakpoints data words) 0 4 = field data 0 4 := hfield (by decide)
  have hother : Layout (withBreakpoints data words) := {
    magic_eq := hmagic.trans hlayout.magic_eq
    version_eq := (hbyte (by decide)).trans hlayout.version_eq
    length_eq := by rw [length_withBreakpoints hlen, count_withBreakpoints hlen hn]
    sp_le := by rw [hbyte (by decide)]; exact hlayout.sp_le
    framebuffer_values := by rw [hfield (by decide)]; exact hlayout.framebuffer_values
    keys_values := by rw [hfield (by decide)]; exact hlayout.keys_values
    flags_lt := by rw [hbyte (by decide)]; exact hlayout.flags_lt
    changed_flag := by rw [hbyte (by decide)]; exact hlayout.changed_flag
    running_flag := by rw [hbyte (by decide)]; exact hlayout.running_flag }
  have hread : latchOf (withBreakpoints data words) = .ok latch := by
    rw [latchOf, hbyte (by decide), hbyte (by decide), hfield (by decide), hword (by decide)]
    exact hlatch
  have htail : Bytes.toWords ((withBreakpoints data words).drop snapshotFixedSize) = words :=
    breakpointWords_withBreakpoints hlen hw
  rw [decode_of_layout hother, hread]
  refine congrArg Except.ok ?_
  rw [imageOf, hfield (by decide), hfield (by decide), hword (by decide), hword (by decide),
    hfield (by decide), hbyte (by decide), hbyte (by decide), hbyte (by decide), hfield (by decide),
    hbyte (by decide), hfield (by decide), hbyte (by decide), hbyte (by decide), htail]
  rfl

/-! ### Words in order -/

/-- The words of a list in increasing order and once each. -/
def inOrder (words : List Nat) : List Nat :=
  (AddressSet.ofList (words.map fun w : Nat => (w : Int))).toList.map Int.toNat

/-- They are the members of the set of the list. -/
theorem map_cast_inOrder (words : List Nat) :
    ((inOrder words).map fun w : Nat => (w : Int)) =
      (AddressSet.ofList (words.map fun w : Nat => (w : Int))).toList := by
  have hnonneg : ∀ a ∈ (AddressSet.ofList (words.map fun w : Nat => (w : Int))).toList, 0 ≤ a := by
    intro a ha
    obtain ⟨w, -, rfl⟩ := List.mem_map.1 (AddressSet.mem_ofList.1 ha)
    exact Int.natCast_nonneg w
  rw [inOrder, List.map_map]
  exact (List.map_congr_left fun a ha => Int.toNat_of_nonneg (hnonneg a ha)).trans (List.map_id _)

theorem mem_inOrder {w : Nat} : w ∈ inOrder words ↔ w ∈ words := by
  have hiff : ((w : Int) ∈ (inOrder words).map fun w : Nat => (w : Int)) ↔
      (w : Int) ∈ words.map fun w : Nat => (w : Int) := by
    rw [map_cast_inOrder, ← AddressSet.mem_iff, AddressSet.mem_ofList]
  simpa only [List.mem_map, Int.ofNat_inj, exists_eq_right] using hiff

theorem pairwise_inOrder (words : List Nat) : (inOrder words).Pairwise (· < ·) := by
  have hincreasing := (AddressSet.ofList (words.map fun w : Nat => (w : Int))).increasing
  rw [← map_cast_inOrder] at hincreasing
  exact (List.pairwise_map.1 hincreasing).imp Int.ofNat_lt.1

/-- Words that are in order stay as they are. -/
theorem inOrder_of_pairwise (h : words.Pairwise (· < ·)) : inOrder words = words := by
  have hincreasing : (words.map fun w : Nat => (w : Int)).Pairwise (· < ·) :=
    List.pairwise_map.2 (h.imp Int.ofNat_lt.2)
  have hset := AddressSet.ofList_toList ⟨_, hincreasing⟩
  rw [inOrder, hset, List.map_map]
  exact List.map_id words

/-! ### Writing what was read -/

/-- The fixed fields of an image that was read, up to the number of breakpoints, are those of the
byte string. -/
theorem take_parts_imageOf (h : Layout data) (hlatch : latchOf data = .ok latch) :
    (parts (imageOf data latch)).take 16 = cut data 0 (partSizes.take 16) := by
  have hlen : data.length = 6226 + 2 * wordAt data 6224 := h.length_eq
  have hranges : (imageOf data none).InRange := inRange_imageOf h nofun
  have hmagic : magic = field data 0 4 := h.magic_eq.symm
  have hversion : [UInt8.ofNat version] = field data 4 1 := by
    rw [field_one (by omega), h.version_eq]
  have hbytes (offset size : Nat) :
      ((field data offset size).map fun b => (b.toNat : Int)).map UInt8.ofInt =
        field data offset size := Bytes.map_ofInt_map_toNat _
  have hstack : (((Bytes.toWords (field data 4121 32)).map fun w : Nat => (w : Int)).flatMap
      maskedWord) = field data 4121 32 := by
    have heven : (field data 4121 32).length % 2 = 0 := by rw [length_field (by omega)]
    have hrange : ∀ a ∈ (Bytes.toWords (field data 4121 32)).map (fun w : Nat => (w : Int)),
        0 ≤ a ∧ a < 65536 := hranges.stack_range
    rw [flatMap_maskedWord hrange, List.map_map]
    exact (congrArg (List.flatMap Bytes.ofWord) (List.map_id _)).trans
      (Bytes.flatMap_ofWord_toWords heven)
  have hword (offset : Nat) (ho : offset + 1 < data.length) :
      maskedWord (wordAt data offset) = field data offset 2 := maskedWord_wordAt ho
  have hbyte (offset : Nat) (ho : offset < data.length) :
      [UInt8.ofInt ((byteAt data offset).toNat : Int)] = field data offset 1 := by
    rw [Bytes.ofInt_toNat, field_one ho]
  have hflag (offset : Nat) (ho : offset < data.length)
      (hb : byteAt data offset = 0 ∨ byteAt data offset = 1) :
      [flagField (byteAt data offset == 1)] = field data offset 1 := by
    rw [flagField_of_binary hb, field_one ho]
  have hdialect : [UInt8.ofNat (encodeDialect (decodeDialect (byteAt data 6222).toNat))] =
      field data 6222 1 := by
    rw [encodeDialect_decodeDialect h.flags_lt, UInt8.ofNat_toNat, field_one (by omega)]
  have hlatched : [UInt8.ofInt (latch.getD noLatch)] = field data 6223 1 := by
    rw [latch_of_latchOf hlatch, field_one (by omega)]
  simp only [parts, imageOf, List.take_succ_cons, List.take_zero, hversion, hbytes, hstack,
    hdialect, hlatched, hword 4117 (by omega), hword 4119 (by omega), hbyte 4153 (by omega),
    hbyte 4154 (by omega), hbyte 4155 (by omega), hflag 6204 (by omega) h.changed_flag,
    hflag 6221 (by omega) h.running_flag]
  rw [hmagic]
  rfl

/-- **What was read is written as it was**, but for the breakpoints and their number. -/
theorem flatten_parts_imageOf (h : Layout data) (hlatch : latchOf data = .ok latch) :
    (parts (imageOf data latch)).flatten =
      withBreakpoints data (inOrder (breakpointWords data)) := by
  have hranges : (imageOf data none).InRange := inRange_imageOf h nofun
  have hrange : ∀ a ∈ (imageOf data latch).breakpoints, 0 ≤ a ∧ a < 65536 :=
    hranges.breakpoints_range
  have hfixed : ((parts (imageOf data latch)).take 16).flatten = data.take countOffset := by
    rw [take_parts_imageOf h hlatch, flatten_cut]
    rfl
  have hrest : ((parts (imageOf data latch)).drop 16).flatten =
      Bytes.ofWord (imageOf data latch).breakpoints.size ++
        (imageOf data latch).breakpoints.toList.flatMap maskedWord := by
    show (_ ++ (_ ++ [])) = _
    rw [List.append_nil]
  have hsplit := congrArg List.flatten (List.take_append_drop 16 (parts (imageOf data latch)))
  have hcount : (inOrder (breakpointWords data)).length = (imageOf data latch).breakpoints.size :=
    List.length_map _
  rw [← hsplit, List.flatten_append, hfixed, hrest, flatMap_maskedWord hrange, withBreakpoints,
    hcount]
  rfl

/-! ### The canonical form -/

/-- **Writing what was read puts the breakpoints in order.** Whatever byte string is read, its image
can be written. The bytes are then the fixed fields of that byte string, with the number of
breakpoints adjusted, and its breakpoints behind them, in increasing order and once each; they are
read as the same image; and they are the byte string itself exactly when its breakpoints were in
this order. -/
theorem encode_decode_canonical (h : decode (.bytes data) = .ok image) :
    ∃ words : List Nat, words.Pairwise (· < ·) ∧ (∀ w, w ∈ words ↔ w ∈ breakpointWords data) ∧
      encode image = .ok (withBreakpoints data words) ∧
      decode (.bytes (withBreakpoints data words)) = .ok image ∧
      (withBreakpoints data words = data ↔ (breakpointWords data).Pairwise (· < ·)) := by
  have hlayout := layout_of_decode h
  obtain ⟨latch, hlatch, rfl⟩ := latchOf_of_decode h
  have hlt : ∀ w ∈ inOrder (breakpointWords data), w < 65536 :=
    fun w hw => Bytes.toWords_lt (mem_inOrder.1 hw)
  have hcount : (inOrder (breakpointWords data)).length < 65536 := by
    have hle := size_breakpoints_le hlayout latch
    rw [inOrder, List.length_map]
    exact Nat.lt_of_le_of_lt hle (wordAt_lt data 6224)
  refine ⟨inOrder (breakpointWords data), pairwise_inOrder _, fun _ => mem_inOrder, ?_, ?_,
    fun hsame => ?_, fun horder => ?_⟩
  · rw [encode_of_decode h, flatten_parts_imageOf hlayout hlatch]
  · rw [decode_withBreakpoints h hlt hcount, map_cast_inOrder, AddressSet.ofList_toList]
    rfl
  · have htail := breakpointWords_withBreakpoints hlayout.countOffset_le hlt
    rw [hsame] at htail
    rw [htail]
    exact pairwise_inOrder _
  · rw [inOrder_of_pairwise horder]
    exact withBreakpoints_breakpointWords hlayout

/-- The bytes of an image with its two breakpoints the wrong way round, and one of them twice. -/
def disordered : Bytes := withBreakpoints (parts waitingImage).flatten [65535, 0, 0]

theorem encode_decode_canonical_disordered :
    ∃ image, decode (.bytes disordered) = .ok image ∧ breakpointWords disordered = [65535, 0, 0] ∧
      ∃ words : List Nat, words.Pairwise (· < ·) ∧
        (∀ w, w ∈ words ↔ w ∈ breakpointWords disordered) ∧
        encode image = .ok (withBreakpoints disordered words) ∧
        decode (.bytes (withBreakpoints disordered words)) = .ok image ∧
        (withBreakpoints disordered words = disordered ↔
          (breakpointWords disordered).Pairwise (· < ·)) := by
  have hread := decode_parts valid_waitingImage (by decide)
  have hdecode : decode (.bytes disordered) = .ok { waitingImage with
      breakpoints := AddressSet.ofList ([65535, 0, 0].map fun w : Nat => (w : Int)) } :=
    decode_withBreakpoints hread (by decide) (by decide)
  have hlen := (layout_of_decode hread).countOffset_le
  exact ⟨_, hdecode, breakpointWords_withBreakpoints hlen (by decide),
    encode_decode_canonical hdecode⟩

end Snapshot

end Chip8
