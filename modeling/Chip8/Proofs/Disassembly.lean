import Chip8.Proofs.Instruction.Text
import Chip8.Proofs.Memory

/-!
# Listings

A listing goes through memory in steps of two bytes, from any address on and up to an end that is
cut at the last byte of the memory. One step shows the word at the first address and goes on two
bytes behind it, with the same end. From this the addresses of a whole listing are told by their
number; and a listing may be cut at any of its words, and also behind its end, where nothing more is
shown.

The addresses of a listing are told by what they are and by their order. Those of a listing that
starts in memory stay there with both bytes. In front of the memory a listing goes round its end, as
all reading does.

## Main definitions

* `Memory.listingEnd`, `Memory.listingAddresses` — where a listing ends, and what it shows
* `Memory.wordLine` — what it shows of one address

## Main results

* `Memory.listing_step` — a listing as a first word and the listing of the rest
* `Memory.listing_eq` — a listing by its addresses
* `Memory.listing_append` — listings put together
* `Memory.mem_listingAddresses`, `Memory.pairwise_listingAddresses` — the addresses of a listing
* `Memory.listing_covers` — all of it
-/

namespace Chip8

namespace Memory

variable {size : Nat} {start length a b x : Int}

/-! ### Addresses -/

/-- The end of a listing: that of the run, but at most the last byte of the memory. -/
def listingEnd (size : Nat) (start length : Int) : Int := min (start + length) ((size : Int) - 1)

/-- The addresses of a listing, in order. -/
def listingAddresses (size : Nat) (start length : Int) : List Int :=
  (List.range ((listingEnd size start length - start + 1) / 2).toNat).map fun i : Nat =>
    start + 2 * i

/-- Behind its end a listing shows nothing. -/
theorem listingAddresses_of_le (h : listingEnd size start length ≤ start) :
    listingAddresses size start length = [] := by
  have hcount : ((listingEnd size start length - start + 1) / 2).toNat = 0 := by omega
  rw [listingAddresses, hcount]
  rfl

/-- Two bytes behind an address the listing has the same end. -/
theorem listingEnd_add_two (size : Nat) (start length : Int) :
    listingEnd size (start + 2) (length - 2) = listingEnd size start length := by
  have hend : start + 2 + (length - 2) = start + length := by omega
  rw [listingEnd, listingEnd, hend]

/-- In front of its end a listing shows the first address, and goes on two bytes behind it. -/
theorem listingAddresses_of_lt (h : start < listingEnd size start length) :
    listingAddresses size start length =
      start :: listingAddresses size (start + 2) (length - 2) := by
  have hcount : ((listingEnd size start length - start + 1) / 2).toNat =
      ((listingEnd size start length - (start + 2) + 1) / 2).toNat + 1 := by omega
  have hstep (i : Nat) : start + 2 * ((i + 1 : Nat) : Int) = start + 2 + 2 * (i : Int) := by omega
  rw [listingAddresses, listingAddresses, listingEnd_add_two, hcount, List.range_succ_eq_map,
    List.map_cons, List.map_map]
  congr 1
  · omega
  · exact List.map_congr_left fun i _ => hstep i

theorem mem_listingAddresses :
    x ∈ listingAddresses size start length ↔
      (∃ i : Nat, x = start + 2 * i) ∧ x < listingEnd size start length := by
  rw [listingAddresses, List.mem_map]
  constructor
  · rintro ⟨i, hi, rfl⟩
    have hlt := List.mem_range.1 hi
    exact ⟨⟨i, rfl⟩, by omega⟩
  · rintro ⟨⟨i, rfl⟩, hlt⟩
    exact ⟨i, List.mem_range.2 (by omega), rfl⟩

theorem pairwise_listingAddresses (size : Nat) (start length : Int) :
    (listingAddresses size start length).Pairwise (· < ·) := by
  refine List.pairwise_map.2 (List.pairwise_lt_range.imp ?_)
  intro i j hij
  omega

theorem length_listingAddresses (size : Nat) (start length : Int) :
    (listingAddresses size start length).length =
      ((listingEnd size start length - start + 1) / 2).toNat := by
  rw [listingAddresses, List.length_map, List.length_range]

/-- A listing is cut at the word at which its second part starts. -/
theorem listingAddresses_append (start : Int) (words : Nat) (hb : 0 ≤ b) :
    listingAddresses size start (2 * words + b) =
      listingAddresses size start (2 * words) ++
        listingAddresses size (start + 2 * words) b := by
  -- word by word: the end of the memory may be met in the first part, and then the rest is empty
  induction words generalizing start with
  | zero =>
    have hempty : listingAddresses size start (2 * (0 : Nat)) = [] :=
      listingAddresses_of_le (by unfold listingEnd; omega)
    have hlength : 2 * ((0 : Nat) : Int) + b = b := by omega
    have hstart : start + 2 * ((0 : Nat) : Int) = start := by omega
    rw [hempty, hlength, hstart, List.nil_append]
  | succ words ih =>
    by_cases hstart : start < (size : Int) - 1
    · have hwhole : start < listingEnd size start (2 * (words + 1 : Nat) + b) := by
        unfold listingEnd
        omega
      have hfirst : start < listingEnd size start (2 * (words + 1 : Nat)) := by
        unfold listingEnd
        omega
      have hwholeRest : 2 * ((words + 1 : Nat) : Int) + b - 2 = 2 * words + b := by omega
      have hfirstRest : 2 * ((words + 1 : Nat) : Int) - 2 = 2 * words := by omega
      have hsecond : start + 2 * ((words + 1 : Nat) : Int) = start + 2 + 2 * words := by omega
      rw [listingAddresses_of_lt hwhole, listingAddresses_of_lt hfirst, hwholeRest, hfirstRest,
        hsecond, ih (start + 2), List.cons_append]
    · have hnone (s l : Int) (hs : start ≤ s) : listingAddresses size s l = [] :=
        listingAddresses_of_le (by unfold listingEnd; omega)
      rw [hnone _ _ le_rfl, hnone _ _ le_rfl, hnone _ _ (by omega), List.nil_append]

/-! ### Lines -/

section lines

variable [Nonempty (Fin size)] {m : Memory size}

/-- What a listing shows of an address: the two bytes from there on, round the end of the memory, in
hexadecimal digits, and the text of the word that they form. -/
def wordLine (m : Memory size) (a : Int) : ListingLine where
  address := a
  bytes := Numeral.hex 2 (m.read (a % size)).toNat ++ " " ++
    Numeral.hex 2 (m.read ((a + 1) % size)).toNat
  text := disassemble (m.bigEndian a)

theorem line_eq_wordLine (m : Memory size) (a : Int) : m.line a = m.wordLine a := by
  have hlow := (m.read (a + 1)).toNat_lt
  have hword := (m.toNat_readWord a).trans (m.bigEndian_eq a)
  have hhighByte : (m.readWord a).toNat / 256 = (m.read a).toNat := by omega
  have hlowByte : (m.readWord a).toNat % 256 = (m.read (a + 1)).toNat := by omega
  rw [line, wordLine, read_emod, read_emod, ← toNat_readWord, disassemble_toNat, hhighByte,
    hlowByte]

/-- **One step of a listing**: it shows the word at its first address, if this is in front of its
end, and goes on two bytes behind it. -/
theorem listing_step (m : Memory size) (start length : Int) :
    m.listing start length =
      if start < listingEnd size start length then
        m.wordLine start :: m.listing (start + 2) (length - 2)
      else [] := by
  have hend := listingEnd_add_two size start length
  unfold listingEnd at hend
  rw [listing, listing, listingUpTo, hend, line_eq_wordLine, listingEnd]

/-- **A listing shows its addresses.** -/
theorem listing_eq (m : Memory size) (start length : Int) :
    m.listing start length = (listingAddresses size start length).map m.wordLine := by
  -- by how much is left up to the end, which each step lowers
  induction hleft : (listingEnd size start length - start).toNat using Nat.strong_induction_on
    generalizing start length with
  | _ left ih =>
    rw [listing_step]
    split
    · rename_i hlt
      have hless : (listingEnd size (start + 2) (length - 2) - (start + 2)).toNat < left := by
        rw [listingEnd_add_two]
        omega
      rw [listingAddresses_of_lt hlt, List.map_cons, ih _ hless _ _ rfl]
    · rename_i hge
      rw [listingAddresses_of_le (not_lt.1 hge), List.map_nil]

/-- **Listings are put together** without gaps or overlaps. -/
theorem listing_append (m : Memory size) (start : Int) (ha : 0 ≤ a) (heven : 2 ∣ a) (hb : 0 ≤ b) :
    m.listing start (a + b) = m.listing start a ++ m.listing (start + a) b := by
  obtain ⟨words, rfl⟩ := heven
  obtain ⟨words, rfl⟩ := Int.eq_ofNat_of_zero_le (show 0 ≤ words by omega)
  rw [listing_eq, listing_eq, listing_eq, listingAddresses_append start words hb, List.map_append]

/-- **Listings cover memory without gaps or overlaps.** A listing may be cut at any of its words.
Its addresses are those two bytes apart from its start up to its end, which is at most the last byte
of the memory, in increasing order, and so it has as many lines as there are of these. Each line has
the two bytes from its address on, which go round the end of the memory, and the text of their word.
If a listing starts in memory, no word of it reaches beyond. -/
theorem listing_covers (m : Memory size) (start : Int) :
    (∀ a b : Int, 0 ≤ a → 2 ∣ a → 0 ≤ b →
        m.listing start (a + b) = m.listing start a ++ m.listing (start + a) b) ∧
      ∀ length : Int,
        (∃ addresses : List Int, addresses.Pairwise (· < ·) ∧
          (∀ x, x ∈ addresses ↔ (∃ i : Nat, x = start + 2 * i) ∧
            x < min (start + length) ((size : Int) - 1)) ∧
          m.listing start length = addresses.map m.wordLine) ∧
        (m.listing start length).length =
          ((min (start + length) ((size : Int) - 1) - start + 1) / 2).toNat ∧
        (0 ≤ start → ∀ line ∈ m.listing start length,
          0 ≤ line.address ∧ line.address + 1 < size) := by
  refine ⟨fun a b ha heven hb => m.listing_append start ha heven hb, fun length => ?_⟩
  refine ⟨⟨_, pairwise_listingAddresses size start length, fun x => mem_listingAddresses,
    m.listing_eq start length⟩, ?_, ?_⟩
  · rw [listing_eq, List.length_map]
    exact length_listingAddresses size start length
  · intro hstart line hline
    rw [listing_eq] at hline
    obtain ⟨x, hx, rfl⟩ := List.mem_map.1 hline
    obtain ⟨⟨i, rfl⟩, hend⟩ := mem_listingAddresses.1 hx
    unfold listingEnd at hend
    show 0 ≤ start + 2 * (i : Int) ∧ start + 2 * (i : Int) + 1 < size
    omega

/-- A memory of an odd number of cells. -/
def sevenCells : Memory 7 := (blank 7).load 0 [0x00, 0xE0, 0x12, 0x00, 0x60, 0x0A, 0xA2]

/-- A listing from in front of the memory up to behind its end, cut once. The word at -1 goes round
the end, and the last byte is only shown there. -/
theorem listing_covers_sevenCells :
    (0 : Int) ≤ 4 ∧ (2 : Int) ∣ 4 ∧ (0 : Int) ≤ 9 ∧
      sevenCells.listing (-3) (4 + 9) =
        sevenCells.listing (-3) 4 ++ sevenCells.listing (-3 + 4) 9 ∧
      sevenCells.listing (-3) 4 =
        [⟨-3, "60 0A", "LD V0, 0x0A"⟩, ⟨-1, "A2 00", "LD I, 0x200"⟩] ∧
      (sevenCells.listing (-3) (4 + 9)).length = 5 ∧
      ∀ line ∈ sevenCells.listing 0 100, 0 ≤ line.address ∧ line.address + 1 < 7 := by
  obtain ⟨hcut, hlines⟩ := listing_covers sevenCells (-3)
  have hsplit := hcut 4 9 (by decide) (by decide) (by decide)
  have hcount := (hlines (4 + 9)).2.1
  have hinside := ((listing_covers sevenCells 0).2 100).2.2 le_rfl
  refine ⟨by decide, by decide, by decide, hsplit, ?_, hcount, hinside⟩
  rw [listing_eq]
  decide +kernel

end lines

end Memory

end Chip8
