import Chip8.Bytes

/-!
# Byte strings of integers and words

Integers are converted to bytes one by one, and all of them must be bytes. What comes out stands for
the same integers, so nothing is lost on the way, in either direction. The same holds of words, of
which each is two bytes.

## Main results

* `Bytes.ofInts_of_range`, `Bytes.ofInts_of_stray` — which lists of integers are byte strings
* `Bytes.ofInts_map_toNat` — byte strings are those of their own integers
* `Bytes.toWords_flatMap_ofWord` — words are read as they were written
-/

namespace Chip8

namespace Bytes

/-- A byte string of the right size is neither cut nor padded. -/
theorem fit_of_length {size : Nat} {bs : Bytes} (h : bs.length = size) : fit size bs = bs := by
  rw [fit, h, Nat.sub_self, List.replicate_zero, List.append_nil,
    List.take_of_length_le (Nat.le_of_eq h)]

/-! ### Bytes of integers -/

/-- Integers that are bytes are converted one by one. -/
theorem ofInts_of_range {l : List Int} (h : ∀ n ∈ l, 0 ≤ n ∧ n < 256) :
    ofInts l = .ok (l.map UInt8.ofInt) := by
  induction l with
  | nil => rfl
  | cons n rest ih =>
    rw [ofInts, ofInt, if_pos (h n List.mem_cons_self),
      ih fun m hm => h m (List.mem_cons_of_mem n hm)]
    rfl

/-- A single integer that is no byte is enough for a list to be refused. -/
theorem ofInts_of_stray {l : List Int} (h : ∃ n ∈ l, ¬ (0 ≤ n ∧ n < 256)) :
    ofInts l = .error .notByte := by
  induction l with
  | nil =>
    obtain ⟨n, hn, -⟩ := h
    exact absurd hn List.not_mem_nil
  | cons first rest ih =>
    rw [ofInts, ofInt]
    by_cases hfirst : 0 ≤ first ∧ first < 256
    · have hrest : ∃ n ∈ rest, ¬ (0 ≤ n ∧ n < 256) := by
        obtain ⟨n, hn, hstray⟩ := h
        rcases List.mem_cons.1 hn with rfl | hn
        · exact absurd hfirst hstray
        · exact ⟨n, hn, hstray⟩
      rw [if_pos hfirst, ih hrest]
      rfl
    · rw [if_neg hfirst]
      rfl

theorem toNat_range (b : UInt8) : 0 ≤ (b.toNat : Int) ∧ (b.toNat : Int) < 256 := by
  have hlt := b.toNat_lt
  exact ⟨by omega, by omega⟩

/-- The byte of an integer is what is left of it modulo 256. -/
theorem toNat_ofInt_emod (n : Int) : ((UInt8.ofInt n).toNat : Int) = n % 256 := by
  have hnonneg := Int.emod_nonneg n (show (256 : Int) ≠ 0 by decide)
  have hlt := Int.emod_lt_of_pos n (show (0 : Int) < 256 by decide)
  have hbyte : (n % 256).toNat < 256 := by omega
  calc ((UInt8.ofInt n).toNat : Int)
      = ((n % 256).toNat : Int) := congrArg Nat.cast (UInt8.toNat_ofNat_of_lt' hbyte)
    _ = n % 256 := Int.toNat_of_nonneg hnonneg

theorem toNat_ofInt {n : Int} (h : 0 ≤ n ∧ n < 256) : ((UInt8.ofInt n).toNat : Int) = n := by
  rw [toNat_ofInt_emod, Int.emod_eq_of_lt h.1 h.2]

/-- Bytes of integers that are bytes stand for those integers. -/
theorem map_toNat_map_ofInt {l : List Int} (h : ∀ n ∈ l, 0 ≤ n ∧ n < 256) :
    (l.map UInt8.ofInt).map (fun b => (b.toNat : Int)) = l := by
  rw [List.map_map]
  exact (List.map_congr_left fun n hn => toNat_ofInt (h n hn)).trans (List.map_id l)

theorem ofInt_toNat (b : UInt8) : UInt8.ofInt (b.toNat : Int) = b :=
  UInt8.toNat_inj.1 (Int.ofNat_inj.1 (toNat_ofInt (toNat_range b)))

/-- Integers of bytes are converted back to those bytes. -/
theorem map_ofInt_map_toNat (bs : Bytes) :
    (bs.map fun b => (b.toNat : Int)).map UInt8.ofInt = bs := by
  rw [List.map_map]
  exact (List.map_congr_left fun b _ => ofInt_toNat b).trans (List.map_id bs)

/-- Integers of bytes are a byte string. -/
theorem ofInts_map_toNat (bs : Bytes) : ofInts (bs.map fun b => (b.toNat : Int)) = .ok bs := by
  have hrange : ∀ n ∈ bs.map (fun b : UInt8 => (b.toNat : Int)), 0 ≤ n ∧ n < 256 := by
    intro n hn
    obtain ⟨b, -, rfl⟩ := List.mem_map.1 hn
    exact toNat_range b
  rw [ofInts_of_range hrange, map_ofInt_map_toNat]

/-! ### Words -/

theorem wordOf_ofNat {w : Nat} (h : w < 65536) :
    wordOf (UInt8.ofNat (w / 256)) (UInt8.ofNat w) = w := by
  rw [wordOf, UInt8.toNat_ofNat_of_lt' (by show w / 256 < 256; omega), UInt8.toNat_ofNat']
  omega

theorem toWords_ofWord_append {w : Nat} (h : w < 65536) (rest : Bytes) :
    toWords (ofWord w ++ rest) = w :: toWords rest := by
  rw [ofWord, List.cons_append, List.cons_append, List.nil_append, toWords, wordOf_ofNat h]

/-- Words that are written one after the other are read as they were. -/
theorem toWords_flatMap_ofWord {words : List Nat} (h : ∀ w ∈ words, w < 65536) :
    toWords (words.flatMap ofWord) = words := by
  induction words with
  | nil => rfl
  | cons w rest ih =>
    rw [List.flatMap_cons, toWords_ofWord_append (h w List.mem_cons_self),
      ih fun v hv => h v (List.mem_cons_of_mem w hv)]

theorem length_flatMap_ofWord (words : List Nat) :
    (words.flatMap ofWord).length = 2 * words.length := by
  induction words with
  | nil => rfl
  | cons w rest ih =>
    rw [List.flatMap_cons, List.length_append, ih, ofWord, List.length_cons, List.length_singleton,
      List.length_cons]
    omega

end Bytes

end Chip8
