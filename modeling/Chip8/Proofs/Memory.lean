import Chip8.Memory
import Mathlib.Algebra.Order.Group.Unbundled.Int

/-!
# Runs of cells

Writing a run of values goes through the cells one after the other and round the end of the memory,
so a run that is longer than the memory writes some of them more than once. A cell ends up with the
last value that was written to it, and those that no value was written to are as before. A run that
fits into the memory meets each cell at most once.

## Main definitions

* `Memory.bigEndian` — the number that two bytes in a row stand for

## Main results

* `Memory.slot_eq_iff` — which addresses denote the same cell
* `Memory.toNat_readWord` — words are read with their high byte first
* `Memory.read_load_of_last`, `Memory.read_load_of_forall_ne` — the cells after a run was written
* `Memory.read_load_get`, `Memory.read_load_of_outside` — the same for runs that fit
-/

namespace Chip8

namespace Memory

variable {size : Nat} [Nonempty (Fin size)] {m : Memory size} {a b : Int} {data : List Int}

/-! ### Cells of addresses -/

theorem slot_eq_iff : slot size a = slot size b ↔ a % size = b % size := by
  have hpos : 0 < size := (Classical.choice ‹Nonempty (Fin size)›).pos
  have ha := Int.emod_nonneg a (Int.natCast_ne_zero.2 hpos.ne')
  have hb := Int.emod_nonneg b (Int.natCast_ne_zero.2 hpos.ne')
  have hcast : (a % size).toNat = (b % size).toNat ↔ a % size = b % size := by omega
  rw [← hcast]
  exact Fin.ext_iff

/-- The byte at an address is that of the cell which the address denotes. -/
theorem read_emod (m : Memory size) (a : Int) : m.read (a % size) = m.read a := by
  have hslot : slot size (a % size) = slot size a := slot_eq_iff.2 (Int.emod_emod _ _)
  simp only [read, hslot]

/-- Addresses inside of the memory denote the cells of their own numbers. -/
theorem slot_eq_iff_of_range (ha : 0 ≤ a ∧ a < size) (hb : 0 ≤ b ∧ b < size) :
    slot size a = slot size b ↔ a = b := by
  rw [slot_eq_iff, Int.emod_eq_of_lt ha.1 ha.2, Int.emod_eq_of_lt hb.1 hb.2]

/-- Addresses of a run that is not longer than the memory denote different cells. -/
theorem slot_add_inj {i j : Nat} (hi : i < size) (hj : j < size) :
    slot size (a + i) = slot size (a + j) ↔ i = j := by
  rw [slot_eq_iff]
  constructor
  · intro hmod
    have hdvd : (size : Int) ∣ (i : Int) - j := by
      have hsub := Int.emod_eq_emod_iff_emod_sub_eq_zero.1 hmod
      rw [Int.add_sub_add_left] at hsub
      exact Int.dvd_of_emod_eq_zero hsub
    have hzero := Int.eq_zero_of_abs_lt_dvd hdvd (abs_lt.2 ⟨by omega, by omega⟩)
    omega
  · rintro rfl
    rfl

/-! ### Words -/

/-- The number of the byte at an address and the one behind it, the first byte being the high one.
Addresses go round the end of the memory, between the two as well. -/
def bigEndian (m : Memory size) (a : Int) : Nat :=
  256 * (m.read (a % size)).toNat + (m.read ((a + 1) % size)).toNat

theorem bigEndian_eq (m : Memory size) (a : Int) :
    m.bigEndian a = (m.read a).toNat * 256 + (m.read (a + 1)).toNat := by
  rw [bigEndian, read_emod, read_emod, Nat.mul_comm]

/-- **Words are read with their high byte first.** -/
theorem toNat_readWord (m : Memory size) (a : Int) : (m.readWord a).toNat = m.bigEndian a := by
  have hhigh := (m.read a).toNat_lt
  have hlow := (m.read (a + 1)).toNat_lt
  rw [readWord, bigEndian_eq]
  exact UInt16.toNat_ofNat_of_lt' (by show _ < 65536; omega)

theorem ofNat_bigEndian (m : Memory size) (a : Int) :
    UInt16.ofNat (m.bigEndian a) = m.readWord a := by
  rw [bigEndian_eq]
  rfl

/-! ### Writing runs -/

theorem read_blank (address : Int) : (blank size).read address = 0 :=
  Vector.getElem_replicate _

theorem add_one_add_natCast (a : Int) (i : Nat) : a + 1 + (i : Int) = a + (i + 1 : Nat) := by
  omega

/-- **A cell that no value is written to is as before.** -/
theorem read_load_of_forall_ne (h : ∀ j < data.length, slot size (a + j) ≠ slot size b) :
    (m.load a data).read b = m.read b := by
  induction data generalizing m a with
  | nil => rfl
  | cons value rest ih =>
    have hfirst : slot size a ≠ slot size b := by simpa using h 0 (Nat.succ_pos _)
    have hrest : ∀ j < rest.length, slot size (a + 1 + j) ≠ slot size b := by
      intro j hj
      rw [add_one_add_natCast]
      exact h (j + 1) (Nat.succ_lt_succ hj)
    rw [load, ih hrest, read_write, if_neg hfirst]

/-- **A cell has the last value that is written to it**, reduced to a byte. -/
theorem read_load_of_last {j : Nat} (hj : j < data.length) (hslot : slot size (a + j) = slot size b)
    (hlast : ∀ i, j < i → i < data.length → slot size (a + i) ≠ slot size b) :
    (m.load a data).read b = UInt8.ofInt data[j] := by
  induction data generalizing m a j with
  | nil => exact absurd hj (Nat.not_lt_zero j)
  | cons value rest ih =>
    rw [load]
    cases j with
    | zero =>
      have hrest : ∀ i < rest.length, slot size (a + 1 + i) ≠ slot size b := by
        intro i hi
        rw [add_one_add_natCast]
        exact hlast (i + 1) (Nat.succ_pos i) (Nat.succ_lt_succ hi)
      have hfirst : slot size a = slot size b := by simpa using hslot
      rw [read_load_of_forall_ne hrest, read_write, if_pos hfirst]
      rfl
    | succ j =>
      refine ih (Nat.lt_of_succ_lt_succ hj) ?_ fun i hi hlen => ?_
      · rw [add_one_add_natCast]
        exact hslot
      · rw [add_one_add_natCast]
        exact hlast (i + 1) (Nat.succ_lt_succ hi) (Nat.succ_lt_succ hlen)

/-! ### Runs that fit -/

/-- A run that is not longer than the memory is read as it was written. -/
theorem read_load_get (hfit : data.length ≤ size) {j : Nat} (hj : j < data.length) :
    (m.load a data).read (a + j) = UInt8.ofInt data[j] := by
  refine read_load_of_last hj rfl fun i hi hlen hsame => ?_
  have heq := (slot_add_inj (Nat.lt_of_lt_of_le hlen hfit) (Nat.lt_of_lt_of_le hj hfit)).1 hsame
  omega

/-- A run that does not go round the end of the memory changes nothing before or behind it. -/
theorem read_load_of_outside (ha : 0 ≤ a) (hfit : a + data.length ≤ size)
    (hb : 0 ≤ b ∧ b < size) (hout : b < a ∨ a + data.length ≤ b) :
    (m.load a data).read b = m.read b := by
  refine read_load_of_forall_ne fun j hj hsame => ?_
  have heq := (slot_eq_iff_of_range ⟨by omega, by omega⟩ hb).1 hsame
  omega

end Memory

end Chip8
