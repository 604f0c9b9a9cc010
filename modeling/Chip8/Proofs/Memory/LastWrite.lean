import Chip8.Proofs.Bytes
import Chip8.Proofs.Memory
import Mathlib.Data.Int.ModEq
import Mathlib.Order.Bounds.Basic

/-!
# The last write to a cell

A run of values may be longer than the memory that it is written to. It then goes round the end of
the memory, as often as it takes, and writes over its own first values. What a cell has afterwards
is the last value that went to it, or what it had before if none did.

Which value is the last one can be told without going through the run. Counted back from the end of
the run, the values that go to one cell are as far apart as the memory is long. So the number of
values behind the last of them is a remainder modulo the size of the memory, the *lag* of the cell.
The remainder exists for every cell, also for one that the run does not reach: no value goes to a
cell whose lag is not below the length of the run.

## Main definitions

* `Memory.writesTo` — the places in a run whose values go to a cell
* `Memory.lag` — how many values come behind the last one that goes to a cell

## Main results

* `Memory.isGreatest_writesTo`, `Memory.writesTo_eq_empty` — the last write to a cell by its lag
* `Memory.cells_load_of_isGreatest`, `Memory.cells_load_of_empty` — a cell after a run
* `Memory.dump_load` — a run that fits into the memory is dumped as it was written
* `Memory.load_exact` — all of it
-/

namespace Chip8

namespace Memory

variable {size : Nat} {a : Int} {n i : Nat} {c : Fin size}

/-! ### Places in a run -/

/-- The places in a run of `n` values, written from an address on, whose values go to a cell. -/
def writesTo (size : Nat) (a : Int) (n : Nat) (c : Fin size) : Set Nat :=
  {i | i < n ∧ (a + i) % size = c}

/-- The number of values of a run behind the last one that goes to a cell. -/
def lag (size : Nat) (a : Int) (n : Nat) (c : Fin size) : Nat := ((a + n - 1 - c) % size).toNat

theorem natCast_lag (a : Int) (n : Nat) (c : Fin size) :
    (lag size a n c : Int) = (a + n - 1 - c) % size :=
  Int.toNat_of_nonneg (Int.emod_nonneg _ (Int.natCast_ne_zero.2 c.pos.ne'))

theorem lag_lt (a : Int) (n : Nat) (c : Fin size) : lag size a n c < size := by
  have hlt := Int.emod_lt_of_pos (a + n - 1 - c) (Int.natCast_pos.2 c.pos)
  rw [← natCast_lag] at hlt
  exact Int.ofNat_lt.1 hlt

theorem natCast_val_emod (c : Fin size) : ((c : Nat) : Int) % size = c :=
  Int.emod_eq_of_lt (Int.natCast_nonneg _) (Int.ofNat_lt.2 c.isLt)

/-- Counted back from the end of the run, the places of a cell are those of its lag, modulo the
size. -/
theorem mem_writesTo_iff :
    i ∈ writesTo size a n c ↔ i < n ∧ (n - 1 - i) % size = lag size a n c := by
  refine and_congr_right fun hi => ?_
  have hback : ((n - 1 - i : Nat) : Int) = n - 1 - i := by omega
  calc (a + i) % size = c
      ↔ (a + i : Int) ≡ c [ZMOD size] := by rw [Int.ModEq, natCast_val_emod]
    _ ↔ (n - 1 - i : Int) ≡ a + n - 1 - c [ZMOD size] := by
        rw [Int.modEq_comm, Int.modEq_iff_dvd, Int.modEq_iff_dvd]
        have hdiff : a + n - 1 - c - (n - 1 - i) = a + i - c := by omega
        rw [hdiff]
    _ ↔ (n - 1 - i) % size = lag size a n c := by
        rw [Int.ModEq, ← natCast_lag, ← hback]
        exact Int.ofNat_inj

/-- Behind a value that goes to a cell there are at least as many values as the lag says. -/
theorem add_lag_lt (hi : i ∈ writesTo size a n c) : i + lag size a n c < n := by
  obtain ⟨hlt, hmod⟩ := mem_writesTo_iff.1 hi
  have hle : lag size a n c ≤ n - 1 - i := hmod ▸ Nat.mod_le _ _
  omega

/-- **The last write to a cell**, where its lag is below the length of the run. -/
theorem isGreatest_writesTo (h : lag size a n c < n) :
    IsGreatest (writesTo size a n c) (n - 1 - lag size a n c) := by
  constructor
  · have hback : n - 1 - (n - 1 - lag size a n c) = lag size a n c := by omega
    rw [mem_writesTo_iff, hback]
    exact ⟨by omega, Nat.mod_eq_of_lt (lag_lt a n c)⟩
  · intro i hi
    have hbehind := add_lag_lt hi
    omega

/-- **A cell is not written to** where its lag is not below the length of the run. -/
theorem writesTo_eq_empty (h : n ≤ lag size a n c) : writesTo size a n c = ∅ := by
  refine Set.eq_empty_iff_forall_notMem.2 fun i hi => ?_
  have hbehind := add_lag_lt hi
  omega

/-! ### Cells after a run -/

variable [Nonempty (Fin size)] {m : Memory size} {data : List Int} {j : Nat}

/-- The number of a cell, taken for an address, denotes this cell. -/
theorem slot_val (c : Fin size) : slot size (c : Nat) = c :=
  Fin.ext ((congrArg Int.toNat (natCast_val_emod c)).trans (Int.toNat_natCast _))

theorem read_val (m : Memory size) (c : Fin size) : m.read (c : Nat) = m.cells[c] := by
  simp only [read, slot_val]

theorem slot_eq_slot_val_iff : slot size a = slot size (c : Nat) ↔ a % size = c := by
  rw [slot_eq_iff, natCast_val_emod]

/-- A cell has the last value that is written to it. -/
theorem cells_load_of_isGreatest (hj : j < data.length)
    (h : IsGreatest (writesTo size a data.length c) j) :
    (m.load a data).cells[c] = UInt8.ofInt data[j] := by
  obtain ⟨⟨-, hcell⟩, hlast⟩ := h
  rw [← read_val]
  refine read_load_of_last hj (slot_eq_slot_val_iff.2 hcell) fun i hlater hi hsame => ?_
  have hle := hlast ⟨hi, slot_eq_slot_val_iff.1 hsame⟩
  omega

/-- A cell that no value is written to is as before. -/
theorem cells_load_of_empty (h : writesTo size a data.length c = ∅) :
    (m.load a data).cells[c] = m.cells[c] := by
  rw [← read_val, ← read_val]
  refine read_load_of_forall_ne fun i hi hsame => ?_
  exact Set.eq_empty_iff_forall_notMem.1 h i ⟨hi, slot_eq_slot_val_iff.1 hsame⟩

/-- **A run that fits into the memory is dumped as it was written.** -/
theorem dump_load (m : Memory size) (a : Int) (hfit : data.length ≤ size) :
    (m.load a data).dump a data.length = data.map UInt8.ofInt := by
  have hlength : ((m.load a data).dump a data.length).length = (data.map UInt8.ofInt).length := by
    simp [dump]
  refine List.ext_getElem hlength fun i _ hi => ?_
  have hlt : i < data.length := by simpa using hi
  simpa [dump] using read_load_get hfit hlt

/-- **A run of values, cell by cell.** Every cell has the last value that is written to it, modulo
256, or what it had if no value is. A run that fits into the memory is dumped as it was written,
modulo 256, and there are as many cells as before. -/
theorem load_exact (m : Memory size) (a : Int) (data : List Int) :
    (∀ c : Fin size,
      (∃ j, ∃ hj : j < data.length, IsGreatest (writesTo size a data.length c) j ∧
          ((m.load a data).cells[c].toNat : Int) = data[j] % 256) ∨
        (writesTo size a data.length c = ∅ ∧ (m.load a data).cells[c] = m.cells[c])) ∧
      (data.length ≤ size →
        ((m.load a data).dump a data.length).map (fun b => (b.toNat : Int)) =
          data.map (· % 256)) ∧
      (m.load a data).toList.length = m.toList.length := by
  refine ⟨fun c => ?_, fun hfit => ?_, ?_⟩
  · rcases Nat.lt_or_ge (lag size a data.length c) data.length with hlag | hlag
    · have hgreatest := isGreatest_writesTo hlag
      have hj := hgreatest.1.1
      refine .inl ⟨_, hj, hgreatest, ?_⟩
      rw [cells_load_of_isGreatest hj hgreatest, Bytes.toNat_ofInt_emod]
    · have hempty := writesTo_eq_empty hlag
      exact .inr ⟨hempty, cells_load_of_empty hempty⟩
  · rw [dump_load m a hfit, List.map_map]
    exact List.map_congr_left fun n _ => Bytes.toNat_ofInt_emod n
  · simp [toList]

/-- A memory of three cells. -/
def threeCells : Memory 3 := ⟨#v[1, 2, 3]⟩

/-- Five values from in front of the three cells on: the cell in the middle is written to twice. And
two values from behind them on, which leave the first cell alone. -/
theorem load_exact_threeCells :
    IsGreatest (writesTo 3 (-2) 5 1) 3 ∧
      ((threeCells.load (-2) [300, 5, 7, -2, 511]).cells[(1 : Fin 3)].toNat : Int) = 254 ∧
      writesTo 3 7 2 0 = ∅ ∧
      (threeCells.load 7 [300, -1]).cells[(0 : Fin 3)] = 1 ∧
      [300, -1].length ≤ 3 ∧
      ((threeCells.load 7 [300, -1]).dump 7 2).map (fun b => (b.toNat : Int)) = [44, 255] ∧
      (threeCells.load 7 [300, -1]).toList.length = 3 := by
  obtain ⟨hlong, -, -⟩ := load_exact threeCells (-2) [300, 5, 7, -2, 511]
  obtain ⟨hshort, hdump, hsize⟩ := load_exact threeCells 7 [300, -1]
  have hlast : IsGreatest (writesTo 3 (-2) 5 1) 3 := isGreatest_writesTo (by decide)
  have hnone : writesTo 3 7 2 0 = ∅ := writesTo_eq_empty (by decide)
  refine ⟨hlast, ?_, hnone, ?_, by decide, hdump (by decide), hsize⟩
  · rcases hlong 1 with ⟨j, hj, hgreatest, hvalue⟩ | ⟨hempty, -⟩
    · obtain rfl := hgreatest.unique hlast
      exact hvalue
    · exact absurd hlast.1 (Set.eq_empty_iff_forall_notMem.1 hempty 3)
  · rcases hshort 0 with ⟨j, -, hgreatest, -⟩ | ⟨-, hsame⟩
    · exact absurd hgreatest.1 (Set.eq_empty_iff_forall_notMem.1 hnone j)
    · exact hsame

end Memory

end Chip8
