import Chip8.Document.Value
import Chip8.Error

/-!
# Memory

A memory of a fixed number of byte cells. Every integer is an address: it denotes the cell of its
remainder modulo the size. Values are reduced modulo 256 when they are written.

## Main definitions

* `Memory` — the cells of a memory of a given size
* `Memory.read`, `Memory.readWord`, `Memory.dump` — one cell, two cells as a word, a run of cells
* `Memory.write`, `Memory.load` — one cell, a run of cells
* `Memory.clear` — all cells at zero

## Main results

* `Memory.read_write` — a write is seen at the addresses of its cell and nowhere else
-/

namespace Chip8

/-- The number of cells of the memory of a machine. -/
abbrev memorySize : Nat := 4096

/-- The address of the first byte of a program. -/
abbrev programStart : Nat := 0x200

/-- A memory of `size` byte cells. -/
structure Memory (size : Nat) where
  cells : Vector UInt8 size
  deriving DecidableEq

namespace Memory

variable {size : Nat}

/-- The greatest number that can count the cells of a memory. -/
abbrev maxCount : Nat := 0x7FFFFFFFFFFFFFFF

/-- The greatest number of cells for which there is room. -/
abbrev maxCells : Nat := 0x8000000000

/-- The number of cells that a memory of the given size has. Of all values only positive integers
are sizes, and the truth value true, which counts as one. -/
def cellCount : Value → Except Error { n : Nat // n ≠ 0 }
  | .int n =>
    if h : 0 < n then
      if maxCount < n.toNat then .error .memoryUncountable
      else if maxCells < n.toNat then .error .memoryExhausted
      else .ok ⟨n.toNat, by omega⟩
    else .error .memorySize
  | .bool true => .ok ⟨1, by decide⟩
  | _ => .error .memorySize

/-- The memory of zeros. -/
def blank (size : Nat) : Memory size := ⟨Vector.replicate size 0⟩

/-- All cells at zero. -/
def clear (m : Memory size) : Memory size := { m with cells := Vector.replicate size 0 }

/-- All cells in order. -/
def toList (m : Memory size) : List UInt8 := m.cells.toList

/-- The memory of a machine has a cell. -/
instance : Nonempty (Fin memorySize) := ⟨⟨0, by decide⟩⟩

variable [Nonempty (Fin size)]

/-- The cell that an address denotes. -/
def slot (size : Nat) [Nonempty (Fin size)] (address : Int) : Fin size :=
  ⟨(address % size).toNat, by
    have hs : 0 < size := (Classical.choice ‹Nonempty (Fin size)›).pos
    have h₁ := Int.emod_nonneg address (b := (size : Int)) (by omega)
    have h₂ := Int.emod_lt_of_pos address (b := (size : Int)) (by omega)
    omega⟩

/-! ### Single cells -/

/-- The byte at an address. -/
def read (m : Memory size) (address : Int) : UInt8 := m.cells[slot size address]

/-- The memory with the value, reduced modulo 256, at an address. -/
def write (m : Memory size) (address value : Int) : Memory size :=
  ⟨m.cells.set (slot size address) (UInt8.ofInt value)⟩

/-- **Read after write.** -/
theorem read_write (m : Memory size) (a b value : Int) :
    (m.write a value).read b = if slot size a = slot size b then UInt8.ofInt value else m.read b := by
  simp only [read, write, Fin.getElem_fin, Vector.getElem_set, Fin.ext_iff]

/-- The word at an address, its high byte first. -/
def readWord (m : Memory size) (address : Int) : UInt16 :=
  UInt16.ofNat ((m.read address).toNat * 256 + (m.read (address + 1)).toNat)

/-! ### Runs of cells -/

/-- The memory with values written one after the other from an address on. -/
def load (m : Memory size) (address : Int) : List Int → Memory size
  | [] => m
  | value :: rest => (m.write address value).load (address + 1) rest

/-- The bytes of a run of cells; none if the length is not positive. -/
def dump (m : Memory size) (start length : Int) : List UInt8 :=
  (List.range length.toNat).map fun i : Nat => m.read (start + i)

end Memory

end Chip8
