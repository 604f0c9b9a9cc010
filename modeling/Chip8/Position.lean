/-!
# Positions

The place that an index denotes among a fixed number of places. Places are counted from zero. A
negative index counts from the end, so that `-1` denotes the last place; an index that leaves the
places on either side denotes none.

## Main definitions

* `position?` — the place of an index

## Main results

* `position?_natCast` — an index that is a place denotes it
-/

namespace Chip8

/-- The place that an index denotes among `size` places. -/
def position? (size : Nat) (index : Int) : Option (Fin size) :=
  let place := if index < 0 then index + size else index
  if h : 0 ≤ place ∧ place < size then some ⟨place.toNat, by omega⟩ else none

/-- An index that is a place denotes it. -/
theorem position?_natCast {size i : Nat} (h : i < size) : position? size i = some ⟨i, h⟩ := by
  have hn : ¬ (i : Int) < 0 := by omega
  have hi : 0 ≤ (i : Int) ∧ (i : Int) < size := by omega
  simp [position?, hn, hi]

end Chip8
