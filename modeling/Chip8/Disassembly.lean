import Chip8.Instruction.Operation
import Chip8.Memory

/-!
# Disassembly

Listings of memory as assembly text. A listing goes in steps of two bytes and leaves out a word
whose second byte lies outside the memory. The window shows the words around an address.

## Main definitions

* `disassemble` — the text of a word
* `Memory.listing` — a run of memory, one line for each word
* `Memory.window` — the words around an address, that address marked
-/

namespace Chip8

/-- The assembly text of the low sixteen bits of an integer. -/
def disassemble (n : Int) : String := (Operation.ofInt n).render

/-- A line of a listing. -/
structure ListingLine where
  address : Int
  /-- The two bytes in hexadecimal digits. -/
  bytes : String
  text : String
  deriving DecidableEq, Repr

namespace Memory

variable {size : Nat} [Nonempty (Fin size)]

/-- The line of the word at an address. -/
def line (m : Memory size) (address : Int) : ListingLine :=
  let word := m.readWord address
  ⟨address, Numeral.hex 2 (word.toNat / 256) ++ " " ++ Numeral.hex 2 (word.toNat % 256),
    (Operation.ofWord word).render⟩

/-- The lines from an address on, in steps of two bytes, as long as the address is below a stop. -/
def listingUpTo (m : Memory size) (stop address : Int) : List ListingLine :=
  if address < stop then m.line address :: m.listingUpTo stop (address + 2) else []
termination_by (stop - address).toNat

/-- The lines from `start` on up to the end of the run, but only below the last byte of the
memory. -/
def listing (m : Memory size) (start length : Int) : List ListingLine :=
  m.listingUpTo (min (start + length) ((size : Int) - 1)) start

/-- The mark in front of the line of the current address. -/
def currentMark : String := "► "

/-- The number of words that the window shows before the current one. -/
abbrev wordsBefore : Nat := 10

/-- The number of words that the window shows from the current one on. -/
abbrev wordsAfter : Nat := 10

/-- A line of the window. -/
def windowLine (m : Memory size) (pc address : Int) : String :=
  (if address = pc then currentMark else "") ++ "0x" ++ Numeral.hexInt 4 address ++ ": " ++
    (m.line address).text

/-- The words around an address, of those in the program area whose second byte is in memory. -/
def window (m : Memory size) (pc : Int) : List String :=
  (((List.range (wordsBefore + wordsAfter)).map fun i : Nat => pc - 2 * wordsBefore + 2 * i).filter
    fun a => (programStart : Int) ≤ a && a < (size : Int) - 1).map (m.windowLine pc)

end Memory

end Chip8
