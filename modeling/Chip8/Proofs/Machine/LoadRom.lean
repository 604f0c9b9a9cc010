import Chip8.Proofs.Bytes
import Chip8.Proofs.Machine.Commands
import Chip8.Proofs.Memory

/-!
# Loading programs

A program is checked as a whole before its first byte is written: all of its integers must be
bytes, and there must be room for them behind `programStart`. So a load that is refused changes
nothing. The check of the length is what keeps a load inside of the program area, since writing goes
round the end of the memory: one byte more than there is room for would be written over the first
cell.

## Main definitions

* `Machine.Loaded` — a machine after a load, told from the one before

## Main results

* `Machine.checkRom_of_stray`, `Machine.checkRom_of_range` — which programs are accepted
* `Machine.read_startRom`, `Machine.read_startRom_of_outside` — the memory when a program is started
* `Machine.loadRom_exact` — when a load is refused, and what it does otherwise
-/

namespace Chip8

namespace Machine

variable {m : Machine} {rom : Bytes} {data : List Int}

/-! ### The check -/

theorem checkRom_eq_ok_iff :
    checkRom data = .ok rom ↔ Bytes.ofInts data = .ok rom ∧ rom.length ≤ romCapacity := by
  rw [checkRom, Except.bind_eq_ok]
  constructor
  · rintro ⟨bytes, hbytes, hcheck⟩
    obtain ⟨hfits, hsame⟩ := Except.ite_error_eq_ok.1 hcheck
    obtain rfl := Except.ok.inj hsame
    exact ⟨hbytes, Nat.not_lt.1 hfits⟩
  · rintro ⟨hbytes, hfits⟩
    exact ⟨rom, hbytes, Except.ite_error_eq_ok.2 ⟨Nat.not_lt.2 hfits, rfl⟩⟩

/-- A program with an integer that is no byte is refused, however long it is. -/
theorem checkRom_of_stray (h : ∃ n ∈ data, ¬ IsByte n) : checkRom data = .error .notByte := by
  rw [checkRom, Bytes.ofInts_of_stray h]
  rfl

/-- A program of bytes is accepted if there is room for it. -/
theorem checkRom_of_range (h : ∀ n ∈ data, IsByte n) :
    checkRom data =
      if romCapacity < data.length then .error (.romTooLarge data.length romCapacity)
      else .ok (data.map UInt8.ofInt) := by
  have hlength : (data.map UInt8.ofInt).length = data.length := List.length_map _
  rw [checkRom, Bytes.ofInts_of_range h, ← hlength]
  rfl

/-! ### The memory of a started program -/

/-- A program that fits is read where programs begin. -/
theorem read_startRom (m : Machine) (hfits : rom.length ≤ romCapacity) {i : Nat}
    (hi : i < rom.length) : (m.startRom rom).core.memory.read (0x200 + i) = rom[i] := by
  have hlength : (rom.map fun b => (b.toNat : Int)).length = rom.length := List.length_map _
  have hsize : romCapacity ≤ memorySize := by decide
  show (m.core.memory.load 0x200 (rom.map fun b => (b.toNat : Int))).read _ = _
  rw [Memory.read_load_get (by omega) (by omega), List.getElem_map, Bytes.ofInt_toNat]

/-- It changes no cell before or behind it. -/
theorem read_startRom_of_outside (m : Machine) (hfits : rom.length ≤ romCapacity) {a : Int}
    (ha : 0 ≤ a ∧ a < memorySize) (hout : a < 0x200 ∨ 0x200 + rom.length ≤ a) :
    (m.startRom rom).core.memory.read a = m.core.memory.read a := by
  have hlength : (rom.map fun b => (b.toNat : Int)).length = rom.length := List.length_map _
  have hle : rom.length ≤ 3584 := hfits
  have hsize : memorySize = 4096 := rfl
  show (m.core.memory.load 0x200 (rom.map fun b => (b.toNat : Int))).read _ = _
  exact Memory.read_load_of_outside (by decide) (by omega) ha (by omega)

/-! ### Loads -/

/-- A machine after a load: the program is in its place, no other cell has changed, the machine runs
without a skip, and everything else is as before. -/
structure Loaded (m : Machine) (data : List Int) (next : Machine) : Prop where
  program : ∀ (i : Nat) (_ : i < data.length),
    ((next.core.memory.read (0x200 + i)).toNat : Int) = data[i]
  outside : ∀ a : Int, 0 ≤ a ∧ a < 4096 → (a < 0x200 ∨ 0x200 + data.length ≤ a) →
    next.core.memory.read a = m.core.memory.read a
  rest : next =
    { m with
      core := { m.core with memory := next.core.memory }
      control := ⟨true, m.control.breakpoints, none⟩ }

/-- A program of bytes that fits is loaded when it is started. -/
theorem loaded_startRom (m : Machine) (h : ∀ n ∈ data, IsByte n)
    (hfits : data.length ≤ romCapacity) : Loaded m data (m.startRom (data.map UInt8.ofInt)) := by
  have hlength : (data.map UInt8.ofInt).length = data.length := List.length_map _
  refine ⟨fun i hi => ?_, fun a ha hout => ?_, rfl⟩
  · have hread := m.read_startRom (hlength ▸ hfits) (hlength ▸ hi)
    rw [hread, List.getElem_map]
    exact Bytes.toNat_ofInt (h _ (List.getElem_mem hi))
  · exact m.read_startRom_of_outside (by omega) ha (by rw [hlength]; exact hout)

/-- **What a load can do.** -/
theorem loadRom_cases (m : Machine) (data : List Int) :
    ((∃ n ∈ data, ¬ IsByte n) ∧ m.perform (.loadRom data) = (m, .error .notByte)) ∨
      ((∀ n ∈ data, IsByte n) ∧ 3584 < data.length ∧
        m.perform (.loadRom data) = (m, .error (.romTooLarge data.length 3584))) ∨
      (∀ n ∈ data, IsByte n) ∧ data.length ≤ 3584 ∧
        ∃ next, m.perform (.loadRom data) = (next, .ok .done) ∧ Loaded m data next := by
  by_cases hbytes : ∀ n ∈ data, IsByte n
  · rcases Nat.lt_or_ge 3584 data.length with hlarge | hfits
    · have hcheck := (checkRom_of_range hbytes).trans (if_pos hlarge)
      refine .inr (.inl ⟨hbytes, hlarge, ?_⟩)
      rw [perform, loadRom, hcheck]
      rfl
    · have hcheck := (checkRom_of_range hbytes).trans (if_neg (Nat.not_lt.2 hfits))
      refine .inr (.inr ⟨hbytes, hfits, _, ?_, m.loaded_startRom hbytes hfits⟩)
      rw [perform, loadRom, hcheck]
      rfl
  · have hstray : ∃ n ∈ data, ¬ IsByte n := by
      push Not at hbytes
      exact hbytes
    refine .inl ⟨hstray, ?_⟩
    rw [perform, loadRom, checkRom_of_stray hstray]
    rfl

/-- **When a load is refused, and what it does otherwise.** It is refused for an integer that is no
byte, and if there is none, for a length of more than 3584. Then nothing has changed. Otherwise the
program is loaded. -/
theorem loadRom_exact (m : Machine) (data : List Int) :
    (m.perform (.loadRom data) = (m, .error .notByte) ↔ ∃ n ∈ data, ¬ IsByte n) ∧
      (m.perform (.loadRom data) = (m, .error (.romTooLarge data.length 3584)) ↔
        (∀ n ∈ data, IsByte n) ∧ 3584 < data.length) ∧
      ((∃ next, m.perform (.loadRom data) = (next, .ok .done) ∧ Loaded m data next) ↔
        (∀ n ∈ data, IsByte n) ∧ data.length ≤ 3584) := by
  have hexcludes (hstray : ∃ n ∈ data, ¬ IsByte n) : ¬ ∀ n ∈ data, IsByte n := by
    obtain ⟨n, hn, hno⟩ := hstray
    exact fun hall => hno (hall n hn)
  rcases m.loadRom_cases data with ⟨hstray, hload⟩ | ⟨hbytes, hlarge, hload⟩ |
    ⟨hbytes, hfits, next, hload, hloaded⟩
  · simp [hload, hstray, hexcludes hstray]
  · simpa [hload, hlarge] using hbytes
  · simpa [hload, hfits, hloaded] using hbytes

end Machine

end Chip8
