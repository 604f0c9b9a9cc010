import Chip8.Proofs.Disassembly
import Chip8.Proofs.Machine.Commands
import Mathlib.Data.List.Nodup

/-!
# The window of a debugger

The window lists the words around pc as assembly text, ten before pc and nine behind it besides its
own. It reads memory by itself, with its own end of the program area, and cycles fetch by
themselves; the two must read the same word in the same way, or a debugger shows what will not run.

Here the window is told by its addresses. They are those of the twenty places that are in the
program area and have a second byte in memory, in increasing order. Each gives one line, and the
line of pc and no other has the mark. So one line is marked if pc is such an address, and none is
otherwise: below the program area, on the last byte of the memory, and beyond it, where cycles go on
reading round the end of the memory.

## Main definitions

* `Memory.InWindow` — the addresses that the window shows
* `Memory.windowText`, `Memory.Marked` — what it shows of one, and which lines have the mark

## Main results

* `Memory.window_eq`, `Memory.mem_windowAddresses` — the lines of the window, by addresses
* `Memory.marked_markedText_iff`, `Memory.filter_marked_window` — the line that is marked
* `Machine.word_of_cycle` — the word that a cycle executes
* `Machine.window_shows_next` — all of it for the view of a debugger
-/

namespace Chip8

namespace Memory

variable {m : Memory memorySize} {pc a : Int}

/-! ### Lines -/

/-- What the window shows of an address: the address in four digits, and the text of the word. -/
def windowText (m : Memory memorySize) (a : Int) : String :=
  "0x" ++ Numeral.hex 4 a.toNat ++ ": " ++ disassemble (m.bigEndian a)

/-- The line of an address, with the mark if it is that of pc. -/
def markedText (m : Memory memorySize) (pc a : Int) : String :=
  (if a = pc then currentMark else "") ++ m.windowText a

/-- A line has the mark. -/
def Marked (line : String) : Prop := currentMark.toList <+: line.toList

instance (line : String) : Decidable (Marked line) := inferInstanceAs (Decidable (_ <+: _))

theorem windowLine_eq_markedText (ha : 0 ≤ a) : m.windowLine pc a = m.markedText pc a := by
  have hword : disassemble (m.bigEndian a) = (m.line a).text := by
    rw [line_eq_wordLine]
    rfl
  have hhex : Numeral.hexInt 4 a = Numeral.hex 4 a.toNat := by
    rw [Numeral.hexInt, if_neg (by omega), show a.natAbs = a.toNat by omega]
  rw [markedText, windowText, windowLine, hword, hhex]
  simp only [String.append_assoc]

/-- **The line of pc has the mark**, and no other. -/
theorem marked_markedText_iff : Marked (m.markedText pc a) ↔ a = pc := by
  rw [Marked, markedText, String.toList_append]
  by_cases hpc : a = pc
  · rw [if_pos hpc]
    exact iff_of_true (List.prefix_append _ _) hpc
  · rw [if_neg hpc]
    -- without the mark the line begins with the first character of its address
    refine iff_of_false (fun hmark => ?_) hpc
    simp only [windowText, String.toList_append, List.append_assoc] at hmark
    exact absurd (List.cons_prefix_cons.1 hmark).1 (by decide)

/-! ### Addresses -/

/-- The addresses that the window shows: of the ten places before pc and the ten from pc on, two
bytes apart, those in the program area whose second byte is in memory. -/
def InWindow (pc a : Int) : Prop :=
  (∃ i : Int, -10 ≤ i ∧ i ≤ 9 ∧ a = pc + 2 * i) ∧ 0x200 ≤ a ∧ a ≤ 4094

/-- The addresses of the window, in increasing order. -/
def windowAddresses (pc : Int) : List Int :=
  ((List.range (wordsBefore + wordsAfter)).map fun i : Nat => pc - 2 * wordsBefore + 2 * i).filter
    fun a => (programStart : Int) ≤ a && a < (memorySize : Int) - 1

theorem mem_windowAddresses : a ∈ windowAddresses pc ↔ InWindow pc a := by
  simp only [windowAddresses, InWindow, List.mem_filter, List.mem_map, List.mem_range,
    Bool.and_eq_true, decide_eq_true_eq, wordsBefore, wordsAfter, programStart, memorySize]
  constructor
  · rintro ⟨⟨i, hi, rfl⟩, hstart, hend⟩
    exact ⟨⟨i - 10, by omega, by omega, by omega⟩, by omega, by omega⟩
  · rintro ⟨⟨i, hlow, hhigh, rfl⟩, hstart, hend⟩
    exact ⟨⟨(i + 10).toNat, by omega, by omega⟩, by omega, by omega⟩

theorem pairwise_windowAddresses (pc : Int) : (windowAddresses pc).Pairwise (· < ·) := by
  refine List.Pairwise.filter _ (List.pairwise_map.2 (List.pairwise_lt_range.imp ?_))
  intro i j hij
  omega

/-- The window shows pc itself if its word lies in the program area. -/
theorem inWindow_self_iff : InWindow pc pc ↔ 0x200 ≤ pc ∧ pc < 4095 := by
  constructor
  · rintro ⟨-, hstart, hend⟩
    exact ⟨hstart, by omega⟩
  · rintro ⟨hstart, hend⟩
    exact ⟨⟨0, by omega, by omega, by omega⟩, hstart, by omega⟩

/-! ### The window -/

theorem window_eq (m : Memory memorySize) (pc : Int) :
    m.window pc = (windowAddresses pc).map (m.markedText pc) := by
  refine List.map_congr_left fun a ha => windowLine_eq_markedText ?_
  have hshown := mem_windowAddresses.1 ha
  exact Int.le_trans (by decide) hshown.2.1

/-- **The marked lines of the window** are that of pc, if the window shows it, and no others. -/
theorem filter_marked_window (m : Memory memorySize) (pc : Int) :
    (m.window pc).filter (fun line => Marked line) =
      if 0x200 ≤ pc ∧ pc < 4095 then [currentMark ++ m.windowText pc] else [] := by
  have hnodup : (windowAddresses pc).Nodup :=
    (pairwise_windowAddresses pc).imp fun hlt => ne_of_lt hlt
  have hline : m.markedText pc pc = currentMark ++ m.windowText pc := by
    rw [markedText, if_pos rfl]
  have hmarked : (fun line => decide (Marked line)) ∘ m.markedText pc =
      fun a => decide (a = pc) := by
    funext a
    exact decide_eq_decide.2 marked_markedText_iff
  have hshown : pc ∈ windowAddresses pc ↔ 0x200 ≤ pc ∧ pc < 4095 :=
    mem_windowAddresses.trans inWindow_self_iff
  rw [window_eq, List.filter_map, hmarked, List.filter_eq, hnodup.count, List.map_replicate, hline]
  simp only [hshown]
  split <;> rfl

end Memory

namespace Machine

open Memory

variable {m : Machine} {word : UInt16}

/-- **The word that a cycle executes** is the one that stands in memory at pc. -/
theorem word_of_cycle (h : m.cycle.2 = .ok (some word)) :
    word.toNat = m.core.memory.bigEndian m.core.cpu.pc := by
  rcases m.cycle_cases with ⟨-, hrests⟩ | ⟨-, hsteps⟩
  · rw [hrests] at h
    cases h
  · rw [hsteps] at h
    split at h
    · cases h
    · obtain rfl := Option.some.inj (Except.ok.inj h)
      rw [Core.step_word]
      exact Memory.toNat_readWord _ _

/-- **The window of a debugger shows what will run.** Its lines are those of the addresses around pc
that lie in the program area with both bytes, in increasing order, each with the text of the word
that stands there; the line of pc has the mark and no other has. So there is one marked line if pc
is such an address, and otherwise there is none. If the next cycle executes then, the marked line is
that of the very word which it executes. -/
theorem window_shows_next (m : Machine) :
    (∃ addresses : List Int, addresses.Pairwise (· < ·) ∧
      (∀ a, a ∈ addresses ↔ InWindow m.core.cpu.pc a) ∧
      m.debugView.disassembly = addresses.map (m.core.memory.markedText m.core.cpu.pc)) ∧
    (∀ a, Marked (m.core.memory.markedText m.core.cpu.pc a) ↔ a = m.core.cpu.pc) ∧
    (m.debugView.disassembly.filter fun line => Marked line).length =
      (if 0x200 ≤ m.core.cpu.pc ∧ m.core.cpu.pc < 4095 then 1 else 0) ∧
    ∀ word, 0x200 ≤ m.core.cpu.pc → m.core.cpu.pc < 4095 → m.cycle.2 = .ok (some word) →
      (m.debugView.disassembly.filter fun line => Marked line) =
        [currentMark ++ ("0x" ++ Numeral.hex 4 m.core.cpu.pc.toNat ++ ": " ++
          (Operation.ofWord word).render)] := by
  have hview : m.debugView.disassembly = m.core.memory.window m.core.cpu.pc := rfl
  have hmarked := filter_marked_window m.core.memory m.core.cpu.pc
  rw [hview, hmarked]
  refine ⟨⟨windowAddresses m.core.cpu.pc, pairwise_windowAddresses _,
    fun a => mem_windowAddresses, window_eq _ _⟩, fun a => marked_markedText_iff, ?_, ?_⟩
  · split <;> rfl
  · intro word hstart hend hexec
    rw [if_pos ⟨hstart, hend⟩, windowText, ← word_of_cycle hexec, disassemble_toNat]

/-- A program that is about to draw, in its second word. -/
def aboutToDraw : Machine :=
  (create {} (some 0)).run [.loadRom [0x60, 0x05, 0xD0, 0x15], .cycle]

/-- A program that has jumped to the last byte of the memory. -/
def atLastByte : Machine := (create {} (some 0)).run [.loadRom [0x1F, 0xFF], .cycle]

/-- One word lies before that of pc in the program area, and the word that starts at the last byte
is executed though the window does not show it. -/
theorem window_shows_next_aboutToDraw :
    aboutToDraw.core.cpu.pc = 0x202 ∧ aboutToDraw.cycle.2 = .ok (some 0xD015) ∧
      aboutToDraw.debugView.disassembly.length = 11 ∧
      (aboutToDraw.debugView.disassembly.filter fun line => Marked line) =
        ["► 0x0202: DRW V0, V1, 5"] ∧
      atLastByte.core.cpu.pc = 0xFFF ∧ atLastByte.cycle.2 = .ok (some 0x0000) ∧
      (atLastByte.debugView.disassembly.filter fun line => Marked line).length = 0 := by
  have hready : aboutToDraw.core.cpu.pc = 0x202 ∧ aboutToDraw.cycle.2 = .ok (some 0xD015) ∧
      aboutToDraw.debugView.disassembly.length = 11 := by decide +kernel
  obtain ⟨hpc, hexec, hlength⟩ := hready
  have hlast : atLastByte.core.cpu.pc = 0xFFF ∧ atLastByte.cycle.2 = .ok (some 0x0000) := by
    decide +kernel
  obtain ⟨-, -, -, hmarked⟩ := window_shows_next aboutToDraw
  obtain ⟨-, -, hcount, -⟩ := window_shows_next atLastByte
  refine ⟨hpc, hexec, hlength, ?_, hlast.1, hlast.2, ?_⟩
  · rw [hmarked 0xD015 (by omega) (by omega) hexec, hpc]
    decide +kernel
  · rw [hcount, if_neg (by omega)]

end Machine

end Chip8
