import Chip8.Proofs.Core.Frame
import Chip8.Proofs.Machine.Reset

/-!
# The frame of one cycle

A cycle that executes an instruction changes of the core what the instruction may write, and of the
rest of the machine next to nothing: a fault of the stack halts it, and nothing touches the
breakpoints or the seed. There is one more effect, which no instruction has a part in. The look at
the breakpoints before the instruction uses up the skip that a resume has left, whether the
instruction stands at a breakpoint or not; so a machine that was resumed on a breakpoint and comes
back to it stops there.

## Main definitions

* `Machine.Framed` — everything but what an instruction may write is as before

## Main results

* `Machine.WellFormed.cycle_of_executes` — a cycle that executes
* `Machine.WellFormed.cycle_framed` — the frame of one instruction
* `Machine.cycle_uses_skip_up` — a skip is not kept
-/

namespace Chip8

namespace Machine

variable {m : Machine}

/-- A machine after a cycle that executed an instruction, where everything is as before but what the
instruction may write. A fault of the stack halts the machine, no skip is left, and everything lies
within its width. -/
structure Framed (m : Machine) (i : Instruction) (next : Machine) : Prop where
  core : m.core.Framed i next.core
  running : next.running = (m.running && !(m.core.event? i).any DiagnosticKind.halts)
  breakpoints : next.breakpoints = m.breakpoints
  skip : next.control.skip = none
  seed : next.seed = m.seed
  wellFormed : next.WellFormed

/-- **A cycle that executes** is one of a running machine, and leaves the stepped one. -/
theorem WellFormed.cycle_of_executes (h : m.WellFormed) (hexec : m.Executes) :
    m.running = true ∧ m.cycle.1 = m.stepped := by
  have hanswer := hexec.1
  rcases m.cycle_inversion with ⟨-, hcycle⟩ | ⟨control, -, -, hcycle⟩ |
    ⟨control, hrun, hlook, -⟩
  · rw [hcycle] at hanswer
    cases hanswer
  · rw [hcycle] at hanswer
    cases hanswer
  · refine ⟨hrun, ?_⟩
    rw [cycle_eq_stepped h.core hrun hlook]

/-- An instruction halts the machine if its event does. -/
theorem haltsAfter_elim (event : Option DiagnosticKind) :
    haltsAfter (event.elim .done .event) = event.any DiagnosticKind.halts := by
  cases event with
  | none => rfl
  | some kind => rfl

/-- **The frame of one instruction.** Whatever word stands at pc, a cycle of a well-formed machine
that executes it changes nothing but what its instruction may write, moves pc, counts, and uses up
the skip of a resume. -/
theorem WellFormed.cycle_framed (h : m.WellFormed) (hexec : m.Executes) :
    m.Framed (Instruction.ofWord m.core.fetch) m.cycle.1 := by
  obtain ⟨hrun, hcycle⟩ := h.cycle_of_executes hexec
  refine {
    core := hexec.2 ▸ h.core.step_framed rfl
    running := ?_
    breakpoints := m.breakpoints_cycle
    skip := by rw [hcycle]; rfl
    seed := m.seed_cycle
    wellFormed := h.cycle }
  rw [hcycle, hrun, Bool.true_and, ← haltsAfter_elim, ← h.core.step_outcome_eq rfl]
  rfl

/-- A machine that was resumed at a breakpoint, where registers are to be stored round the end of
the memory. -/
def storing : Machine :=
  (create {} (some 0)).run
    [.loadRom [0x60, 0x07, 0xAF, 0xFF, 0xF1, 0x55], .setBreakpoint 0x204, .cycle, .cycle, .cycle,
      .resume]

theorem cycle_framed_storing :
    storing.WellFormed ∧ storing.Executes ∧ storing.control.skip = some 0x204 ∧
      Instruction.ofWord storing.core.fetch = .store (Word.x 0xF155) ∧
      storing.Framed (.store (Word.x 0xF155)) storing.cycle.1 ∧
      storing.cycle.1.core.memory.read 0xFFF = 7 := by
  have hwell : storing.WellFormed := ((Reachable.create {} (some 0)).run _).wellFormed
  have hready : storing.control.running = true ∧
      storing.control.skip = some storing.core.cpu.pc ∧ storing.core.cpu.pc = 0x204 ∧
      Instruction.ofWord storing.core.fetch = .store (Word.x 0xF155) := by decide +kernel
  obtain ⟨hrun, hskip, hpc, hi⟩ := hready
  have hexec : storing.Executes := hwell.executes_of_skip hrun hskip
  have hframed := hwell.cycle_framed hexec
  rw [hi] at hframed
  exact ⟨hwell, hexec, hskip.trans (congrArg some hpc), hi, hframed, by decide +kernel⟩

/-- A machine that was resumed at a breakpoint, where the program jumps to itself. -/
def loopingAtBreakpoint : Machine :=
  (create {} (some 0)).run [.loadRom [0x12, 0x00], .setBreakpoint 0x200, .cycle, .resume]

/-- **A skip is not kept.** The jump is executed and has nothing to do with the skip, but afterwards
it is gone, and the next cycle stops. -/
theorem cycle_uses_skip_up :
    loopingAtBreakpoint.WellFormed ∧ loopingAtBreakpoint.Executes ∧
      (∃ target, Instruction.ofWord loopingAtBreakpoint.core.fetch = .jump target) ∧
      loopingAtBreakpoint.cycle.1.control.skip ≠ loopingAtBreakpoint.control.skip ∧
      loopingAtBreakpoint.cycle.1.cycle.2 = .ok none := by
  have hwell : loopingAtBreakpoint.WellFormed :=
    ((Reachable.create {} (some 0)).run _).wellFormed
  have hready : loopingAtBreakpoint.control.running = true ∧
      loopingAtBreakpoint.control.skip = some loopingAtBreakpoint.core.cpu.pc ∧
      Instruction.ofWord loopingAtBreakpoint.core.fetch = .jump 0x200 := by decide +kernel
  obtain ⟨hrun, hskip, hi⟩ := hready
  have hafter : loopingAtBreakpoint.cycle.1.control.skip = none ∧
      loopingAtBreakpoint.cycle.1.cycle.2 = .ok none := by decide +kernel
  refine ⟨hwell, hwell.executes_of_skip hrun hskip, ⟨_, hi⟩, ?_, hafter.2⟩
  rw [hafter.1, hskip]
  nofun

end Machine

end Chip8
