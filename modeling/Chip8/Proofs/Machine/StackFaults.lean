import Chip8.Proofs.Core.Diagnostics
import Chip8.Proofs.Machine.Frame

/-!
# Faults of the stack

A call with a full stack and a return with an empty one are undone: pc, which has already moved,
comes back to the instruction, also round the end of the address range. What is left of the
instruction is a recorded event, a counted cycle, and a halted machine. A host that resumes it finds
it at the same instruction with the same stack, so it faults again, as often as the host tries.

Nothing else that a program does halts the machine. A word without an instruction is recorded and
passed over, and apart from the faults only a breakpoint halts it, which executes nothing.

## Main definitions

* `Machine.faulted` — the machine after some faults of its next instruction
* `Machine.retries` — resuming and trying again

## Main results

* `Machine.cycle_resume_faulted`, `Machine.run_retries` — one more fault, and any number of them
* `Machine.WellFormed.halts_iff` — what halts a running machine
* `Machine.WellFormed.stack_faults_atomic` — all of it for one cycle and what follows
-/

namespace Chip8

namespace Machine

variable {m : Machine} {kind : DiagnosticKind}

/-! ### Machines after a fault -/

/-- The machine after its next instruction has faulted a number of times. Only the cycles and the
recorded events have changed, and it is halted. -/
def faulted (m : Machine) (kind : DiagnosticKind) (n : Nat) : Machine :=
  { m with
    core :=
      { m.core with
        cycles := m.core.cycles + n
        diagnostics := newest
          (m.core.diagnostics ++ List.replicate n ⟨kind, m.core.cpu.pc, m.core.fetch⟩) }
    control := m.control.halt }

theorem image_faulted (m : Machine) (kind : DiagnosticKind) (n : Nat) :
    (m.faulted kind n).image = { m.image with running := false } := rfl

theorem WellFormed.faulted (h : m.WellFormed) (kind : DiagnosticKind) (n : Nat) :
    (m.faulted kind n).WellFormed where
  core := { h.core with }
  breakpoints := h.breakpoints

/-- The machine stands at the same instruction, with the same stack. -/
theorem faultsOnStack_faulted (hfault : m.core.FaultsOnStack kind) (n : Nat) :
    (m.faulted kind n).core.FaultsOnStack kind := by
  cases hfault with
  | overflow hi hfull => exact .overflow hi hfull
  | underflow hi hempty => exact .underflow hi hempty

/-- Faults in a row add up. -/
theorem faulted_faulted (m : Machine) (kind : DiagnosticKind) (n k : Nat) :
    (m.faulted kind n).faulted kind k = m.faulted kind (n + k) := by
  let event : Diagnostic := ⟨kind, m.core.cpu.pc, m.core.fetch⟩
  -- the events recorded first were cut to the newest already
  have hlog := newest_newest_append (m.core.diagnostics ++ List.replicate n event)
    (List.replicate k event)
  rw [List.append_assoc, List.replicate_append_replicate] at hlog
  have htwice : (m.faulted kind n).faulted kind k =
      { m with
        core :=
          { m.core with
            cycles := m.core.cycles + n + k
            diagnostics := newest
              (newest (m.core.diagnostics ++ List.replicate n event) ++ List.replicate k event) }
        control := m.control.halt } := rfl
  rw [htwice, hlog, Nat.add_assoc]
  rfl

/-- A machine whose next instruction is a fault of the stack faults once. -/
theorem WellFormed.stepped_of_fault (h : m.WellFormed) (hfault : m.core.FaultsOnStack kind) :
    m.stepped = m.faulted kind 1 := by
  have hhalts : kind.halts = true := (Core.faultsOnStack_iff.1 hfault).2
  rw [Machine.stepped, h.core.step_of_fault hfault]
  simp only [haltsAfter, hhalts, Bool.not_true]
  rfl

/-! ### Trying again -/

/-- A host resumes a machine and lets it cycle, a number of times. -/
def retries (n : Nat) : List Command := (List.replicate n [.resume, .cycle]).flatten

/-- **One more try faults once more.** -/
theorem WellFormed.cycle_resume_faulted (h : m.WellFormed) (hfault : m.core.FaultsOnStack kind)
    (n : Nat) :
    (m.faulted kind n).resume.cycle = (m.faulted kind (n + 1), .ok (some m.core.fetch)) := by
  have hnext := (h.faulted kind n).stepped_of_fault (faultsOnStack_faulted hfault n)
  rw [cycle_resume (h.faulted kind n).core, hnext, faulted_faulted]
  rfl

/-- **Every try faults**, and answers as the first cycle did. -/
theorem WellFormed.run_retries (h : m.WellFormed) (hfault : m.core.FaultsOnStack kind)
    (n k : Nat) :
    (m.faulted kind k).run (retries n) = m.faulted kind (k + n) ∧
      (m.faulted kind k).replies (retries n) =
        (List.replicate n [.ok .done, .ok (.executed (some m.core.fetch))]).flatten := by
  induction n generalizing k with
  | zero => exact ⟨rfl, rfl⟩
  | succ n ih =>
    have hcycle := h.cycle_resume_faulted hfault k
    obtain ⟨hrun, hreplies⟩ := ih (k + 1)
    have hretries : retries (n + 1) = .resume :: .cycle :: retries n := rfl
    rw [hretries]
    constructor
    · show ((m.faulted kind k).resume.cycle.1).run (retries n) = _
      rw [hcycle, hrun, Nat.add_assoc, Nat.add_comm 1]
    · show .ok .done :: (m.faulted kind k).resume.cycle.2.map Reply.executed ::
        ((m.faulted kind k).resume.cycle.1).replies (retries n) = _
      rw [hcycle, hreplies]
      rfl

/-! ### What halts a machine -/

/-- The instructions that halt the machine are the faults of the stack. -/
theorem WellFormed.haltsAfter_step_iff (h : m.WellFormed) :
    haltsAfter m.core.step.outcome = true ↔ ∃ kind, m.core.FaultsOnStack kind := by
  rw [h.core.step_outcome_eq rfl, haltsAfter_elim, Option.any_eq_true]
  exact exists_congr fun kind => Core.faultsOnStack_iff.symm

/-- **What halts a running machine** in a cycle: a fault of the stack, which executes, or a
breakpoint at pc, where it is paused and nothing is executed. -/
theorem WellFormed.halts_iff (h : m.WellFormed) (hrun : m.running = true) :
    m.cycle.1.running = false ↔
      (m.Executes ∧ ∃ kind, m.core.FaultsOnStack kind) ∨
        (m.core.cpu.pc ∈ m.breakpoints ∧ m.cycle = (m.pause, .ok none)) := by
  cases hlook : m.control.shouldBreak m.core.cpu.pc with
  | mk control stop =>
    cases stop with
    | true =>
      have hpc : m.core.cpu.pc ∈ m.breakpoints := by
        by_contra hnot
        rw [Control.shouldBreak_of_not_mem hnot] at hlook
        cases hlook
      have hcycle : m.cycle = (m.pause, .ok none) := by
        obtain rfl := Control.eq_of_shouldBreak_stop hlook
        exact cycle_of_stop hrun hlook
      refine ⟨fun _ => .inr ⟨hpc, hcycle⟩, fun _ => ?_⟩
      rw [hcycle]
      rfl
    | false =>
      have hexec : m.Executes := h.executes_of_go hrun hlook
      have hcycle := cycle_eq_stepped h.core hrun hlook
      have hrunning : m.cycle.1.running = !haltsAfter m.core.step.outcome := by
        rw [hcycle]
        rfl
      rw [hrunning, Bool.not_eq_false', h.haltsAfter_step_iff]
      constructor
      · intro hfault
        exact .inl ⟨hexec, hfault⟩
      · rintro (⟨-, hfault⟩ | ⟨-, hstops⟩)
        · exact hfault
        · have hanswer := hexec.1
          rw [hstops] at hanswer
          cases hanswer

/-- A cycle that executes answers with the word at pc and leaves the stepped machine. -/
theorem WellFormed.cycle_eq_of_executes (h : m.WellFormed) (hexec : m.Executes) :
    m.cycle = (m.stepped, .ok (some m.core.fetch)) :=
  Prod.ext (h.cycle_of_executes hexec).2 hexec.1

/-- A cycle that executes a word without an instruction moves pc behind it and records it. The
machine runs on. -/
theorem WellFormed.cycle_of_unavailable (h : m.WellFormed) (hexec : m.Executes)
    (hword : Word.Unavailable m.core.fetch) :
    m.cycle =
      ({ m with
          core :=
            { m.core with
              cpu := { m.core.cpu with pc := (m.core.cpu.pc + 2) % 65536 }
              cycles := m.core.cycles + 1
              diagnostics := newest
                (m.core.diagnostics ++ [⟨.unknownOpcode, m.core.cpu.pc, m.core.fetch⟩]) }
          control := { m.control with running := true, skip := none } },
        .ok (some m.core.fetch)) := by
  rw [h.cycle_eq_of_executes hexec, Machine.stepped, Core.step_of_unavailable hword]
  rfl

/-- **Faults of the stack are atomic, and nothing else in a program halts the machine.** Of a
well-formed machine that runs:

* When a cycle executes a call with a full stack, or a return with an empty one, the image is as
  before but for the running flag, which is off. So it is after any number of further tries, each of
  them a resume and a cycle. Every one records one more event of the kind of the fault, with the pc
  and the word of the instruction, counts one more cycle, and changes nothing else.
* A cycle halts the machine in these two cases, and when it stops at a breakpoint without executing
  anything, and in no other.
* A cycle that executes a word without an instruction moves pc by two, records it, and leaves the
  machine running. -/
theorem WellFormed.stack_faults_atomic (h : m.WellFormed) (hrun : m.running = true) :
    (∀ kind, m.Executes → m.core.FaultsOnStack kind → ∀ n,
      m.cycle.1.run (retries n) = m.faulted kind (n + 1) ∧
      m.cycle.1.replies (retries n) =
        (List.replicate n [.ok .done, .ok (.executed (some m.core.fetch))]).flatten ∧
      (m.cycle.1.run (retries n)).image = { m.image with running := false }) ∧
    (m.cycle.1.running = false ↔
      (m.Executes ∧ ∃ kind, m.core.FaultsOnStack kind) ∨
        (m.core.cpu.pc ∈ m.breakpoints ∧ m.cycle = (m.pause, .ok none))) ∧
    (m.Executes → Word.Unavailable m.core.fetch →
      m.cycle =
        ({ m with
            core :=
              { m.core with
                cpu := { m.core.cpu with pc := (m.core.cpu.pc + 2) % 65536 }
                cycles := m.core.cycles + 1
                diagnostics := newest
                  (m.core.diagnostics ++ [⟨.unknownOpcode, m.core.cpu.pc, m.core.fetch⟩]) }
            control := { m.control with running := true, skip := none } },
          .ok (some m.core.fetch))) := by
  refine ⟨fun kind hexec hfault n => ?_, h.halts_iff hrun, h.cycle_of_unavailable⟩
  have hfirst : m.cycle.1 = m.faulted kind 1 := by
    rw [h.cycle_eq_of_executes hexec, h.stepped_of_fault hfault]
  obtain ⟨hlast, hreplies⟩ := h.run_retries hfault n 1
  rw [Nat.add_comm 1] at hlast
  rw [hfirst, hlast]
  exact ⟨rfl, hreplies, m.image_faulted kind (n + 1)⟩

/-- A program that puts the second byte of a return to the beginning of the memory, where the word
at the end of the address range goes on. A host has set pc there and a breakpoint, and resumed. -/
def returningAtEnd : Machine :=
  let stored := (create {} (some 0)).run
    [.loadRom [0x60, 0xEE, 0xA0, 0x00, 0xF0, 0x55], .cycle, .cycle, .cycle, .setBreakpoint (-1)]
  { stored with
    core := { stored.core with cpu := { stored.core.cpu with pc := 0xFFFF } } }.resume

/-- A program that begins with a routine of the host machine. -/
def callingHost : Machine := (create {} (some 0)).run [.loadRom [0x01, 0x23]]

theorem stack_faults_atomic_returningAtEnd :
    returningAtEnd.WellFormed ∧ returningAtEnd.running = true ∧ returningAtEnd.Executes ∧
      returningAtEnd.core.FaultsOnStack .stackUnderflow ∧
      returningAtEnd.cycle.1.run (retries 3) = returningAtEnd.faulted .stackUnderflow 4 ∧
      (returningAtEnd.cycle.1.run (retries 3)).image =
        { returningAtEnd.image with running := false } ∧
      returningAtEnd.cycle.1.running = false ∧
      callingHost.WellFormed ∧ callingHost.running = true ∧ callingHost.Executes ∧
      Word.Unavailable callingHost.core.fetch ∧ callingHost.cycle.1.running = true ∧
      callingHost.cycle.1.core.cpu.pc = 0x202 := by
  have hstored : ((create {} (some 0)).run
      [.loadRom [0x60, 0xEE, 0xA0, 0x00, 0xF0, 0x55], .cycle, .cycle, .cycle,
        .setBreakpoint (-1)]).WellFormed := ((Reachable.create _ _).run _).wellFormed
  have hwell : returningAtEnd.WellFormed :=
    { hstored with
      core := hstored.core.setCpu (hstored.core.cpu.setPc ⟨by decide, by decide⟩) }
  have hready : returningAtEnd.running = true ∧
      returningAtEnd.control.skip = some returningAtEnd.core.cpu.pc ∧
      Instruction.ofWord returningAtEnd.core.fetch = .ret ∧
      returningAtEnd.core.cpu.sp = 0 := by decide +kernel
  obtain ⟨hrun, hskip, hi, hempty⟩ := hready
  have hexec := hwell.executes_of_skip hrun hskip
  have hfault : returningAtEnd.core.FaultsOnStack .stackUnderflow := .underflow hi hempty
  obtain ⟨hfaults, hhalts, -⟩ := hwell.stack_faults_atomic hrun
  obtain ⟨hlast, -, himage⟩ := hfaults _ hexec hfault 3
  have hwell' : callingHost.WellFormed := ((Reachable.create _ _).run _).wellFormed
  have hready' : callingHost.running = true ∧
      callingHost.core.cpu.pc ∉ callingHost.control.breakpoints ∧
      callingHost.core.fetch = 0x0123 ∧ callingHost.core.cpu.pc = 0x200 := by decide +kernel
  obtain ⟨hrun', hpc, hword, hpc'⟩ := hready'
  have hexec' := hwell'.executes_of_not_mem hrun' hpc
  have hunavailable : Word.Unavailable callingHost.core.fetch := by
    rw [hword]
    exact .inl (by decide)
  have hcycle := (hwell'.stack_faults_atomic hrun').2.2 hexec' hunavailable
  refine ⟨hwell, hrun, hexec, hfault, hlast, himage, hhalts.2 (.inl ⟨hexec, _, hfault⟩), hwell',
    hrun', hexec', hunavailable, ?_, ?_⟩
  · rw [hcycle]
    rfl
  · rw [hcycle, hpc']
    rfl

end Machine

end Chip8
