import Chip8.Proofs.Machine.Breakpoints

/-!
# Stepping over breakpoints

A host that wants one more instruction executed calls a cycle and, if the machine answers that it
executed none, resumes it and calls another cycle. That is one instruction, whatever the control of
the machine was: a cycle that answers so has executed nothing, and the look of a cycle right after a
resume never stops.

What such a step leaves does not depend on the breakpoints. So a host that drives a program in this
way sees the same with any breakpoints as with none. Nothing is assumed of the program: it may loop
back onto a breakpoint, wait for a key on one, or halt the machine by a fault on one.

## Main definitions

* `Machine.stepOver` — a cycle, and if it executes nothing a resume and another cycle
* `Machine.stepped` — the machine after its next instruction
* `Machine.StepsOnce` — stepping over executes one instruction
* `Machine.Drive`, `Machine.drive`, `Machine.driveRun` — keys and single steps, and lists of them

## Main results

* `Machine.stepOver_eq` — stepping over executes the next instruction
* `Machine.WellFormed.drive_withBreakpoints` — breakpoints do not change what one action does
* `Machine.WellFormed.driveRun_withBreakpoints` — nor what a list of actions does
* `Machine.WellFormed.breakpoints_transparent` — any breakpoints compared with none
-/

namespace Chip8

/-! ### Looks -/

namespace Control

variable {c control : Control} {pc : Int}

/-- A look that stops turns the running flag off. -/
theorem eq_of_shouldBreak_stop (h : c.shouldBreak pc = (control, true)) :
    control = { c with running := false, skip := none } := by
  unfold shouldBreak at h
  split at h
  · cases h
  · split at h
    · exact (Prod.mk.inj h).1.symm
    · cases h

/-- A look that does not stop uses the skip up and does nothing else. -/
theorem eq_of_shouldBreak_go (h : c.shouldBreak pc = (control, false)) :
    control = { c with skip := none } := by
  unfold shouldBreak at h
  split at h
  · exact (Prod.mk.inj h).1.symm
  · split at h
    · cases h
    · exact (Prod.mk.inj h).1.symm

/-- **The look right after a resume never stops**, whether there is a breakpoint or not. -/
theorem shouldBreak_resume (c : Control) (pc : Int) :
    (c.resume (some pc)).shouldBreak pc = ({ c with running := true, skip := none }, false) := by
  by_cases hpc : pc ∈ c.breakpoints
  · exact shouldBreak_of_skip (skip_resume_of_mem hpc)
  · have hskip : (c.resume (some pc)).skip ≠ some pc := by
      rw [skip_resume_of_not_mem hpc]
      rintro ⟨⟩
    rw [shouldBreak, if_neg hskip]
    exact if_neg hpc

end Control

namespace Machine

variable {m : Machine}

/-! ### One step -/

/-- The machine with other breakpoints. -/
def withBreakpoints (m : Machine) (breakpoints : AddressSet) : Machine :=
  { m with control := { m.control with breakpoints } }

/-- One cycle and, if it executes nothing, a resume and another one. -/
def stepOver (m : Machine) : Machine × Except Error (Option UInt16) :=
  match m.cycle with
  | (next, .ok none) => next.resume.cycle
  | answered => answered

/-- The machine after its next instruction. It runs, unless the instruction halts it. -/
def stepped (m : Machine) : Machine :=
  { m with
    core := m.core.step.core
    control := { m.control with running := !haltsAfter m.core.step.outcome, skip := none } }

/-- One step under the control that a look leaves gives the stepped machine. -/
theorem stepUnder_eq_stepped (h : m.core.WellFormed) :
    m.stepUnder { m.control with running := true, skip := none } =
      (m.stepped, .ok (some m.core.fetch)) := by
  rw [stepUnder, if_neg h.step_outcome_ne_broken, Core.step_word, stepped]
  cases haltsAfter m.core.step.outcome <;> rfl

/-- A running machine whose look lets it go on becomes the stepped one. -/
theorem cycle_eq_stepped (h : m.core.WellFormed) (hrun : m.control.running = true)
    {control : Control} (hlook : m.control.shouldBreak m.core.cpu.pc = (control, false)) :
    m.cycle = (m.stepped, .ok (some m.core.fetch)) := by
  obtain rfl := Control.eq_of_shouldBreak_go hlook
  have hcontrol : { m.control with skip := none } =
      { m.control with running := true, skip := none } := by rw [← hrun]
  rw [cycle_of_go hrun hlook, hcontrol, stepUnder_eq_stepped h]

/-- **A cycle right after a resume executes.** -/
theorem cycle_resume (h : m.core.WellFormed) :
    m.resume.cycle = (m.stepped, .ok (some m.core.fetch)) := by
  have hgo := cycle_of_go (m := m.resume) rfl (m.control.shouldBreak_resume m.core.cpu.pc)
  rw [hgo]
  exact stepUnder_eq_stepped h

/-- **Stepping over executes the next instruction**, whatever the control of the machine is. -/
theorem stepOver_eq (h : m.core.WellFormed) :
    m.stepOver = (m.stepped, .ok (some m.core.fetch)) := by
  rcases m.cycle_inversion with ⟨-, hcycle⟩ | ⟨control, -, hlook, hcycle⟩ |
    ⟨control, hrun, hlook, hcycle⟩
  · rw [stepOver, hcycle]
    exact cycle_resume h
  · -- the machine that has stopped differs from this one in its control only
    obtain rfl := Control.eq_of_shouldBreak_stop hlook
    rw [stepOver, hcycle]
    exact cycle_resume (m := { m with control := _ }) h
  · rw [stepOver, cycle_eq_stepped h hrun hlook]

theorem WellFormed.stepped (h : m.WellFormed) : m.stepped.WellFormed :=
  { h with core := h.core.step }

/-- Stepping over executes exactly one instruction, the one at pc. -/
structure StepsOnce (m : Machine) : Prop where
  answer : m.stepOver.2 = .ok (some m.core.fetch)
  core : m.stepOver.1.core = m.core.step.core
  cycles : m.stepOver.1.core.cycles = m.core.cycles + 1

theorem stepsOnce (h : m.core.WellFormed) : m.StepsOnce where
  answer := by rw [stepOver_eq h]
  core := by rw [stepOver_eq h, stepped]
  cycles := by
    rw [stepOver_eq h, stepped]
    exact h.step_cycles

/-! ### Driving a program -/

/-- What a host does that drives a program: keys go down and up, and instructions are executed one
at a time. -/
inductive Drive where
  | keyDown (key : Int)
  | keyUp (key : Int)
  | step
  deriving DecidableEq, Repr

/-- The machine after an action, and the answer. -/
def drive (m : Machine) : Drive → Machine × Except Error Reply
  | .keyDown key => m.perform (.keyDown key)
  | .keyUp key => m.perform (.keyUp key)
  | .step => (m.stepOver.1, m.stepOver.2.map .executed)

/-- The machine after a list of actions. -/
def driveRun (m : Machine) (actions : List Drive) : Machine :=
  actions.foldl (fun m action => (m.drive action).1) m

/-- The answers to a list of actions. -/
def driveReplies (m : Machine) : List Drive → List (Except Error Reply)
  | [] => []
  | action :: rest => (m.drive action).2 :: (m.drive action).1.driveReplies rest

theorem WellFormed.drive (h : m.WellFormed) (action : Drive) : (m.drive action).1.WellFormed := by
  cases action with
  | keyDown key => exact h.perform (.keyDown key)
  | keyUp key => exact h.perform (.keyUp key)
  | step =>
    rw [Machine.drive, stepOver_eq h.core]
    exact h.stepped

theorem WellFormed.driveRun (h : m.WellFormed) (actions : List Drive) :
    (m.driveRun actions).WellFormed := by
  induction actions generalizing m with
  | nil => exact h
  | cons action rest ih => exact ih (h.drive action)

/-! ### Independence of the breakpoints -/

/-- **Breakpoints do not change what an action does.** -/
theorem WellFormed.drive_withBreakpoints (h : m.WellFormed) (breakpoints : AddressSet)
    (action : Drive) :
    (m.withBreakpoints breakpoints).drive action =
      ((m.drive action).1.withBreakpoints breakpoints, (m.drive action).2) := by
  cases action with
  | keyDown key => rfl
  | keyUp key => rfl
  | step =>
    have hcore : (m.withBreakpoints breakpoints).core.WellFormed := h.core
    rw [Machine.drive, Machine.drive, stepOver_eq hcore, stepOver_eq h.core]
    rfl

/-- **Breakpoints do not change what a list of actions does.** -/
theorem WellFormed.driveRun_withBreakpoints (h : m.WellFormed) (breakpoints : AddressSet)
    (actions : List Drive) :
    (m.withBreakpoints breakpoints).driveRun actions =
        (m.driveRun actions).withBreakpoints breakpoints ∧
      (m.withBreakpoints breakpoints).driveReplies actions = m.driveReplies actions := by
  induction actions generalizing m with
  | nil => exact ⟨rfl, rfl⟩
  | cons action rest ih =>
    have hfirst := h.drive_withBreakpoints breakpoints action
    obtain ⟨hrun, hreplies⟩ := ih (h.drive action)
    constructor
    · show ((m.withBreakpoints breakpoints).drive action).1.driveRun rest = _
      rw [hfirst, hrun]
      rfl
    · rw [driveReplies, driveReplies, hfirst, hreplies]

/-- **Breakpoints never change what a program computes.** A well-formed machine with any breakpoints
is compared with the same machine without. Driven by the same keys and steps both give the same
answers; after every action they are the same machine but for the breakpoints; and there each of them
steps over exactly one instruction. -/
theorem WellFormed.breakpoints_transparent (h : m.WellFormed) (breakpoints : AddressSet)
    (actions : List Drive) :
    (m.withBreakpoints breakpoints).driveReplies actions =
        (m.withBreakpoints .empty).driveReplies actions ∧
      ∀ n, (m.withBreakpoints breakpoints).driveRun (actions.take n) =
          ((m.withBreakpoints .empty).driveRun (actions.take n)).withBreakpoints breakpoints ∧
        ((m.withBreakpoints breakpoints).driveRun (actions.take n)).StepsOnce ∧
        ((m.withBreakpoints .empty).driveRun (actions.take n)).StepsOnce := by
  have hreplies (b : AddressSet) := (h.driveRun_withBreakpoints b actions).2
  refine ⟨(hreplies breakpoints).trans (hreplies .empty).symm, fun n => ?_⟩
  have hrun (b : AddressSet) := (h.driveRun_withBreakpoints b (actions.take n)).1
  have hcore : (m.driveRun (actions.take n)).core.WellFormed := (h.driveRun _).core
  rw [hrun breakpoints, hrun .empty]
  exact ⟨rfl, stepsOnce hcore, stepsOnce hcore⟩

/-- A program that calls itself, so that it comes back to its first address until the stack is
full. -/
def selfCalling : Machine := (create {} (some 0)).run [.loadRom [0x22, 0x00]]

/-- Steps until two faults are recorded, and a key in between. -/
def untilFaults : List Drive :=
  List.replicate 10 .step ++ .keyDown 5 :: List.replicate 8 .step

theorem breakpoints_transparent_selfCalling :
    selfCalling.WellFormed ∧ 0x200 ∈ AddressSet.empty.insert 0x200 ∧
      (selfCalling.driveRun untilFaults).core.diagnostics.length = 2 ∧
      (selfCalling.driveRun untilFaults).running = false ∧
      (selfCalling.withBreakpoints (AddressSet.empty.insert 0x200)).driveReplies untilFaults =
        (selfCalling.withBreakpoints .empty).driveReplies untilFaults ∧
      ∀ n, (selfCalling.withBreakpoints (AddressSet.empty.insert 0x200)).driveRun
          (untilFaults.take n) =
          ((selfCalling.withBreakpoints .empty).driveRun (untilFaults.take n)).withBreakpoints
            (AddressSet.empty.insert 0x200) ∧
        ((selfCalling.withBreakpoints (AddressSet.empty.insert 0x200)).driveRun
          (untilFaults.take n)).StepsOnce ∧
        ((selfCalling.withBreakpoints .empty).driveRun (untilFaults.take n)).StepsOnce := by
  have hwell : selfCalling.WellFormed := ((Reachable.create _ _).run _).wellFormed
  exact ⟨hwell, by decide, by decide +kernel, by decide +kernel,
    hwell.breakpoints_transparent _ untilFaults⟩

end Machine

end Chip8
