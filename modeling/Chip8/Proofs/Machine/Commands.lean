import Chip8.Machine.Command
import Chip8.Proofs.Except
import Chip8.Proofs.Machine.Image

/-!
# Commands keep machines well formed

No call of a host leads out of the well-formed machines, whatever its arguments are: numbers that
are no keys are ignored, breakpoints are reduced to addresses, programs are written as bytes, and
instructions stay within their widths. Soundness is more delicate, since it speaks of the word at
pc. The load of a program may put another word under a latched key; every other call keeps it.

## Main results

* `Machine.cycle_inversion` — what a cycle can do
* `Machine.cycle_cases` — a cycle leaves the core as it is or executes one step
* `Machine.perform_loadRom_cases` — a program is started or refused
* `Machine.WellFormed.perform` — every call keeps machines well formed
* `Machine.WellFormed.perform_refused` — a refused call changes nothing
* `Machine.Sound.perform` — every call keeps machines sound, but the load of a program under a
  latched key
* `Machine.perform_core` — what calls may do to the core
* `Machine.WellFormed.cycle_ok` — no cycle of a well-formed machine breaks off
-/

namespace Chip8

/-! ### Breakpoints -/

namespace Control

variable {c : Control}

theorem isWord_addressOf (n : Int) : IsWord (addressOf n) := isWord_lowWord n

/-- Looking for a breakpoint changes none. -/
@[simp] theorem breakpoints_shouldBreak (c : Control) (pc : Int) :
    (c.shouldBreak pc).1.breakpoints = c.breakpoints := by
  unfold shouldBreak
  split
  · rfl
  · split <;> rfl

theorem forall_mem_setBreakpoint (h : ∀ a ∈ c.breakpoints, IsWord a) (n : Int) :
    ∀ a ∈ (c.setBreakpoint n).breakpoints, IsWord a := by
  intro a ha
  rcases AddressSet.mem_insert.1 ha with rfl | ha
  · exact isWord_addressOf n
  · exact h a ha

theorem forall_mem_clearBreakpoint (h : ∀ a ∈ c.breakpoints, IsWord a) (n : Int) :
    ∀ a ∈ (c.clearBreakpoint n).breakpoints, IsWord a :=
  fun a ha => h a (AddressSet.mem_erase.1 ha).1

end Control

namespace Core

variable {c d : Core}

/-- The clause about the latch only looks at the latch, the memory and pc. -/
theorem LatchWaits.congr (h : c.LatchWaits) (hl : d.keypad.latch = c.keypad.latch)
    (hm : d.memory = c.memory) (hp : d.cpu.pc = c.cpu.pc) : d.LatchWaits := by
  intro hs
  rw [fetch, hm, hp]
  exact h (hl ▸ hs)

end Core

namespace Machine

variable {m : Machine}

/-! ### Cycles -/

/-- A cycle that executes, under the control that the look before it left. -/
def stepUnder (m : Machine) (control : Control) : Machine × Except Error (Option UInt16) :=
  ({ m with
      core := m.core.step.core
      control := if haltsAfter m.core.step.outcome then control.halt else control },
    if m.core.step.outcome = .broken then .error .outOfRange else .ok (some m.core.step.word))

theorem cycle_of_halted (hrun : m.control.running = false) : m.cycle = (m, .ok none) := by
  rw [cycle, hrun]
  rfl

theorem tick_of_halted (h : m.running = false) : m.tick = m := by
  have hrun : m.control.running = false := h
  rw [tick, hrun]
  rfl

theorem cycle_of_stop {control : Control} (hrun : m.control.running = true)
    (hlook : m.control.shouldBreak m.core.cpu.pc = (control, true)) :
    m.cycle = ({ m with control }, .ok none) := by
  rw [cycle, if_pos hrun, hlook]

theorem cycle_of_go {control : Control} (hrun : m.control.running = true)
    (hlook : m.control.shouldBreak m.core.cpu.pc = (control, false)) :
    m.cycle = m.stepUnder control := by
  rw [cycle, if_pos hrun, hlook, stepUnder]

/-- **What a cycle can do**: nothing on a halted machine, and on a running one what the look at the
breakpoints tells, which is to stop or to execute one step. -/
theorem cycle_inversion (m : Machine) :
    (m.control.running = false ∧ m.cycle = (m, .ok none)) ∨
      (∃ control, m.control.running = true ∧
        m.control.shouldBreak m.core.cpu.pc = (control, true) ∧
        m.cycle = ({ m with control }, .ok none)) ∨
      ∃ control, m.control.running = true ∧
        m.control.shouldBreak m.core.cpu.pc = (control, false) ∧
        m.cycle = m.stepUnder control := by
  cases hrun : m.control.running with
  | false => exact .inl ⟨rfl, cycle_of_halted hrun⟩
  | true =>
    cases hlook : m.control.shouldBreak m.core.cpu.pc with
    | mk control stop =>
      cases stop with
      | true => exact .inr (.inl ⟨control, rfl, rfl, cycle_of_stop hrun hlook⟩)
      | false => exact .inr (.inr ⟨control, rfl, rfl, cycle_of_go hrun hlook⟩)

@[simp] theorem breakpoints_cycle (m : Machine) :
    m.cycle.1.control.breakpoints = m.control.breakpoints := by
  have hlooked := Control.breakpoints_shouldBreak m.control m.core.cpu.pc
  rcases m.cycle_inversion with ⟨-, hcycle⟩ | ⟨control, -, hlook, hcycle⟩ |
    ⟨control, -, hlook, hcycle⟩
  · rw [hcycle]
  · rw [hlook] at hlooked
    rw [hcycle]
    exact hlooked
  · rw [hlook] at hlooked
    rw [hcycle, stepUnder]
    dsimp only
    split <;> exact hlooked

/-- **A cycle leaves the core as it is and executes nothing, or it executes one step.** -/
theorem cycle_cases (m : Machine) :
    (m.cycle.1.core = m.core ∧ m.cycle.2 = .ok none) ∨
      (m.cycle.1.core = m.core.step.core ∧
        m.cycle.2 = if m.core.step.outcome = .broken then .error .outOfRange
          else .ok (some m.core.step.word)) := by
  rcases m.cycle_inversion with ⟨-, hcycle⟩ | ⟨control, -, -, hcycle⟩ | ⟨control, -, -, hcycle⟩
  · rw [hcycle]
    exact .inl ⟨rfl, rfl⟩
  · rw [hcycle]
    exact .inl ⟨rfl, rfl⟩
  · rw [hcycle]
    exact .inr ⟨rfl, rfl⟩

/-- **No cycle of a well-formed machine breaks off.** -/
theorem WellFormed.cycle_ok (h : m.WellFormed) : ∃ word, m.cycle.2 = .ok word := by
  rcases m.cycle_cases with ⟨-, hnone⟩ | ⟨-, hstep⟩
  · exact ⟨none, hnone⟩
  · rw [if_neg h.core.step_outcome_ne_broken] at hstep
    exact ⟨some m.core.step.word, hstep⟩

theorem WellFormed.cycle (h : m.WellFormed) : m.cycle.1.WellFormed where
  core := by
    rcases m.cycle_cases with ⟨hcore, -⟩ | ⟨hcore, -⟩
    · rw [hcore]
      exact h.core
    · rw [hcore]
      exact h.core.step
  breakpoints := by
    rw [breakpoints_cycle]
    exact h.breakpoints

theorem Sound.cycle (h : m.Sound) : m.cycle.1.Sound := by
  refine { h.toWellFormed.cycle with latch_waits := ?_ }
  rcases m.cycle_cases with ⟨hcore, -⟩ | ⟨hcore, -⟩
  · rw [hcore]
    exact h.latch_waits
  · rw [hcore]
    exact h.core.step_latchWaits h.latch_waits

/-! ### Programs -/

theorem wellFormed_create (dialect : Dialect) (seed : Option Int) :
    (create dialect seed).WellFormed where
  core := Core.wellFormed_initial dialect seed
  breakpoints a ha := absurd ha (AddressSet.not_mem_empty a)

theorem sound_create (dialect : Dialect) (seed : Option Int) : (create dialect seed).Sound :=
  { wellFormed_create dialect seed with latch_waits := .of_unlatched rfl }

theorem WellFormed.reset (h : m.WellFormed) (clock : Int) : (m.reset clock).WellFormed where
  core := m.core.wellFormed_reset _
  breakpoints := h.breakpoints

theorem WellFormed.startRom (h : m.WellFormed) (rom : Bytes) : (m.startRom rom).WellFormed where
  core := { h.core with }
  breakpoints := h.breakpoints

/-- A reset machine is sound, whatever was latched before. -/
theorem WellFormed.sound_reset (h : m.WellFormed) (clock : Int) : (m.reset clock).Sound :=
  { h.reset clock with latch_waits := .of_unlatched rfl }

/-- A program is started on a sound machine when no key is latched. -/
theorem WellFormed.sound_startRom (h : m.WellFormed) (hl : m.core.keypad.latch = none)
    (rom : Bytes) : (m.startRom rom).Sound :=
  { h.startRom rom with latch_waits := .of_unlatched hl }

/-- **A program is started, or the call is refused and changes nothing.** -/
theorem perform_loadRom_cases (m : Machine) (data : List Int) :
    (∃ rom, checkRom data = .ok rom ∧ m.perform (.loadRom data) = (m.startRom rom, .ok .done)) ∨
      ∃ reason, checkRom data = .error reason ∧
        m.perform (.loadRom data) = (m, .error reason) := by
  cases hcheck : checkRom data with
  | ok rom =>
    refine .inl ⟨rom, rfl, ?_⟩
    rw [perform, loadRom, hcheck]
    rfl
  | error reason =>
    refine .inr ⟨reason, rfl, ?_⟩
    rw [perform, loadRom, hcheck]
    rfl

theorem Sound.pause (h : m.Sound) : m.pause.Sound := { h with }

/-! ### All commands -/

theorem WellFormed.setHeld (h : m.WellFormed) (key : Int) (down : Bool) :
    WellFormed { m with core := { m.core with keypad := m.core.keypad.setHeld key down } } where
  core :=
    have hl := m.core.keypad.latch_setHeld key down
    { h.core with
      latch := fun n hn => h.core.latch n (hl ▸ hn)
      release := fun hs => h.core.release (hl ▸ hs) }
  breakpoints := h.breakpoints

/-- **Every call keeps a machine well formed.** -/
theorem WellFormed.perform (h : m.WellFormed) (command : Command) :
    (m.perform command).1.WellFormed := by
  cases command with
  | reset => exact h.reset 0
  | loadRom data =>
    simp only [Machine.perform, loadRom]
    cases checkRom data with
    | ok rom => exact h.startRom rom
    | error reason => exact h
  | cycle => exact h.cycle
  | tick =>
    simp only [Machine.perform, Machine.tick]
    split
    · exact { h with core := { h.core with timers := h.core.timers.tick } }
    · exact h
  | keyDown key => exact h.setHeld key true
  | keyUp key => exact h.setHeld key false
  | setBreakpoint address =>
    exact { h with breakpoints := Control.forall_mem_setBreakpoint h.breakpoints address }
  | clearBreakpoint address =>
    exact { h with breakpoints := Control.forall_mem_clearBreakpoint h.breakpoints address }
  | clearBreakpoints =>
    exact { h with breakpoints := fun a ha => absurd ha (AddressSet.not_mem_empty a) }
  | pause => exact { h with }
  | resume => exact { h with }
  | togglePause =>
    simp only [Machine.perform, Machine.togglePause]
    split
    · exact { h with }
    · exact { h with }
  | hardStop => exact { h with }
  | takeChanged =>
    exact { h with core := { h.core with framebuffer := h.core.framebuffer.takeChanged } }
  | debugView => exact h
  | memoryDump offset limit => exact h
  | drainDiagnostics => exact { h with core := { h.core with } }
  | serialize => exact h

/-- **A call that is refused leaves a well-formed machine as it was.** -/
theorem WellFormed.perform_refused (h : m.WellFormed) {command : Command} {reason : Error}
    (hrefused : (m.perform command).2 = .error reason) : (m.perform command).1 = m := by
  cases command with
  | loadRom data =>
    rcases m.perform_loadRom_cases data with ⟨rom, -, hload⟩ | ⟨cause, -, hload⟩
    · rw [hload] at hrefused
      cases hrefused
    · rw [hload]
  | cycle =>
    obtain ⟨word, hword⟩ := h.cycle_ok
    have hcycle : m.cycle.2 = .error reason := Except.map_eq_error.1 hrefused
    rw [hword] at hcycle
    cases hcycle
  | serialize => rfl
  | _ => cases hrefused

/-- **Every call keeps a machine sound, but the load of a program under a latched key.** -/
theorem Sound.perform (h : m.Sound) {command : Command}
    (hload : ∀ data, command = .loadRom data → m.core.keypad.latch = none) :
    (m.perform command).1.Sound := by
  have hwell := h.toWellFormed.perform command
  cases command with
  | reset => exact h.toWellFormed.sound_reset 0
  | loadRom data =>
    have hl := hload data rfl
    simp only [Machine.perform, loadRom]
    cases checkRom data with
    | ok rom => exact h.toWellFormed.sound_startRom hl rom
    | error reason => exact h
  | cycle => exact h.cycle
  | tick =>
    refine { hwell with latch_waits := ?_ }
    simp only [Machine.perform, Machine.tick]
    split
    · exact h.latch_waits.congr rfl rfl rfl
    · exact h.latch_waits
  | keyDown key =>
    have hl := m.core.keypad.latch_setHeld key true
    exact { hwell with latch_waits := h.latch_waits.congr hl rfl rfl }
  | keyUp key =>
    have hl := m.core.keypad.latch_setHeld key false
    exact { hwell with latch_waits := h.latch_waits.congr hl rfl rfl }
  | togglePause =>
    refine { hwell with latch_waits := ?_ }
    simp only [Machine.perform, Machine.togglePause]
    split
    · exact h.latch_waits
    · exact h.latch_waits
  | takeChanged => exact { hwell with latch_waits := h.latch_waits.congr rfl rfl rfl }
  | drainDiagnostics => exact { hwell with latch_waits := h.latch_waits.congr rfl rfl rfl }
  | setBreakpoint | clearBreakpoint | clearBreakpoints | pause | resume | hardStop | debugView
  | memoryDump | serialize => exact { hwell with latch_waits := h.latch_waits }

/-- **What calls may do to the core**, other than cycles and resets: not to the registers, the
random numbers, the dialect or the number of steps, to the screen only a take, and to the timers
only a tick. -/
theorem perform_core (m : Machine) {command : Command} (hcycle : command ≠ .cycle)
    (hreset : command ≠ .reset) :
    ∃ memory framebuffer keypad timers diagnostics,
      (m.perform command).1.core =
          { m.core with memory, framebuffer, keypad, timers, diagnostics } ∧
        (command ≠ .takeChanged → framebuffer = m.core.framebuffer) ∧
        (command ≠ .tick → timers = m.core.timers) := by
  cases command with
  | cycle => exact absurd rfl hcycle
  | reset => exact absurd rfl hreset
  | takeChanged => exact ⟨_, _, _, _, _, rfl, fun h => absurd rfl h, fun _ => rfl⟩
  | loadRom data =>
    rcases m.perform_loadRom_cases data with ⟨rom, -, hload⟩ | ⟨reason, -, hload⟩
    · rw [hload]
      exact ⟨_, _, _, _, _, rfl, fun _ => rfl, fun _ => rfl⟩
    · rw [hload]
      exact ⟨_, _, _, _, _, rfl, fun _ => rfl, fun _ => rfl⟩
  | tick =>
    simp only [Machine.perform, Machine.tick]
    split
    · exact ⟨_, _, _, _, _, rfl, fun _ => rfl, fun h => absurd rfl h⟩
    · exact ⟨_, _, _, _, _, rfl, fun _ => rfl, fun _ => rfl⟩
  | togglePause =>
    simp only [Machine.perform, Machine.togglePause]
    split
    · exact ⟨_, _, _, _, _, rfl, fun _ => rfl, fun _ => rfl⟩
    · exact ⟨_, _, _, _, _, rfl, fun _ => rfl, fun _ => rfl⟩
  | _ => exact ⟨_, _, _, _, _, rfl, fun _ => rfl, fun _ => rfl⟩

/-- Runs keep machines well formed. -/
theorem wellFormed_run (h : m.WellFormed) (commands : List Command) :
    (m.run commands).WellFormed := by
  induction commands generalizing m with
  | nil => exact h
  | cons command rest ih => exact ih (h.perform command)

/-- Runs that load no program keep machines sound. -/
theorem Sound.run (h : m.Sound) {commands : List Command}
    (hload : ∀ command ∈ commands, ∀ data, command ≠ .loadRom data) : (m.run commands).Sound := by
  induction commands generalizing m with
  | nil => exact h
  | cons command rest ih =>
    have hfirst := hload command List.mem_cons_self
    exact ih (h.perform fun data heq => absurd heq (hfirst data))
      fun next hnext => hload next (List.mem_cons_of_mem command hnext)

end Machine

end Chip8
