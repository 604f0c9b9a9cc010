import Chip8.Core

/-!
# One step of a core

A step is an execution between two moves of its own: pc goes behind the instruction before, and the
cycle and what went wrong are counted afterwards. The equations here take a step apart in this way,
so that what is proved of `Core.execute`, instruction by instruction, is soon said of `Core.step`.

## Main definitions

* `Instruction.draws` — the instructions that change the screen
* `Core.advanced` — the core that an instruction finds
* `Core.counted` — the core of a step, from the one that the instruction leaves

## Main results

* `Core.step_core`, `Core.step_outcome` — a step in terms of the execution
* `Core.execute_fst` — what instructions may change
* `Core.execute_keypad` — only a wait for a key changes the keypad
* `Core.execute_framebuffer`, `Core.execute_changed` — which instructions touch the screen
-/

namespace Chip8

/-- Whether an instruction clears the screen or draws a sprite. -/
def Instruction.draws : Instruction → Bool
  | .clear | .draw _ _ _ => true
  | _ => false

namespace Core

variable {c : Core}

/-- The core in which the instruction of a step is executed: pc is already behind it. -/
def advanced (c : Core) : Core := { c with cpu := c.cpu.advance }

/-- The core after a step whose instruction left `next`: an instruction that did not break off
counts as a cycle, and what it did wrong is recorded with the place where it stood. -/
def counted (c next : Core) : Outcome → Core
  | .done => { next with cycles := next.cycles + 1 }
  | .event kind =>
    { next with
      cycles := next.cycles + 1
      diagnostics := pushDiagnostic next.diagnostics ⟨kind, c.cpu.pc, c.fetch⟩ }
  | .broken => next

/-! ### Steps as executions -/

theorem step_eq (c : Core) :
    c.step =
      let (next, outcome) := c.advanced.execute (Instruction.ofWord c.fetch)
      ⟨c.counted next outcome, c.fetch, outcome⟩ := by
  unfold step advanced
  dsimp only
  generalize execute _ _ = result
  obtain ⟨next, outcome⟩ := result
  cases outcome <;> rfl

theorem step_core (c : Core) :
    c.step.core =
      c.counted (c.advanced.execute (Instruction.ofWord c.fetch)).1
        (c.advanced.execute (Instruction.ofWord c.fetch)).2 := by
  rw [step_eq]

theorem step_outcome (c : Core) :
    c.step.outcome = (c.advanced.execute (Instruction.ofWord c.fetch)).2 := by
  rw [step_eq]

theorem step_word (c : Core) : c.step.word = c.fetch := by rw [step_eq]

/-! ### What the counting leaves alone -/

section counted

variable (c next : Core) (outcome : Outcome)

@[simp] theorem counted_dialect : (c.counted next outcome).dialect = next.dialect := by
  cases outcome <;> rfl

@[simp] theorem counted_cpu : (c.counted next outcome).cpu = next.cpu := by
  cases outcome <;> rfl

@[simp] theorem counted_memory : (c.counted next outcome).memory = next.memory := by
  cases outcome <;> rfl

@[simp] theorem counted_framebuffer :
    (c.counted next outcome).framebuffer = next.framebuffer := by
  cases outcome <;> rfl

@[simp] theorem counted_keypad : (c.counted next outcome).keypad = next.keypad := by
  cases outcome <;> rfl

theorem counted_cycles (h : outcome ≠ .broken) :
    (c.counted next outcome).cycles = next.cycles + 1 := by
  cases outcome with
  | done => rfl
  | event kind => rfl
  | broken => exact absurd rfl h

end counted

/-! ### What instructions leave alone -/

theorem awaitKey_fst (c : Core) (x : Register) :
    ∃ keypad cpu, (c.awaitKey x).1 = { c with keypad, cpu } := by
  unfold awaitKey
  split
  · exact ⟨_, _, rfl⟩
  · exact ⟨_, _, rfl⟩
  · exact ⟨c.keypad, c.cpu, rfl⟩

theorem callAt_fst (c : Core) (target : Int) :
    ∃ cpu, (c.callAt target).1 = { c with cpu } := by
  unfold callAt
  split
  · exact ⟨_, rfl⟩
  · exact ⟨c.cpu, rfl⟩
  · exact ⟨_, rfl⟩

theorem returnBack_fst (c : Core) : ∃ cpu, c.returnBack.1 = { c with cpu } := by
  unfold returnBack
  split <;> exact ⟨_, rfl⟩

theorem skip_fst (c : Core) (test : SkipTest) :
    ∃ cpu, (c.execute (.skip test)).1 = { c with cpu } := by
  simp only [execute]
  split
  · exact ⟨_, rfl⟩
  · exact ⟨c.cpu, rfl⟩

/-- **What instructions may change**: not the dialect, nor the events and the steps counted so far. -/
theorem execute_fst (c : Core) (i : Instruction) :
    ∃ cpu memory framebuffer keypad timers random,
      (c.execute i).1 = { c with cpu, memory, framebuffer, keypad, timers, random } := by
  cases i with
  | call address =>
    obtain ⟨cpu, h⟩ := c.callAt_fst address.toNat
    exact ⟨cpu, _, _, _, _, _, h⟩
  | ret =>
    obtain ⟨cpu, h⟩ := c.returnBack_fst
    exact ⟨cpu, _, _, _, _, _, h⟩
  | skip test =>
    obtain ⟨cpu, h⟩ := c.skip_fst test
    exact ⟨cpu, _, _, _, _, _, h⟩
  | waitKey x =>
    obtain ⟨keypad, cpu, h⟩ := c.awaitKey_fst x
    exact ⟨cpu, _, _, keypad, _, _, h⟩
  | _ => exact ⟨_, _, _, _, _, _, rfl⟩

/-- No instruction changes the dialect. -/
theorem execute_dialect (c : Core) (i : Instruction) : (c.execute i).1.dialect = c.dialect := by
  obtain ⟨_, _, _, _, _, _, h⟩ := c.execute_fst i
  rw [h]

theorem step_dialect (c : Core) : c.step.core.dialect = c.dialect := by
  rw [step_core, counted_dialect, execute_dialect]
  rfl

/-- No instruction counts the step that executes it. -/
theorem execute_cycles (c : Core) (i : Instruction) : (c.execute i).1.cycles = c.cycles := by
  obtain ⟨_, _, _, _, _, _, h⟩ := c.execute_fst i
  rw [h]

/-- Only a wait for a key changes the keypad. -/
theorem execute_keypad (c : Core) {i : Instruction} (hi : ∀ x, i ≠ .waitKey x) :
    (c.execute i).1.keypad = c.keypad := by
  cases i with
  | call address =>
    obtain ⟨cpu, h⟩ := c.callAt_fst address.toNat
    exact (congrArg keypad h :)
  | ret =>
    obtain ⟨cpu, h⟩ := c.returnBack_fst
    exact (congrArg keypad h :)
  | skip test =>
    obtain ⟨cpu, h⟩ := c.skip_fst test
    exact (congrArg keypad h :)
  | waitKey x => exact absurd rfl (hi x)
  | _ => rfl

/-! ### Instructions and the screen -/

/-- Only the instructions that draw touch the screen. -/
theorem execute_framebuffer (c : Core) {i : Instruction} (hi : i.draws = false) :
    (c.execute i).1.framebuffer = c.framebuffer := by
  cases i with
  | clear => cases hi
  | draw => cases hi
  | call address =>
    obtain ⟨cpu, h⟩ := c.callAt_fst address.toNat
    exact (congrArg framebuffer h :)
  | ret =>
    obtain ⟨cpu, h⟩ := c.returnBack_fst
    exact (congrArg framebuffer h :)
  | skip test =>
    obtain ⟨cpu, h⟩ := c.skip_fst test
    exact (congrArg framebuffer h :)
  | waitKey x =>
    obtain ⟨keypad, cpu, h⟩ := c.awaitKey_fst x
    exact (congrArg framebuffer h :)
  | _ => rfl

/-- Each of them marks the screen as changed, whatever it does to the pixels. -/
theorem execute_changed (c : Core) {i : Instruction} (hi : i.draws = true) :
    (c.execute i).1.framebuffer.changed = true := by
  cases i with
  | clear => rfl
  | draw => rfl
  | _ => cases hi

theorem step_framebuffer (hi : (Instruction.ofWord c.fetch).draws = false) :
    c.step.core.framebuffer = c.framebuffer := by
  rw [step_core, counted_framebuffer, execute_framebuffer _ hi]
  rfl

theorem step_changed (hi : (Instruction.ofWord c.fetch).draws = true) :
    c.step.core.framebuffer.changed = true := by
  rw [step_core, counted_framebuffer, execute_changed _ hi]

end Core

end Chip8
