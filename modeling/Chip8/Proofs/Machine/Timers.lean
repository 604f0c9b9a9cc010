import Chip8.Proofs.Core.Frame
import Chip8.Proofs.Machine.Breakpoints

/-!
# Timers over whole runs

A timer goes down by one with each tick, but not below zero, and a tick counts only when the machine
runs. Whether it does hangs on everything before: a breakpoint, a fault of the stack or a host halts
it, and a host sets it going again. So the ticks that count are told from the calls of a run, each
of which is kept with the machine that it found. As long as no instruction sets the timer, its value
is the one at the start less these ticks, and this is also what an instruction reads that asks for
it.

Of the calls of a host only a reset sets a timer, and runs with one are left out.

## Main definitions

* `Timer` — one of the two timers
* `Machine.Call.executed?`, `Machine.Call.sets` — the instruction that a call executes, and whether
  it sets a timer
* `Machine.ticks` — the ticks of running machines among calls

## Main results

* `Core.WellFormed.timer_step` — one step sets a timer or leaves it alone
* `Machine.WellFormed.timer_perform`, `Machine.WellFormed.timer_run` — one call, and whole runs
* `Machine.WellFormed.timer_account` — what the timers show and what instructions read of them
-/

namespace Chip8

/-- One of the two timers. -/
inductive Timer where
  | delay
  | sound
  deriving DecidableEq

namespace Timer

/-- The value of a timer. -/
def value : Timer → Timers → Int
  | .delay, timers => timers.delay
  | .sound, timers => timers.sound

/-- Whether an instruction sets a timer. -/
def isSetBy : Timer → Instruction → Bool
  | .delay, .setDelay _ => true
  | .sound, .setSound _ => true
  | _, _ => false

/-- No timer of a well-formed core is below zero. -/
theorem value_nonneg (t : Timer) {timers : Timers} (h : timers.WellFormed) :
    0 ≤ t.value timers := by
  cases t with
  | delay => exact h.delay.1
  | sound => exact h.sound.1

/-- A tick takes one off a timer, but not below zero. -/
theorem value_tick (t : Timer) {timers : Timers} (h : timers.WellFormed) :
    t.value timers.tick = max 0 (t.value timers - 1) := by
  have hnonneg := t.value_nonneg h
  have htick : t.value timers.tick = Timers.countDown (t.value timers) := by
    cases t with
    | delay => rfl
    | sound => rfl
  rw [htick, Timers.countDown]
  split <;> omega

end Timer

namespace Core

variable {c : Core}

/-- **A step leaves a timer alone** unless its instruction sets it. -/
theorem WellFormed.timer_step (h : c.WellFormed) {t : Timer}
    (hset : t.isSetBy (Instruction.ofWord c.fetch) = false) :
    t.value c.step.core.timers = t.value c.timers := by
  have hframed := h.step_framed rfl
  cases t with
  | delay =>
    refine hframed.delay fun x hx => ?_
    rw [hx] at hset
    cases hset
  | sound =>
    refine hframed.sound fun x hx => ?_
    rw [hx] at hset
    cases hset

/-- The register that is to receive the delay timer does. -/
theorem reg_step_readDelay {x : Register} (hi : Instruction.ofWord c.fetch = .readDelay x) :
    c.step.core.cpu.reg x = c.timers.delay := by
  rw [step_core, hi, counted_cpu]
  show (c.cpu.advance.setReg x c.timers.delay).reg x = c.timers.delay
  rw [Cpu.reg_setReg, if_pos rfl]

end Core

namespace Machine

variable {m : Machine} {t : Timer}

/-! ### What calls execute -/

namespace Call

/-- The instruction that a call executes, if it executes one. -/
def executed? (call : Call) : Option Instruction :=
  match (call.machine.perform call.command).2 with
  | .ok (.executed (some word)) => some (Instruction.ofWord word)
  | _ => none

/-- Whether a call executes an instruction that sets a timer. -/
def sets (t : Timer) (call : Call) : Bool := call.executed?.any t.isSetBy

/-- Whether a call is a tick of a running machine. -/
def countsDown (call : Call) : Bool :=
  match call.command with
  | .tick => call.machine.running
  | _ => false

end Call

/-- The number of ticks of running machines among calls. -/
def ticks (past : List Call) : Nat := past.countP Call.countsDown

theorem Executes.executed? (h : m.Executes) :
    Call.executed? ⟨m, .cycle⟩ = some (Instruction.ofWord m.core.fetch) := by
  have hreply : (m.perform .cycle).2 = m.cycle.2.map .executed := rfl
  rw [Call.executed?, hreply, h.1]
  rfl

/-- A cycle that is said to execute an instruction makes the step of the core. -/
theorem WellFormed.executes_of_executed? (h : m.WellFormed) {i : Instruction}
    (hi : Call.executed? ⟨m, .cycle⟩ = some i) :
    m.Executes ∧ Instruction.ofWord m.core.fetch = i := by
  rcases h.executes_or_rests with hexec | ⟨-, hanswer⟩
  · rw [hexec.executed?] at hi
    exact ⟨hexec, Option.some.inj hi⟩
  · have hreply : (m.perform .cycle).2 = m.cycle.2.map .executed := rfl
    rw [Call.executed?, hreply, hanswer] at hi
    cases hi

/-! ### One call -/

/-- A cycle leaves a timer alone unless it executes an instruction that sets it. -/
theorem WellFormed.timer_cycle (h : m.WellFormed) (hset : Call.sets t ⟨m, .cycle⟩ = false) :
    t.value m.cycle.1.core.timers = t.value m.core.timers := by
  rcases h.executes_or_rests with hexec | ⟨hcore, -⟩
  · rw [Call.sets, hexec.executed?] at hset
    rw [hexec.2]
    exact h.core.timer_step hset
  · rw [hcore]

theorem ticks_of_countsDown {call : Call} (h : call.countsDown = true) : ticks [call] = 1 := by
  rw [ticks, List.countP_singleton, if_pos h]

theorem ticks_of_not_countsDown {call : Call} (h : call.countsDown = false) : ticks [call] = 0 := by
  rw [ticks, List.countP_singleton, if_neg (Bool.eq_false_iff.1 h)]

/-- A tick of a running machine counts, and the others change nothing. -/
theorem WellFormed.timer_tick (h : m.WellFormed) (t : Timer) :
    t.value m.tick.core.timers = max 0 (t.value m.core.timers - ticks [⟨m, .tick⟩]) := by
  cases hrun : m.running with
  | true =>
    have hcontrol : m.control.running = true := hrun
    have hcounts : Call.countsDown ⟨m, .tick⟩ = true := hrun
    rw [ticks_of_countsDown hcounts, tick, if_pos hcontrol]
    exact t.value_tick h.core.timers
  | false =>
    have hnonneg := t.value_nonneg h.core.timers
    have hcounts : Call.countsDown ⟨m, .tick⟩ = false := hrun
    rw [ticks_of_not_countsDown hcounts, tick_of_halted hrun]
    omega

/-- **One call** takes its tick off a timer that it does not set. -/
theorem WellFormed.timer_perform (h : m.WellFormed) {command : Command}
    (hreset : command ≠ .reset) (hset : Call.sets t ⟨m, command⟩ = false) :
    t.value (m.perform command).1.core.timers =
      max 0 (t.value m.core.timers - ticks [⟨m, command⟩]) := by
  by_cases htick : command = .tick
  · subst htick
    exact h.timer_tick t
  · have hnonneg := t.value_nonneg h.core.timers
    have hcounts : Call.countsDown ⟨m, command⟩ = false := by
      unfold Call.countsDown
      split
      · exact absurd ‹command = .tick› htick
      · rfl
    have hkept : t.value (m.perform command).1.core.timers = t.value m.core.timers := by
      by_cases hcycle : command = .cycle
      · subst hcycle
        exact h.timer_cycle hset
      · obtain ⟨_, _, _, _, _, hcore, -, htimers⟩ := m.perform_core hcycle hreset
        rw [hcore, htimers htick]
    rw [hkept, ticks_of_not_countsDown hcounts]
    omega

/-! ### Whole runs -/

/-- **A timer that is not set is the one at the start less the ticks that count.** -/
theorem WellFormed.timer_run (h : m.WellFormed) {commands : List Command}
    (hreset : .reset ∉ commands) (hset : ∀ call ∈ m.calls commands, call.sets t = false) :
    t.value (m.run commands).core.timers =
      max 0 (t.value m.core.timers - ticks (m.calls commands)) := by
  induction commands generalizing m with
  | nil =>
    have hnonneg := t.value_nonneg h.core.timers
    show t.value m.core.timers = max 0 (t.value m.core.timers - (0 : Nat))
    omega
  | cons command rest ih =>
    rw [List.mem_cons, not_or] at hreset
    rw [calls] at hset ⊢
    have hfirst := h.timer_perform (t := t) (Ne.symm hreset.1)
      (hset _ (List.mem_append_right _ List.mem_cons_self))
    have hrest := ih (h.perform command) hreset.2 fun call hcall =>
      hset call (List.mem_append_left _ hcall)
    have hticks : ticks ((m.perform command).1.calls rest ++ [⟨m, command⟩]) =
        ticks ((m.perform command).1.calls rest) + ticks [⟨m, command⟩] := List.countP_append
    show t.value ((m.perform command).1.run rest).core.timers = _
    rw [hrest, hfirst, hticks]
    omega

/-- **The account of the timers.** Over any run of calls without a reset, a timer that no
instruction of the run sets is at the end the one at the start less the ticks made while the machine
was running, or zero if there are more of these; the sound is on exactly when its timer is above
zero; and an instruction of the run that reads the delay timer, when no earlier one has set it,
reads what is left at that point. -/
theorem WellFormed.timer_account (h : m.WellFormed) {commands : List Command}
    (hreset : .reset ∉ commands) :
    (∀ t : Timer, (∀ call ∈ m.calls commands, call.sets t = false) →
        t.value (m.run commands).core.timers =
          max 0 (t.value m.core.timers - ticks (m.calls commands))) ∧
      ((m.run commands).core.timers.soundActive = true ↔
        0 < (m.run commands).core.timers.sound) ∧
      ∀ before after x, commands = before ++ .cycle :: after →
        (∀ call ∈ m.calls before, call.sets .delay = false) →
        Call.executed? ⟨m.run before, .cycle⟩ = some (.readDelay x) →
        ((m.run before).perform .cycle).1.core.cpu.reg x =
          max 0 (m.core.timers.delay - ticks (m.calls before)) := by
  refine ⟨fun t hset => h.timer_run hreset hset, decide_eq_true_iff, ?_⟩
  intro before after x hsplit hset hread
  obtain ⟨hexec, hi⟩ := (wellFormed_run h before).executes_of_executed? hread
  have hbefore : .reset ∉ before := fun hmem =>
    hreset (hsplit ▸ List.mem_append_left _ hmem)
  have hcycle : ((m.run before).perform .cycle).1.core = (m.run before).core.step.core := hexec.2
  rw [hcycle, Core.reg_step_readDelay hi]
  exact h.timer_run hbefore hset

/-- A program that sets both timers to five and then reads the delay timer twice. Behind this is a
return, with nothing to return to. -/
def timedProgram : List Int :=
  [0x60, 0x05, 0xF0, 0x15, 0xF0, 0x18, 0xF1, 0x07, 0xF2, 0x07, 0x00, 0xEE]

/-- The machine behind the first three instructions. -/
def timed : Machine :=
  (create {} (some 0)).run [.loadRom timedProgram, .cycle, .cycle, .cycle]

/-- Two ticks that count, and one between them that finds the machine at a breakpoint. -/
def untilRead : List Command := [.setBreakpoint 0x206, .tick, .cycle, .tick, .resume, .tick]

/-- One more tick that counts; the others find the machine paused, or halted by the return. -/
def afterRead : List Command :=
  [.pause, .tick, .togglePause, .tick, .cycle, .loadRom [0x100], .cycle, .tick]

/-- The whole run, with the first read between the two parts. -/
def timedScript : List Command := untilRead ++ .cycle :: afterRead

theorem timer_account_timed :
    timed.WellFormed ∧ .reset ∉ timedScript ∧
      (∀ t, ∀ call ∈ timed.calls timedScript, call.sets t = false) ∧
      (timed.run timedScript).core.timers.delay = 2 ∧
      (timed.run timedScript).core.timers.soundActive = true ∧
      Call.executed? ⟨timed.run untilRead, .cycle⟩ = some (.readDelay 1) ∧
      ((timed.run untilRead).perform .cycle).1.core.cpu.reg 1 = 3 := by
  have hwell : timed.WellFormed := wellFormed_run (wellFormed_create {} (some 0)) _
  have hreset : .reset ∉ timedScript := by decide
  have hruns : timed.core.timers = ⟨5, 5⟩ ∧
      (∀ call ∈ timed.calls timedScript, call.sets .delay = false ∧ call.sets .sound = false) ∧
      ticks (timed.calls timedScript) = 3 ∧
      (∀ call ∈ timed.calls untilRead, call.sets .delay = false) ∧
      ticks (timed.calls untilRead) = 2 ∧
      Call.executed? ⟨timed.run untilRead, .cycle⟩ = some (.readDelay 1) := by decide +kernel
  obtain ⟨hstart, hsets, hticks, hunset, hearlier, hread⟩ := hruns
  have hset (t : Timer) (call : Call) (hcall : call ∈ timed.calls timedScript) :
      call.sets t = false := by
    cases t with
    | delay => exact (hsets call hcall).1
    | sound => exact (hsets call hcall).2
  obtain ⟨htimer, hactive, hreads⟩ := hwell.timer_account hreset
  have hdelay := htimer .delay (hset .delay)
  have hsound := htimer .sound (hset .sound)
  have hvalue := hreads untilRead afterRead 1 rfl hunset hread
  rw [hstart, hticks] at hdelay hsound
  rw [hstart, hearlier] at hvalue
  have hpositive : 0 < (timed.run timedScript).core.timers.sound :=
    lt_of_lt_of_eq (by decide) hsound.symm
  exact ⟨hwell, hreset, hset, hdelay, hactive.2 hpositive, hread, hvalue⟩

end Machine

end Chip8
