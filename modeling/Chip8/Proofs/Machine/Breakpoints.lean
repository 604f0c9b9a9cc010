import Chip8.Proofs.Machine.Reachable

/-!
# Breakpoints over whole runs

At a breakpoint a running machine stops before the instruction, unless it was resumed right there.
The control keeps this in a skip, an address that the next look passes. The skip cannot be seen from
outside, so here it is told from the calls that led to the machine: among the calls that move the
control on only the latest one counts, and it must have been a resume at a breakpoint. All the others
drop the skip, and the calls in between neither touch it nor move pc.

A load that is refused is no call in this sense. It changes nothing, so it does not drop a skip
either.

## Main definitions

* `Machine.Call`, `Machine.Trace` — the calls that led to a machine, the latest first
* `Machine.passesOnce` — whether the calls end in a resume at a breakpoint
* `Machine.Executes` — a cycle executes the instruction at pc

## Main results

* `Machine.SkipMatches.perform`, `Machine.Trace.skipMatches` — the skip is told by the calls
* `Machine.Trace.cycle_at_breakpoint` — when a cycle at a breakpoint executes, and what it does
  otherwise
* `Machine.refusedLoad_executes` — a refused load does not count
-/

namespace Chip8

/-! ### Looks and resumptions -/

namespace Control

variable {c : Control} {pc : Int}

/-- A look leaves no skip. -/
theorem skip_shouldBreak (c : Control) (pc : Int) : (c.shouldBreak pc).1.skip = none := by
  unfold shouldBreak
  split
  · rfl
  · split <;> rfl

theorem shouldBreak_of_skip (h : c.skip = some pc) :
    c.shouldBreak pc = ({ c with skip := none }, false) := if_pos h

theorem shouldBreak_of_mem (hskip : c.skip = none) (hpc : pc ∈ c.breakpoints) :
    c.shouldBreak pc = ({ c with running := false }, true) := by
  obtain ⟨running, breakpoints, skip⟩ := c
  obtain rfl : skip = none := hskip
  rw [shouldBreak, if_neg nofun, if_pos hpc]

theorem shouldBreak_of_not_mem (hpc : pc ∉ c.breakpoints) :
    c.shouldBreak pc = ({ c with skip := none }, false) := by
  unfold shouldBreak
  split
  · rfl
  · rfl

theorem skip_resume_of_mem (h : pc ∈ c.breakpoints) : (c.resume (some pc)).skip = some pc := by
  simp only [resume, Option.filter_some, h, decide_true, if_true]

theorem skip_resume_of_not_mem (h : pc ∉ c.breakpoints) : (c.resume (some pc)).skip = none := by
  simp only [resume, Option.filter_some, h, decide_false, Bool.false_eq_true, if_false]

end Control

namespace Machine

variable {m : Machine}

/-! ### Calls -/

/-- The calls that set the running flag or look at it to execute an instruction. -/
def Command.movesControl : Command → Bool
  | .cycle | .reset | .loadRom _ | .pause | .resume | .togglePause | .hardStop => true
  | _ => false

/-- A call of a host, with the machine on which it was made. -/
structure Call where
  machine : Machine
  command : Command

namespace Call

/-- Whether the call moves the control on. A call that is refused does not. -/
def counts (call : Call) : Bool :=
  call.command.movesControl && (call.machine.perform call.command).2.isOk

/-- Whether the call resumes the machine at a breakpoint. -/
def armsSkip (call : Call) : Bool :=
  decide (call.machine.core.cpu.pc ∈ call.machine.breakpoints) &&
    match call.command with
    | .resume => true
    | .togglePause => !call.machine.running
    | _ => false

end Call

/-- Whether the latest of the calls that count was a resume at a breakpoint. -/
def passesOnce (past : List Call) : Bool := (past.find? Call.counts).any Call.armsSkip

/-- The calls that led to a machine from a new one, the latest first. Without a seed the clock
chooses the random numbers, at any time. -/
inductive Trace : List Call → Machine → Prop where
  | create (dialect : Dialect) (seed : Option Int) : Trace [] (create dialect seed)
  | perform {past : List Call} {m : Machine} (h : Trace past m) (command : Command) :
    Trace (⟨m, command⟩ :: past) (m.perform command).1
  | clock {past : List Call} {m : Machine} (h : Trace past m) (hs : m.seed = none)
      (random : MersenneTwister) : Trace past (m.withRandom random)

/-- The calls of a run, the latest first. -/
def calls (m : Machine) : List Command → List Call
  | [] => []
  | command :: rest => (m.perform command).1.calls rest ++ [⟨m, command⟩]

variable {past : List Call}

theorem Trace.run (h : Trace past m) (commands : List Command) :
    Trace (m.calls commands ++ past) (m.run commands) := by
  induction commands generalizing past m with
  | nil => exact h
  | cons command rest ih =>
    rw [calls, List.append_assoc]
    exact ih (h.perform command)

/-- The calls of a run of a new machine lead to its end. -/
theorem Trace.run_create (dialect : Dialect) (seed : Option Int) (commands : List Command) :
    Trace ((Machine.create dialect seed).calls commands)
      ((Machine.create dialect seed).run commands) := by
  have htrace := (Trace.create dialect seed).run commands
  rwa [List.append_nil] at htrace

theorem Trace.reachable (h : Trace past m) : m.Reachable := by
  induction h with
  | create dialect seed => exact .create dialect seed
  | perform _ command ih => exact ih.perform command
  | clock _ hs random ih => exact ih.clock hs random

/-! ### What the calls do to the skip -/

/-- The calls between those that move the control on keep the skip, the running flag and pc. -/
theorem perform_of_not_movesControl {command : Command} (h : command.movesControl = false) :
    (m.perform command).1.control.skip = m.control.skip ∧
      (m.perform command).1.running = m.running ∧ (m.perform command).1.core.cpu = m.core.cpu := by
  cases command with
  | cycle | reset | loadRom | pause | resume | togglePause | hardStop => cases h
  | tick =>
    simp only [perform, tick]
    split
    · exact ⟨rfl, rfl, rfl⟩
    · exact ⟨rfl, rfl, rfl⟩
  | keyDown | keyUp | setBreakpoint | clearBreakpoint | clearBreakpoints | takeChanged | debugView
  | memoryDump | drainDiagnostics | serialize => exact ⟨rfl, rfl, rfl⟩

theorem perform_togglePause_of_running (h : m.running = true) :
    (m.perform .togglePause).1 = m.pause := by
  have hrun : m.control.running = true := h
  show m.togglePause.1 = m.pause
  rw [togglePause, if_pos hrun]

theorem perform_togglePause_of_halted (h : m.running = false) :
    (m.perform .togglePause).1 = m.resume := by
  have hhalted : ¬ m.control.running = true := Bool.eq_false_iff.1 h
  show m.togglePause.1 = m.resume
  rw [togglePause, if_neg hhalted]

/-- A cycle uses the skip up; a halted machine has none to use. -/
theorem skip_cycle (h : m.running = false → m.control.skip = none) :
    m.cycle.1.control.skip = none := by
  have hlooked := m.control.skip_shouldBreak m.core.cpu.pc
  rcases m.cycle_inversion with ⟨hrun, hcycle⟩ | ⟨control, -, hlook, hcycle⟩ |
    ⟨control, -, hlook, hcycle⟩
  · rw [hcycle]
    exact h hrun
  · rw [hlook] at hlooked
    rw [hcycle]
    exact hlooked
  · rw [hlook] at hlooked
    rw [hcycle, stepUnder]
    dsimp only
    split
    · rfl
    · exact hlooked

/-! ### The skip as the calls tell it -/

/-- The skip of the machine is what the calls tell: its pc if they end in a resume at a breakpoint,
and then the machine runs, and no skip otherwise. -/
structure SkipMatches (past : List Call) (m : Machine) : Prop where
  armed : passesOnce past = true → m.running = true ∧ m.control.skip = some m.core.cpu.pc
  disarmed : passesOnce past = false → m.control.skip = none

/-- A halted machine has no skip. -/
theorem SkipMatches.of_halted (h : SkipMatches past m) (hm : m.running = false) :
    m.control.skip = none := by
  cases hp : passesOnce past with
  | true =>
    have := (h.armed hp).1
    rw [hm] at this
    cases this
  | false => exact h.disarmed hp

theorem passesOnce_cons_of_counts {call : Call} (h : call.counts = true) :
    passesOnce (call :: past) = call.armsSkip := by
  rw [passesOnce, List.find?_cons_of_pos h]
  rfl

theorem passesOnce_cons_of_not_counts {call : Call} (h : call.counts = false) :
    passesOnce (call :: past) = passesOnce past := by
  rw [passesOnce, List.find?_cons_of_neg (by rw [h]; nofun), passesOnce]

/-- A call that does not count keeps the skip, the running flag and pc. -/
theorem WellFormed.perform_of_not_counts (h : m.WellFormed) {command : Command}
    (hc : Call.counts ⟨m, command⟩ = false) :
    (m.perform command).1.control.skip = m.control.skip ∧
      (m.perform command).1.running = m.running ∧ (m.perform command).1.core.cpu = m.core.cpu := by
  cases hmoves : command.movesControl with
  | false => exact perform_of_not_movesControl hmoves
  | true =>
    have hrefused : (m.perform command).2.isOk = false := by
      rw [Call.counts, hmoves] at hc
      exact hc
    -- of the calls that move the control on a host can only have a load refused
    cases command with
    | loadRom data =>
      rcases m.perform_loadRom_cases data with ⟨rom, -, hload⟩ | ⟨reason, -, hload⟩
      · rw [hload] at hrefused
        cases hrefused
      · rw [hload]
        exact ⟨rfl, rfl, rfl⟩
    | cycle =>
      obtain ⟨word, hword⟩ := h.cycle_ok
      have hreply : (m.perform .cycle).2 = m.cycle.2.map .executed := rfl
      rw [hreply, hword] at hrefused
      cases hrefused
    | reset | pause | resume | hardStop => cases hrefused
    | togglePause => cases hrefused
    | _ => cases hmoves

/-- What resuming does to the skip. -/
theorem skip_resume (m : Machine) :
    m.resume.control.skip = if m.core.cpu.pc ∈ m.breakpoints then some m.core.cpu.pc else none := by
  by_cases hpc : m.core.cpu.pc ∈ m.breakpoints
  · rw [if_pos hpc]
    exact Control.skip_resume_of_mem hpc
  · rw [if_neg hpc]
    exact Control.skip_resume_of_not_mem hpc

/-- A resume leaves the skip that its own call tells. -/
theorem skipMatches_resume {call : Call} (hc : call.counts = true)
    (harms : call.armsSkip = decide (m.core.cpu.pc ∈ m.breakpoints)) :
    SkipMatches (call :: past) m.resume where
  armed hp := by
    rw [passesOnce_cons_of_counts hc, harms] at hp
    rw [skip_resume, if_pos (of_decide_eq_true hp)]
    exact ⟨rfl, rfl⟩
  disarmed hp := by
    rw [passesOnce_cons_of_counts hc, harms] at hp
    rw [skip_resume, if_neg (of_decide_eq_false hp)]

/-- Any other call that counts leaves no skip. -/
theorem skipMatches_of_skip_eq_none {call : Call} {next : Machine} (hc : call.counts = true)
    (harms : call.armsSkip = false) (hskip : next.control.skip = none) :
    SkipMatches (call :: past) next where
  armed hp := by
    rw [passesOnce_cons_of_counts hc, harms] at hp
    cases hp
  disarmed _ := hskip

/-- A command that never resumes arms no skip. -/
theorem Call.armsSkip_eq_false {command : Command} (hresume : command ≠ .resume)
    (htoggle : command = .togglePause → m.running = true) :
    Call.armsSkip ⟨m, command⟩ = false := by
  cases command with
  | resume => exact absurd rfl hresume
  | togglePause => simp [Call.armsSkip, htoggle rfl]
  | _ => exact Bool.and_false _

/-- **One call keeps the account of the skip.** -/
theorem SkipMatches.perform (h : SkipMatches past m) (hm : m.WellFormed) (command : Command) :
    SkipMatches (⟨m, command⟩ :: past) (m.perform command).1 := by
  cases hc : Call.counts ⟨m, command⟩ with
  | false =>
    obtain ⟨hskip, hrun, hcpu⟩ := hm.perform_of_not_counts hc
    constructor
    · intro hp
      rw [passesOnce_cons_of_not_counts hc] at hp
      rw [hskip, hrun, hcpu]
      exact h.armed hp
    · intro hp
      rw [passesOnce_cons_of_not_counts hc] at hp
      rw [hskip]
      exact h.disarmed hp
  | true =>
    cases command with
    | resume => exact skipMatches_resume hc (Bool.and_true _)
    | togglePause =>
      cases hrun : m.running with
      | true =>
        rw [perform_togglePause_of_running hrun]
        exact skipMatches_of_skip_eq_none hc (Call.armsSkip_eq_false nofun fun _ => hrun) rfl
      | false =>
        rw [perform_togglePause_of_halted hrun]
        refine skipMatches_resume hc ?_
        simp [Call.armsSkip, hrun]
    | cycle =>
      exact skipMatches_of_skip_eq_none hc (Call.armsSkip_eq_false nofun nofun)
        (skip_cycle h.of_halted)
    | loadRom data =>
      refine skipMatches_of_skip_eq_none hc (Call.armsSkip_eq_false nofun nofun) ?_
      rcases m.perform_loadRom_cases data with ⟨rom, -, hload⟩ | ⟨reason, -, hload⟩
      · rw [hload]
        rfl
      · rw [Call.counts, hload] at hc
        cases hc
    | reset | pause | hardStop =>
      exact skipMatches_of_skip_eq_none hc (Call.armsSkip_eq_false nofun nofun) rfl
    | _ => cases hc

/-- **The skip of a machine is what the calls of its run tell.** -/
theorem Trace.skipMatches (h : Trace past m) : SkipMatches past m := by
  induction h with
  | create dialect seed => exact ⟨nofun, fun _ => rfl⟩
  | perform h command ih => exact ih.perform h.reachable.wellFormed command
  | clock _ _ random ih => exact ⟨ih.armed, ih.disarmed⟩

/-! ### Cycles at a breakpoint -/

/-- A cycle executes the instruction at pc: it answers with its word, and the core makes a step. -/
def Executes (m : Machine) : Prop :=
  m.cycle.2 = .ok (some m.core.fetch) ∧ m.cycle.1.core = m.core.step.core

/-- **A cycle of a well-formed machine executes, or it leaves the core alone and answers so.** -/
theorem WellFormed.executes_or_rests (h : m.WellFormed) :
    m.Executes ∨ m.cycle.1.core = m.core ∧ m.cycle.2 = .ok none := by
  rcases m.cycle_cases with hrests | ⟨hcore, hanswer⟩
  · exact .inr hrests
  · rw [if_neg h.core.step_outcome_ne_broken, Core.step_word] at hanswer
    exact .inl ⟨hanswer, hcore⟩

/-- The machine with its running flag turned off. -/
def stopped (m : Machine) : Machine := { m with control := { m.control with running := false } }

/-- A running machine executes when the look at the breakpoints lets it go on. -/
theorem WellFormed.executes_of_go (h : m.WellFormed) (hrun : m.control.running = true)
    {control : Control} (hlook : m.control.shouldBreak m.core.cpu.pc = (control, false)) :
    m.Executes := by
  rw [Executes, cycle_of_go hrun hlook, stepUnder]
  dsimp only
  rw [if_neg h.core.step_outcome_ne_broken, Core.step_word]
  exact ⟨rfl, rfl⟩

/-- A running machine whose skip is at pc executes, whatever breakpoints there are. -/
theorem WellFormed.executes_of_skip (h : m.WellFormed) (hrun : m.control.running = true)
    (hskip : m.control.skip = some m.core.cpu.pc) : m.Executes :=
  h.executes_of_go hrun (Control.shouldBreak_of_skip hskip)

/-- A running machine without a breakpoint at pc executes. -/
theorem WellFormed.executes_of_not_mem (h : m.WellFormed) (hrun : m.control.running = true)
    (hpc : m.core.cpu.pc ∉ m.control.breakpoints) : m.Executes :=
  h.executes_of_go hrun (Control.shouldBreak_of_not_mem hpc)

/-- A machine without a skip stops at a breakpoint, and nothing else happens. -/
theorem cycle_of_breakpoint (hrun : m.control.running = true) (hskip : m.control.skip = none)
    (hpc : m.core.cpu.pc ∈ m.control.breakpoints) : m.cycle = (m.stopped, .ok none) :=
  cycle_of_stop hrun (Control.shouldBreak_of_mem hskip hpc)

/-- **When a cycle at a breakpoint executes.** Whatever calls led to a running machine with a
breakpoint at pc, the next cycle executes the instruction if the latest of them that counts was a
resume at a breakpoint, and only then. Otherwise it executes nothing and answers so, and the machine
is the same but that it does not run any more. -/
theorem Trace.cycle_at_breakpoint (h : Trace past m) (hrun : m.running = true)
    (hpc : m.core.cpu.pc ∈ m.breakpoints) :
    (m.Executes ↔ passesOnce past = true) ∧
      (passesOnce past = false → m.cycle = (m.stopped, .ok none)) := by
  have hmatch := h.skipMatches
  cases hp : passesOnce past with
  | true =>
    have hexec := h.reachable.wellFormed.executes_of_skip hrun (hmatch.armed hp).2
    exact ⟨⟨fun _ => rfl, fun _ => hexec⟩, nofun⟩
  | false =>
    have hstop := cycle_of_breakpoint hrun (hmatch.disarmed hp) hpc
    refine ⟨⟨fun hexec => ?_, nofun⟩, fun _ => hstop⟩
    have hanswer := hexec.1
    rw [hstop] at hanswer
    cases hanswer

/-- A run that stops at a breakpoint, and is resumed there in the middle of other calls. -/
def resumedScript : List Command :=
  [.loadRom [0x00, 0xE0], .setBreakpoint 0x10200, .cycle, .togglePause, .tick, .clearBreakpoint 0x300]

/-- The machine after it. -/
def resumed : Machine := (create {} (some 0)).run resumedScript

theorem cycle_at_breakpoint_resumed :
    Trace ((create {} (some 0)).calls resumedScript) resumed ∧ resumed.running = true ∧
      resumed.core.cpu.pc ∈ resumed.breakpoints ∧
      passesOnce ((create {} (some 0)).calls resumedScript) = true ∧ resumed.Executes := by
  have htrace : Trace ((create {} (some 0)).calls resumedScript) resumed := .run_create _ _ _
  have hrun : resumed.running = true := by decide +kernel
  have hpc : resumed.core.cpu.pc ∈ resumed.breakpoints := by decide +kernel
  have hpasses : passesOnce ((create {} (some 0)).calls resumedScript) = true := by decide +kernel
  exact ⟨htrace, hrun, hpc, hpasses, (htrace.cycle_at_breakpoint hrun hpc).1.2 hpasses⟩

/-- A program that does not fit is loaded between the resume and the cycle. -/
def refusedScript : List Command :=
  [.loadRom [0x00, 0xE0], .setBreakpoint 0x200, .resume, .loadRom (List.replicate 3585 0)]

/-- The machine after it. -/
def refusedLoad : Machine := (create {} (some 0)).run refusedScript

/-- **A refused load does not count.** If it did, the next cycle would stop at the breakpoint, since
the load is the latest call that moves the control on; but the cycle executes. -/
theorem refusedLoad_executes :
    Trace ((create {} (some 0)).calls refusedScript) refusedLoad ∧ refusedLoad.running = true ∧
      refusedLoad.core.cpu.pc ∈ refusedLoad.breakpoints ∧
      ¬ (refusedLoad.Executes ↔ (((create {} (some 0)).calls refusedScript).find?
        fun call => call.command.movesControl).any Call.armsSkip = true) := by
  have htrace : Trace ((create {} (some 0)).calls refusedScript) refusedLoad := .run_create _ _ _
  have hrun : refusedLoad.running = true := by decide +kernel
  have hpc : refusedLoad.core.cpu.pc ∈ refusedLoad.breakpoints := by decide +kernel
  have hskip : refusedLoad.control.skip = some refusedLoad.core.cpu.pc := by decide +kernel
  have hcounted : (((create {} (some 0)).calls refusedScript).find?
      fun call => call.command.movesControl).any Call.armsSkip = false := by decide +kernel
  refine ⟨htrace, hrun, hpc, fun hiff => ?_⟩
  have := hiff.1 (htrace.reachable.wellFormed.executes_of_skip hrun hskip)
  rw [hcounted] at this
  cases this

end Machine

end Chip8
