import Chip8.Proofs.Machine.Breakpoints

/-!
# Screen updates

A host keeps a copy of the screen. The copy is dark at first and after each reset, and whenever the
host takes the changed pixels and gets some, these replace it. The flag by which a machine decides
whether it gives pixels is set by the instructions that draw and dropped by resets and takes, while
pixels are also changed without it: a reset clears them, and the copy has to be cleared with them.
So the flag alone says nothing about the copy, and the invariant is about both. The flag tells
whether the program has drawn since the latest reset or take, and while it has not, the copy is the
screen.

The flag is about instructions and not about pixels. A program that erases what it has drawn, or
draws nothing at all, still makes the machine give its pixels.

## Main definitions

* `Machine.drawnSince` — whether one was executed since the latest reset or take
* `Machine.hostCopy` — the copy of the screen that a host keeps

## Main results

* `Machine.ScreenKnown.perform`, `Machine.Trace.screenKnown` — the invariant
* `Machine.Trace.no_lost_update` — when pixels are given, and what the host has when they are not
-/

namespace Chip8

namespace Machine

variable {m : Machine} {past : List Call}

/-! ### What the host knows -/

/-- Whether the call is a cycle that executes an instruction that draws. -/
def Call.draws (call : Call) : Bool :=
  match call.command, call.machine.cycle.2 with
  | .cycle, .ok (some word) => (Instruction.ofWord word).draws
  | _, _ => false

/-- The calls after which the host has the screen: resets, and takes of the changed pixels. -/
def Command.settlesScreen : Command → Bool
  | .reset | .takeChanged => true
  | _ => false

/-- Whether an instruction that draws was executed since the latest reset or take. -/
def drawnSince (past : List Call) : Bool :=
  (past.takeWhile fun call => !call.command.settlesScreen).any Call.draws

/-- The copy of the screen that a host keeps: dark at first and after each reset, and the pixels of
the latest take that gave some. -/
def hostCopy : List Call → Pixels
  | [] => Vector.replicate pixelCount 0
  | call :: past =>
    match call.command with
    | .reset => Vector.replicate pixelCount 0
    | .takeChanged => call.machine.takeChanged.2.getD (hostCopy past)
    | _ => hostCopy past

theorem drawnSince_cons_of_settles {call : Call} (h : call.command.settlesScreen = true) :
    drawnSince (call :: past) = false := by
  rw [drawnSince, List.takeWhile_cons_of_neg (by simp [h])]
  rfl

theorem drawnSince_cons {call : Call} (h : call.command.settlesScreen = false) :
    drawnSince (call :: past) = (call.draws || drawnSince past) := by
  rw [drawnSince, List.takeWhile_cons_of_pos (by simp [h])]
  rfl

theorem hostCopy_cons {call : Call} (h : call.command.settlesScreen = false) :
    hostCopy (call :: past) = hostCopy past := by
  obtain ⟨m, command⟩ := call
  cases command with
  | reset => cases h
  | takeChanged => cases h
  | _ => rfl

/-! ### Calls and the screen -/

/-- The changed pixels are the screen, if the flag says that it changed. -/
theorem takeChanged_snd (m : Machine) :
    m.takeChanged.2 =
      if m.core.framebuffer.changed then some m.core.framebuffer.pixels else none := by
  show m.core.framebuffer.takeChanged.2 = _
  rw [Framebuffer.takeChanged]
  split <;> rfl

/-- A take leaves the pixels as they are and the flag off. -/
theorem framebuffer_takeChanged (m : Machine) :
    m.takeChanged.1.core.framebuffer = m.core.framebuffer.clearChanged := by
  show m.core.framebuffer.takeChanged.1 = _
  rw [Framebuffer.takeChanged]
  split
  · rfl
  · rename_i hsame
    rw [Framebuffer.clearChanged, ← Bool.eq_false_iff.2 hsame]

/-- Only cycles, resets and takes touch the screen. -/
theorem framebuffer_perform {command : Command} (hcycle : command ≠ .cycle)
    (hsettles : command.settlesScreen = false) :
    (m.perform command).1.core.framebuffer = m.core.framebuffer := by
  have hreset : command ≠ .reset := by
    rintro rfl
    cases hsettles
  have htake : command ≠ .takeChanged := by
    rintro rfl
    cases hsettles
  obtain ⟨_, _, _, _, _, hcore, hframe, -⟩ := m.perform_core hcycle hreset
  rw [hcore]
  exact hframe htake

theorem Call.draws_of_ne_cycle {command : Command} (h : command ≠ .cycle) :
    Call.draws ⟨m, command⟩ = false := by
  cases command with
  | cycle => exact absurd rfl h
  | _ => rfl

/-- A cycle that executes draws if its instruction does. -/
theorem Executes.draws (h : m.Executes) :
    Call.draws ⟨m, .cycle⟩ = (Instruction.ofWord m.core.fetch).draws := by
  simp only [Call.draws, h.1]

/-! ### The invariant -/

/-- The flag tells whether the program has drawn since the latest reset or take, and if it has not,
the host has the screen. -/
structure ScreenKnown (past : List Call) (m : Machine) : Prop where
  changed : m.core.framebuffer.changed = drawnSince past
  known : drawnSince past = false → hostCopy past = m.core.framebuffer.pixels

/-- A call that does not touch the screen keeps the invariant. -/
theorem ScreenKnown.of_framebuffer_eq (h : ScreenKnown past m) {call : Call} {next : Machine}
    (hsettles : call.command.settlesScreen = false) (hdraws : call.draws = false)
    (hframe : next.core.framebuffer = m.core.framebuffer) : ScreenKnown (call :: past) next := by
  have hdrawn : drawnSince (call :: past) = drawnSince past := by
    rw [drawnSince_cons hsettles, hdraws, Bool.false_or]
  constructor
  · rw [hframe, hdrawn]
    exact h.changed
  · rw [hframe, hdrawn, hostCopy_cons hsettles]
    exact h.known

/-- After a call that draws the flag is on, and nothing is said about the copy. -/
theorem screenKnown_of_changed {call : Call} {next : Machine}
    (hsettles : call.command.settlesScreen = false) (hdraws : call.draws = true)
    (hchanged : next.core.framebuffer.changed = true) : ScreenKnown (call :: past) next := by
  have hdrawn : drawnSince (call :: past) = true := by
    rw [drawnSince_cons hsettles, hdraws, Bool.true_or]
  constructor
  · rw [hchanged, hdrawn]
  · rw [hdrawn]
    nofun

/-- A take brings the copy up to date, whether it gives pixels or not. -/
theorem ScreenKnown.hostCopy_takeChanged (h : ScreenKnown past m) :
    hostCopy (⟨m, .takeChanged⟩ :: past) = m.core.framebuffer.pixels := by
  show m.takeChanged.2.getD (hostCopy past) = _
  rw [takeChanged_snd, h.changed]
  cases hdrawn : drawnSince past with
  | true => rfl
  | false => exact h.known hdrawn

/-- **One call keeps the invariant.** -/
theorem ScreenKnown.perform (h : ScreenKnown past m) (hm : m.WellFormed) (command : Command) :
    ScreenKnown (⟨m, command⟩ :: past) (m.perform command).1 := by
  cases hsettles : command.settlesScreen with
  | true =>
    cases command with
    | reset => exact ⟨rfl, fun _ => rfl⟩
    | takeChanged =>
      have hframe : (m.perform .takeChanged).1.core.framebuffer = m.core.framebuffer.clearChanged :=
        m.framebuffer_takeChanged
      constructor
      · rw [hframe, drawnSince_cons_of_settles hsettles]
        rfl
      · intro _
        rw [hframe]
        exact h.hostCopy_takeChanged
    | _ => cases hsettles
  | false =>
    by_cases hcycle : command = .cycle
    · subst hcycle
      rcases hm.executes_or_rests with hexec | ⟨hcore, hanswer⟩
      · have hcore : (m.perform .cycle).1.core = m.core.step.core := hexec.2
        cases hdraws : (Instruction.ofWord m.core.fetch).draws with
        | true =>
          refine screenKnown_of_changed hsettles (hexec.draws.trans hdraws) ?_
          rw [hcore, Core.step_changed hdraws]
        | false =>
          refine h.of_framebuffer_eq hsettles (hexec.draws.trans hdraws) ?_
          rw [hcore, Core.step_framebuffer hdraws]
      · refine h.of_framebuffer_eq hsettles ?_ (congrArg Core.framebuffer hcore)
        simp only [Call.draws, hanswer]
    · exact h.of_framebuffer_eq hsettles (Call.draws_of_ne_cycle hcycle)
        (framebuffer_perform hcycle hsettles)

/-- **The invariant holds over whole runs.** -/
theorem Trace.screenKnown (h : Trace past m) : ScreenKnown past m := by
  induction h with
  | create dialect seed => exact ⟨rfl, fun _ => rfl⟩
  | perform h command ih => exact ih.perform h.reachable.wellFormed command
  | clock _ _ random ih => exact ⟨ih.changed, ih.known⟩

/-- **No screen update is lost.** Whatever calls led to a machine, a take that gives no pixels means
that the host has the screen. Pixels are given exactly if an instruction that draws was executed
since the latest reset or take, and then they are the screen; so after each take the host has it. -/
theorem Trace.no_lost_update (h : Trace past m) :
    (m.takeChanged.2 = none → hostCopy past = m.core.framebuffer.pixels) ∧
      ((∃ pixels, m.takeChanged.2 = some pixels) ↔ drawnSince past = true) ∧
      hostCopy (⟨m, .takeChanged⟩ :: past) = m.core.framebuffer.pixels := by
  have hknown := h.screenKnown
  have hanswer := m.takeChanged_snd
  rw [hknown.changed] at hanswer
  refine ⟨fun hnone => ?_, ?_, hknown.hostCopy_takeChanged⟩
  · cases hdrawn : drawnSince past with
    | true =>
      rw [hdrawn, hnone] at hanswer
      cases hanswer
    | false => exact hknown.known hdrawn
  · cases hdrawn : drawnSince past with
    | true =>
      rw [hdrawn] at hanswer
      exact ⟨fun _ => rfl, fun _ => ⟨_, hanswer⟩⟩
    | false =>
      rw [hdrawn] at hanswer
      refine ⟨fun ⟨pixels, hsome⟩ => ?_, nofun⟩
      rw [hsome] at hanswer
      cases hanswer

/-- A program that draws a digit and erases it again, over and over. The digit is taken, and the
machine is paused before it is erased. -/
def flickerScript : List Command :=
  [.loadRom [0xA0, 0x50, 0xD0, 0x05, 0x12, 0x02], .cycle, .cycle, .takeChanged, .cycle, .pause]

/-- The machine after the script, and then after some more calls. -/
def flicker (more : List Command) : Machine := (create {} (some 0)).run (flickerScript ++ more)

/-- The calls that led to it. -/
def flickerCalls (more : List Command) : List Call :=
  (create {} (some 0)).calls (flickerScript ++ more)

/-- As long as the machine is paused the host has the digit, and no pixels are given. They are given
after the digit has been erased, when the host still has it. -/
theorem no_lost_update_flicker :
    Trace (flickerCalls []) (flicker []) ∧ (flicker []).takeChanged.2 = none ∧
      hostCopy (flickerCalls []) = (flicker []).core.framebuffer.pixels ∧
      (hostCopy (flickerCalls [])).get 0 = 1 ∧
      drawnSince (flickerCalls [.resume, .cycle]) = true ∧
      (flicker [.resume, .cycle]).core.framebuffer.pixels.get 0 = 0 ∧
      ∃ pixels, (flicker [.resume, .cycle]).takeChanged.2 = some pixels := by
  have htrace (more : List Command) : Trace (flickerCalls more) (flicker more) :=
    .run_create _ _ _
  have hnone : (flicker []).takeChanged.2 = none := by decide +kernel
  have hdrawn : drawnSince (flickerCalls [.resume, .cycle]) = true := by decide +kernel
  exact ⟨htrace [], hnone, (htrace []).no_lost_update.1 hnone, by decide +kernel, hdrawn,
    by decide +kernel, (htrace [.resume, .cycle]).no_lost_update.2.1.2 hdrawn⟩

end Machine

end Chip8
