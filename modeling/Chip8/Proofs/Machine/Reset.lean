import Chip8.Proofs.Machine.BreakpointSets
import Chip8.Proofs.Machine.SteppingOver

/-!
# Resets

A reset brings back everything that a machine began with and keeps its breakpoints. So nothing that
happened before it can be told from what the machine answers afterwards: not the program and its
memory, not random numbers that were drawn, not a latched key, a screen that was not taken, events
that were not read, or a skip. What it begins with is its dialect and its seed, and no call changes
these.

The machine that it is compared with is a new one on which the same breakpoints are set, in whatever
order and with whatever detours.

## Main definitions

* `Machine.ReachableWith` — the machines of a dialect and an explicit seed that a host can reach

## Main results

* `Machine.dialect_seed_perform` — no call changes the dialect or the seed
* `Machine.run_of_edits` — edits of the breakpoints change nothing else
* `Machine.reset_eq_create` — a reset machine is a new one but for its breakpoints
* `Machine.reset_eq_run_of_edits` — a reset machine is a new one with the same breakpoints
* `Machine.ReachableWith.reset_erases_history` — so every run after a reset is that of a new machine
-/

namespace Chip8

namespace Machine

variable {m : Machine} {dialect : Dialect} {seed : Int}

/-! ### Dialect and seed -/

theorem dialect_cycle (m : Machine) : m.cycle.1.core.dialect = m.core.dialect := by
  rcases m.cycle_cases with ⟨hcore, -⟩ | ⟨hcore, -⟩
  · rw [hcore]
  · rw [hcore, Core.step_dialect]

theorem seed_cycle (m : Machine) : m.cycle.1.seed = m.seed := by
  rcases m.cycle_inversion with ⟨-, hcycle⟩ | ⟨control, -, -, hcycle⟩ | ⟨control, -, -, hcycle⟩
  · rw [hcycle]
  · rw [hcycle]
  · rw [hcycle, stepUnder]

/-- **No call changes the dialect or the seed.** -/
theorem dialect_seed_perform (m : Machine) (command : Command) :
    (m.perform command).1.core.dialect = m.core.dialect ∧ (m.perform command).1.seed = m.seed := by
  cases command with
  | cycle => exact ⟨m.dialect_cycle, m.seed_cycle⟩
  | loadRom data =>
    rcases m.perform_loadRom_cases data with ⟨rom, -, hload⟩ | ⟨reason, -, hload⟩
    · rw [hload]
      exact ⟨rfl, rfl⟩
    · rw [hload]
      exact ⟨rfl, rfl⟩
  | tick =>
    simp only [perform, tick]
    split
    · exact ⟨rfl, rfl⟩
    · exact ⟨rfl, rfl⟩
  | togglePause =>
    simp only [perform, togglePause]
    split
    · exact ⟨rfl, rfl⟩
    · exact ⟨rfl, rfl⟩
  | _ => exact ⟨rfl, rfl⟩

/-- The machines of a dialect and an explicit seed that a host can reach, from a new one or from one
that was read from a snapshot. -/
inductive ReachableWith (dialect : Dialect) (seed : Int) : Machine → Prop where
  | create : ReachableWith dialect seed (create dialect (some seed))
  | deserialize {source : Snapshot.Source} {m : Machine}
      (h : deserialize source (some seed) = .ok m) (hd : m.core.dialect = dialect) :
    ReachableWith dialect seed m
  | perform {m : Machine} (h : ReachableWith dialect seed m) (command : Command) :
    ReachableWith dialect seed (m.perform command).1

theorem ReachableWith.run (h : ReachableWith dialect seed m) (commands : List Command) :
    ReachableWith dialect seed (m.run commands) := by
  induction commands generalizing m with
  | nil => exact h
  | cons command rest ih => exact ih (h.perform command)

theorem ReachableWith.wellFormed (h : ReachableWith dialect seed m) : m.WellFormed := by
  induction h with
  | create => exact wellFormed_create dialect (some seed)
  | deserialize h => exact (sound_of_deserialize h).toWellFormed
  | perform _ command ih => exact ih.perform command

/-- What a machine begins with stays what it was made with. -/
theorem ReachableWith.dialect_seed (h : ReachableWith dialect seed m) :
    m.core.dialect = dialect ∧ m.seed = some seed := by
  induction h with
  | create => exact ⟨rfl, rfl⟩
  | deserialize h hd =>
    obtain ⟨_, -, -, hrestores⟩ := restores_of_deserialize h
    exact ⟨hd, hrestores.seed⟩
  | @perform m _ command ih =>
    obtain ⟨hdialect, hseed⟩ := m.dialect_seed_perform command
    exact ⟨hdialect.trans ih.1, hseed.trans ih.2⟩

/-! ### Edits of the breakpoints -/

/-- **Edits of the breakpoints change nothing else.** -/
theorem run_of_edits {edits : List Command} (h : ∀ command ∈ edits, command.EditsBreakpoints) :
    m.run edits = m.withBreakpoints (m.run edits).breakpoints := by
  induction edits generalizing m with
  | nil => rfl
  | cons command rest ih =>
    have hfirst (b : AddressSet) :
        (m.perform command).1.withBreakpoints b = m.withBreakpoints b := by
      have hedits := h command List.mem_cons_self
      cases command with
      | setBreakpoint address => rfl
      | clearBreakpoint address => rfl
      | _ => exact hedits.elim
    have hrest := ih (m := (m.perform command).1) fun next hnext =>
      h next (List.mem_cons_of_mem command hnext)
    rw [hfirst] at hrest
    exact hrest

/-- Every set of addresses is that of a new machine after edits: they are set one by one. -/
theorem breakpoints_run_setAll (dialect : Dialect) (seed : Option Int) (clock : Int)
    {breakpoints : AddressSet} (h : ∀ a ∈ breakpoints, IsWord a) :
    ((create dialect seed clock).run (breakpoints.toList.map .setBreakpoint)).breakpoints =
      breakpoints := by
  have haddress (a : Int) (ha : a ∈ breakpoints) : Control.addressOf a = a :=
    Int.emod_eq_of_lt (h a ha).1 (h a ha).2
  ext a
  rw [mem_breakpoints_setAll]
  constructor
  · rintro (⟨n, hn, rfl⟩ | hnone)
    · rw [haddress n hn]
      exact hn
    · exact absurd hnone (AddressSet.not_mem_empty a)
  · intro ha
    exact .inl ⟨a, ha, (haddress a ha).symm⟩

/-! ### Resets -/

/-- **A reset machine is a new one but for its breakpoints**: the reset of a used part gives what
that of a new part gives. -/
theorem reset_eq_create (m : Machine) (clock : Int) :
    m.reset clock = (create m.core.dialect m.seed clock).withBreakpoints m.breakpoints := by
  have hcore : m.core.reset (m.seed.getD clock) =
      (Core.unset m.core.dialect).reset (m.seed.getD clock) := Core.reset_congr rfl _
  have hcontrol : m.control.halt = { Control.initial.halt with breakpoints := m.breakpoints } := rfl
  rw [reset, create, reset, withBreakpoints, hcore, hcontrol]

/-- What the clock shows does not matter to the reset of a machine with a seed. -/
theorem reset_of_seed (h : m.seed = some seed) (clock clock' : Int) :
    m.reset clock = m.reset clock' := by
  rw [reset, reset, h, Option.getD_some, Option.getD_some]

/-- **A reset machine is a new one on which the same breakpoints are set**, whenever the two resets
take place. -/
theorem reset_eq_run_of_edits {clock clock' : Int} (hseed : m.seed = some seed)
    {edits : List Command} (hedits : ∀ command ∈ edits, command.EditsBreakpoints)
    (hsame : ((create m.core.dialect (some seed) clock').run edits).breakpoints = m.breakpoints) :
    m.reset clock = (create m.core.dialect (some seed) clock').run edits := by
  rw [run_of_edits hedits, hsame, reset_of_seed hseed clock clock', reset_eq_create, hseed]

/-- **A reset erases the history of a machine but for its breakpoints.** Take any machine that a host
can reach with an explicit seed, and a new machine of the same dialect and seed on which breakpoints
were edited until they are those of the first; setting them one by one is such an edit. Then every
run of calls is answered alike by the first machine after a reset and by the new one, call by call,
and they are the same machine after each of them. What the clock shows when the one is reset and the
other is made does not matter. -/
theorem ReachableWith.reset_erases_history (h : ReachableWith dialect seed m) (clock clock' : Int) :
    ((Machine.create dialect (some seed) clock').run
        (m.breakpoints.toList.map .setBreakpoint)).breakpoints = m.breakpoints ∧
      ∀ edits : List Command, (∀ command ∈ edits, command.EditsBreakpoints) →
        ((Machine.create dialect (some seed) clock').run edits).breakpoints = m.breakpoints →
        ∀ commands, (m.reset clock).replies commands =
            ((Machine.create dialect (some seed) clock').run edits).replies commands ∧
          ∀ n, (m.reset clock).run (commands.take n) =
            ((Machine.create dialect (some seed) clock').run edits).run (commands.take n) := by
  refine ⟨breakpoints_run_setAll dialect (some seed) clock' h.wellFormed.breakpoints, ?_⟩
  intro edits hedits hsame commands
  obtain ⟨rfl, hseed⟩ := h.dialect_seed
  rw [reset_eq_run_of_edits hseed hedits hsame]
  exact ⟨rfl, fun _ => rfl⟩

/-- A program whose first word is no instruction, that then clears the screen and waits for a key. A
key is latched, and the machine is resumed on a breakpoint. -/
def usedScript : List Command :=
  [.loadRom [0x00, 0x01, 0x00, 0xE0, 0xF5, 0x0A], .keyDown 5, .cycle, .cycle, .cycle,
    .setBreakpoint 0x204, .resume]

/-- The machine after it. -/
def used : Machine := (create { keyWaitOnRelease := true } (some 7)).run usedScript

/-- Other edits that lead to the same breakpoints. -/
def otherEdits : List Command := [.setBreakpoint (-1), .setBreakpoint 0x10204, .clearBreakpoint 65535]

theorem reset_erases_history_used :
    ReachableWith { keyWaitOnRelease := true } 7 used ∧ used.core.keypad.latch = some 5 ∧
      used.control.skip = some 0x204 ∧ used.core.diagnostics.length = 1 ∧
      used.core.framebuffer.changed = true ∧ used.core.cycles = 3 ∧
      (∀ command ∈ otherEdits, command.EditsBreakpoints) ∧
      ((create { keyWaitOnRelease := true } (some 7) 9).run otherEdits).breakpoints =
        used.breakpoints ∧
      ∀ commands, (used.reset 5).replies commands =
          ((create { keyWaitOnRelease := true } (some 7) 9).run otherEdits).replies commands ∧
        ∀ n, (used.reset 5).run (commands.take n) =
          ((create { keyWaitOnRelease := true } (some 7) 9).run otherEdits).run
            (commands.take n) := by
  have hreachable : ReachableWith { keyWaitOnRelease := true } 7 used :=
    ReachableWith.create.run usedScript
  have hedits : ∀ command ∈ otherEdits, command.EditsBreakpoints := by
    simp [otherEdits, Command.EditsBreakpoints]
  have hsame : ((create { keyWaitOnRelease := true } (some 7) 9).run otherEdits).breakpoints =
      used.breakpoints := by decide +kernel
  exact ⟨hreachable, by decide +kernel, by decide +kernel, by decide +kernel, by decide +kernel,
    by decide +kernel, hedits, hsame,
    (hreachable.reset_erases_history 5 9).2 otherEdits hedits hsame⟩

end Machine

end Chip8
