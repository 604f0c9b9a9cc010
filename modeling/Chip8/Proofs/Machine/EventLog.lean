import Chip8.Proofs.Machine.StackFaults
import Chip8.Proofs.Memory

/-!
# The log of recorded events

What a host drains from a machine is told by the calls that it made. Each call that executed an
instruction may have recorded one event, and which one can be read off the machine that the call
found: the word in memory at pc, whatever the program made of it in the meantime, and the stack
pointer. pc is the one of before the instruction, although the instruction has moved it.

The log has these events, of the calls since it was last emptied. It is emptied by a drain and by a
reset, and it begins empty, in a new machine and in one that was read from a snapshot. Only when
there are too many events does it have fewer, and then the oldest ones are missing.

## Main definitions

* `Core.fault?` — the event that the next instruction records
* `Machine.Built`, `Machine.History` — the calls that led to a machine since it was built
* `Machine.Call.event?`, `Machine.eventsSince` — the events of calls

## Main results

* `Core.WellFormed.diagnostics_step` — one step records the event of its word
* `Machine.WellFormed.diagnostics_perform` — one call
* `Machine.History.diagnostics_eq` — whole runs
* `Machine.History.drain_exact` — what a drain gives
-/

namespace Chip8

/-! ### Steps -/

/-- What the next instruction does wrong, with the address that it is fetched from and the word that
stands there, its high byte first. -/
def Core.fault? (c : Core) : Option Diagnostic :=
  let word := UInt16.ofNat (c.memory.bigEndian c.cpu.pc)
  (Word.fault? word c.cpu.sp).map fun kind => ⟨kind, c.cpu.pc, word⟩

theorem Core.fault?_eq (c : Core) :
    c.fault? =
      (c.event? (Instruction.ofWord c.fetch)).map fun kind => ⟨kind, c.cpu.pc, c.fetch⟩ := by
  have hword : UInt16.ofNat (c.memory.bigEndian c.cpu.pc) = c.fetch := Memory.ofNat_bigEndian _ _
  rw [Core.fault?, hword, Core.event?_ofWord]

/-- **A step records the event of its word**, and nothing otherwise. -/
theorem Core.WellFormed.diagnostics_step {c : Core} (h : c.WellFormed) :
    c.step.core.diagnostics = c.fault?.elim c.diagnostics (pushDiagnostic c.diagnostics) := by
  rw [(h.step_framed rfl).diagnostics, Core.eventsAfter, Core.fault?_eq, Option.elim_map]
  rfl

namespace Machine

variable {m : Machine} {past : List Call}

/-! ### Histories -/

/-- The machines that a host builds: new ones, and those that it reads from snapshots. -/
inductive Built : Machine → Prop where
  | create (dialect : Dialect) (seed : Option Int) : Built (create dialect seed)
  | deserialize {source : Snapshot.Source} {seed : Option Int} {m : Machine}
      (h : deserialize source seed = .ok m) : Built m

/-- The calls that led to a machine since it was built, the latest first. Without a seed the clock
chooses the random numbers, at any time. -/
inductive History : List Call → Machine → Prop where
  | built {m : Machine} (h : Built m) : History [] m
  | perform {past : List Call} {m : Machine} (h : History past m) (command : Command) :
    History (⟨m, command⟩ :: past) (m.perform command).1
  | clock {past : List Call} {m : Machine} (h : History past m) (hs : m.seed = none)
      (random : MersenneTwister) : History past (m.withRandom random)

theorem Built.wellFormed (h : Built m) : m.WellFormed := by
  cases h with
  | create dialect seed => exact wellFormed_create dialect seed
  | deserialize h => exact (sound_of_deserialize h).toWellFormed

theorem Built.diagnostics_eq (h : Built m) : m.core.diagnostics = [] := by
  cases h with
  | create dialect seed => rfl
  | deserialize h =>
    obtain ⟨_, -, -, hrestores⟩ := restores_of_deserialize h
    exact hrestores.diagnostics

theorem History.wellFormed (h : History past m) : m.WellFormed := by
  induction h with
  | built h => exact h.wellFormed
  | perform _ command ih => exact ih.perform command
  | clock _ _ random ih => exact ih.withRandom random

/-- What led to a machine from a new one is its history. -/
theorem Trace.history (h : Trace past m) : History past m := by
  induction h with
  | create dialect seed => exact .built (.create dialect seed)
  | perform _ command ih => exact ih.perform command
  | clock _ hs random ih => exact ih.clock hs random

/-! ### The events of calls -/

/-- The calls that empty the log. -/
def Command.emptiesLog : Command → Bool
  | .reset | .drainDiagnostics => true
  | _ => false

/-- The event that a call records: that of the next instruction, if the call executes it. -/
def Call.event? (call : Call) : Option Diagnostic :=
  match (call.machine.perform call.command).2 with
  | .ok (.executed (some _)) => call.machine.core.fault?
  | _ => none

/-- The events of the calls since the log was last emptied, the oldest first. -/
def eventsSince (past : List Call) : List Diagnostic :=
  ((past.takeWhile fun call => !call.command.emptiesLog).filterMap Call.event?).reverse

theorem eventsSince_of_emptiesLog {call : Call} (h : call.command.emptiesLog = true) :
    eventsSince (call :: past) = [] := by
  rw [eventsSince, List.takeWhile_cons_of_neg (by simp [h])]
  rfl

theorem eventsSince_of_keepsLog {call : Call} (h : call.command.emptiesLog = false) :
    eventsSince (call :: past) = eventsSince past ++ call.event?.toList := by
  rw [eventsSince, List.takeWhile_cons_of_pos (by simp [h]), List.filterMap_cons]
  cases call.event? with
  | none => exact (List.append_nil _).symm
  | some event => exact List.reverse_cons

/-! ### Whole runs -/

/-- A cycle that executes records what its instruction does wrong, any other one nothing. -/
theorem WellFormed.diagnostics_cycle (h : m.WellFormed) :
    (m.perform .cycle).1.core.diagnostics =
      (Call.event? ⟨m, .cycle⟩).elim m.core.diagnostics (pushDiagnostic m.core.diagnostics) := by
  have hreply : (m.perform .cycle).2 = m.cycle.2.map .executed := rfl
  have hnext : (m.perform .cycle).1 = m.cycle.1 := rfl
  rw [Call.event?, hreply, hnext]
  rcases h.executes_or_rests with ⟨hanswer, hcore⟩ | ⟨hcore, hanswer⟩
  · rw [hanswer, hcore]
    exact h.core.diagnostics_step
  · rw [hanswer, hcore]
    rfl

/-- **One call** records its event, unless it empties the log. -/
theorem WellFormed.diagnostics_perform (h : m.WellFormed) {command : Command}
    (hkeeps : command.emptiesLog = false) :
    (m.perform command).1.core.diagnostics =
      (Call.event? ⟨m, command⟩).elim m.core.diagnostics (pushDiagnostic m.core.diagnostics) := by
  cases command with
  | reset | drainDiagnostics => cases hkeeps
  | cycle => exact h.diagnostics_cycle
  | loadRom data =>
    rw [Call.event?]
    rcases m.perform_loadRom_cases data with ⟨rom, -, hload⟩ | ⟨reason, -, hload⟩
    · rw [hload]
      rfl
    · rw [hload]
      rfl
  | tick =>
    show m.tick.core.diagnostics = m.core.diagnostics
    rw [tick]
    split
    · rfl
    · rfl
  | togglePause =>
    show m.togglePause.1.core.diagnostics = m.core.diagnostics
    rw [togglePause]
    split
    · rfl
    · rfl
  | serialize =>
    have hreply : (m.perform .serialize).2 = m.serialize.map .bytes := rfl
    rw [Call.event?, hreply]
    cases m.serialize with
    | ok data => rfl
    | error reason => rfl
  | _ => rfl

/-- **The log has the newest of the events since it was last emptied.** -/
theorem History.diagnostics_eq (h : History past m) :
    m.core.diagnostics = newest (eventsSince past) := by
  induction h with
  | built h => exact h.diagnostics_eq
  | clock _ _ random ih => exact ih
  | @perform past m hpast command ih =>
    cases hempties : command.emptiesLog with
    | true =>
      rw [eventsSince_of_emptiesLog hempties]
      cases command with
      | reset | drainDiagnostics => rfl
      | _ => cases hempties
    | false =>
      rw [hpast.wellFormed.diagnostics_perform hempties, eventsSince_of_keepsLog hempties, ih]
      cases Call.event? ⟨m, command⟩ with
      | none => rw [Option.toList_none, List.append_nil, Option.elim_none]
      | some event =>
        rw [Option.toList_some, Option.elim_some, pushDiagnostic_eq_newest,
          newest_newest_append]

/-- **What a drain gives.** Whatever calls a host made since it built a machine, the events that it
drains are in order the last of those of its calls since the latest reset or drain, all of them or
the limit of a hundred, whichever is less. Then the log is empty, and nothing else has changed. -/
theorem History.drain_exact (h : History past m) :
    ∃ log,
      m.perform .drainDiagnostics =
          ({ m with core := { m.core with diagnostics := [] } }, .ok (.diagnostics log)) ∧
        log <:+ eventsSince past ∧ log.length = min 100 (eventsSince past).length :=
  ⟨newest (eventsSince past), by rw [← h.diagnostics_eq]; rfl, List.drop_suffix _ _,
    length_newest _⟩

/-- A run whose program begins with a word that is no instruction, and writes a return over its own
jump. The host drains the log in the middle, and resumes the machine once after the fault. -/
def overwritingScript : List Command :=
  [.loadRom [0x51, 0x21, 0x61, 0xEE, 0xA2, 0x08, 0xF1, 0x55, 0x12, 0x08], .cycle, .drainDiagnostics,
    .cycle, .cycle, .cycle, .cycle, .resume, .cycle]

/-- The machine after it. -/
def overwriting : Machine := (create {} (some 0)).run overwritingScript

theorem drain_exact_overwriting :
    History ((create {} (some 0)).calls overwritingScript) overwriting ∧
      eventsSince ((create {} (some 0)).calls overwritingScript) =
        [⟨.stackUnderflow, 0x208, 0x00EE⟩, ⟨.stackUnderflow, 0x208, 0x00EE⟩] ∧
      overwriting.perform .drainDiagnostics =
        ({ overwriting with core := { overwriting.core with diagnostics := [] } },
          .ok (.diagnostics
            [⟨.stackUnderflow, 0x208, 0x00EE⟩, ⟨.stackUnderflow, 0x208, 0x00EE⟩])) := by
  have hhistory : History ((create {} (some 0)).calls overwritingScript) overwriting :=
    (Trace.run_create _ _ _).history
  have hevents : eventsSince ((create {} (some 0)).calls overwritingScript) =
      [⟨.stackUnderflow, 0x208, 0x00EE⟩, ⟨.stackUnderflow, 0x208, 0x00EE⟩] := by decide +kernel
  obtain ⟨log, hdrain, hsuffix, hlength⟩ := hhistory.drain_exact
  rw [hevents] at hsuffix hlength
  rw [hsuffix.eq_of_length hlength] at hdrain
  exact ⟨hhistory, hevents, hdrain⟩

end Machine

end Chip8
