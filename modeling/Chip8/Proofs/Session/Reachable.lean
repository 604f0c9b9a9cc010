import Chip8.Proofs.Machine.Reachable
import Chip8.Proofs.Session.Outcomes
import Chip8.Session.Command

/-!
# Reachable sessions

A session resets its machine before every program, so it never writes a program under a latched key,
and a snapshot is only taken over when it describes a machine. Hence the machine of a session is
sound whatever the host calls, in whatever order, with whatever files and bytes; instructions never
break off in it, and its snapshot is always accepted again. A program is remembered only when it was
started, so there is room for it whenever it is to be started again.

## Main definitions

* `Session.Sound` — the machine is sound and there is room for the remembered program
* `Session.Reachable` — the sessions that a host can reach from a new one
* `Session.Command.Advances` — the calls that execute instructions or count timers

## Main results

* `Session.runUpTo_sound` — running a sound machine ends in a sound machine and answers
* `Session.Sound.perform` — every call keeps a session sound
* `Session.Reachable.valid_and_answers` — reachable machines are described by their images, and
  execution answers
* `Session.Reachable.loadState_saveState` — a saved state is loaded back
-/

namespace Chip8

namespace Session

variable {m : Machine} {s : Session}

/-! ### Execution -/

/-- **Running a sound machine** ends in a sound machine and answers, whatever the count is. -/
theorem runUpTo_sound (h : m.Sound) (count : Nat) :
    (runUpTo m count).1.Sound ∧ ∃ executed, (runUpTo m count).2 = .ok executed := by
  induction count generalizing m with
  | zero => exact ⟨h, 0, rfl⟩
  | succ count ih =>
    obtain ⟨word, hword⟩ := h.toWellFormed.cycle_ok
    have hnext := h.cycle
    rw [runUpTo]
    cases hcycle : m.cycle with
    | mk next answer =>
      rw [hcycle] at hword hnext
      obtain rfl : answer = .ok word := hword
      cases word with
      | none => exact ⟨hnext, 0, rfl⟩
      | some word =>
        obtain ⟨hlast, executed, hexecuted⟩ := ih hnext
        refine ⟨hlast, executed + 1, ?_⟩
        simp only [hexecuted]
        rfl

/-! ### Sound sessions -/

/-- What holds of a session over whole runs: its machine is sound, and there is room for the program
that it remembers. -/
structure Sound (s : Session) : Prop where
  machine : s.machine.Sound
  rom_fits : ∀ rom, s.rom = some rom → rom.length ≤ romCapacity

theorem sound_ofMachine (h : m.Sound) : (ofMachine m).Sound :=
  ⟨h, nofun⟩

/-- A sound machine may be put into the place of any other one. -/
theorem Sound.withMachine (h : s.Sound) (hm : m.Sound) : Sound { s with machine := m } :=
  ⟨hm, h.rom_fits⟩

theorem Sound.paused (h : s.Sound) : s.paused.Sound := h.withMachine h.machine.pause

theorem Sound.startRom (h : s.Sound) {rom : Bytes} (hfits : rom.length ≤ romCapacity)
    (clock : Int) : (s.startRom rom clock).Sound where
  machine := (h.machine.toWellFormed.reset clock).sound_startRom rfl rom
  rom_fits := by
    rintro _ ⟨⟩
    exact hfits

/-- **A soft reset of a sound session is atomic**: what it finds remembered is safe to start after
the reset. -/
theorem Sound.softReset_atomic (h : s.Sound) (clock : Int) :
    Atomic s (fun next => ∃ rom, s.rom = some rom ∧ rom.length ≤ romCapacity ∧
      next = s.startRom rom clock) (s.softReset clock) := by
  rcases s.softReset_cases clock with ⟨-, hsoft⟩ | ⟨rom, hrom, hfits, hsoft⟩ |
    ⟨rom, hrom, hlarge, -⟩
  · rw [hsoft]
    exact .refused .noRom
  · rw [hsoft]
    exact .answered () ⟨rom, hrom, hfits, rfl⟩
  · exact absurd hlarge (Nat.not_lt.2 (h.rom_fits rom hrom))

/-! ### All commands -/

/-- What the machine does with a call that is no load of a program keeps a session sound. -/
theorem Sound.delegate {h : Host} (hs : h.session.Sound) {command : Machine.Command}
    (hc : ∀ data, command ≠ .loadRom data) : (h.delegate command).1.session.Sound :=
  hs.withMachine (hs.machine.perform fun data hload => absurd hload (hc data))

/-- **Every call keeps a session sound**, whatever its arguments and the files are, and also when it
is refused. -/
theorem Sound.perform {h : Host} (hs : h.session.Sound) (command : Command) :
    (Session.perform h command).1.session.Sound := by
  cases command with
  | loadRom data =>
    refine (h.session.loadRom_atomic data 0).elim hs ?_
    rintro _ ⟨rom, -, hfits, rfl⟩
    exact hs.startRom hfits 0
  | loadRomFile path =>
    refine (h.session.loadRomFile_atomic h.files path 0).elim hs ?_
    rintro _ ⟨rom, -, hfits, rfl⟩
    exact hs.startRom hfits 0
  | softReset =>
    refine (hs.softReset_atomic 0).elim hs ?_
    rintro _ ⟨rom, -, hfits, rfl⟩
    exact hs.startRom hfits 0
  | hardReset => exact ⟨hs.machine.toWellFormed.sound_reset 0, nofun⟩
  | runCycles count => exact hs.withMachine (runUpTo_sound hs.machine count.toNat).1
  | loadState source seed =>
    refine (h.session.loadState_atomic source seed 0).elim hs ?_
    rintro _ ⟨machine, hmachine, rfl⟩
    exact hs.withMachine (Machine.sound_of_deserialize hmachine)
  | saveStateFile path =>
    rw [Session.perform]
    split
    · rename_i session files hsave
      rw [← (Prod.mk.inj hsave).1]
      exact hs.paused
    · rename_i session reason hsave
      show session.Sound
      rw [← (Prod.mk.inj hsave).1]
      exact hs.paused
  | loadStateFile path seed =>
    refine (h.session.loadStateFile_atomic h.files path seed 0).elim hs ?_
    rintro _ ⟨contents, machine, -, hmachine, rfl⟩
    exact hs.withMachine (Machine.sound_of_deserialize hmachine).pause
  | reset | cycle | tick | togglePause | keyDown | keyUp | setBreakpoint | clearBreakpoint
  | takeChanged | debugView | memoryDump | drainDiagnostics | saveState =>
    exact hs.delegate nofun

/-! ### Reachable sessions -/

/-- The sessions that a host can reach. The files may be any at every call, and without a seed the
clock chooses the random numbers. -/
inductive Reachable : Session → Prop where
  | create (dialect : Dialect) (seed : Option Int) : Reachable (ofMachine (.create dialect seed))
  | perform {s : Session} (h : Reachable s) (files : FileTree) (command : Command) :
    Reachable (perform ⟨s, files⟩ command).1.session
  | clock {s : Session} (h : Reachable s) (hs : s.machine.seed = none)
      (random : MersenneTwister) : Reachable { s with machine := s.machine.withRandom random }

/-- Whole runs lead from reachable sessions to reachable ones. -/
theorem Reachable.run {h : Host} (hs : h.session.Reachable) (commands : List Command) :
    (run h commands).session.Reachable := by
  induction commands generalizing h with
  | nil => exact hs
  | cons command rest ih => exact ih (hs.perform h.files command)

/-- **Every reachable session is sound.** -/
theorem Reachable.sound (h : s.Reachable) : s.Sound := by
  induction h with
  | create dialect seed => exact sound_ofMachine (Machine.sound_create dialect seed)
  | perform _ files command ih => exact ih.perform command
  | clock _ _ random ih => exact ih.withMachine (ih.machine.withRandom random)

/-- The calls that execute instructions or count timers. -/
def Command.Advances : Command → Prop
  | .cycle | .runCycles _ | .tick => True
  | _ => False

/-- Calls that execute instructions or count timers are answered by a sound machine. -/
theorem perform_ok {h : Host} (hs : h.session.machine.Sound) {command : Command}
    (hc : command.Advances) : ∃ reply, (perform h command).2 = .ok reply := by
  cases command with
  | cycle =>
    obtain ⟨word, hword⟩ := hs.toWellFormed.cycle_ok
    refine ⟨.machine (.executed word), ?_⟩
    show ((h.session.machine.cycle.2).map Machine.Reply.executed).map Reply.machine = _
    rw [hword]
    rfl
  | runCycles count =>
    obtain ⟨-, executed, hexecuted⟩ := runUpTo_sound hs count.toNat
    refine ⟨.count executed, ?_⟩
    show ((runUpTo h.session.machine count.toNat).2).map Reply.count = _
    rw [hexecuted]
    rfl
  | tick => exact ⟨_, rfl⟩
  | _ => exact hc.elim

/-- A session in the middle of a wait for the release of a key, with a breakpoint, that has just
refused a snapshot. -/
def waiting : Session :=
  (run ⟨ofMachine (.create { keyWaitOnRelease := true } (some 0)), .directory []⟩
    [.loadRom [0xF5, 0x0A], .keyDown 5, .runCycles 3, .setBreakpoint (-1),
      .loadState (.bytes []) none]).session

theorem reachable_waiting : waiting.Reachable := Reachable.run (.create _ _) _

/-- **The invariant of whole runs.** In every reachable session the image of the machine describes a
machine, so all values are in range and a latched key is one that the word at pc waits for; and
whatever was loaded, executing instructions and counting timers answers. -/
theorem Reachable.valid_and_answers (h : s.Reachable) :
    s.machine.image.Valid ∧ ∀ (files : FileTree) (command : Command), command.Advances →
      ∃ reply, (Session.perform ⟨s, files⟩ command).2 = .ok reply :=
  ⟨Machine.valid_image_iff.2 h.sound.machine, fun _ _ hc => perform_ok h.sound.machine hc⟩

theorem valid_and_answers_waiting :
    waiting.Reachable ∧ waiting.machine.core.keypad.latch = some 5 ∧
      waiting.machine.image.Valid ∧ ∀ (files : FileTree) (command : Command), command.Advances →
        ∃ reply, (Session.perform ⟨waiting, files⟩ command).2 = .ok reply :=
  ⟨reachable_waiting, by decide +kernel, reachable_waiting.valid_and_answers⟩

/-- **A saved state is loaded back.** With fewer breakpoints than words every reachable session can
save its state and load it again with every seed. The machine has the same image then, saving gives
the same bytes, and the program stays remembered. -/
theorem Reachable.loadState_saveState (h : s.Reachable)
    (hcount : s.machine.breakpoints.size < 65536) :
    ∃ data, s.saveState = .ok data ∧ ∀ seed, ∃ next,
      s.loadState (.bytes data) seed = (next, .ok ()) ∧
        next.machine.image = s.machine.image ∧ next.saveState = .ok data ∧ next.rom = s.rom := by
  have hsave := h.sound.machine.toWellFormed.serialize hcount
  refine ⟨_, hsave, fun seed => ?_⟩
  obtain ⟨machine, hmachine, hrestores⟩ := h.sound.machine.deserialize hcount seed 0
  refine ⟨{ s with machine }, ?_, hrestores.image, ?_, rfl⟩
  · rw [loadState, hmachine]
  · rw [saveState, Machine.serialize, hrestores.image]
    exact hsave

theorem loadState_saveState_waiting :
    waiting.Reachable ∧ waiting.machine.breakpoints.size < 65536 ∧
      ∃ data, waiting.saveState = .ok data ∧ ∀ seed, ∃ next,
        waiting.loadState (.bytes data) seed = (next, .ok ()) ∧
          next.machine.image = waiting.machine.image ∧ next.saveState = .ok data ∧
            next.rom = waiting.rom :=
  have hcount : waiting.machine.breakpoints.size < 65536 := by decide +kernel
  ⟨reachable_waiting, hcount, reachable_waiting.loadState_saveState hcount⟩

end Session

end Chip8
