import Chip8.Proofs.Session.Reachable

/-!
# Refused calls

A call that is refused leaves what it left when it was refused, so it is the order of checks and
changes that matters. A program is checked before the machine is reset for it, a snapshot is decoded
before its machine is put into the place of the current one, and a file is read before either. The
check that comes too late is the one of a soft reset, behind the reset; there it is the invariant of
sessions that nothing fails it. So a refused call changes nothing: the machine, the program that is
remembered and the files are as they were, and a later soft reset does what it would have done.

Saving to a file is the exception. It pauses the machine first, so that the state that it writes is
that of a paused machine, and the machine stays paused when the state cannot be encoded or written.

## Main definitions

* `Session.Command.MayBeRefused` — the calls that can fail
* `Session.afterRefusal` — what a refused call leaves

## Main results

* `Session.delegate_refused`, `Session.become_refused`, `Session.perform_saveStateFile` — the ways of
  making a call
* `Session.perform_refused` — every call to a sound session
* `Session.softReset_afterRefusal` — a later soft reset
* `Session.Reachable.refused_atomic` — all of it for reachable sessions
-/

namespace Chip8

namespace Session

variable {s : Session} {h : Host} {reason : Error}

/-- The calls that can be refused: programs, snapshots and files may be unfit, a program may be
missing, and a state may have no encoding. -/
def Command.MayBeRefused : Command → Prop
  | .loadRom _ | .loadRomFile _ | .softReset | .saveState | .loadState _ _ | .saveStateFile _
  | .loadStateFile _ _ => True
  | _ => False

/-- The session after a refused call. -/
def afterRefusal (s : Session) : Command → Session
  | .saveStateFile _ => s.paused
  | _ => s

/-! ### The ways of making a call -/

theorem delegate_refused (hs : h.session.machine.Sound) {command : Machine.Command}
    (hrefused : (h.delegate command).2 = .error reason) : (h.delegate command).1 = h := by
  have hmachine : (h.session.machine.perform command).1 = h.session.machine :=
    hs.toWellFormed.perform_refused (Except.map_eq_error.1 hrefused)
  show { h with session := { h.session with machine := (h.session.machine.perform command).1 } } = h
  rw [hmachine]

theorem become_refused {P : Session → Prop} {result : Session × Except Error Unit}
    (hatomic : Atomic h.session P result) (hrefused : (h.become result).2 = .error reason) :
    (h.become result).1 = h := by
  have hsession : result.1 = h.session := hatomic.eq_of_refused (Except.map_eq_error.1 hrefused)
  rw [Host.become, hsession]

/-- Whatever comes of the encoding and the writing, the machine is paused. -/
theorem perform_saveStateFile (h : Host) (path : String) :
    perform h (.saveStateFile path) =
      match (h.session.saveStateFile h.files path).2 with
      | .ok files => (⟨h.session.paused, files⟩, .ok .done)
      | .error reason => (⟨h.session.paused, h.files⟩, .error reason) := by
  have hpaused : (h.session.saveStateFile h.files path).1 = h.session.paused := rfl
  rw [perform]
  cases hsave : h.session.saveStateFile h.files path with
  | mk session answer =>
    rw [hsave] at hpaused
    obtain rfl : session = h.session.paused := hpaused
    cases answer <;> rfl

/-! ### All commands -/

/-- **A refused call leaves the session as it was**, but for the pause before a state is written to a
file. The files are as they were in either case. -/
theorem perform_refused (hs : h.session.Sound) {command : Command}
    (hrefused : (perform h command).2 = .error reason) :
    command.MayBeRefused ∧ (perform h command).1 = ⟨h.session.afterRefusal command, h.files⟩ := by
  have hanswered : ¬ command.Advances := by
    intro hadvances
    obtain ⟨reply, hreply⟩ := perform_ok hs.machine hadvances
    rw [hreply] at hrefused
    cases hrefused
  cases command with
  | loadRom data => exact ⟨trivial, become_refused (h.session.loadRom_atomic data 0) hrefused⟩
  | loadRomFile path =>
    refine ⟨trivial, ?_⟩
    have hsession : (h.session.loadRomFile h.files path).1 = h.session :=
      (h.session.loadRomFile_atomic h.files path 0).eq_of_refused (Except.map_eq_error.1 hrefused)
    show Host.mk (h.session.loadRomFile h.files path).1 h.files = _
    rw [hsession]
    rfl
  | softReset => exact ⟨trivial, become_refused (hs.softReset_atomic 0) hrefused⟩
  | saveState => exact ⟨trivial, delegate_refused hs.machine hrefused⟩
  | loadState source seed =>
    exact ⟨trivial, become_refused (h.session.loadState_atomic source seed 0) hrefused⟩
  | saveStateFile path =>
    refine ⟨trivial, ?_⟩
    rw [perform_saveStateFile] at hrefused ⊢
    cases hwrite : (h.session.saveStateFile h.files path).2 with
    | ok files =>
      rw [hwrite] at hrefused
      cases hrefused
    | error cause => rfl
  | loadStateFile path seed =>
    exact ⟨trivial, become_refused (h.session.loadStateFile_atomic h.files path seed 0) hrefused⟩
  | cycle | runCycles | tick => exact absurd trivial hanswered
  | _ => cases hrefused

/-- **A later soft reset does what it would have done**, since it resets the machine anyway: it gives
the same answer, and unless it is refused itself, the same session. -/
theorem softReset_afterRefusal (s : Session) (command : Command) (clock : Int) :
    ((s.afterRefusal command).softReset clock).2 = (s.softReset clock).2 ∧
      ((s.softReset clock).2 = .ok () →
        ((s.afterRefusal command).softReset clock).1 = (s.softReset clock).1) := by
  cases command with
  | saveStateFile path =>
    have hrom : s.paused.rom = s.rom := rfl
    have hreset : s.paused.machine.reset clock = s.machine.reset clock := rfl
    rw [afterRefusal, softReset, softReset, hrom, hreset]
    cases s.rom with
    | none =>
      refine ⟨rfl, fun hok => ?_⟩
      cases hok
    | some rom => exact ⟨rfl, fun _ => rfl⟩
  | _ => exact ⟨rfl, fun _ => rfl⟩

/-! ### Reachable sessions -/

/-- **Refused calls of a session are atomic.** Whatever a host calls on a session that it can reach,
with whatever files, if the call is refused it is one of those that load, save or start again. The
files are then as they were and so is the session, with every field of its machine and the program
that it remembers; only a state that was to be saved to a file leaves the machine paused. A later
soft reset gives what it would have given without the call, whatever the clock shows then: the same
answer, and the same session if it starts the program again. -/
theorem Reachable.refused_atomic (hs : s.Reachable) (files : FileTree) {command : Command}
    (hrefused : (Session.perform ⟨s, files⟩ command).2 = .error reason) :
    command.MayBeRefused ∧
      (Session.perform ⟨s, files⟩ command).1 = ⟨s.afterRefusal command, files⟩ ∧
      ∀ clock,
        ((Session.perform ⟨s, files⟩ command).1.session.softReset clock).2 =
            (s.softReset clock).2 ∧
          ((s.softReset clock).2 = .ok () →
            ((Session.perform ⟨s, files⟩ command).1.session.softReset clock).1 =
              (s.softReset clock).1) := by
  obtain ⟨hmay, hafter⟩ := perform_refused hs.sound hrefused
  refine ⟨hmay, hafter, ?_⟩
  rw [hafter]
  exact s.softReset_afterRefusal command

/-- A session that was resumed on a breakpoint. -/
def resumed : Session :=
  (run ⟨ofMachine (.create {} (some 0)), .directory []⟩
    [.loadRom [0x00, 0xE0], .setBreakpoint 0x200, .cycle, .togglePause]).session

/-- Its state is to be written to a directory that is not there. -/
def lostSave : Command := .saveStateFile "missing/state"

theorem refused_atomic_resumed :
    resumed.Reachable ∧ resumed.machine.running = true ∧
      resumed.machine.control.skip = some 0x200 ∧
      (perform ⟨resumed, .directory []⟩ lostSave).2 = .error (.file .notFound) ∧
      lostSave.MayBeRefused ∧
      (perform ⟨resumed, .directory []⟩ lostSave).1 = ⟨resumed.afterRefusal lostSave, .directory []⟩ ∧
      resumed.softReset.2 = .ok () ∧
      ∀ clock,
        ((perform ⟨resumed, .directory []⟩ lostSave).1.session.softReset clock).2 =
            (resumed.softReset clock).2 ∧
          ((resumed.softReset clock).2 = .ok () →
            ((perform ⟨resumed, .directory []⟩ lostSave).1.session.softReset clock).1 =
              (resumed.softReset clock).1) := by
  have hreachable : resumed.Reachable := Reachable.run (.create _ _) _
  have hcount : resumed.machine.breakpoints.size < 65536 := by decide +kernel
  have hsave : resumed.paused.saveState =
      .ok (Snapshot.parts resumed.paused.machine.image).flatten :=
    hreachable.sound.paused.machine.toWellFormed.serialize hcount
  have hrefused : (perform ⟨resumed, .directory []⟩ lostSave).2 = .error (.file .notFound) := by
    have hplace : (FileTree.directory []).writePlace "missing/state" = .error .notFound := rfl
    have hanswer : (resumed.saveStateFile (.directory []) "missing/state").2 =
        .error (.file .notFound) := by
      rw [saveStateFile, hsave]
      simp only [FileTree.write, hplace]
      rfl
    rw [lostSave, perform_saveStateFile, hanswer]
  obtain ⟨hmay, hafter, hlater⟩ := hreachable.refused_atomic (.directory []) hrefused
  exact ⟨hreachable, by decide +kernel, by decide +kernel, hrefused, hmay, hafter, rfl, hlater⟩

end Session

end Chip8
