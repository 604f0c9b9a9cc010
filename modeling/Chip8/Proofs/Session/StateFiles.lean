import Chip8.Proofs.FileTree
import Chip8.Proofs.Session.LastProgram

/-!
# State files

A state is saved to a file and loaded back after anything else was done. The state that is written
is that of the paused machine, and all that it takes to get it back is the file: the session that
loads it need not have anything in common with the one that saved it, but that the file was not
written in between. Of all calls only a save writes files, and it writes the place that its path
leads to, so another path may be the same file and the same path may lead elsewhere in another tree.

A load brings a machine and no program, whether it succeeds or not.

## Main definitions

* `Session.Command.Writes` — the calls that write the file of a path
* `Session.Later` — hosts that come after another one, while the file of a path is not written

## Main results

* `Session.read_perform`, `Session.Later.read` — the file stays as it is
* `Session.perform_saveStateFile_of_writable` — what a save leaves
* `Session.loadStateFile_of_read` — what a load of such a file gives
* `Session.Reachable.loadStateFile_saveStateFile` — a state that was saved to a file is loaded back
-/

namespace Chip8

namespace Machine

variable {m : Machine}

/-- The image of a halted machine is that of the paused one. -/
theorem image_pause (h : m.running = false) : m.pause.image = m.image := by
  have hrun : m.control.running = false := h
  simp only [image, pause, Control.halt, hrun]

end Machine

namespace Session

variable {s : Session} {h later : Host} {files : FileTree} {path : String} {place : List String}
  {data : Bytes}

/-! ### The calls in between -/

/-- Whether a call writes the file of a path: it saves a state to a path that leads to the same
place. -/
def Command.Writes (files : FileTree) (path : String) : Command → Prop
  | .saveStateFile other =>
    ∃ place, files.resolve path = .ok place ∧ files.writePlace other = .ok place
  | _ => False

/-- A host that comes after another one, while no call writes the file of a path. In between the
clock may choose other random numbers, if there is no seed, and other programs may change other
files. -/
inductive Later (path : String) (h : Host) : Host → Prop where
  | refl : Later path h h
  | perform {w : Host} (hw : Later path h w) (command : Command)
      (hkeeps : ¬ command.Writes w.files path) : Later path h (perform w command).1
  | clock {w : Host} (hw : Later path h w) (hs : w.session.machine.seed = none)
      (random : MersenneTwister) :
    Later path h ⟨{ w.session with machine := w.session.machine.withRandom random }, w.files⟩
  | otherFiles {w : Host} (hw : Later path h w) (files : FileTree)
      (hkeeps : files.read path = w.files.read path) : Later path h ⟨w.session, files⟩

/-- Only a save to a file touches the files. -/
theorem files_perform {command : Command} (hsave : ∀ other, command ≠ .saveStateFile other) :
    (perform h command).1.files = h.files := by
  cases command with
  | saveStateFile other => exact absurd rfl (hsave other)
  | _ => rfl

/-- **A call that does not write the file of a path leaves it as it is.** -/
theorem read_perform {command : Command} (hread : h.files.read path = .ok data)
    (hkeeps : ¬ command.Writes h.files path) :
    (perform h command).1.files.read path = .ok data := by
  by_cases hsave : ∃ other, command = .saveStateFile other
  · obtain ⟨other, rfl⟩ := hsave
    rw [perform_saveStateFile]
    split
    · rename_i written hwritten
      obtain ⟨state, -, hwrite⟩ := Except.bind_eq_ok.1 hwritten
      refine FileTree.read_write_of_ne hread (Except.mapError_eq_ok.1 hwrite) ?_
      exact fun place hplace hother => hkeeps ⟨place, hplace, hother⟩
    · exact hread
  · rw [files_perform (not_exists.1 hsave)]
    exact hread

/-- **The file stays as it is over whole runs.** -/
theorem Later.read (hlater : Later path h later) (hread : h.files.read path = .ok data) :
    later.files.read path = .ok data := by
  induction hlater with
  | refl => exact hread
  | perform _ command hkeeps ih => exact read_perform ih hkeeps
  | clock _ _ random ih => exact ih
  | otherFiles _ files hkeeps ih => exact hkeeps.trans ih

/-- A run without saves to files writes none. -/
theorem Later.run {w : Host} (hw : Later path h w) {commands : List Command}
    (hsave : ∀ command ∈ commands, ∀ other, command ≠ .saveStateFile other) :
    Later path h (Session.run w commands) := by
  induction commands generalizing w with
  | nil => exact hw
  | cons command rest ih =>
    have hfirst := hsave command List.mem_cons_self
    have hrest : ∀ next ∈ rest, ∀ other, next ≠ .saveStateFile other :=
      fun next hnext => hsave next (List.mem_cons_of_mem command hnext)
    refine ih (hw.perform command ?_) hrest
    cases command with
    | saveStateFile other => exact absurd rfl (hfirst other)
    | _ => exact id

/-! ### Saving and loading -/

/-- **A save to a path that can be written** leaves the machine paused and its state in the file. -/
theorem perform_saveStateFile_of_writable (hs : s.Sound)
    (hcount : s.machine.breakpoints.size < 65536) (hplace : files.writePlace path = .ok place) :
    perform ⟨s, files⟩ (.saveStateFile path) =
      (⟨s.paused, files.put (.file (Snapshot.parts s.paused.machine.image).flatten) place⟩,
        .ok .done) := by
  have hstate : s.paused.saveState = .ok (Snapshot.parts s.paused.machine.image).flatten :=
    hs.paused.machine.toWellFormed.serialize hcount
  have hanswer : (s.saveStateFile files path).2 =
      .ok (files.put (.file (Snapshot.parts s.paused.machine.image).flatten) place) :=
    Except.bind_eq_ok.2 ⟨_, hstate, Except.mapError_eq_ok.2 (FileTree.write_of_writePlace hplace _)⟩
  rw [perform_saveStateFile, hanswer]

/-- **The state of a halted machine in a file is loaded**, whatever the session is and does. -/
theorem loadStateFile_of_read {m : Machine} (hm : m.Sound) (hhalted : m.running = false)
    (hcount : m.breakpoints.size < 65536)
    (hread : files.read path = .ok (Snapshot.parts m.image).flatten) (s : Session)
    (seed : Option Int) :
    ∃ machine, s.loadStateFile files path seed = ({ s with machine }, .ok ()) ∧
      machine.image = m.image ∧ machine.running = false ∧ machine.control.skip = none := by
  obtain ⟨next, hnext, hrestores⟩ := hm.deserialize hcount seed 0
  have himage : next.image = m.image := hrestores.image
  have hrun : next.running = false := (congrArg Image.running himage).trans hhalted
  refine ⟨next.pause, ?_, (Machine.image_pause hrun).trans himage, rfl, rfl⟩
  rw [loadStateFile, hread]
  simp only [hnext]

/-- A load of a state keeps the program, also when it is refused. -/
theorem rom_loadStateFile (h : Host) (path : String) (seed : Option Int) :
    (perform h (.loadStateFile path seed)).1.session.rom = h.session.rom :=
  rom_perform (show Call.replacesRom ⟨h, .loadStateFile path seed⟩ = false from rfl)

/-- **A state that was saved to a file is loaded back.** Every reachable session with fewer
breakpoints than words can save its state to a path that can be written, which leaves the machine
paused. Whatever is done afterwards but to write that file, the state can be loaded with every seed.
The machine then has the image that it had when it was saved, is halted and has no skip. A load of a
state, from any file, never changes the remembered program. -/
theorem Reachable.loadStateFile_saveStateFile (hs : s.Reachable)
    (hcount : s.machine.breakpoints.size < 65536) (hplace : files.writePlace path = .ok place) :
    ((Session.perform ⟨s, files⟩ (.saveStateFile path)).2 = .ok .done ∧
      (Session.perform ⟨s, files⟩ (.saveStateFile path)).1.session = s.paused ∧
      s.paused.machine.running = false) ∧
    (∀ later, Later path (Session.perform ⟨s, files⟩ (.saveStateFile path)).1 later →
      ∀ seed, ∃ machine,
        Session.perform later (.loadStateFile path seed) =
          (⟨{ later.session with machine }, later.files⟩, .ok .done) ∧
        machine.image = s.paused.machine.image ∧ machine.running = false ∧
        machine.control.skip = none) ∧
    ∀ (h : Host) (other : String) (seed : Option Int),
      (Session.perform h (.loadStateFile other seed)).1.session.rom = h.session.rom := by
  have hsave := perform_saveStateFile_of_writable hs.sound hcount hplace
  refine ⟨?_, fun later hlater seed => ?_, rom_loadStateFile⟩
  · rw [hsave]
    exact ⟨rfl, rfl, rfl⟩
  · rw [hsave] at hlater
    have hread := hlater.read (FileTree.read_put hplace _)
    obtain ⟨machine, hload, hmachine⟩ :=
      loadStateFile_of_read hs.sound.paused.machine rfl hcount hread later.session seed
    refine ⟨machine, ?_, hmachine⟩
    rw [Session.perform, hload]
    rfl

/-- A directory for states. -/
def statesTree : FileTree := .directory [("states", .directory [])]

/-- A running session after its state was saved there, and again elsewhere. -/
def savedTwice : Host :=
  run ⟨resumed, statesTree⟩ [.saveStateFile "states/first", .saveStateFile "second"]

/-- The calls before the first state is loaded back: the machine goes on, another program is loaded
and runs, loads are refused, and the session is brought to its end. -/
def interlude : List Command :=
  [.togglePause, .runCycles 2, .loadRom [0x12, 0x00], .cycle, .loadState (.bytes []) none,
    .loadStateFile "third" none, .hardReset]

theorem loadStateFile_saveStateFile_resumed :
    resumed.Reachable ∧ resumed.machine.breakpoints.size < 65536 ∧
      statesTree.writePlace "states/first" = .ok ["states", "first"] ∧
      resumed.machine.running = true ∧
      Later "states/first" (perform ⟨resumed, statesTree⟩ (.saveStateFile "states/first")).1
        (run savedTwice interlude) ∧
      ∃ machine, perform (run savedTwice interlude) (.loadStateFile "states/first" (some 7)) =
          (⟨{ (run savedTwice interlude).session with machine },
            (run savedTwice interlude).files⟩, .ok .done) ∧
        machine.image = resumed.paused.machine.image ∧ machine.running = false ∧
        machine.control.skip = none := by
  have hreachable : resumed.Reachable := Reachable.run (.create _ _) _
  have hcount : resumed.machine.breakpoints.size < 65536 := by decide +kernel
  have hplace : statesTree.writePlace "states/first" = .ok ["states", "first"] := rfl
  have hsave := perform_saveStateFile_of_writable hreachable.sound hcount hplace
  have hother : ¬ Command.Writes
      (perform ⟨resumed, statesTree⟩ (.saveStateFile "states/first")).1.files "states/first"
      (.saveStateFile "second") := by
    rintro ⟨place, hfirst, hsecond⟩
    rw [hsave] at hfirst hsecond
    obtain rfl : ["states", "first"] = place := Except.ok.inj hfirst
    exact absurd (Except.ok.inj hsecond) (by decide)
  have hlater : Later "states/first"
      (perform ⟨resumed, statesTree⟩ (.saveStateFile "states/first")).1
      (run savedTwice interlude) := by
    refine (Later.refl.perform (.saveStateFile "second") hother).run ?_
    simp [interlude]
  exact ⟨hreachable, hcount, hplace, by decide +kernel, hlater,
    (hreachable.loadStateFile_saveStateFile hcount hplace).2.1 _ hlater (some 7)⟩

end Session

end Chip8
