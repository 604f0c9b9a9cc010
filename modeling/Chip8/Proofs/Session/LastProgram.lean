import Chip8.Proofs.Core.Reset
import Chip8.Proofs.Machine.Reset
import Chip8.Proofs.Session.Atomicity

/-!
# The last program

A soft reset starts the program again that was loaded last. The session remembers the bytes of a
program beside the machine, so whatever the program writes over itself, the bytes stay; a load that
is refused does not replace them, and a snapshot brings another machine and no program. Only a load
that succeeds and a hard reset do.

A soft reset resets the machine before anything looks at the program, so it is safe only because the
program that is remembered fits. It does since it was loaded once: the load checked it, and no other
call puts a program into its place.

Starting again leaves of the machine only what it was made with, its dialect and its seed, and the
breakpoints. Everything else is that of a new machine, and the memory holds the font, the program and
zeros. With an explicit seed this includes the random numbers; without one they are those of what
the clock shows.

## Main definitions

* `Machine.BeginsProgram` — a machine that has just been reset and started on a program
* `Session.Call`, `Session.Trace` — the calls that led to a session, the latest first
* `Session.Call.replacesRom`, `Session.Call.Carries` — the calls that change which program is
  remembered, and the program that a load brings

## Main results

* `Machine.beginsProgram_startRom_reset` — what a reset and a start leave
* `Session.rom_perform`, `Session.Trace.rom_of_latest` — the program is the one that the calls tell
* `Session.Trace.softReset_replays` — a soft reset is a load of that program
-/

namespace Chip8

/-! ### Beginning a program -/

namespace Machine

variable {m : Machine} {rom : Bytes}

/-- A machine runs at the first instruction of a program. Its memory holds the font, the program and
zeros, and everything else is initial, but for the dialect, the seed and the breakpoints, which are
those of another machine. The random numbers are those of the seed, or of what the clock shows. -/
structure BeginsProgram (m : Machine) (rom : Bytes) (clock : Int) (next : Machine) : Prop where
  font : ∀ (i : Nat) (_ : i < Font.rows.length),
    next.core.memory.read (0x050 + i) = UInt8.ofInt Font.rows[i]
  program : ∀ (i : Nat) (_ : i < rom.length), next.core.memory.read (0x200 + i) = rom[i]
  zero : ∀ a : Int, 0 ≤ a ∧ a < memorySize → (a < 0x050 ∨ 0x050 + Font.rows.length ≤ a) →
    (a < 0x200 ∨ 0x200 + rom.length ≤ a) → next.core.memory.read a = 0
  cpu : next.core.cpu = ⟨0x200, 0, Vector.replicate 16 0, Vector.replicate 16 0, 0⟩
  timers : next.core.timers = ⟨0, 0⟩
  keypad : next.core.keypad = ⟨Vector.replicate 16 false, none⟩
  framebuffer : next.core.framebuffer = ⟨Vector.replicate 2048 0, false⟩
  diagnostics : next.core.diagnostics = []
  cycles : next.core.cycles = 0
  control : next.control = ⟨true, m.breakpoints, none⟩
  dialect : next.core.dialect = m.core.dialect
  seed : next.seed = m.seed
  random : next.core.random = .ofSeed (m.seed.getD clock)

/-- **A reset and a start leave of a machine only what it was made with.** -/
theorem beginsProgram_startRom_reset (m : Machine) (clock : Int) (hfits : rom.length ≤ romCapacity) :
    BeginsProgram m rom clock ((m.reset clock).startRom rom) := by
  have hsize : memorySize = 4096 := rfl
  have hfont : Font.rows.length = 80 := rfl
  have hreset : (m.reset clock).core = _ := m.core.reset_eq (m.seed.getD clock)
  have hcontrol : (m.reset clock).control = m.control.halt := rfl
  have hseed : (m.reset clock).seed = m.seed := rfl
  -- from here on it matters only what a reset leaves
  generalize m.reset clock = r at hreset hcontrol hseed ⊢
  have hmemory : r.core.memory = Core.initialMemory := by rw [hreset]
  refine {
    font := fun i hi => ?_
    program := fun i hi => read_startRom _ hfits hi
    zero := fun a ha hout hrom => ?_
    cpu := congrArg Core.cpu hreset
    timers := congrArg Core.timers hreset
    keypad := congrArg Core.keypad hreset
    framebuffer := congrArg Core.framebuffer hreset
    diagnostics := congrArg Core.diagnostics hreset
    cycles := congrArg Core.cycles hreset
    control := ?_
    dialect := ?_
    seed := hseed
    random := ?_ }
  · rw [read_startRom_of_outside _ hfits (by omega) (by omega), hmemory]
    exact Core.read_initialMemory_font hi
  · rw [read_startRom_of_outside _ hfits ha hrom, hmemory]
    exact Core.read_initialMemory_of_outside ha hout
  · show r.control.resume none = _
    rw [hcontrol]
    rfl
  · show r.core.dialect = _
    rw [hreset]
  · show r.core.random = _
    rw [hreset]

end Machine

namespace Session

variable {s : Session} {rom : Bytes}

/-! ### Calls -/

/-- A call of a host, with the session and the files at that time. -/
structure Call where
  host : Host
  command : Command

/-- The calls that led to a session from a new one, the latest first. The session was made with any
machine, the files may be any at every call, and without a seed the clock chooses the random
numbers. -/
inductive Trace : List Call → Session → Prop where
  | create (machine : Machine) : Trace [] (ofMachine machine)
  | perform {past : List Call} {s : Session} (h : Trace past s) (files : FileTree)
      (command : Command) :
    Trace (⟨⟨s, files⟩, command⟩ :: past) (perform ⟨s, files⟩ command).1.session
  | clock {past : List Call} {s : Session} (h : Trace past s) (hs : s.machine.seed = none)
      (random : MersenneTwister) :
    Trace past { s with machine := s.machine.withRandom random }

theorem run_concat (h : Host) (commands : List Command) (command : Command) :
    Session.run h (commands ++ [command]) = (perform (Session.run h commands) command).1 := by
  rw [Session.run, List.foldl_append]
  rfl

/-- The calls of a run, the latest first. -/
def calls (h : Host) : List Command → List Call
  | [] => []
  | command :: rest => calls (perform h command).1 rest ++ [⟨h, command⟩]

variable {past : List Call}

theorem Trace.run {h : Host} (ht : Trace past h.session) (commands : List Command) :
    Trace (calls h commands ++ past) (Session.run h commands).session := by
  induction commands generalizing past h with
  | nil => exact ht
  | cons command rest ih =>
    rw [calls, List.append_assoc]
    exact ih (ht.perform h.files command)

/-- The calls of a run of a new session lead to its end. -/
theorem Trace.run_ofMachine (machine : Machine) (files : FileTree) (commands : List Command) :
    Trace (calls ⟨ofMachine machine, files⟩ commands)
      (Session.run ⟨ofMachine machine, files⟩ commands).session := by
  have htrace := Trace.run (h := ⟨ofMachine machine, files⟩) (.create machine) commands
  rwa [List.append_nil] at htrace

namespace Call

/-- Whether the call changes which program is remembered: it is a hard reset, or a load that
succeeds. -/
def replacesRom (call : Call) : Bool :=
  match call.command with
  | .hardReset => true
  | .loadRom _ | .loadRomFile _ => (perform call.host call.command).2.isOk
  | _ => false

/-- The call is to load the given program, from its bytes or from a file with these contents. -/
def Carries (call : Call) (rom : Bytes) : Prop :=
  match call.command with
  | .loadRom data => Bytes.ofInts data = .ok rom
  | .loadRomFile path => call.host.files.read path = .ok rom
  | _ => False

end Call

/-! ### The remembered program -/

/-- The bytes of a program that fits are loaded. -/
theorem loadRom_of_fits (s : Session) (hfits : rom.length ≤ romCapacity) (clock : Int) :
    s.loadRom (rom.map fun b => (b.toNat : Int)) clock = (s.startRom rom clock, .ok ()) :=
  loadRom_of_accepted (Machine.checkRom_eq_ok_iff.2 ⟨Bytes.ofInts_map_toNat rom, hfits⟩) clock

/-- A load that succeeds remembers the program that it carries, which fits. -/
theorem rom_of_carries {call : Call} (hreplaces : call.replacesRom = true)
    (hcarries : call.Carries rom) :
    (perform call.host call.command).1.session.rom = some rom ∧ rom.length ≤ romCapacity := by
  obtain ⟨⟨s, files⟩, command⟩ := call
  cases command with
  | loadRom data =>
    have hbytes : Bytes.ofInts data = .ok rom := hcarries
    obtain ⟨reply, hreply⟩ : ∃ reply, (perform ⟨s, files⟩ (.loadRom data)).2 = .ok reply :=
      Except.isOk_iff.1 hreplaces
    obtain ⟨answer, hanswer, -⟩ := Except.map_eq_ok.1 hreply
    obtain ⟨bytes, hbytes', hfits, hnext⟩ := (s.loadRom_atomic data 0).of_answered hanswer
    obtain rfl : rom = bytes := Except.ok.inj (hbytes.symm.trans hbytes')
    exact ⟨congrArg Session.rom hnext, hfits⟩
  | loadRomFile path =>
    have hread : files.read path = .ok rom := hcarries
    obtain ⟨reply, hreply⟩ : ∃ reply, (perform ⟨s, files⟩ (.loadRomFile path)).2 = .ok reply :=
      Except.isOk_iff.1 hreplaces
    obtain ⟨name, hname, -⟩ := Except.map_eq_ok.1 hreply
    obtain ⟨contents, hcontents, hfits, hnext⟩ := (s.loadRomFile_atomic files path 0).of_answered hname
    obtain rfl : rom = contents := Except.ok.inj (hread.symm.trans hcontents)
    exact ⟨congrArg Session.rom hnext, hfits⟩
  | _ => exact hcarries.elim

/-- Any other call keeps the program. -/
theorem rom_perform {call : Call} (hkeeps : call.replacesRom = false) :
    (perform call.host call.command).1.session.rom = call.host.session.rom := by
  obtain ⟨⟨s, files⟩, command⟩ := call
  cases command with
  | hardReset => cases hkeeps
  | loadRom data =>
    obtain ⟨reason, hreason⟩ : ∃ reason, (perform ⟨s, files⟩ (.loadRom data)).2 = .error reason :=
      Except.isOk_eq_false_iff.1 hkeeps
    exact congrArg Session.rom
      ((s.loadRom_atomic data 0).eq_of_refused (Except.map_eq_error.1 hreason))
  | loadRomFile path =>
    obtain ⟨reason, hreason⟩ :
        ∃ reason, (perform ⟨s, files⟩ (.loadRomFile path)).2 = .error reason :=
      Except.isOk_eq_false_iff.1 hkeeps
    exact congrArg Session.rom
      ((s.loadRomFile_atomic files path 0).eq_of_refused (Except.map_eq_error.1 hreason))
  | softReset =>
    show s.softReset.1.rom = s.rom
    rcases s.softReset_cases 0 with ⟨-, hsoft⟩ | ⟨bytes, hrom, -, hsoft⟩ | ⟨bytes, -, -, hsoft⟩
    · rw [hsoft]
    · rw [hsoft]
      exact hrom.symm
    · rw [hsoft]
      rfl
  | loadState source seed =>
    refine (s.loadState_atomic source seed 0).elim (Q := fun next => next.rom = s.rom) rfl ?_
    rintro _ ⟨machine, -, rfl⟩
    rfl
  | saveStateFile path =>
    rw [perform_saveStateFile]
    split
    · rfl
    · rfl
  | loadStateFile path seed =>
    refine (s.loadStateFile_atomic files path seed 0).elim (Q := fun next => next.rom = s.rom) rfl ?_
    rintro _ ⟨contents, machine, -, -, rfl⟩
    rfl
  | _ => rfl

/-- **The remembered program is the one that the calls tell**: that of the latest call that changes
it, if this is a load. -/
theorem Trace.rom_of_latest (h : Trace past s) {call : Call}
    (hlatest : past.find? Call.replacesRom = some call) (hcarries : call.Carries rom) :
    s.rom = some rom ∧ rom.length ≤ romCapacity := by
  induction h with
  | create machine => cases hlatest
  | @perform past s _ files command ih =>
    cases hreplaces : Call.replacesRom ⟨⟨s, files⟩, command⟩ with
    | true =>
      rw [List.find?_cons_of_pos hreplaces] at hlatest
      obtain rfl := Option.some.inj hlatest
      exact rom_of_carries hreplaces hcarries
    | false =>
      rw [List.find?_cons_of_neg (by rw [hreplaces]; nofun)] at hlatest
      obtain ⟨hrom, hfits⟩ := ih hlatest
      exact ⟨(rom_perform hreplaces).trans hrom, hfits⟩
  | clock _ _ random ih => exact ih hlatest

/-! ### Starting again -/

/-- With an explicit seed it does not matter what the clock shows when a program is started. -/
theorem startRom_of_seed {seed : Int} (hseed : s.machine.seed = some seed) (clock clock' : Int) :
    s.startRom rom clock = s.startRom rom clock' := by
  rw [startRom, startRom, Machine.reset_of_seed hseed clock clock']

/-- **A soft reset replays the program that was loaded last.** Whatever calls led to a session, if
the latest of them that is a hard reset or a successful load is the load of some program, then a
soft reset succeeds and leaves what a load of this program would leave: a machine that begins the
program, with the dialect, the seed and the breakpoints of the current one, and the program
remembered. The load would have to be made at the same time, unless there is an explicit seed. -/
theorem Trace.softReset_replays (h : Trace past s) {call : Call}
    (hlatest : past.find? Call.replacesRom = some call) (hcarries : call.Carries rom)
    (clock : Int) :
    ∃ next, s.softReset clock = (next, .ok ()) ∧
      s.loadRom (rom.map fun b => (b.toNat : Int)) clock = (next, .ok ()) ∧
      (s.machine.seed.isSome → ∀ later,
        s.loadRom (rom.map fun b => (b.toNat : Int)) later = (next, .ok ())) ∧
      next.rom = some rom ∧ s.machine.BeginsProgram rom clock next.machine := by
  obtain ⟨hrom, hfits⟩ := h.rom_of_latest hlatest hcarries
  refine ⟨s.startRom rom clock, softReset_of_fits hrom hfits clock, s.loadRom_of_fits hfits clock,
    fun hexplicit later => ?_, rfl, s.machine.beginsProgram_startRom_reset clock hfits⟩
  obtain ⟨seed, hseed⟩ := Option.isSome_iff_exists.1 hexplicit
  rw [s.loadRom_of_fits hfits later, startRom_of_seed hseed later clock]

/-- A program that writes over itself. -/
def selfWriting : Bytes := [0xA2, 0x00, 0xF5, 0x55, 0x12, 0x00]

/-- A new session, and a file with the program. -/
def replayHost : Host :=
  ⟨ofMachine (.create {} none), .directory [("game", .file selfWriting)]⟩

/-- The program is loaded and runs. What is no byte string is refused, and then the machine is put
aside for that of a snapshot, which has other breakpoints. -/
def replayScript : List Command :=
  [.hardReset, .loadRomFile "game", .runCycles 3, .setBreakpoint 0x204, .reset, .loadRom [0x100],
    .softReset, .runCycles 2] ++
  [.loadState (.bytes (Snapshot.parts Snapshot.waitingImage).flatten) (some 7)]

theorem softReset_replays_selfWriting :
    Trace (calls replayHost replayScript) (Session.run replayHost replayScript).session ∧
      ∃ call, (calls replayHost replayScript).find? Call.replacesRom = some call ∧
        call.Carries selfWriting ∧
        (Session.run replayHost replayScript).session.machine.image = Snapshot.waitingImage ∧
        (Session.run replayHost replayScript).session.machine.seed = some 7 ∧
        ∃ next, (Session.run replayHost replayScript).session.softReset 5 = (next, .ok ()) ∧
          (Session.run replayHost replayScript).session.loadRom
            (selfWriting.map fun b => (b.toNat : Int)) 5 = (next, .ok ()) ∧
          ((Session.run replayHost replayScript).session.machine.seed.isSome → ∀ later,
            (Session.run replayHost replayScript).session.loadRom
              (selfWriting.map fun b => (b.toNat : Int)) later = (next, .ok ())) ∧
          next.rom = some selfWriting ∧
          (Session.run replayHost replayScript).session.machine.BeginsProgram selfWriting 5
            next.machine := by
  have htrace : Trace (calls replayHost replayScript)
      (Session.run replayHost replayScript).session := Trace.run_ofMachine _ _ _
  have hlatest : (calls replayHost replayScript).find? Call.replacesRom =
      some ⟨(perform replayHost .hardReset).1, .loadRomFile "game"⟩ := rfl
  have hcarries : Call.Carries ⟨(perform replayHost .hardReset).1, .loadRomFile "game"⟩
      selfWriting := by
    show FileTree.read (.directory [("game", .file selfWriting)]) "game" = .ok selfWriting
    rfl
  have hvalid := Snapshot.valid_waitingImage
  obtain ⟨machine, hmachine, hrestores⟩ := Machine.restores_ofImage hvalid.toInRange (some 7) 0
  have hread : Machine.deserialize (.bytes (Snapshot.parts Snapshot.waitingImage).flatten)
      (some 7) = .ok machine :=
    Machine.deserialize_eq_ok.2 ⟨_, Snapshot.decode_parts hvalid (by decide), hmachine⟩
  have hlast : (Session.run replayHost replayScript).session.machine = machine := by
    rw [replayScript, run_concat, perform, loadState, hread]
    rfl
  refine ⟨htrace, _, hlatest, hcarries, ?_, ?_, htrace.softReset_replays hlatest hcarries 5⟩
  · rw [hlast]
    exact hrestores.image
  · rw [hlast]
    exact hrestores.seed

end Session

end Chip8
