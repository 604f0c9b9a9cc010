import Chip8.Proofs.Machine.Breakpoints

/-!
# Events between cycles

A host that drives a machine has three things to do at once: it runs cycles, counts the timers down,
and passes the keys on. In which order two of them happen is up to chance, and mostly it does not
matter. Most instructions neither look at the timers or the keys nor touch them, and what a cycle
does besides executing one, which is to look at the breakpoints and to halt, hangs on pc and on the
stack.

Both kinds of events are told as one here, a change of the timers and of the keypad by functions.
An instruction passes over a change when each of the two devices that it uses is left alone, and
then the change may be made before the instruction or after it. Only a tick needs more: it counts
while the machine runs, so a cycle that halts the machine must not come before it.

## Main definitions

* `Instruction.usesTimers`, `Instruction.usesKeys` — the instructions that use a device
* `Instruction.PassesOver` — a change leaves the devices alone that an instruction uses
* `Core.mapDevices`, `Machine.mapDevices` — a change of timers and keypad

## Main results

* `Core.execute_mapDevices`, `Core.step_mapDevices` — instructions and steps after a change
* `Machine.cycle_mapDevices` — cycles after a change
* `Machine.events_commute` — ticks and keys before a cycle or after it
-/

namespace Chip8

variable {timers : Timers → Timers} {keypad : Keypad → Keypad}

/-! ### Instructions and devices -/

namespace Instruction

/-- Whether an instruction reads or sets a timer. -/
def usesTimers : Instruction → Bool
  | .readDelay _ | .setDelay _ | .setSound _ => true
  | _ => false

/-- Whether an instruction looks at the keys. -/
def usesKeys : Instruction → Bool
  | .skip (.held _) | .skip (.notHeld _) | .waitKey _ => true
  | _ => false

/-- A change of the timers and of the keypad leaves the devices alone that an instruction uses. -/
structure PassesOver (i : Instruction) (timers : Timers → Timers) (keypad : Keypad → Keypad) :
    Prop where
  timers : i.usesTimers = true → timers = id
  keypad : i.usesKeys = true → keypad = id

/-- Whether an instruction passes over a tick is told by the timers alone. -/
theorem passesOver_timers {i : Instruction} (hi : i.usesTimers = false) :
    i.PassesOver timers id where
  timers huses := absurd huses (Bool.eq_false_iff.1 hi)
  keypad _ := rfl

/-- Whether it passes over a key is told by the keys alone. -/
theorem passesOver_keypad {i : Instruction} (hi : i.usesKeys = false) :
    i.PassesOver id keypad where
  timers _ := rfl
  keypad huses := absurd huses (Bool.eq_false_iff.1 hi)

end Instruction

/-! ### One step -/

namespace Core

variable {c : Core} {i : Instruction}

/-- A core whose timers and keypad were changed. -/
def mapDevices (timers : Timers → Timers) (keypad : Keypad → Keypad) (c : Core) : Core :=
  { c with timers := timers c.timers, keypad := keypad c.keypad }

@[simp] theorem cpu_mapDevices (c : Core) : (c.mapDevices timers keypad).cpu = c.cpu := rfl

theorem callAt_mapDevices (c : Core) (target : Int) :
    (c.mapDevices timers keypad).callAt target =
      ((c.callAt target).1.mapDevices timers keypad, (c.callAt target).2) := by
  rw [callAt, callAt, cpu_mapDevices]
  cases c.cpu.push target with
  | ok cpu => rfl
  | error fault => cases fault <;> rfl

theorem returnBack_mapDevices (c : Core) :
    (c.mapDevices timers keypad).returnBack =
      (c.returnBack.1.mapDevices timers keypad, c.returnBack.2) := by
  rw [returnBack, returnBack, cpu_mapDevices]
  cases c.cpu.pop with
  | ok cpu => rfl
  | error fault => cases fault <;> rfl

/-- A wait for a key passes over a change of the timers. -/
theorem awaitKey_mapDevices (c : Core) (x : Register) :
    (c.mapDevices timers id).awaitKey x =
      ((c.awaitKey x).1.mapDevices timers id, (c.awaitKey x).2) := by
  have hkeypad : (c.mapDevices timers id).keypad = c.keypad := rfl
  have hdialect : (c.mapDevices timers id).dialect = c.dialect := rfl
  rw [awaitKey, awaitKey, hkeypad, hdialect]
  cases c.keypad.poll c.dialect.keyWaitOnRelease with
  | ok result =>
    obtain ⟨after, key⟩ := result
    cases key <;> rfl
  | error reason => rfl

/-- A skip hangs on its test, which passes over a change if it does not look at the keys. -/
theorem passes_mapDevices {test : SkipTest} (h : (Instruction.skip test).PassesOver timers keypad) :
    (c.mapDevices timers keypad).passes test = c.passes test := by
  cases test with
  | held x | notHeld x =>
    obtain rfl := h.keypad rfl
    rfl
  | _ => rfl

/-- **An instruction does the same before a change that it passes over and after it.** -/
theorem execute_mapDevices (h : i.PassesOver timers keypad) :
    (c.mapDevices timers keypad).execute i =
      ((c.execute i).1.mapDevices timers keypad, (c.execute i).2) := by
  cases i with
  | call address => exact c.callAt_mapDevices address.toNat
  | ret => exact c.returnBack_mapDevices
  | skip test =>
    rw [execute, execute, passes_mapDevices h]
    split
    · rfl
    · rfl
  | waitKey x =>
    obtain rfl := h.keypad rfl
    exact c.awaitKey_mapDevices x
  | readDelay x | setDelay x | setSound x =>
    obtain rfl := h.timers rfl
    rfl
  | _ => rfl

/-- **A step before a change and after it.** -/
theorem step_mapDevices (h : (Instruction.ofWord c.fetch).PassesOver timers keypad) :
    (c.mapDevices timers keypad).step =
      { c.step with core := c.step.core.mapDevices timers keypad } := by
  have hexecute : (c.mapDevices timers keypad).advanced.execute (Instruction.ofWord c.fetch) = _ :=
    execute_mapDevices (c := c.advanced) h
  have hfetch : (c.mapDevices timers keypad).fetch = c.fetch := rfl
  rw [step_eq, step_eq, hfetch, hexecute]
  cases c.advanced.execute (Instruction.ofWord c.fetch) with
  | mk next outcome => cases outcome <;> rfl

end Core

/-! ### Cycles -/

namespace Machine

variable {m : Machine} {word : UInt16}

/-- A machine whose timers and keypad were changed. -/
def mapDevices (timers : Timers → Timers) (keypad : Keypad → Keypad) (m : Machine) : Machine :=
  { m with core := m.core.mapDevices timers keypad }

/-- **A cycle before a change and after it.** -/
theorem cycle_mapDevices (h : (Instruction.ofWord m.core.fetch).PassesOver timers keypad) :
    (m.mapDevices timers keypad).cycle = (m.cycle.1.mapDevices timers keypad, m.cycle.2) := by
  rcases m.cycle_inversion with ⟨hrun, hcycle⟩ | ⟨control, hrun, hlook, hcycle⟩ |
    ⟨control, hrun, hlook, hcycle⟩
  · rw [hcycle]
    exact cycle_of_halted hrun
  · rw [hcycle]
    exact cycle_of_stop (m := m.mapDevices timers keypad) hrun hlook
  · rw [hcycle, cycle_of_go (m := m.mapDevices timers keypad) hrun hlook]
    have hstep : (m.mapDevices timers keypad).core.step = _ := Core.step_mapDevices h
    rw [stepUnder, stepUnder, hstep]
    rfl

/-! ### Ticks and keys -/

theorem tick_of_running (h : m.running = true) : m.tick = m.mapDevices Timers.tick id := if_pos h

/-- A cycle that is said to execute a word is one of a running machine, and the word is that of its
step. -/
theorem running_of_executed (h : m.cycle.2 = .ok (some word)) :
    m.running = true ∧ m.core.fetch = word := by
  rcases m.cycle_inversion with ⟨-, hcycle⟩ | ⟨control, -, -, hcycle⟩ | ⟨control, hrun, -, hcycle⟩
  · rw [hcycle] at h
    cases h
  · rw [hcycle] at h
    cases h
  · rw [hcycle, stepUnder] at h
    obtain ⟨-, h⟩ := Except.ite_error_eq_ok.1 h
    rw [← m.core.step_word]
    exact ⟨hrun, Option.some.inj (Except.ok.inj h)⟩

/-- **Events of the host commute with cycles.** When a cycle executes an instruction, it does not
matter whether a key goes down or up before the cycle or after it, if the instruction does not look
at the keys. The machine is the same in the end, and the same word is executed. If the instruction
does not use the timers and the machine still runs after it, the same holds for a tick. -/
theorem events_commute (hexec : m.cycle.2 = .ok (some word)) :
    ((Instruction.ofWord word).usesTimers = false → m.cycle.1.running = true →
        m.tick.cycle = (m.cycle.1.tick, m.cycle.2)) ∧
      ((Instruction.ofWord word).usesKeys = false → ∀ key : Int,
        (m.keyDown key).cycle = (m.cycle.1.keyDown key, m.cycle.2) ∧
          (m.keyUp key).cycle = (m.cycle.1.keyUp key, m.cycle.2)) := by
  obtain ⟨hrun, rfl⟩ := running_of_executed hexec
  constructor
  · intro htimers hstill
    rw [tick_of_running hrun, tick_of_running hstill]
    exact cycle_mapDevices (Instruction.passesOver_timers htimers)
  · intro hkeys key
    have hkeypad (keypad : Keypad → Keypad) : (m.mapDevices id keypad).cycle = _ :=
      cycle_mapDevices (Instruction.passesOver_keypad hkeys)
    exact ⟨hkeypad fun k => k.press key, hkeypad fun k => k.release key⟩

/-- A machine that was resumed at a breakpoint in front of a sprite, with a key held and both timers
above zero. -/
def aboutToRedraw : Machine :=
  (create {} (some 0)).run
    [.loadRom [0x60, 0x05, 0xF0, 0x15, 0xF0, 0x18, 0xD0, 0x15], .setBreakpoint 0x206, .cycle,
      .cycle, .cycle, .keyDown 3, .cycle, .resume]

theorem events_commute_aboutToRedraw :
    aboutToRedraw.cycle.2 = .ok (some 0xD015) ∧ aboutToRedraw.cycle.1.running = true ∧
      (Instruction.ofWord 0xD015).usesTimers = false ∧
      (Instruction.ofWord 0xD015).usesKeys = false ∧
      aboutToRedraw.tick.cycle = (aboutToRedraw.cycle.1.tick, aboutToRedraw.cycle.2) ∧
      aboutToRedraw.cycle.1.tick.core.timers = ⟨4, 4⟩ ∧
      (aboutToRedraw.keyUp 3).cycle = (aboutToRedraw.cycle.1.keyUp 3, aboutToRedraw.cycle.2) := by
  have hready : aboutToRedraw.cycle.2 = .ok (some 0xD015) ∧
      aboutToRedraw.cycle.1.running = true ∧
      aboutToRedraw.cycle.1.tick.core.timers = ⟨4, 4⟩ := by decide +kernel
  obtain ⟨hexec, hstill, htimers⟩ := hready
  obtain ⟨htick, hkeys⟩ := events_commute hexec
  exact ⟨hexec, hstill, rfl, rfl, htick rfl hstill, htimers, (hkeys rfl 3).2⟩

end Machine

end Chip8
