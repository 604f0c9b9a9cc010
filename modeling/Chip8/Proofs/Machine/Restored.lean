import Chip8.Proofs.Machine.Reachable

/-!
# Restored machines

A snapshot leaves out four things: the random numbers to come, the number of steps, the skip of the
control and the recorded events. A machine without a skip and without recorded events is therefore
restored but for the first two, and no call answers with the number of steps. So a restored machine
answers as the original does until one of them draws a random byte, and a reset with the same seed
makes the two equal for good.

## Main definitions

* `Core.withUnsaved`, `Machine.withUnsaved` — other random numbers and another number of steps
* `Machine.drawsBeforeReset` — whether a run draws a random byte before it resets the machine

## Main results

* `Core.execute_withUnsaved`, `Core.step_withUnsaved` — only a random byte depends on them
* `Machine.Alike.perform`, `Machine.Alike.run` — machines that differ in nothing else answer alike
* `Machine.Restores.alike` — a machine that restores the image of another one is such a machine
* `Machine.Reachable.restored_continues` — a restored machine goes on as the original
-/

namespace Chip8

/-! ### Words that draw -/

/-- The words that draw a random byte are of the form `Cxnn`. -/
theorem Instruction.of_ofWord_eq_random {w : UInt16} {x : Register} {nn : UInt8}
    (h : ofWord w = .random x nn) : w.toNat / 4096 = 0xC := by
  unfold ofWord at h
  simp only at h
  split at h
  · split at h
    · cases h
    · split at h <;> cases h
  all_goals try cases h
  · split at h <;> cases h
  · split at h <;> cases h
  · split at h <;> cases h
  · assumption
  · split at h
    · cases h
    · split at h <;> cases h
  · unfold ofMiscByte? at h
    split at h <;> cases h

/-! ### Cores -/

namespace Core

variable (c : Core) (random : MersenneTwister) (cycles : Nat)

/-- The core with other random numbers to come and another number of steps. -/
def withUnsaved : Core := { c with random, cycles }

theorem passes_withUnsaved (test : SkipTest) :
    (c.withUnsaved random cycles).passes test = c.passes test := by
  cases test <;> rfl

theorem awaitKey_withUnsaved (x : Register) :
    (c.withUnsaved random cycles).awaitKey x =
      ((c.awaitKey x).1.withUnsaved random cycles, (c.awaitKey x).2) := by
  have hpoll : (c.withUnsaved random cycles).keypad.poll
      (c.withUnsaved random cycles).dialect.keyWaitOnRelease =
        c.keypad.poll c.dialect.keyWaitOnRelease := rfl
  rw [awaitKey, awaitKey, hpoll]
  split <;> rfl

theorem callAt_withUnsaved (target : Int) :
    (c.withUnsaved random cycles).callAt target =
      ((c.callAt target).1.withUnsaved random cycles, (c.callAt target).2) := by
  have hpush : (c.withUnsaved random cycles).cpu.push target = c.cpu.push target := rfl
  rw [callAt, callAt, hpush]
  split <;> rfl

theorem returnBack_withUnsaved :
    (c.withUnsaved random cycles).returnBack =
      (c.returnBack.1.withUnsaved random cycles, c.returnBack.2) := by
  have hpop : (c.withUnsaved random cycles).cpu.pop = c.cpu.pop := rfl
  rw [returnBack, returnBack, hpop]
  split <;> rfl

/-- **Only a random byte depends on what no snapshot holds.** All other instructions do the same
whatever it is, and leave it alone. -/
theorem execute_withUnsaved {i : Instruction} (hi : ∀ x nn, i ≠ .random x nn) :
    (c.withUnsaved random cycles).execute i =
      ((c.execute i).1.withUnsaved random cycles, (c.execute i).2) := by
  cases i with
  | random x nn => exact absurd rfl (hi x nn)
  | ret => exact c.returnBack_withUnsaved random cycles
  | call address => exact c.callAt_withUnsaved random cycles address.toNat
  | waitKey x => exact c.awaitKey_withUnsaved random cycles x
  | skip test =>
    simp only [execute, passes_withUnsaved]
    split <;> rfl
  | _ => rfl

theorem counted_withUnsaved (next : Core) (outcome : Outcome) :
    ∃ count, (c.withUnsaved random cycles).counted (next.withUnsaved random cycles) outcome =
      (c.counted next outcome).withUnsaved random count := by
  cases outcome with
  | done => exact ⟨cycles + 1, rfl⟩
  | event kind => exact ⟨cycles + 1, rfl⟩
  | broken => exact ⟨cycles, rfl⟩

/-- A step that draws no random byte. -/
theorem step_withUnsaved (hi : ∀ x nn, Instruction.ofWord c.fetch ≠ .random x nn) :
    ∃ count, (c.withUnsaved random cycles).step =
      ⟨c.step.core.withUnsaved random count, c.step.word, c.step.outcome⟩ := by
  have hadvanced : (c.withUnsaved random cycles).advanced =
      c.advanced.withUnsaved random cycles := rfl
  have hfetch : (c.withUnsaved random cycles).fetch = c.fetch := rfl
  have hexec := c.advanced.execute_withUnsaved random cycles hi
  obtain ⟨count, hcount⟩ := c.counted_withUnsaved random cycles
    (c.advanced.execute (Instruction.ofWord c.fetch)).1
    (c.advanced.execute (Instruction.ofWord c.fetch)).2
  refine ⟨count, ?_⟩
  rw [step_eq, step_eq, hadvanced, hfetch, hexec]
  dsimp only
  rw [hcount]

end Core

/-! ### Machines -/

namespace Machine

variable {m r : Machine}

/-- The machine with other random numbers to come and another number of steps. -/
def withUnsaved (m : Machine) (random : MersenneTwister) (cycles : Nat) : Machine :=
  { m with core := m.core.withUnsaved random cycles }

/-- The second machine is the first one but for the random numbers to come and the number of
steps. -/
def Alike (m r : Machine) : Prop := ∃ random cycles, r = m.withUnsaved random cycles

theorem Alike.image (h : Alike m r) : r.image = m.image := by
  obtain ⟨random, cycles, rfl⟩ := h
  rfl

/-- Machines that differ only there are the same after a reset. -/
theorem Alike.reset (h : Alike m r) : r.reset = m.reset := by
  obtain ⟨random, cycles, rfl⟩ := h
  rfl

/-- Whether an answer tells that a random byte was drawn: the word that was executed is of the form
`Cxnn`. -/
def drew : Except Error Reply → Bool
  | .ok (.executed (some word)) => word.toNat / 4096 == 0xC
  | _ => false

/-- Whether a run draws a random byte before it first resets the machine. -/
def drawsBeforeReset (m : Machine) : List Command → Bool
  | [] => false
  | command :: rest =>
    command != .reset &&
      (drew (m.perform command).2 || (m.perform command).1.drawsBeforeReset rest)

/-! ### Calls -/

/-- A cycle that executes a random byte answers so. -/
theorem drew_cycle {control : Control} (hcycle : m.cycle = m.stepUnder control) {x : Register}
    {nn : UInt8} (h : Instruction.ofWord m.core.fetch = .random x nn) :
    drew (m.perform .cycle).2 = true := by
  have houtcome : m.core.step.outcome = .done := by
    rw [Core.step_outcome, h]
    rfl
  have hreply : (m.perform .cycle).2 = .ok (.executed (some m.core.fetch)) := by
    show m.cycle.2.map Reply.executed = _
    rw [hcycle, stepUnder, houtcome, Core.step_word]
    rfl
  rw [hreply, drew, Instruction.of_ofWord_eq_random h]
  rfl

/-- A cycle that draws no random byte. -/
theorem cycle_withUnsaved (m : Machine) (random : MersenneTwister) (cycles : Nat)
    (hdraw : drew (m.perform .cycle).2 = false) :
    ∃ count, (m.withUnsaved random cycles).cycle =
      (m.cycle.1.withUnsaved random count, m.cycle.2) := by
  -- the control of the two machines is the same, so they take the same branch
  rcases m.cycle_inversion with ⟨hrun, hcycle⟩ | ⟨control, hrun, hlook, hcycle⟩ |
    ⟨control, hrun, hlook, hcycle⟩
  · refine ⟨cycles, ?_⟩
    rw [hcycle, cycle_of_halted (m := m.withUnsaved random cycles) hrun]
  · refine ⟨cycles, ?_⟩
    rw [hcycle, cycle_of_stop (m := m.withUnsaved random cycles) hrun hlook]
    rfl
  · have hi : ∀ x nn, Instruction.ofWord m.core.fetch ≠ .random x nn := by
      intro x nn heq
      rw [drew_cycle hcycle heq] at hdraw
      cases hdraw
    obtain ⟨count, hstep⟩ := m.core.step_withUnsaved random cycles hi
    have hcore : (m.withUnsaved random cycles).core.step = _ := hstep
    refine ⟨count, ?_⟩
    rw [hcycle, cycle_of_go (m := m.withUnsaved random cycles) hrun hlook, stepUnder, hcore]
    rfl

/-- All calls but cycles and resets leave what no snapshot holds alone. -/
theorem perform_withUnsaved (m : Machine) (random : MersenneTwister) (cycles : Nat)
    {command : Command} (hcycle : command ≠ .cycle) (hreset : command ≠ .reset) :
    (m.withUnsaved random cycles).perform command =
      ((m.perform command).1.withUnsaved random cycles, (m.perform command).2) := by
  have hrunning : (m.withUnsaved random cycles).control.running = m.control.running := rfl
  cases command with
  | cycle => exact absurd rfl hcycle
  | reset => exact absurd rfl hreset
  | loadRom data =>
    simp only [perform, loadRom]
    cases checkRom data <;> rfl
  | tick =>
    simp only [perform, tick, hrunning]
    cases m.control.running <;> rfl
  | togglePause =>
    simp only [perform, togglePause, hrunning]
    cases m.control.running <;> rfl
  | _ => rfl

/-- **Machines that are alike answer a call alike, and stay so**, unless it draws a random byte. -/
theorem Alike.perform (h : Alike m r) {command : Command} (hreset : command ≠ .reset)
    (hdraw : drew (m.perform command).2 = false) :
    Alike (m.perform command).1 (r.perform command).1 ∧
      (r.perform command).2 = (m.perform command).2 := by
  obtain ⟨random, cycles, rfl⟩ := h
  by_cases hcycle : command = .cycle
  · subst hcycle
    obtain ⟨count, hnext⟩ := m.cycle_withUnsaved random cycles hdraw
    simp only [Machine.perform, hnext]
    exact ⟨⟨random, count, rfl⟩, trivial⟩
  · rw [m.perform_withUnsaved random cycles hcycle hreset]
    exact ⟨⟨random, cycles, rfl⟩, rfl⟩

/-! ### Runs -/

/-- **Machines that are alike go on alike** as long as no random byte is drawn, and for good after a
reset. -/
theorem Alike.run (h : Alike m r) {commands : List Command}
    (hdraw : m.drawsBeforeReset commands = false) :
    r.replies commands = m.replies commands ∧
      ∀ n, (r.run (commands.take n)).image = (m.run (commands.take n)).image := by
  induction commands generalizing m r with
  | nil =>
    refine ⟨rfl, fun n => ?_⟩
    rw [List.take_nil]
    exact h.image
  | cons command rest ih =>
    suffices hnext : (r.perform command).2 = (m.perform command).2 ∧
        (r.perform command).1.replies rest = (m.perform command).1.replies rest ∧
        ∀ n, ((r.perform command).1.run (rest.take n)).image =
          ((m.perform command).1.run (rest.take n)).image by
      obtain ⟨hreply, hreplies, himages⟩ := hnext
      refine ⟨by simp only [replies, hreply, hreplies], fun n => ?_⟩
      cases n with
      | zero => exact h.image
      | succ n => exact himages n
    by_cases hreset : command = .reset
    · -- from here on the two machines are the same
      subst hreset
      have hsame : (r.perform .reset).1 = (m.perform .reset).1 := h.reset
      rw [hsame]
      exact ⟨rfl, rfl, fun _ => rfl⟩
    · obtain ⟨hfirst, hrest⟩ : drew (m.perform command).2 = false ∧
          (m.perform command).1.drawsBeforeReset rest = false := by
        simpa [drawsBeforeReset, hreset] using hdraw
      obtain ⟨hnext, hreply⟩ := h.perform hreset hfirst
      exact ⟨hreply, ih hnext hrest⟩

/-! ### Machines from snapshots -/

/-- **A machine that restores the image of another one** is that one but for the random numbers to
come and the number of steps, if it has its seed and there is no skip and nothing is recorded. -/
theorem Restores.alike {clock : Int} (h : Restores m.image m.seed clock r)
    (hskip : m.control.skip = none) (hlog : m.core.diagnostics = []) : Alike m r := by
  refine ⟨r.core.random, 0, eq_of_image_eq h.image h.seed ?_ ?_ h.cycles rfl⟩
  · exact h.skip.trans hskip.symm
  · exact h.diagnostics.trans hlog.symm

/-- What is read back from the snapshot of a well-formed machine restores its image, if it is
accepted. -/
theorem WellFormed.restores (h : m.WellFormed) {seed : Option Int} {clock : Int} {data : Bytes}
    (hdata : m.serialize = .ok data) (hr : deserialize (.bytes data) seed clock = .ok r) :
    Restores m.image seed clock r := by
  have hcount : m.breakpoints.size < 65536 := by
    by_contra hfull
    have hrefused : m.serialize = .error .fieldOverflow :=
      Snapshot.encode_of_full (inRange_image h) hfull
    rw [hrefused] at hdata
    cases hdata
  rw [h.serialize hcount] at hdata
  obtain rfl := Except.ok.inj hdata
  by_cases hwaits : m.core.LatchWaits
  · have hsound : m.Sound := { h with latch_waits := hwaits }
    obtain ⟨next, hnext, hrestores⟩ := hsound.deserialize hcount seed clock
    obtain rfl : next = r := Except.ok.inj (hnext.symm.trans hr)
    exact hrestores
  · rw [h.deserialize_of_stale hcount hwaits seed clock] at hr
    cases hr

/-- **A restored machine goes on as the original.** Take a machine with an explicit seed, without a
skip and with no recorded events, that was restored from its own snapshot with the same seed. Then
every run that draws no random byte before its first reset is answered alike by both, call by call,
and after each call they have the same image. -/
theorem Reachable.restored_continues (h : m.Reachable) {s : Int} (hseed : m.seed = some s)
    (hskip : m.control.skip = none) (hlog : m.core.diagnostics = []) {data : Bytes}
    (hdata : m.serialize = .ok data) (hr : deserialize (.bytes data) (some s) = .ok r)
    {commands : List Command} (hdraw : m.drawsBeforeReset commands = false) :
    r.replies commands = m.replies commands ∧
      ∀ n, (r.run (commands.take n)).image = (m.run (commands.take n)).image := by
  rw [← hseed] at hr
  have hrestores : Restores m.image m.seed 0 r := h.wellFormed.restores hdata hr
  exact (hrestores.alike hskip hlog).run hdraw

/-- A run that ends a wait for a key at a breakpoint, is saved, and draws random bytes after a
reset. -/
def afterWaiting : List Command :=
  [.keyUp 5, .resume, .cycle, .serialize, .reset, .loadRom [0xC0, 0xFF], .pause, .resume, .cycle]

theorem restored_continues_waiting :
    waiting.Reachable ∧ waiting.seed = some 0 ∧ waiting.control.skip = none ∧
      waiting.core.diagnostics = [] ∧ waiting.drawsBeforeReset afterWaiting = false ∧
      ∃ data next, waiting.serialize = .ok data ∧
        deserialize (.bytes data) (some 0) = .ok next ∧
        next.replies afterWaiting = waiting.replies afterWaiting ∧
        ∀ n, (next.run (afterWaiting.take n)).image = (waiting.run (afterWaiting.take n)).image := by
  have hreachable : waiting.Reachable := (Reachable.create _ _).run _
  have hcount : waiting.breakpoints.size < 65536 := by decide +kernel
  have hsound : waiting.Sound :=
    { hreachable.wellFormed with latch_waits := fun _ => by decide +kernel }
  have hskip : waiting.control.skip = none := by decide +kernel
  have hlog : waiting.core.diagnostics = [] := by decide +kernel
  have hdraw : waiting.drawsBeforeReset afterWaiting = false := by decide +kernel
  have hdata := hreachable.wellFormed.serialize hcount
  obtain ⟨next, hnext, -⟩ := hsound.deserialize hcount (some 0) 0
  exact ⟨hreachable, rfl, hskip, hlog, hdraw, _, next, hdata, hnext,
    hreachable.restored_continues rfl hskip hlog hdata hnext hdraw⟩

end Machine

end Chip8
