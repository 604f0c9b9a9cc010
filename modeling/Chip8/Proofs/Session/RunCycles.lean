import Chip8.Proofs.Machine.SteppingOver
import Chip8.Proofs.Session.Reachable

/-!
# Runs of cycles

A session that is to execute a number of instructions stops at the first cycle that executes none.
A host cannot tell that it did: such a cycle finds the machine halted or halts it at a breakpoint,
and a halted machine stays as it is, whatever cycles and ticks follow. So the session ends where the
full number of single cycles would, and has counted those of them that executed an instruction, a
fault of the stack included. They are the first ones, and the machine counts them too; this is why
the counts of two runs in a row add up.

## Main definitions

* `Machine.CyclesTo` — what a number of single cycles do, one after the other
* `Session.replies` — the answers to a list of calls

## Main results

* `Machine.run_of_halted` — a halted machine stays as it is
* `Machine.running_of_cycle_none` — a cycle that executes nothing leaves the machine halted
* `Machine.WellFormed.cyclesTo_runUpTo` — stopping early is not seen
* `Session.Reachable.runCycles_eq_cycles` — all of it for reachable sessions
-/

namespace Chip8

namespace Machine

variable {m : Machine}

/-! ### Halted machines -/

/-- **A halted machine stays as it is**, however often a host lets it cycle and tick. -/
theorem run_of_halted (h : m.running = false) {commands : List Command}
    (hcommands : ∀ command ∈ commands, command = .cycle ∨ command = .tick) :
    m.run commands = m := by
  induction commands with
  | nil => rfl
  | cons command rest ih =>
    have hfirst : (m.perform command).1 = m := by
      rcases hcommands command List.mem_cons_self with rfl | rfl
      · exact congrArg Prod.fst (cycle_of_halted h)
      · exact tick_of_halted h
    show (m.perform command).1.run rest = m
    rw [hfirst]
    exact ih fun next hnext => hcommands next (List.mem_cons_of_mem command hnext)

/-- All cycles of a halted machine answer that they executed nothing. -/
theorem replies_of_halted (h : m.running = false) (count : Nat) :
    m.replies (List.replicate count .cycle) = List.replicate count (.ok (.executed none)) := by
  induction count with
  | zero => rfl
  | succ count ih =>
    have hcycle : m.perform .cycle = (m, .ok (.executed none)) := by
      rw [perform, cycle_of_halted h]
      rfl
    rw [List.replicate_succ, replies, hcycle, List.replicate_succ, ← ih]

/-- **A cycle that executes nothing leaves the machine halted**: it was before, or a breakpoint has
stopped it. -/
theorem running_of_cycle_none (hnone : m.cycle.2 = .ok none) : m.cycle.1.running = false := by
  rcases m.cycle_inversion with ⟨hrun, hcycle⟩ | ⟨control, -, hlook, hcycle⟩ |
    ⟨control, -, -, hcycle⟩
  · rw [hcycle]
    exact hrun
  · obtain rfl := Control.eq_of_shouldBreak_stop hlook
    rw [hcycle]
    rfl
  · rw [hcycle, stepUnder] at hnone
    dsimp only at hnone
    split at hnone <;> cases hnone

/-! ### Cycles one after the other -/

/-- The machine becomes another one by a number of cycles. The first of them execute the given
words, the others nothing, and the machine has counted those that executed. -/
structure CyclesTo (m : Machine) (count : Nat) (words : List UInt16) (next : Machine) : Prop where
  length_le : words.length ≤ count
  run : m.run (List.replicate count .cycle) = next
  replies : m.replies (List.replicate count .cycle) =
    words.map (fun word => .ok (.executed (some word))) ++
      List.replicate (count - words.length) (.ok (.executed none))
  cycles : next.core.cycles = m.core.cycles + words.length

/-- When the first cycle executes nothing, none does. -/
theorem cyclesTo_of_rests (hcore : m.cycle.1.core = m.core) (hnone : m.cycle.2 = .ok none)
    (count : Nat) : CyclesTo m (count + 1) [] m.cycle.1 := by
  have hhalted := running_of_cycle_none hnone
  have hanswer : (m.perform .cycle).2 = .ok (.executed none) := by
    show m.cycle.2.map Reply.executed = _
    rw [hnone]
    rfl
  refine ⟨Nat.zero_le _, ?_, ?_, congrArg Core.cycles hcore⟩
  · show m.cycle.1.run (List.replicate count .cycle) = m.cycle.1
    exact run_of_halted hhalted fun command hmem => .inl (List.eq_of_mem_replicate hmem)
  · show (m.perform .cycle).2 :: m.cycle.1.replies (List.replicate count .cycle) = _
    rw [hanswer, replies_of_halted hhalted]
    rfl

/-- A cycle that executes, and others after it. -/
theorem CyclesTo.cons {count : Nat} {words : List UInt16} {next : Machine} (hexec : m.Executes)
    (hcycles : m.core.step.core.cycles = m.core.cycles + 1)
    (h : CyclesTo m.cycle.1 count words next) :
    CyclesTo m (count + 1) (m.core.fetch :: words) next := by
  have hanswer : (m.perform .cycle).2 = .ok (.executed (some m.core.fetch)) := by
    show m.cycle.2.map Reply.executed = _
    rw [hexec.1]
    rfl
  refine ⟨Nat.succ_le_succ h.length_le, h.run, ?_, ?_⟩
  · show (m.perform .cycle).2 :: m.cycle.1.replies (List.replicate count .cycle) = _
    rw [hanswer, h.replies, List.length_cons, Nat.succ_sub_succ]
    rfl
  · rw [h.cycles, hexec.2, hcycles, List.length_cons]
    omega

/-- **Stopping early is not seen.** Executing up to a number of instructions ends with the machine
that as many single cycles lead to, and gives the number of those that executed one. -/
theorem WellFormed.cyclesTo_runUpTo (h : m.WellFormed) (count : Nat) :
    ∃ words, CyclesTo m count words (Session.runUpTo m count).1 ∧
      (Session.runUpTo m count).2 = .ok words.length := by
  induction count generalizing m with
  | zero => exact ⟨[], ⟨Nat.le_refl 0, rfl, rfl, rfl⟩, rfl⟩
  | succ count ih =>
    rcases h.executes_or_rests with hexec | ⟨hcore, hnone⟩
    · obtain ⟨words, hto, hcount⟩ := ih h.cycle
      have hcycle : m.cycle = (m.cycle.1, .ok (some m.core.fetch)) := Prod.ext rfl hexec.1
      have hrun : Session.runUpTo m (count + 1) =
          ((Session.runUpTo m.cycle.1 count).1, .ok (words.length + 1)) := by
        rw [Session.runUpTo, hcycle]
        dsimp only
        rw [hcount]
        rfl
      rw [hrun]
      exact ⟨_, hto.cons hexec h.core.step_cycles, rfl⟩
    · have hcycle : m.cycle = (m.cycle.1, .ok none) := Prod.ext rfl hnone
      have hrun : Session.runUpTo m (count + 1) = (m.cycle.1, .ok 0) := by
        rw [Session.runUpTo, hcycle]
      rw [hrun]
      exact ⟨[], cyclesTo_of_rests hcore hnone count, rfl⟩

/-- **Two runs of cycles in a row are one**, and their counts add up, since the machine counts the
same instructions. -/
theorem Sound.runUpTo_add (h : m.Sound) (a b : Nat) :
    ∃ i j, (Session.runUpTo m a).2 = .ok i ∧
      (Session.runUpTo (Session.runUpTo m a).1 b).2 = .ok j ∧
      Session.runUpTo m (a + b) =
        ((Session.runUpTo (Session.runUpTo m a).1 b).1, .ok (i + j)) := by
  have hmiddle := (Session.runUpTo_sound h a).1
  obtain ⟨first, hfirst, hi⟩ := h.toWellFormed.cyclesTo_runUpTo a
  obtain ⟨second, hsecond, hj⟩ := hmiddle.toWellFormed.cyclesTo_runUpTo b
  obtain ⟨words, hall, hcount⟩ := h.toWellFormed.cyclesTo_runUpTo (a + b)
  have hlast : (Session.runUpTo m (a + b)).1 =
      (Session.runUpTo (Session.runUpTo m a).1 b).1 := by
    rw [← hall.run, ← hsecond.run, List.replicate_add, Machine.run, List.foldl_append]
    exact congrArg (fun next : Machine => next.run (List.replicate b .cycle)) hfirst.run
  have hlength : words.length = first.length + second.length := by
    have hcycles := hall.cycles
    rw [hlast, hsecond.cycles, hfirst.cycles] at hcycles
    omega
  refine ⟨_, _, hi, hj, Prod.ext hlast ?_⟩
  rw [hcount, hlength]

end Machine

namespace Session

variable {s : Session}

/-! ### Sessions -/

/-- The answers to a list of calls. -/
def replies (h : Host) : List Command → List (Except Error Reply)
  | [] => []
  | command :: rest =>
    let (next, reply) := perform h command
    reply :: replies next rest

/-- A session hands its cycles to the machine and leaves the rest alone. -/
theorem run_cycles (s : Session) (files : FileTree) (count : Nat) :
    run ⟨s, files⟩ (List.replicate count .cycle) =
      ⟨{ s with machine := s.machine.run (List.replicate count .cycle) }, files⟩ := by
  induction count generalizing s with
  | zero => rfl
  | succ count ih => exact ih { s with machine := s.machine.cycle.1 }

theorem replies_cycles (s : Session) (files : FileTree) (count : Nat) :
    replies ⟨s, files⟩ (List.replicate count .cycle) =
      (s.machine.replies (List.replicate count .cycle)).map fun reply => reply.map .machine := by
  induction count generalizing s with
  | zero => rfl
  | succ count ih =>
    rw [List.replicate_succ, List.replicate_succ, replies, Machine.replies, List.map_cons]
    exact congrArg _ (ih { s with machine := s.machine.cycle.1 })

/-- **Runs of cycles are single cycles.** In a reachable session a call to execute a number of
instructions leaves session and files as that many single cycles do, or none if the number is
negative. It gives the number of those that execute an instruction. They come before all others, and
the machine counts just as many. Two such calls in a row do what one with the sum of their numbers
does, and their counts add up. And a halted machine stays as it is, whatever cycles and ticks are
called on it. -/
theorem Reachable.runCycles_eq_cycles (h : s.Reachable) (files : FileTree) :
    (∀ count : Int, ∃ words : List UInt16, words.length ≤ count.toNat ∧
      Session.perform ⟨s, files⟩ (.runCycles count) =
        (Session.run ⟨s, files⟩ (List.replicate count.toNat .cycle), .ok (.count words.length)) ∧
      replies ⟨s, files⟩ (List.replicate count.toNat .cycle) =
        words.map (fun word => .ok (.machine (.executed (some word)))) ++
          List.replicate (count.toNat - words.length) (.ok (.machine (.executed none))) ∧
      (s.runCycles count).1.machine.core.cycles = s.machine.core.cycles + words.length) ∧
    (∀ a b : Int, 0 ≤ a → 0 ≤ b → ∃ i j, (s.runCycles a).2 = .ok i ∧
      ((s.runCycles a).1.runCycles b).2 = .ok j ∧
      s.runCycles (a + b) = (((s.runCycles a).1.runCycles b).1, .ok (i + j))) ∧
    ∀ m : Machine, m.running = false → ∀ commands : List Machine.Command,
      (∀ command ∈ commands, command = .cycle ∨ command = .tick) → m.run commands = m := by
  refine ⟨fun count => ?_, fun a b ha hb => ?_, fun m hm commands => m.run_of_halted hm⟩
  · obtain ⟨words, hto, hcount⟩ := h.sound.machine.toWellFormed.cyclesTo_runUpTo count.toNat
    refine ⟨words, hto.length_le, ?_, ?_, hto.cycles⟩
    · have hperform : Session.perform ⟨s, files⟩ (.runCycles count) =
          (⟨{ s with machine := (runUpTo s.machine count.toNat).1 }, files⟩,
            (runUpTo s.machine count.toNat).2.map .count) := rfl
      rw [hperform, run_cycles, hto.run, hcount]
      rfl
    · rw [replies_cycles, hto.replies, List.map_append, List.map_map, List.map_replicate]
      rfl
  · obtain ⟨i, j, hi, hj, hsum⟩ := h.sound.machine.runUpTo_add a.toNat b.toNat
    refine ⟨i, j, hi, hj, ?_⟩
    rw [runCycles, Int.toNat_add ha hb, hsum]
    rfl

/-- A session that was resumed at a breakpoint, two instructions before a fault of the stack. -/
def beforeFault : Session :=
  (run ⟨ofMachine (.create {} (some 0)), .directory []⟩
    [.loadRom [0x60, 0x01, 0x00, 0xEE], .setBreakpoint 0x200, .runCycles 9, .togglePause]).session

theorem runCycles_eq_cycles_beforeFault :
    beforeFault.Reachable ∧ beforeFault.machine.running = true ∧
      (∃ words : List UInt16, words.length = 2 ∧
        perform ⟨beforeFault, .directory []⟩ (.runCycles 5) =
          (run ⟨beforeFault, .directory []⟩ (List.replicate 5 .cycle), .ok (.count words.length)) ∧
        replies ⟨beforeFault, .directory []⟩ (List.replicate 5 .cycle) =
          words.map (fun word => .ok (.machine (.executed (some word)))) ++
            List.replicate 3 (.ok (.machine (.executed none)))) ∧
      (∃ i j, (beforeFault.runCycles 1).2 = .ok i ∧
        ((beforeFault.runCycles 1).1.runCycles 3).2 = .ok j ∧
        beforeFault.runCycles (1 + 3) =
          (((beforeFault.runCycles 1).1.runCycles 3).1, .ok (i + j))) ∧
      (beforeFault.runCycles 5).1.machine.running = false ∧
      (beforeFault.runCycles 5).1.machine.run [.cycle, .tick, .cycle] =
        (beforeFault.runCycles 5).1.machine := by
  have hreachable : beforeFault.Reachable := Reachable.run (.create _ _) _
  obtain ⟨hcycles, hsums, hhalted⟩ := hreachable.runCycles_eq_cycles (.directory [])
  obtain ⟨words, -, hrun, hreplies, hcount⟩ := hcycles 5
  have hcounted : beforeFault.machine.core.cycles = 0 ∧
      (beforeFault.runCycles 5).1.machine.core.cycles = 2 := by decide +kernel
  have hlength : words.length = 2 := by omega
  have hstopped : (beforeFault.runCycles 5).1.machine.running = false := by decide +kernel
  rw [hlength] at hreplies
  exact ⟨hreachable, by decide +kernel, ⟨words, hlength, hrun, hreplies⟩,
    hsums 1 3 (by decide) (by decide), hstopped, hhalted _ hstopped _ (by decide)⟩

end Session

end Chip8
