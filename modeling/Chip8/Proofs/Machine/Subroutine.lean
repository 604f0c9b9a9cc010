import Chip8.Proofs.Core.CallStack
import Chip8.Proofs.Machine.Breakpoints

/-!
# Subroutines

A call leaves its return address on the stack, and the slots below it hold those of its callers. As
long as the stack pointer stays above them, no call of a host but a reset changes any of these slots:
calls write at the pointer only, returns do not write, and a call with a full stack does nothing. So
the first cycle that brings the pointer back down to where it was before the call executes a return,
and goes on behind the call.

Nothing is assumed of the program. It may call, return and fault in between as it likes, jump away,
or write over itself, and the host may load another one.

## Main definitions

* `Machine.HoldsUntil` — a property holds along a run until a call of a certain kind, if any
* `Machine.InSubroutine` — the machine has not yet returned to the caller
* `Machine.ReturnsTo` — a call executes the return to the caller

## Main results

* `Machine.InSubroutine.perform` — a subroutine returns to its caller or goes on
* `Machine.WellFormed.call_returns` — so it is for every run after a call
-/

namespace Chip8

namespace Machine

variable {m : Machine} {caller : Cpu}

/-! ### Runs up to a call -/

/-- The first property holds of the machine and of those that a run leads to, until a call at which
the second one holds. It need not come to such a call; what follows it is left open. -/
def HoldsUntil (P : Machine → Prop) (Q : Machine → Command → Prop) (m : Machine) :
    List Command → Prop
  | [] => P m
  | command :: rest => P m ∧ (Q m command ∨ HoldsUntil P Q (m.perform command).1 rest)

/-- What every call keeps or ends holds until a call that ends it. -/
theorem holdsUntil_of_perform {P : Machine → Prop} {Q : Machine → Command → Prop}
    {commands : List Command}
    (hstep : ∀ command ∈ commands, ∀ m, P m → Q m command ∨ P (m.perform command).1) (h : P m) :
    HoldsUntil P Q m commands := by
  induction commands generalizing m with
  | nil => exact h
  | cons command rest ih =>
    have hrest : ∀ next ∈ rest, ∀ m, P m → Q m next ∨ P (m.perform next).1 :=
      fun next hnext => hstep next (List.mem_cons_of_mem command hnext)
    rcases hstep command List.mem_cons_self m h with hends | hkeeps
    · exact ⟨h, .inl hends⟩
    · exact ⟨h, .inr (ih hrest hkeeps)⟩

/-! ### Registers -/

/-- Only cycles and resets change the registers. -/
theorem cpu_perform {command : Command} (hcycle : command ≠ .cycle) (hreset : command ≠ .reset) :
    (m.perform command).1.core.cpu = m.core.cpu := by
  obtain ⟨_, _, _, _, _, hcore, -⟩ := m.perform_core hcycle hreset
  rw [hcore]

/-! ### Inside a subroutine -/

/-- The machine is in a subroutine that was called with the given registers: the stack pointer is
above the slot of the return address, and this slot and those below are as the call left them. -/
structure InSubroutine (caller : Cpu) (m : Machine) : Prop extends WellFormed m where
  above : caller.sp < m.core.cpu.sp
  kept : ∀ slot : Fin stackDepth, slot.val < caller.sp →
    m.core.cpu.stack.get slot = caller.stack.get slot
  returnAddress : ∀ slot : Fin stackDepth, slot.val = caller.sp →
    m.core.cpu.stack.get slot = lowWord (caller.pc + 2)

/-- The call is a cycle that executes the return from such a subroutine: the stack pointer comes
back to where it was, and pc goes behind the call. -/
structure ReturnsTo (caller : Cpu) (m : Machine) (command : Command) : Prop where
  cycle : command = .cycle
  executes : m.Executes
  ret : Instruction.ofWord m.core.fetch = .ret
  sp : (m.perform command).1.core.cpu.sp = caller.sp
  pc : (m.perform command).1.core.cpu.pc = lowWord (caller.pc + 2)

/-- Only the stack pointer and the slots up to the return address matter. -/
theorem InSubroutine.congr (h : InSubroutine caller m) {next : Machine} (hnext : next.WellFormed)
    (habove : caller.sp < next.core.cpu.sp)
    (hstack : ∀ slot : Fin stackDepth, slot.val ≤ caller.sp →
      next.core.cpu.stack.get slot = m.core.cpu.stack.get slot) : InSubroutine caller next where
  toWellFormed := hnext
  above := habove
  kept slot hslot := (hstack slot (Int.le_of_lt hslot)).trans (h.kept slot hslot)
  returnAddress slot hslot := (hstack slot (Int.le_of_eq hslot)).trans (h.returnAddress slot hslot)

/-- The same stack, in use up to the same slot. -/
theorem InSubroutine.of_sameStack (h : InSubroutine caller m) {next : Machine}
    (hnext : next.WellFormed) (hsame : Cpu.SameStack m.core.cpu next.core.cpu) :
    InSubroutine caller next := by
  refine h.congr hnext ?_ fun slot _ => ?_
  · rw [hsame.sp]
    exact h.above
  · rw [hsame.stack]

/-- A value that is put into one slot is not seen in another. -/
theorem get_set_of_ne {stack : Vector Int stackDepth} {slot other : Fin stackDepth} (value : Int)
    (h : slot.val ≠ other.val) :
    (stack.set slot.val value slot.isLt).get other = stack.get other :=
  Vector.getElem_set_ne slot.isLt other.isLt h

/-- **An instruction in a subroutine returns to the caller or stays inside.** -/
theorem InSubroutine.cycle (h : InSubroutine caller m) (hexec : m.Executes) :
    ReturnsTo caller m .cycle ∨ InSubroutine caller m.cycle.1 := by
  have hnext : m.cycle.1.WellFormed := h.toWellFormed.cycle
  have hcpu : m.cycle.1.core.cpu = m.core.step.core.cpu := congrArg Core.cpu hexec.2
  have habove := h.above
  rcases h.core.step_stack with ⟨slot, hslot, hsp, hstack⟩ |
    ⟨slot, hslot, hret, hsp, hstack, hpc⟩ | hsame
  · -- a call writes at the pointer, which is above the slots that count
    right
    refine h.congr hnext (by rw [hcpu, hsp]; omega) fun other hother => ?_
    rw [hcpu, hstack]
    exact get_set_of_ne _ (by omega)
  · by_cases hlast : m.core.cpu.sp - 1 = caller.sp
    · left
      refine ⟨rfl, hexec, hret, ?_, ?_⟩
      · show m.cycle.1.core.cpu.sp = caller.sp
        rw [hcpu, hsp, hlast]
      · show m.cycle.1.core.cpu.pc = lowWord (caller.pc + 2)
        rw [hcpu, hpc]
        exact h.returnAddress slot (hslot.symm.trans hlast)
    · -- a return from a subroutine that was called in this one
      right
      refine h.congr hnext (by rw [hcpu, hsp]; omega) fun other _ => ?_
      rw [hcpu, hstack]
  · right
    rw [← hcpu] at hsame
    exact h.of_sameStack hnext hsame

/-- **A subroutine returns to its caller or goes on**, whatever call a host makes but a reset. -/
theorem InSubroutine.perform (h : InSubroutine caller m) {command : Command}
    (hreset : command ≠ .reset) :
    ReturnsTo caller m command ∨ InSubroutine caller (m.perform command).1 := by
  have hnext := h.toWellFormed.perform command
  by_cases hcycle : command = .cycle
  · subst hcycle
    rcases h.toWellFormed.executes_or_rests with hexec | hrests
    · exact h.cycle hexec
    · have hcpu : (m.perform .cycle).1.core.cpu = m.core.cpu := congrArg Core.cpu hrests.1
      exact .inr (h.of_sameStack hnext ⟨by rw [hcpu], by rw [hcpu]⟩)
  · have hcpu := m.cpu_perform hcycle hreset
    exact .inr (h.of_sameStack hnext ⟨by rw [hcpu], by rw [hcpu]⟩)

/-! ### From the call on -/

/-- A call with a free slot leads into a subroutine. -/
theorem WellFormed.inSubroutine_cycle (h : m.WellFormed) (hexec : m.Executes) {target : UInt16}
    (hcall : Instruction.ofWord m.core.fetch = .call target) (hfree : m.core.cpu.sp < stackDepth) :
    InSubroutine m.core.cpu m.cycle.1 := by
  obtain ⟨slot, hslot⟩ := Cpu.exists_slot h.core.cpu.sp.1 hfree
  have hcore : m.cycle.1.core = m.core.step.core := hexec.2
  rw [Core.step_call hcall hslot] at hcore
  refine ⟨h.cycle, ?_, fun other hother => ?_, fun other hother => ?_⟩
  · rw [hcore]
    exact Int.lt_succ _
  · rw [hcore]
    exact get_set_of_ne _ (by omega)
  · obtain rfl : slot = other := Fin.ext (by omega)
    rw [hcore]
    exact Vector.getElem_set_self slot.isLt

/-- **Calls come back to their caller.** A well-formed machine executes a call while the stack has a
free slot, and then a host makes any calls but a reset. From then on the stack pointer is above its
value at the call, and all slots up to the return address are kept, until a cycle executes a return
that sets the stack pointer to the value at the call and pc behind the call. -/
theorem WellFormed.call_returns (h : m.WellFormed) (hexec : m.Executes) {target : UInt16}
    (hcall : Instruction.ofWord m.core.fetch = .call target) (hfree : m.core.cpu.sp < stackDepth)
    {commands : List Command} (hreset : .reset ∉ commands) :
    HoldsUntil (InSubroutine m.core.cpu) (ReturnsTo m.core.cpu) m.cycle.1 commands := by
  have hinside := h.inSubroutine_cycle hexec hcall hfree
  refine holdsUntil_of_perform (fun command hmem next hnext => ?_) hinside
  have hne : command ≠ .reset := by
    rintro rfl
    exact hreset hmem
  exact hnext.perform hne

/-- A program that calls a subroutine, which calls another one. -/
def nestedCalls : Machine :=
  (create {} (some 0)).run
    [.loadRom [0x22, 0x06, 0x12, 0x02, 0x00, 0x00, 0x22, 0x0A, 0x00, 0xEE, 0x00, 0xEE]]

/-- The second subroutine returns, and the host stops the first one at a breakpoint, puts a jump
there, and a return where the jump goes. -/
def patchedSubroutine : List Command :=
  [.cycle, .tick, .setBreakpoint 0x208, .cycle, .cycle,
    .loadRom [0x22, 0x06, 0x12, 0x02, 0x00, 0xEE, 0x22, 0x0A, 0x12, 0x04], .pause, .resume, .cycle,
    .cycle]

theorem call_returns_nestedCalls :
    nestedCalls.WellFormed ∧ nestedCalls.Executes ∧
      Instruction.ofWord nestedCalls.core.fetch = .call 0x206 ∧
      nestedCalls.core.cpu.sp < stackDepth ∧ .reset ∉ patchedSubroutine ∧
      HoldsUntil (InSubroutine nestedCalls.core.cpu) (ReturnsTo nestedCalls.core.cpu)
        nestedCalls.cycle.1 patchedSubroutine ∧
      (nestedCalls.cycle.1.run patchedSubroutine).core.cpu.sp = 0 ∧
      (nestedCalls.cycle.1.run patchedSubroutine).core.cpu.pc = 0x202 := by
  have hwell : nestedCalls.WellFormed := ((Reachable.create _ _).run _).wellFormed
  have hanswer : nestedCalls.cycle.2 ≠ .ok none := by decide +kernel
  have hexec : nestedCalls.Executes :=
    hwell.executes_or_rests.resolve_right fun hrests => hanswer hrests.2
  have hcall : Instruction.ofWord nestedCalls.core.fetch = .call 0x206 := by decide +kernel
  have hfree : nestedCalls.core.cpu.sp < stackDepth := by decide +kernel
  have hreset : .reset ∉ patchedSubroutine := by decide
  exact ⟨hwell, hexec, hcall, hfree, hreset, hwell.call_returns hexec hcall hfree hreset,
    by decide +kernel, by decide +kernel⟩

end Machine

end Chip8
