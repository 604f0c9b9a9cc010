import Chip8.Proofs.Core.WellFormed

/-!
# The stack in one step

Of all instructions only a call and a return touch the stack or its pointer. A call puts the address
behind it into the slot at the pointer and moves the pointer up; a return moves it down and takes the
address from there. With a full stack, or an empty one, they do neither: the step leaves everything
as it was, but that it is counted and recorded.

## Main definitions

* `Cpu.SameStack` — two sets of registers with the same stack and pointer

## Main results

* `Core.execute_sameStack` — instructions other than calls and returns keep the stack
* `Core.step_call`, `Core.step_ret` — calls and returns
* `Core.WellFormed.step_call_of_full`, `Core.WellFormed.step_ret_of_empty` — their faults
* `Core.WellFormed.step_stack` — the three things that a step can do to the stack
-/

namespace Chip8

namespace Cpu

variable {c : Cpu}

/-- The second registers have the stack of the first, in use up to the same slot. -/
structure SameStack (c d : Cpu) : Prop where
  sp : d.sp = c.sp
  stack : d.stack = c.stack

theorem sameStack_setResult (c : Cpu) (x : Register) (result : Int × Option Int) :
    SameStack c (c.setResult x result) := by
  obtain ⟨value, flag⟩ := result
  cases flag with
  | none => exact ⟨rfl, rfl⟩
  | some flag => exact ⟨rfl, rfl⟩

end Cpu

namespace Core

variable {c : Core}

/-! ### Instructions that keep the stack -/

/-- **Instructions other than calls and returns keep the stack.** -/
theorem execute_sameStack (c : Core) {i : Instruction} (hret : i ≠ .ret)
    (hcall : ∀ target, i ≠ .call target) : Cpu.SameStack c.cpu (c.execute i).1.cpu := by
  cases i with
  | ret => exact absurd rfl hret
  | call target => exact absurd rfl (hcall target)
  | skip test =>
    simp only [execute]
    split
    · exact ⟨rfl, rfl⟩
    · exact ⟨rfl, rfl⟩
  | arithmetic op x y => exact c.cpu.sameStack_setResult x _
  | waitKey x =>
    show Cpu.SameStack c.cpu (c.awaitKey x).1.cpu
    unfold awaitKey
    split
    · exact ⟨rfl, rfl⟩
    · exact ⟨rfl, rfl⟩
    · exact ⟨rfl, rfl⟩
  | _ => exact ⟨rfl, rfl⟩

/-! ### Calls and returns -/

/-- A call with a free slot. -/
theorem step_call {target : UInt16} (hi : Instruction.ofWord c.fetch = .call target)
    {slot : Fin stackDepth} (hslot : c.cpu.sp = slot.val) :
    c.step =
      ⟨{ c with
          cpu :=
            { c.cpu with
              stack := c.cpu.stack.set slot.val (lowWord (c.cpu.pc + 2)) slot.isLt
              sp := c.cpu.sp + 1
              pc := target.toNat }
          cycles := c.cycles + 1 }, c.fetch, .done⟩ := by
  have hpush := Cpu.push_of_slot (c := c.advanced.cpu) target.toNat hslot
  have hexec : c.advanced.execute (.call target) = c.advanced.callAt target.toNat := rfl
  rw [step_eq, hi, hexec, callAt, hpush]
  rfl

/-- A return with a slot in use. -/
theorem step_ret (hi : Instruction.ofWord c.fetch = .ret) {slot : Fin stackDepth}
    (hslot : c.cpu.sp - 1 = slot.val) :
    c.step =
      ⟨{ c with
          cpu := { c.cpu with sp := c.cpu.sp - 1, pc := c.cpu.stack.get slot }
          cycles := c.cycles + 1 }, c.fetch, .done⟩ := by
  have hpop := Cpu.pop_of_slot (c := c.advanced.cpu) hslot
  have hexec : c.advanced.execute .ret = c.advanced.returnBack := rfl
  rw [step_eq, hi, hexec, returnBack, hpop]
  rfl

/-- A call with a full stack is only counted and recorded: pc comes back to it. -/
theorem WellFormed.step_call_of_full (h : c.WellFormed) {target : UInt16}
    (hi : Instruction.ofWord c.fetch = .call target) (hfull : c.cpu.sp = stackDepth) :
    c.step =
      ⟨{ c with
          cycles := c.cycles + 1
          diagnostics := pushDiagnostic c.diagnostics ⟨.stackOverflow, c.cpu.pc, c.fetch⟩ },
        c.fetch, .event .stackOverflow⟩ := by
  have hpush := Cpu.push_of_full (c := c.advanced.cpu) target.toNat hfull
  have hexec : c.advanced.execute (.call target) = c.advanced.callAt target.toNat := rfl
  have hrewind : c.advanced.cpu.rewind = c.cpu := h.cpu.rewind_advance
  rw [step_eq, hi, hexec, Core.callAt, hpush, hrewind]
  rfl

/-- A return with an empty stack is only counted and recorded: pc comes back to it. -/
theorem WellFormed.step_ret_of_empty (h : c.WellFormed)
    (hi : Instruction.ofWord c.fetch = .ret) (hempty : c.cpu.sp = 0) :
    c.step =
      ⟨{ c with
          cycles := c.cycles + 1
          diagnostics := pushDiagnostic c.diagnostics ⟨.stackUnderflow, c.cpu.pc, c.fetch⟩ },
        c.fetch, .event .stackUnderflow⟩ := by
  have hpop := Cpu.pop_of_empty (c := c.advanced.cpu) hempty
  have hexec : c.advanced.execute .ret = c.advanced.returnBack := rfl
  have hrewind : c.advanced.cpu.rewind = c.cpu := h.cpu.rewind_advance
  rw [step_eq, hi, hexec, Core.returnBack, hpop, hrewind]
  rfl

/-! ### Any step -/

/-- A step of another instruction keeps the stack. -/
theorem step_sameStack (hret : Instruction.ofWord c.fetch ≠ .ret)
    (hcall : ∀ target, Instruction.ofWord c.fetch ≠ .call target) :
    Cpu.SameStack c.cpu c.step.core.cpu := by
  have hexec := c.advanced.execute_sameStack hret hcall
  rw [step_core, counted_cpu]
  exact ⟨hexec.sp, hexec.stack⟩

/-- **What a step can do to the stack.** It calls, which writes the slot at the pointer and no
other; or it returns, which writes none; or it leaves the stack and its pointer as they were. -/
theorem WellFormed.step_stack (h : c.WellFormed) :
    (∃ slot : Fin stackDepth, c.cpu.sp = slot.val ∧
        c.step.core.cpu.sp = c.cpu.sp + 1 ∧
        c.step.core.cpu.stack =
          c.cpu.stack.set slot.val (lowWord (c.cpu.pc + 2)) slot.isLt) ∨
      (∃ slot : Fin stackDepth, c.cpu.sp - 1 = slot.val ∧
        Instruction.ofWord c.fetch = .ret ∧ c.step.core.cpu.sp = c.cpu.sp - 1 ∧
        c.step.core.cpu.stack = c.cpu.stack ∧ c.step.core.cpu.pc = c.cpu.stack.get slot) ∨
      Cpu.SameStack c.cpu c.step.core.cpu := by
  obtain ⟨h₀, hle⟩ := h.cpu.sp
  by_cases hret : Instruction.ofWord c.fetch = .ret
  · rcases Int.lt_or_eq_of_le h₀ with hpos | hempty
    · obtain ⟨slot, hslot⟩ := Cpu.exists_slot (n := c.cpu.sp - 1) (by omega) (by omega)
      rw [step_ret hret hslot]
      exact .inr (.inl ⟨slot, hslot, hret, rfl, rfl, rfl⟩)
    · rw [h.step_ret_of_empty hret hempty.symm]
      exact .inr (.inr ⟨rfl, rfl⟩)
  · by_cases hcall : ∃ target, Instruction.ofWord c.fetch = .call target
    · obtain ⟨target, hcall⟩ := hcall
      rcases Int.lt_or_eq_of_le hle with hlt | hfull
      · obtain ⟨slot, hslot⟩ := Cpu.exists_slot h₀ hlt
        rw [step_call hcall hslot]
        exact .inl ⟨slot, hslot, rfl, rfl⟩
      · rw [h.step_call_of_full hcall hfull]
        exact .inr (.inr ⟨rfl, rfl⟩)
    · exact .inr (.inr (step_sameStack hret (not_exists.1 hcall)))

end Core

end Chip8
