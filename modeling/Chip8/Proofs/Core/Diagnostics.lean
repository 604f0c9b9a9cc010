import Chip8.Instruction.Operation
import Chip8.Proofs.Core.Frame

/-!
# Recorded events

A log keeps the newest of the events that were recorded in it. Dropping the oldest ones at once or
later makes no difference, so a log is told by all events so far, however it got full.

There are three kinds of events, and each has its own words. Two are the faults of the stack, a call
with a full one and a return with an empty one. The third is a word that the machine has no
instruction for: one that fits no pattern, or one that asks for a routine of the host machine. A
fault leaves everything in the core as it was, while such a word is passed over.

## Main definitions

* `newest` — the events that a log keeps
* `Core.FaultsOnStack` — the next instruction is a fault of the stack
* `Word.Unavailable` — the words without an instruction
* `Word.fault?` — the event of a word, by its digits and the stack pointer

## Main results

* `pushDiagnostic_eq_newest`, `newest_newest_append` — a log is told by all events so far
* `Core.event?_ofWord` — the event of an instruction is that of its word
* `Core.faultsOnStack_iff` — the faults of the stack are the events that halt
* `Core.WellFormed.step_of_fault`, `Core.step_of_unavailable` — what the two do
-/

namespace Chip8

/-! ### Logs -/

/-- The newest events, as many as a log keeps. -/
def newest (events : List Diagnostic) : List Diagnostic :=
  events.drop (events.length - diagnosticLimit)

theorem pushDiagnostic_eq_newest (log : List Diagnostic) (d : Diagnostic) :
    pushDiagnostic log d = newest (log ++ [d]) := by
  rw [newest, List.length_append]
  rfl

/-- Adding an event puts it behind those that are left. -/
theorem pushDiagnostic_eq_concat (log : List Diagnostic) (event : Diagnostic) :
    pushDiagnostic log event = log.drop (log.length + 1 - diagnosticLimit) ++ [event] := by
  have hle : log.length + 1 - diagnosticLimit ≤ log.length := by
    show log.length + 1 - 100 ≤ log.length
    omega
  rw [pushDiagnostic, List.drop_append_of_le_length hle]

/-- A log never keeps more than the limit. -/
theorem length_newest (events : List Diagnostic) :
    (newest events).length = min diagnosticLimit events.length := by
  rw [newest, List.length_drop]
  omega

/-- **Events that were dropped early would have been dropped later.** -/
theorem newest_newest_append (events later : List Diagnostic) :
    newest (newest events ++ later) = newest (events ++ later) := by
  have hle : events.length - diagnosticLimit ≤ events.length := Nat.sub_le _ _
  have hdrop : events.length - diagnosticLimit +
      ((events.drop (events.length - diagnosticLimit) ++ later).length - diagnosticLimit) =
        (events ++ later).length - diagnosticLimit := by
    rw [List.length_append, List.length_append, List.length_drop]
    omega
  simp only [newest]
  rw [← hdrop, ← List.drop_drop, List.drop_append_of_le_length hle]

/-! ### Words without an instruction -/

/-- Only words that fit no pattern have the kind of unknown ones. -/
theorem Instruction.kind_eq_unknown_iff {i : Instruction} :
    i.kind = .unknown ↔ ∃ w, i = .unknown w := by
  constructor
  · intro h
    cases i with
    | unknown w => exact ⟨w, rfl⟩
    | skip test => cases test <;> cases h
    | arithmetic op x y => cases op <;> cases h
    | _ => cases h
  · rintro ⟨w, rfl⟩
    rfl

/-- The words that the machine has no instruction for: `0nnn` but for the two that it has, and those
that fit no pattern. -/
def Word.Unavailable (w : UInt16) : Prop :=
  w.toNat / 4096 = 0 ∧ w ≠ 0x00E0 ∧ w ≠ 0x00EE ∨ (Instruction.ofWord w).kind = .unknown

theorem Word.Unavailable.ofWord {w : UInt16} (h : Word.Unavailable w) :
    (∃ address, Instruction.ofWord w = .sys address) ∨ ∃ v, Instruction.ofWord w = .unknown v := by
  rcases h with ⟨hgroup, hclear, hret⟩ | hkind
  · refine .inl ⟨Word.nnn w, ?_⟩
    simp only [Instruction.ofWord, hgroup, if_neg hclear, if_neg hret]
  · exact .inr (Instruction.kind_eq_unknown_iff.1 hkind)

instance (w : UInt16) : Decidable (Word.Unavailable w) := inferInstanceAs (Decidable (_ ∨ _))

/-! ### The events of words -/

/-- What a word does wrong under a stack pointer: it has no instruction, or it is a call `2nnn` with
a full stack or the return `00EE` with an empty one. -/
def Word.fault? (w : UInt16) (sp : Int) : Option DiagnosticKind :=
  if Word.Unavailable w then some .unknownOpcode
  else if w.toNat / 4096 = 2 ∧ sp = stackDepth then some .stackOverflow
  else if w = 0x00EE ∧ sp = 0 then some .stackUnderflow
  else none

namespace Instruction

variable {w address : UInt16}

theorem of_ofWord_eq_sys (h : ofWord w = .sys address) :
    w.toNat / 4096 = 0 ∧ w ≠ 0x00E0 ∧ w ≠ 0x00EE := by
  unfold ofWord ofMiscByte? at h
  grind

theorem of_ofWord_eq_call (h : ofWord w = .call address) : w.toNat / 4096 = 2 := by
  unfold ofWord ofMiscByte? at h
  grind

theorem of_ofWord_eq_ret (h : ofWord w = .ret) : w = 0x00EE := by
  unfold ofWord ofMiscByte? at h
  grind

end Instruction

namespace Core

variable {c : Core} {kind : DiagnosticKind}

/-- **What an instruction does wrong is read off its word.** -/
theorem event?_ofWord (c : Core) (w : UInt16) :
    c.event? (Instruction.ofWord w) = Word.fault? w c.cpu.sp := by
  rw [Word.fault?]
  by_cases hnone : Word.Unavailable w
  · rw [if_pos hnone]
    rcases hnone.ofWord with ⟨address, hi⟩ | ⟨v, hi⟩
    · rw [hi]
      rfl
    · rw [hi]
      rfl
  rw [if_neg hnone]
  by_cases hcall : w.toNat / 4096 = 2
  · have hret : w ≠ 0x00EE := by
      rintro rfl
      exact absurd hcall (by decide)
    have hi : Instruction.ofWord w = .call (Word.nnn w) := by
      simp only [Instruction.ofWord, hcall]
    have hevent : c.event? (.call (Word.nnn w)) =
        if c.cpu.sp = stackDepth then some .stackOverflow else none := rfl
    simp only [hi, hevent, hcall, hret, true_and, false_and, if_false]
  by_cases hret : w = 0x00EE
  · have hi : Instruction.ofWord w = .ret := by
      rw [hret]
      decide
    have hevent : c.event? .ret =
        if c.cpu.sp = 0 then some .stackUnderflow else none := rfl
    have hfull : ¬ (w.toNat / 4096 = 2 ∧ c.cpu.sp = stackDepth) := fun h => hcall h.1
    rw [hi, if_neg hfull, hevent]
    simp only [hret, true_and]
  simp only [hcall, hret, false_and, if_false]
  -- every other instruction does nothing wrong
  cases hi : Instruction.ofWord w with
  | call => exact absurd (Instruction.of_ofWord_eq_call hi) hcall
  | ret => exact absurd (Instruction.of_ofWord_eq_ret hi) hret
  | sys => exact absurd (.inl (Instruction.of_ofWord_eq_sys hi)) hnone
  | unknown v => exact absurd (.inr (Instruction.kind_eq_unknown_iff.2 ⟨v, hi⟩)) hnone
  | _ => rfl

/-- A word without an instruction is passed over and recorded. -/
theorem step_of_unavailable (h : Word.Unavailable c.fetch) :
    c.step =
      ⟨{ c with
          cpu := c.cpu.advance
          cycles := c.cycles + 1
          diagnostics := newest (c.diagnostics ++ [⟨.unknownOpcode, c.cpu.pc, c.fetch⟩]) },
        c.fetch, .event .unknownOpcode⟩ := by
  rw [step_eq, ← pushDiagnostic_eq_newest]
  rcases h.ofWord with ⟨address, hi⟩ | ⟨v, hi⟩
  · rw [hi]
    rfl
  · rw [hi]
    rfl

/-! ### Faults of the stack -/

/-- The next instruction is a fault of the stack: a call with a full one, or a return with an empty
one. -/
inductive FaultsOnStack (c : Core) : DiagnosticKind → Prop where
  | overflow {target : UInt16} (hi : Instruction.ofWord c.fetch = .call target)
      (hfull : c.cpu.sp = stackDepth) : FaultsOnStack c .stackOverflow
  | underflow (hi : Instruction.ofWord c.fetch = .ret) (hempty : c.cpu.sp = 0) :
    FaultsOnStack c .stackUnderflow

/-- **The faults of the stack are the events that halt the machine.** -/
theorem faultsOnStack_iff :
    c.FaultsOnStack kind ↔
      c.event? (Instruction.ofWord c.fetch) = some kind ∧ kind.halts = true := by
  constructor
  · rintro (⟨hi, hfull⟩ | ⟨hi, hempty⟩)
    · rw [hi]
      exact ⟨if_pos hfull, rfl⟩
    · rw [hi]
      exact ⟨if_pos hempty, rfl⟩
  · rintro ⟨hevent, hhalts⟩
    cases hi : Instruction.ofWord c.fetch with
    | call target =>
      by_cases hfull : c.cpu.sp = stackDepth
      · have hcall : c.event? (.call target) = some .stackOverflow := if_pos hfull
        rw [hi, hcall] at hevent
        obtain rfl := Option.some.inj hevent
        exact .overflow hi hfull
      · have hcall : c.event? (.call target) = none := if_neg hfull
        rw [hi, hcall] at hevent
        cases hevent
    | ret =>
      by_cases hempty : c.cpu.sp = 0
      · have hret : c.event? .ret = some .stackUnderflow := if_pos hempty
        rw [hi, hret] at hevent
        obtain rfl := Option.some.inj hevent
        exact .underflow hi hempty
      · have hret : c.event? .ret = none := if_neg hempty
        rw [hi, hret] at hevent
        cases hevent
    | sys | unknown =>
      -- these are recorded and do not halt
      rw [hi] at hevent
      obtain rfl := Option.some.inj hevent
      cases hhalts
    | _ =>
      rw [hi] at hevent
      cases hevent

/-- A fault of the stack is only counted and recorded. -/
theorem WellFormed.step_of_fault (h : c.WellFormed) (hfault : c.FaultsOnStack kind) :
    c.step =
      ⟨{ c with
          cycles := c.cycles + 1
          diagnostics := newest (c.diagnostics ++ [⟨kind, c.cpu.pc, c.fetch⟩]) },
        c.fetch, .event kind⟩ := by
  rw [← pushDiagnostic_eq_newest]
  cases hfault with
  | overflow hi hfull => exact h.step_call_of_full hi hfull
  | underflow hi hempty => exact h.step_ret_of_empty hi hempty

end Core

end Chip8
