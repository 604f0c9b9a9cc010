import Chip8.Proofs.Core.Arithmetic
import Chip8.Proofs.Core.Diagnostics
import Chip8.Proofs.Instruction.Text

/-!
# The effect that a text shows

Words that have the same text do the same. Most of them are the same instruction. Those that are no
instruction do nothing, whichever of them it is, so that they are told apart by the recorded event
only. Shifts do not show their second register. In the dialects that shift the first one it does not
matter; in the others the text of a shift does not tell the effect.

## Main definitions

* `IsShiftText` — the texts of shifts
* `Core.afterWord` — the core after the instruction of a word, with the event that it records
* `Core.SameButWord` — cores that differ in the word of the latest event only

## Main results

* `isShiftText_disassemble_iff` — which integers have the text of a shift
* `Core.execute_eq_of_shown_eq` — what is shown tells the effect
* `Core.WellFormed.step_core_eq_afterWord`, `Core.WellFormed.sameButWord_step` — steps in terms of
  the words that they fetch
* `Core.effect_of_text` — the text tells the effect
-/

namespace Chip8

/-! ### Shifts -/

/-- A shift of the first register does not look at the second one. -/
theorem ArithmeticOp.eval_of_isShift {op : ArithmeticOp} (h : op.isShift = true) (vx vy : Int) :
    op.eval false vx vy = op.eval false vx vx := by
  cases op with
  | shiftRight | shiftLeft => rfl
  | _ => cases h

/-- Whether an instruction is a shift. -/
def Instruction.isShift : Instruction → Bool
  | .arithmetic op _ _ => op.isShift
  | _ => false

/-- Instructions that show the same are both shifts, or none of them is. -/
theorem Instruction.isShift_eq_of_shown_eq {i j : Instruction} (h : i.shown = j.shown) :
    i.isShift = j.isShift := by
  have hshown (i : Instruction) : i.isShift = i.shown.elim false Instruction.isShift := by
    cases i <;> rfl
  rw [hshown i, hshown j, h]

/-- Integers with the same text show the same. -/
theorem Instruction.shown_eq_of_disassemble_eq {a b : Int} (h : disassemble a = disassemble b) :
    (ofWord (UInt16.ofInt a)).shown = (ofWord (UInt16.ofInt b)).shown := by
  rw [← ofText?_disassemble, ← ofText?_disassemble, h]

/-- The texts of shifts: those of the words `8xy6` and `8xyE`. -/
def IsShiftText (text : String) : Prop :=
  ∃ x y : Register, ∃ digit ∈ [0x6, 0xE],
    text = disassemble (0x8000 + x.val * 256 + y.val * 16 + digit : Nat)

/-- These numbers are words, and their instructions are operations on two registers. -/
theorem ofWord_ofInt_arithmetic {x y : Register} {digit : Nat} {op : ArithmeticOp}
    (hlt : digit < 16) (hop : ArithmeticOp.ofDigit? digit = some op) :
    Instruction.ofWord (UInt16.ofInt (0x8000 + x.val * 256 + y.val * 16 + digit : Nat)) =
      .arithmetic op x y := by
  have hword : (UInt16.ofNat (0x8000 + x.val * 256 + y.val * 16 + digit)).toNat =
      0x8000 + x.val * 256 + y.val * 16 + digit :=
    UInt16.toNat_ofNat_of_lt' (by show _ < 65536; omega)
  rw [← hword, Word.ofInt_toNat]
  exact Instruction.ofWord_arithmetic hword hlt hop

/-- **The text of an integer is that of a shift if its instruction is one**, and only then. -/
theorem isShiftText_disassemble_iff {n : Int} :
    IsShiftText (disassemble n) ↔ (Instruction.ofWord (UInt16.ofInt n)).isShift = true := by
  constructor
  · rintro ⟨x, y, digit, hmem, htext⟩
    have hdigit : digit < 16 ∧ ∃ op, ArithmeticOp.ofDigit? digit = some op ∧ op.isShift = true := by
      rcases List.mem_pair.1 hmem with rfl | rfl
      · exact ⟨by decide, .shiftRight, rfl, rfl⟩
      · exact ⟨by decide, .shiftLeft, rfl, rfl⟩
    obtain ⟨hlt, op, hop, hshift⟩ := hdigit
    rw [Instruction.isShift_eq_of_shown_eq (Instruction.shown_eq_of_disassemble_eq htext),
      ofWord_ofInt_arithmetic hlt hop]
    exact hshift
  · intro h
    cases hi : Instruction.ofWord (UInt16.ofInt n) with
    | arithmetic op x y =>
      rw [hi] at h
      have hdigit : ∃ digit ∈ [0x6, 0xE], digit < 16 ∧ ArithmeticOp.ofDigit? digit = some op := by
        cases op with
        | shiftRight => exact ⟨0x6, by decide⟩
        | shiftLeft => exact ⟨0xE, by decide⟩
        | _ => cases h
      obtain ⟨digit, hmem, hlt, hop⟩ := hdigit
      have hword := ofWord_ofInt_arithmetic (x := x) (y := y) hlt hop
      exact ⟨x, y, digit, hmem, Operation.render_congr (hi.trans hword.symm)⟩
    | _ =>
      rw [hi] at h
      cases h

/-! ### Executing what is shown -/

namespace Core

variable {c : Core} {i j : Instruction} {v w : UInt16}

/-- **An instruction does what its text shows**, and nothing where it shows nothing. A shift needs a
dialect that does not look at what is not shown. -/
theorem execute_eq_shown (c : Core) (i : Instruction)
    (hshift : i.isShift = true → c.dialect.shiftUsesVy = false) :
    c.execute i = i.shown.elim (c, .event .unknownOpcode) c.execute := by
  cases i with
  | arithmetic op x y =>
    cases hop : op.isShift with
    | true =>
      have heval := ArithmeticOp.eval_of_isShift hop (c.cpu.reg x) (c.cpu.reg y)
      simp only [Instruction.shown, hop, if_true, Option.elim_some, execute, hshift hop, heval]
    | false => simp only [Instruction.shown, hop, Bool.false_eq_true, if_false, Option.elim_some]
  | _ => rfl

/-- **What is shown tells the effect.** -/
theorem execute_eq_of_shown_eq (h : i.shown = j.shown)
    (hshift : i.isShift = true → c.dialect.shiftUsesVy = false) :
    c.execute i = c.execute j := by
  rw [execute_eq_shown c i hshift, h, ← execute_eq_shown c j]
  rwa [← Instruction.isShift_eq_of_shown_eq h]

/-! ### Recorded events -/

/-- The core after the instruction of a word that was fetched at an address. What it does wrong is
recorded with the address and the word. -/
def afterWord (c : Core) (pc : Int) (w : UInt16) : Core :=
  match c.execute (Instruction.ofWord w) with
  | (next, .event kind) =>
    { next with diagnostics := pushDiagnostic next.diagnostics ⟨kind, pc, w⟩ }
  | (next, _) => next

/-- A step moves pc on, executes the word that it fetched there, and counts. -/
theorem WellFormed.step_core_eq_afterWord (h : c.WellFormed) :
    c.step.core =
      { c.advanced.afterWord c.cpu.pc c.fetch with cycles := c.cycles + 1 } := by
  have hbroken := h.step_outcome_ne_broken
  have hcycles := c.advanced.execute_cycles (Instruction.ofWord c.fetch)
  rw [step_outcome] at hbroken
  rw [step_core, afterWord]
  cases hrun : c.advanced.execute (Instruction.ofWord c.fetch) with
  | mk next outcome =>
    rw [hrun] at hbroken hcycles
    cases outcome with
    | broken => exact absurd rfl hbroken
    | done | event =>
      have hnext : next.cycles = c.cycles := hcycles
      rw [← hnext]
      rfl

/-- The cores are the same but for the word of the latest event. -/
structure SameButWord (c d : Core) : Prop where
  rest : { c with diagnostics := [] } = { d with diagnostics := [] }
  /-- The events agree in their kinds and in their addresses. -/
  places : c.diagnostics.map (fun event => (event.kind, event.pc)) =
    d.diagnostics.map fun event => (event.kind, event.pc)
  /-- All events but the latest one agree. -/
  older : c.diagnostics.dropLast = d.diagnostics.dropLast

/-- Words with the same effect leave cores that differ in the recorded word only. -/
theorem sameButWord_afterWord
    (h : c.execute (Instruction.ofWord v) = c.execute (Instruction.ofWord w)) (pc : Int) :
    SameButWord (c.afterWord pc v) (c.afterWord pc w) := by
  rw [afterWord, afterWord, h]
  cases c.execute (Instruction.ofWord w) with
  | mk next outcome =>
    cases outcome with
    | done | broken => exact ⟨rfl, rfl, rfl⟩
    | event kind =>
      refine ⟨rfl, ?_, ?_⟩
      · simp only [pushDiagnostic_eq_concat, List.map_append, List.map_cons, List.map_nil]
      · simp only [pushDiagnostic_eq_concat, List.dropLast_concat]

theorem afterWord_cycles (c : Core) (pc : Int) (w : UInt16) :
    (c.afterWord pc w).cycles = c.cycles := by
  have hcycles := c.execute_cycles (Instruction.ofWord w)
  rw [afterWord]
  cases hrun : c.execute (Instruction.ofWord w) with
  | mk next outcome =>
    rw [hrun] at hcycles
    cases outcome <;> exact hcycles

/-- A step leaves what any other word with the effect of the one that it fetches would leave, but
that it is counted. -/
theorem WellFormed.sameButWord_step (h : c.WellFormed)
    (heffect : c.advanced.execute (Instruction.ofWord c.fetch) =
      c.advanced.execute (Instruction.ofWord w)) :
    SameButWord { c.step.core with cycles := c.cycles } (c.advanced.afterWord c.cpu.pc w) := by
  have hcycles : (c.advanced.afterWord c.cpu.pc c.fetch).cycles = c.cycles :=
    c.advanced.afterWord_cycles c.cpu.pc c.fetch
  have huncounted : { c.step.core with cycles := c.cycles } =
      c.advanced.afterWord c.cpu.pc c.fetch := by
    rw [h.step_core_eq_afterWord, ← hcycles]
  rw [huncounted]
  exact sameButWord_afterWord heffect c.cpu.pc

/-- **The text tells the effect.** When two integers have the same text, and it is not that of a
shift or the dialect shifts the first register, the instructions of their low sixteen bits do the
same to every core, and end in the same way. What they record is of one kind and at one place; it
differs at most in the word, and nothing else is different. So a step that fetches the one word
leaves what the other one would leave, but that it is counted. -/
theorem effect_of_text {a b : Int} (htext : disassemble a = disassemble b) (c : Core)
    (hshift : c.dialect.shiftUsesVy = false ∨ ¬ IsShiftText (disassemble a)) :
    c.execute (Instruction.ofWord (UInt16.ofInt a)) =
        c.execute (Instruction.ofWord (UInt16.ofInt b)) ∧
      (∀ pc, SameButWord (c.afterWord pc (UInt16.ofInt a)) (c.afterWord pc (UInt16.ofInt b))) ∧
      ∀ before : Core, before.WellFormed → before.advanced = c →
        before.fetch = UInt16.ofInt a →
          SameButWord { before.step.core with cycles := before.cycles }
            (c.afterWord before.cpu.pc (UInt16.ofInt b)) := by
  have heffect := execute_eq_of_shown_eq (Instruction.shown_eq_of_disassemble_eq htext) fun hi =>
    hshift.resolve_right fun hnot => hnot (isShiftText_disassemble_iff.2 hi)
  refine ⟨heffect, sameButWord_afterWord heffect, fun before hwell hadvanced hfetch => ?_⟩
  rw [← hadvanced, ← hfetch] at heffect
  rw [← hadvanced]
  exact hwell.sameButWord_step heffect

/-- A core that is about to execute a shift. -/
def aboutToShift : Core :=
  { initial {} (some 0) with memory := (initial {} (some 0)).memory.load 0x200 [0x81, 0x26] }

/-- Two shifts that differ in their second register, one of them with a bit too many in front, and
two words that are no instruction. -/
theorem effect_of_text_unseen :
    disassemble 0x8126 = disassemble 0x18136 ∧
      (initial {} (some 0)).dialect.shiftUsesVy = false ∧
      (initial {} (some 0)).execute (Instruction.ofWord (UInt16.ofInt 0x8126)) =
        (initial {} (some 0)).execute (Instruction.ofWord (UInt16.ofInt 0x18136)) ∧
      disassemble (-0x7ED8) = disassemble 0x8FF8 ∧ ¬ IsShiftText (disassemble (-0x7ED8)) ∧
      SameButWord
        ((initial { shiftUsesVy := true } (some 0)).afterWord 0x200 (UInt16.ofInt (-0x7ED8)))
        ((initial { shiftUsesVy := true } (some 0)).afterWord 0x200 (UInt16.ofInt 0x8FF8)) ∧
      aboutToShift.WellFormed ∧ aboutToShift.fetch = UInt16.ofInt 0x8126 ∧
      SameButWord { aboutToShift.step.core with cycles := aboutToShift.cycles }
        (aboutToShift.advanced.afterWord aboutToShift.cpu.pc (UInt16.ofInt 0x18136)) := by
  have hshifts : disassemble 0x8126 = disassemble 0x18136 := by decide +kernel
  have hunknown : disassemble (-0x7ED8) = disassemble 0x8FF8 := by decide +kernel
  have hnoShift : ¬ IsShiftText (disassemble (-0x7ED8)) := fun hshift =>
    absurd (isShiftText_disassemble_iff.1 hshift) (by decide +kernel)
  have hmemory (c : Core) (h : c.WellFormed) (memory : Memory memorySize) :
      WellFormed { c with memory } := { h with }
  have hwell : aboutToShift.WellFormed := hmemory _ (wellFormed_initial {} (some 0)) _
  have hfetch : aboutToShift.fetch = UInt16.ofInt 0x8126 := by decide +kernel
  exact ⟨hshifts, rfl, (effect_of_text hshifts _ (.inl rfl)).1, hunknown, hnoShift,
    (effect_of_text hunknown _ (.inr hnoShift)).2.1 0x200, hwell, hfetch,
    (effect_of_text hshifts aboutToShift.advanced (.inl rfl)).2.2 aboutToShift hwell rfl hfetch⟩

/-- Where shifts read the second register, the two shifts above have different effects. -/
example :
    let c : Core := { initial { shiftUsesVy := true } none with cpu := Cpu.initial.setReg 2 2 }
    ((c.execute (Instruction.ofWord 0x8126)).1.cpu.reg 1,
      (c.execute (Instruction.ofWord 0x8136)).1.cpu.reg 1) = (1, 0) := by decide +kernel

end Core

end Chip8
