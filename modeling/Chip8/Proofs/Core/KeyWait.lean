import Chip8.Proofs.Core.WellFormed
import Mathlib.Data.Fintype.Basic
import Mathlib.Order.Bounds.Basic

/-!
# Latched keys and waiting instructions

A key is latched only while the instruction at pc waits for its release. The latch is set by that
instruction, which then stands still until it has emptied the latch again; the same word is fetched
all the while, since nothing else is executed in between. So the clause survives every step, and
what breaks it is only a host that writes another program over the waiting instruction.

## Main definitions

* `Keypad.heldKeys` — the keys that are held
* `Core.LatchWaits` — a latched key means that the word at pc waits for a key

## Main results

* `Keypad.firstNumber?_eq_none_iff`, `Keypad.isLeast_of_firstNumber?` — the least held key
* `Core.WellFormed.step_of_wait`, `Core.step_of_key` — the steps of a waiting instruction
* `Core.WellFormed.step_latchWaits` — the clause survives every step
-/

namespace Chip8

/-! ### Held keys -/

namespace Keypad

variable {k : Keypad}

/-- The keys that are held. -/
def heldKeys (k : Keypad) : Finset Key := {key | k.isHeld key = true}

theorem mem_heldKeys {key : Key} : key ∈ k.heldKeys ↔ k.isHeld key = true := by
  simp only [heldKeys, Finset.mem_filter, Finset.mem_univ, true_and]

theorem firstNumber?_eq_none_iff : k.firstNumber? = none ↔ k.heldKeys = ∅ := by
  rw [firstNumber?, Option.map_eq_none_iff, firstHeld?, List.find?_eq_none,
    Finset.eq_empty_iff_forall_notMem]
  simp only [List.mem_finRange, true_implies, mem_heldKeys]

theorem isLeast_of_firstNumber? {n : Int} (h : k.firstNumber? = some n) :
    ∃ key : Key, n = key.val ∧ IsLeast (k.heldKeys : Set Key) key := by
  obtain ⟨key, hfind, rfl⟩ := Option.map_eq_some_iff.1 h
  obtain ⟨hheld, i, hi, hkey, hbefore⟩ := List.find?_eq_some_iff_getElem.1 hfind
  refine ⟨key, rfl, mem_heldKeys.2 hheld, fun other hother => ?_⟩
  by_contra hnot
  have hlt : other.val < key.val := Fin.lt_def.1 (Fin.not_le.1 hnot)
  have hplace : key.val = i := by rw [← hkey, List.getElem_finRange, Fin.val_cast]
  -- a lesser key stands before it in the list of all keys
  have hmissed : (!k.isHeld other) = true := by
    have hpassed := hbefore other.val (hplace ▸ hlt)
    rwa [List.getElem_finRange] at hpassed
  rw [mem_heldKeys.1 hother] at hmissed
  cases hmissed

end Keypad

namespace Core

variable {c : Core}

/-! ### The steps of a waiting instruction -/

/-- A look that does not complete the wait moves pc back. -/
theorem WellFormed.awaitKey_of_wait (h : c.WellFormed) (x : Register) {keypad : Keypad}
    (hpoll : c.keypad.poll c.dialect.keyWaitOnRelease = .ok (keypad, none)) :
    c.advanced.awaitKey x = ({ c with keypad }, .done) := by
  have hlook : c.advanced.keypad.poll c.advanced.dialect.keyWaitOnRelease = .ok (keypad, none) :=
    hpoll
  have hback : c.advanced.cpu.rewind = c.cpu := h.cpu.rewind_advance
  rw [Core.awaitKey, hlook]
  simp only [hback]
  rfl

/-- A look that completes the wait puts the key into the register. -/
theorem awaitKey_of_key (x : Register) {keypad : Keypad} {key : Int}
    (hpoll : c.keypad.poll c.dialect.keyWaitOnRelease = .ok (keypad, some key)) :
    c.advanced.awaitKey x = ({ c with keypad, cpu := c.cpu.advance.setReg x key }, .done) := by
  have hlook : c.advanced.keypad.poll c.advanced.dialect.keyWaitOnRelease =
      .ok (keypad, some key) := hpoll
  rw [awaitKey, hlook]
  rfl

/-- A step that waits on changes nothing but the keypad, and counts. -/
theorem WellFormed.step_of_wait (h : c.WellFormed) {x : Register} {keypad : Keypad}
    (hword : Instruction.ofWord c.fetch = .waitKey x)
    (hpoll : c.keypad.poll c.dialect.keyWaitOnRelease = .ok (keypad, none)) :
    c.step.core = { c with keypad, cycles := c.cycles + 1 } := by
  rw [step_core, hword, Core.execute, h.awaitKey_of_wait x hpoll]
  rfl

/-- A step that completes the wait goes on, with the key in the register. -/
theorem step_of_key {x : Register} {keypad : Keypad} {key : Int}
    (hword : Instruction.ofWord c.fetch = .waitKey x)
    (hpoll : c.keypad.poll c.dialect.keyWaitOnRelease = .ok (keypad, some key)) :
    c.step.core =
      { c with keypad, cpu := c.cpu.advance.setReg x key, cycles := c.cycles + 1 } := by
  rw [step_core, hword, execute, awaitKey_of_key x hpoll]
  rfl

/-! ### Latched keys -/

/-- A latched key means that the word at pc waits for a key. -/
def LatchWaits (c : Core) : Prop := c.keypad.latch.isSome → Instruction.IsKeyWait c.fetch

theorem LatchWaits.of_unlatched (h : c.keypad.latch = none) : c.LatchWaits := by
  intro hs
  rw [h] at hs
  cases hs

/-- One look of a waiting instruction: it stands still, or it completes and leaves no latch. -/
theorem WellFormed.execute_waitKey (h : c.WellFormed) (x : Register) :
    ∃ keypad, (c.advanced.execute (.waitKey x)).1 = { c with keypad } ∨
      (c.advanced.execute (.waitKey x)).1.keypad.latch = none := by
  obtain ⟨next, key, hpoll, -, -, hkey⟩ := h.latch.poll h.release
  refine ⟨next, ?_⟩
  cases key with
  | none =>
    left
    rw [Core.execute, h.awaitKey_of_wait x hpoll]
  | some n =>
    right
    rw [Core.execute, awaitKey_of_key x hpoll]
    exact (hkey n rfl).2

/-- **Steps keep a latched key at its wait.** If the word at pc does not wait for a key, the latch
is empty and stays so; if it does, the instruction either stands still or empties the latch. -/
theorem WellFormed.step_latchWaits (h : c.WellFormed) (hw : c.LatchWaits) :
    c.step.core.LatchWaits := by
  rw [step_core]
  by_cases hk : Instruction.IsKeyWait c.fetch
  · have hi : Instruction.ofWord c.fetch = .waitKey (Word.x c.fetch) :=
      Instruction.ofWord_eq_waitKey_iff.2 ⟨hk, rfl⟩
    rw [hi]
    obtain ⟨keypad, hstill | hempty⟩ := h.execute_waitKey (Word.x c.fetch)
    · intro _
      rw [fetch, counted_memory, counted_cpu, hstill]
      exact hk
    · apply LatchWaits.of_unlatched
      rw [counted_keypad, hempty]
  · have hl : c.keypad.latch = none := by
      by_contra hne
      exact hk (hw (Option.isSome_iff_ne_none.2 hne))
    have hi : ∀ x, Instruction.ofWord c.fetch ≠ .waitKey x :=
      fun x hx => hk (Instruction.ofWord_eq_waitKey_iff.1 hx).1
    apply LatchWaits.of_unlatched
    rw [counted_keypad, execute_keypad _ hi]
    exact hl

end Core

end Chip8
