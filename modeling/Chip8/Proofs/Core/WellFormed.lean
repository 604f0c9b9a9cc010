import Chip8.Proofs.Core.Reset
import Chip8.Proofs.Core.Step
import Chip8.Proofs.Cpu

/-!
# Well-formed cores

A core is well formed when everything in it lies within its width: registers, pixels, timers, and
the latch, which moreover is only set in the dialect that waits for a release. Every instruction
keeps a core well formed, whatever its operands are, and none of them breaks off in one. The memory
needs no clause, since its cells are bytes, and a program may put any word in front of the program
counter.

## Main definitions

* `Framebuffer.Binary` — every pixel is 0 or 1
* `Keypad.LatchInRange`, `Timers.WellFormed` — the latch is a key, both timers are bytes
* `Core.WellFormed` — all of it

## Main results

* `Keypad.poll_unlatched`, `Keypad.poll_held`, `Keypad.poll_released` — the three looks of a wait
  for a release
* `Core.WellFormed.execute`, `Core.WellFormed.step` — instructions keep cores well formed
* `Core.WellFormed.step_outcome_ne_broken` — and do not break off
-/

namespace Chip8

/-! ### Pixels -/

namespace Framebuffer

/-- Every pixel is off or on, and not another byte. -/
def IsBinary (p : Pixels) : Prop := ∀ b ∈ p, b = 0 ∨ b = 1

/-- Every pixel of the screen is 0 or 1. -/
def Binary (f : Framebuffer) : Prop := IsBinary f.pixels

theorem binary_blank : blank.Binary := by
  intro b hb
  left
  exact (Vector.mem_replicate.1 hb).2

theorem binary_clear (f : Framebuffer) : f.clear.Binary := binary_blank

theorem isBinary_set {p : Pixels} (h : IsBinary p) {i : Nat} (hi : i < pixelCount) {b : UInt8}
    (hb : b = 0 ∨ b = 1) : IsBinary (p.set i b hi) := by
  intro a ha
  rcases Vector.mem_or_eq_of_mem_set ha with ha | rfl
  · exact h a ha
  · exact hb

/-- Flipping the lowest bit turns zeros and ones into each other. -/
theorem xor_one_of_binary {b : UInt8} (h : b = 0 ∨ b = 1) : b ^^^ 1 = 0 ∨ b ^^^ 1 = 1 := by
  rcases h with rfl | rfl
  · right; rfl
  · left; rfl

theorem isBinary_flipAll {p : Pixels} (h : IsBinary p) (cells : List (Fin pixelCount)) :
    IsBinary (flipAll p cells).1 := by
  induction cells generalizing p with
  | nil => exact h
  | cons i rest ih =>
    have hflip := xor_one_of_binary (h p[i] (Vector.getElem_mem i.isLt))
    exact ih (isBinary_set h i.isLt hflip)

theorem Binary.draw {f : Framebuffer} (h : f.Binary) (x y : Int) (rows : List Int) :
    (f.draw x y rows).1.Binary :=
  isBinary_flipAll h (litCells x y rows)

theorem Binary.takeChanged {f : Framebuffer} (h : f.Binary) : f.takeChanged.1.Binary := by
  unfold Framebuffer.takeChanged
  split
  · exact h
  · exact h

end Framebuffer

/-! ### Keys -/

namespace Keypad

variable {k : Keypad}

/-- The latch is empty or a key. -/
def LatchInRange (k : Keypad) : Prop := ∀ n ∈ k.latch, 0 ≤ n ∧ n < keyCount

theorem latchInRange_blank : blank.LatchInRange := fun _ hn => nomatch hn

/-- Keys that go down or up leave the latch alone. -/
theorem latch_setHeld (k : Keypad) (n : Int) (down : Bool) :
    (k.setHeld n down).latch = k.latch := by
  unfold setHeld
  split <;> rfl

/-- The least held key has the number of a key. -/
theorem firstNumber?_range {n : Int} (h : n ∈ k.firstNumber?) : 0 ≤ n ∧ n < keyCount := by
  obtain ⟨key, -, rfl⟩ := Option.map_eq_some_iff.1 h
  exact ⟨by omega, by omega⟩

/-! The looks of a wait for a release, one lemma for each of them: it latches, it goes on, it
completes. -/

theorem poll_false (k : Keypad) : k.poll false = .ok (k, k.firstNumber?) := rfl

theorem poll_unlatched (h : k.latch = none) :
    k.poll true = .ok ({ k with latch := k.firstNumber? }, none) := by
  simp only [poll, if_true, h]

theorem poll_held {key : Key} (h : k.latch = some (key.val : Int)) (hk : k.isHeld key = true) :
    k.poll true = .ok (k, none) := by
  simp only [poll, if_true, h, position?_natCast key.isLt, Fin.eta, hk]

theorem poll_released {key : Key} (h : k.latch = some (key.val : Int))
    (hk : k.isHeld key = false) :
    k.poll true = .ok ({ k with latch := none }, some (key.val : Int)) := by
  simp only [poll, if_true, h, position?_natCast key.isLt, Fin.eta, hk]
  rfl

/-- A latch in range is empty or a key. -/
theorem LatchInRange.cases (h : k.LatchInRange) :
    k.latch = none ∨ ∃ key : Key, k.latch = some (key.val : Int) := by
  cases hl : k.latch with
  | none => exact .inl rfl
  | some n =>
    obtain ⟨h₀, h₁⟩ := h n hl
    obtain ⟨m, rfl⟩ := Int.eq_ofNat_of_zero_le h₀
    exact .inr ⟨⟨m, by omega⟩, rfl⟩

/-- What one look does when a latch is only set in a wait for a release: it answers, and such is
the latch that it leaves. A key that it gives completes the wait, and then the latch is empty. -/
theorem LatchInRange.poll (h : k.LatchInRange) {onRelease : Bool}
    (hr : k.latch.isSome → onRelease = true) :
    ∃ next key, k.poll onRelease = .ok (next, key) ∧ next.LatchInRange ∧
      (next.latch.isSome → onRelease = true) ∧
      ∀ n ∈ key, (0 ≤ n ∧ n < keyCount) ∧ next.latch = none := by
  cases onRelease with
  | false =>
    have hl : k.latch = none := by
      rcases h.cases with hl | ⟨key, hl⟩
      · exact hl
      · exact nomatch hr (hl ▸ rfl)
    exact ⟨k, k.firstNumber?, poll_false k, h, hr, fun n hn => ⟨firstNumber?_range hn, hl⟩⟩
  | true =>
    rcases h.cases with hl | ⟨key, hl⟩
    · exact ⟨_, none, poll_unlatched hl, fun _ => firstNumber?_range, fun _ => rfl, nofun⟩
    · cases hk : k.isHeld key with
      | true => exact ⟨k, none, poll_held hl hk, h, hr, nofun⟩
      | false =>
        exact ⟨_, some (key.val : Int), poll_released hl hk, nofun, nofun,
          fun n hn => ⟨h n (hl ▸ hn), rfl⟩⟩

end Keypad

/-! ### Timers -/

namespace Timers

/-- Both timers are bytes. -/
structure WellFormed (t : Timers) : Prop where
  delay : IsByte t.delay
  sound : IsByte t.sound

theorem wellFormed_zero : zero.WellFormed := ⟨⟨by decide, by decide⟩, ⟨by decide, by decide⟩⟩

theorem isByte_countDown {n : Int} (h : IsByte n) : IsByte (countDown n) := by
  obtain ⟨h₀, h₁⟩ := h
  unfold countDown IsByte
  split <;> omega

theorem WellFormed.tick {t : Timers} (h : t.WellFormed) : t.tick.WellFormed :=
  ⟨isByte_countDown h.delay, isByte_countDown h.sound⟩

end Timers

/-! ### Cores -/

namespace Core

variable {c : Core}

/-- Everything in the core lies within its width, and a key is only latched in the dialect that
waits for a release. -/
structure WellFormed (c : Core) : Prop where
  cpu : c.cpu.WellFormed
  framebuffer : c.framebuffer.Binary
  timers : c.timers.WellFormed
  latch : c.keypad.LatchInRange
  release : c.keypad.latch.isSome → c.dialect.keyWaitOnRelease = true

theorem Outcome.done_ne_broken : Outcome.done ≠ .broken := by decide

theorem Outcome.event_ne_broken (kind : DiagnosticKind) : Outcome.event kind ≠ .broken := by
  rintro ⟨⟩

/-- A reset makes any core well formed. -/
theorem wellFormed_reset (c : Core) (seed : Int) : (c.reset seed).WellFormed := by
  rw [reset_eq]
  exact {
    cpu := Cpu.wellFormed_initial
    framebuffer := Framebuffer.binary_blank
    timers := Timers.wellFormed_zero
    latch := Keypad.latchInRange_blank
    release := fun h => nomatch h }

theorem wellFormed_initial (dialect : Dialect) (seed : Option Int) :
    (initial dialect seed).WellFormed := wellFormed_reset _ _

namespace WellFormed

/-! ### Instructions with a body of their own -/

theorem setCpu (h : c.WellFormed) {cpu : Cpu} (hc : cpu.WellFormed) :
    WellFormed { c with cpu } := { h with cpu := hc }

theorem setReg (h : c.WellFormed) (x : Register) {value : Int} (hv : IsByte value) :
    WellFormed { c with cpu := c.cpu.setReg x value } := h.setCpu (h.cpu.setReg x hv)

theorem isWord_indexAfterTransfer (h : c.WellFormed) (x : Register) :
    IsWord (c.indexAfterTransfer x) := by
  unfold indexAfterTransfer
  split
  · exact isWord_lowWord _
  · exact h.cpu.index

theorem storeRegisters (h : c.WellFormed) (x : Register) : (c.storeRegisters x).WellFormed :=
  { h with cpu := h.cpu.setIndex (h.isWord_indexAfterTransfer x) }

theorem loadRegisters (h : c.WellFormed) (x : Register) : (c.loadRegisters x).WellFormed := by
  refine h.setCpu { h.cpu with index := h.isWord_indexAfterTransfer x, reg := fun y => ?_ }
  simp only [Cpu.reg, Fin.getElem_fin, Vector.getElem_ofFn]
  split
  · exact isByte_toNat _
  · exact h.cpu.reg y

theorem drawSprite (h : c.WellFormed) (x y : Register) (n : Fin 16) :
    (c.drawSprite x y n).WellFormed :=
  { h with cpu := h.cpu.setFlag _, framebuffer := h.framebuffer.draw _ _ _ }

theorem drawRandom (h : c.WellFormed) (x : Register) (nn : UInt8) :
    (c.drawRandom x nn).WellFormed :=
  { h with cpu := h.cpu.setReg x (isByte_toNat _) }

theorem awaitKey (h : c.WellFormed) (x : Register) :
    (c.awaitKey x).1.WellFormed ∧ (c.awaitKey x).2 ≠ .broken := by
  obtain ⟨next, key, hpoll, hlatch, hrelease, hkey⟩ := h.latch.poll h.release
  simp only [Core.awaitKey, hpoll]
  cases key with
  | none =>
    exact ⟨{ h with cpu := h.cpu.rewind, latch := hlatch, release := hrelease },
      Outcome.done_ne_broken⟩
  | some n =>
    obtain ⟨⟨h₀, h₁⟩, -⟩ := hkey n rfl
    have hn : IsByte n := ⟨h₀, Int.lt_trans h₁ (by decide)⟩
    exact ⟨{ h with cpu := h.cpu.setReg x hn, latch := hlatch, release := hrelease },
      Outcome.done_ne_broken⟩

theorem callAt (h : c.WellFormed) {target : Int} (ht : IsWord target) :
    (c.callAt target).1.WellFormed ∧ (c.callAt target).2 ≠ .broken := by
  obtain ⟨h₀, hle⟩ := h.cpu.sp
  rcases Int.lt_or_eq_of_le hle with hlt | hfull
  · obtain ⟨slot, hslot⟩ := Cpu.exists_slot h₀ hlt
    have hpush := Cpu.push_of_slot target hslot
    simp only [Core.callAt, hpush]
    exact ⟨h.setCpu (h.cpu.push ht hpush), Outcome.done_ne_broken⟩
  · simp only [Core.callAt, Cpu.push_of_full target hfull]
    exact ⟨h.setCpu h.cpu.rewind, Outcome.event_ne_broken _⟩

theorem returnBack (h : c.WellFormed) :
    c.returnBack.1.WellFormed ∧ c.returnBack.2 ≠ .broken := by
  obtain ⟨h₀, hle⟩ := h.cpu.sp
  rcases Int.lt_or_eq_of_le h₀ with hpos | hempty
  · obtain ⟨slot, hslot⟩ := Cpu.exists_slot (n := c.cpu.sp - 1) (by omega) (by omega)
    have hpop := Cpu.pop_of_slot hslot
    simp only [Core.returnBack, hpop]
    exact ⟨h.setCpu (h.cpu.pop hpop), Outcome.done_ne_broken⟩
  · simp only [Core.returnBack, Cpu.pop_of_empty hempty.symm]
    exact ⟨h.setCpu h.cpu.rewind, Outcome.event_ne_broken _⟩

/-! ### All instructions -/

/-- **Every instruction keeps a core well formed**, and none breaks off in one. -/
theorem execute (h : c.WellFormed) (i : Instruction) :
    (c.execute i).1.WellFormed ∧ (c.execute i).2 ≠ .broken := by
  cases i with
  | clear =>
    exact ⟨{ h with framebuffer := Framebuffer.binary_clear c.framebuffer },
      Outcome.done_ne_broken⟩
  | ret => exact h.returnBack
  | sys address => exact ⟨h, Outcome.event_ne_broken _⟩
  | jump address => exact ⟨h.setCpu (h.cpu.setPc (isWord_toNat address)), Outcome.done_ne_broken⟩
  | call address => exact h.callAt (isWord_toNat address)
  | skip test =>
    refine ⟨?_, Outcome.done_ne_broken⟩
    simp only [Core.execute]
    split
    · exact h.setCpu h.cpu.advance
    · exact h
  | loadByte x nn => exact ⟨h.setReg x (isByte_toNat nn), Outcome.done_ne_broken⟩
  | addByte x nn => exact ⟨h.setReg x (isByte_lowByte _), Outcome.done_ne_broken⟩
  | arithmetic op x y =>
    have hresult := op.isByte_eval c.dialect.shiftUsesVy (h.cpu.reg x) (h.cpu.reg y)
    exact ⟨h.setCpu (h.cpu.setResult x hresult), Outcome.done_ne_broken⟩
  | loadIndex address => exact ⟨h.setCpu (h.cpu.setIndex (isWord_toNat address)), Outcome.done_ne_broken⟩
  | jumpOffset address => exact ⟨h.setCpu (h.cpu.setPc (isWord_lowWord _)), Outcome.done_ne_broken⟩
  | random x nn => exact ⟨h.drawRandom x nn, Outcome.done_ne_broken⟩
  | draw x y n => exact ⟨h.drawSprite x y n, Outcome.done_ne_broken⟩
  | readDelay x => exact ⟨h.setReg x h.timers.delay, Outcome.done_ne_broken⟩
  | waitKey x => exact h.awaitKey x
  | setDelay x => exact ⟨{ h with timers := ⟨h.cpu.reg x, h.timers.sound⟩ }, Outcome.done_ne_broken⟩
  | setSound x => exact ⟨{ h with timers := ⟨h.timers.delay, h.cpu.reg x⟩ }, Outcome.done_ne_broken⟩
  | addIndex x => exact ⟨h.setCpu (h.cpu.setIndex (isWord_lowWord _)), Outcome.done_ne_broken⟩
  | glyph x => exact ⟨h.setCpu (h.cpu.setIndex (isWord_lowWord _)), Outcome.done_ne_broken⟩
  | decimal x => exact ⟨{ h with }, Outcome.done_ne_broken⟩
  | store x => exact ⟨h.storeRegisters x, Outcome.done_ne_broken⟩
  | load x => exact ⟨h.loadRegisters x, Outcome.done_ne_broken⟩
  | unknown word => exact ⟨h, Outcome.event_ne_broken _⟩

end WellFormed

/-! ### Steps -/

theorem WellFormed.advanced (h : c.WellFormed) : c.advanced.WellFormed := h.setCpu h.cpu.advance

theorem WellFormed.counted {next : Core} (h : next.WellFormed) (c : Core) (outcome : Outcome) :
    (c.counted next outcome).WellFormed := by
  cases outcome with
  | done => exact { h with }
  | event kind => exact { h with }
  | broken => exact h

/-- **A step keeps a core well formed.** -/
theorem WellFormed.step (h : c.WellFormed) : c.step.core.WellFormed := by
  rw [step_core]
  exact (h.advanced.execute _).1.counted c _

/-- No step of a well-formed core breaks off. -/
theorem WellFormed.step_outcome_ne_broken (h : c.WellFormed) : c.step.outcome ≠ .broken := by
  rw [step_outcome]
  exact (h.advanced.execute _).2

/-- Every step of a well-formed core counts. -/
theorem WellFormed.step_cycles (h : c.WellFormed) : c.step.core.cycles = c.cycles + 1 := by
  rw [step_core, counted_cycles _ _ _ (h.advanced.execute _).2, execute_cycles]
  rfl

end Core

end Chip8
