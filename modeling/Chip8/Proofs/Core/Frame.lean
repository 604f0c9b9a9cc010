import Chip8.Proofs.Core.CallStack
import Chip8.Proofs.Core.KeyWait
import Chip8.Proofs.Memory

/-!
# The frame of one step

What a step may change is read off its instruction, and everything else is as before. The lists are
short: two instructions write memory, two use the stack, one each sets a timer, the latch or the
random numbers. They are lists of what may change and not of what does, since an instruction may
write what is there already; only pc, the steps and the recorded events are told exactly.

Three of the clauses need more than the instruction. A wait for a key sets its register only when it
completes, and until then pc stays; a call and a return do nothing but record an event when the
stack is full or empty. In a well-formed core these are the only ways in which a step can fail to go
on.

## Main definitions

* `Instruction.cellsWritten`, `Instruction.writesIndex`, `Instruction.usesStack`,
  `Core.WritesRegister` — what instructions may write
* `Keypad.Pending` — a wait goes on
* `Core.event?`, `Core.eventsAfter`, `Core.nextPc` — the events that are recorded, and where pc
  goes
* `Core.Framed` — everything else is as before

## Main results

* `Keypad.poll_of_pending`, `Keypad.LatchInRange.poll_of_not_pending` — the looks of a wait
* `Core.framed_of_cpu` — steps that change registers only
* `Core.WellFormed.step_framed` — every step of a well-formed core
* `Core.WellFormed.step_outcome_eq` — how it ends
-/

namespace Chip8

/-! ### What instructions may write -/

/-- Whether an operation on two registers puts something into the flag register. -/
def ArithmeticOp.setsFlag : ArithmeticOp → Bool
  | .copy | .or | .and | .xor => false
  | .add | .sub | .shiftRight | .subReverse | .shiftLeft => true

theorem ArithmeticOp.isSome_eval (op : ArithmeticOp) (shiftUsesVy : Bool) (vx vy : Int) :
    (op.eval shiftUsesVy vx vy).2.isSome = op.setsFlag := by
  cases op <;> rfl

namespace Instruction

/-- The number of cells that an instruction writes, from the index on. -/
def cellsWritten : Instruction → Nat
  | .decimal _ => 3
  | .store x => x.val + 1
  | _ => 0

/-- Whether an instruction writes the index. -/
def writesIndex : Instruction → Bool
  | .loadIndex _ | .addIndex _ | .glyph _ | .store _ | .load _ => true
  | _ => false

/-- Whether an instruction uses the stack. -/
def usesStack : Instruction → Bool
  | .call _ | .ret => true
  | _ => false

end Instruction

/-! ### Waits that go on -/

namespace Keypad

variable {k : Keypad} {onRelease : Bool}

/-- A wait for a key goes on: no key is held or, if it waits for a release, no key is latched yet or
the latched one is still held. -/
def Pending (k : Keypad) (onRelease : Bool) : Prop :=
  if onRelease then k.latch = none ∨ ∃ key ∈ k.heldKeys, k.latch = some (key.val : Int)
  else k.heldKeys = ∅

instance (k : Keypad) (onRelease : Bool) : Decidable (k.Pending onRelease) :=
  inferInstanceAs (Decidable (if onRelease then _ else _))

theorem poll_of_pending (h : k.Pending onRelease) :
    ∃ latch, k.poll onRelease = .ok ({ k with latch }, none) := by
  cases onRelease with
  | false =>
    have hnone : k.firstNumber? = none := firstNumber?_eq_none_iff.2 h
    refine ⟨k.latch, ?_⟩
    rw [poll_false, hnone]
  | true =>
    rcases h with hempty | ⟨key, hheld, hlatch⟩
    · exact ⟨_, poll_unlatched hempty⟩
    · exact ⟨k.latch, poll_held hlatch (mem_heldKeys.1 hheld)⟩

theorem LatchInRange.poll_of_not_pending (hk : k.LatchInRange) (h : ¬ k.Pending onRelease) :
    ∃ latch key, k.poll onRelease = .ok ({ k with latch }, some key) := by
  cases onRelease with
  | false =>
    cases hfirst : k.firstNumber? with
    | none => exact absurd (firstNumber?_eq_none_iff.1 hfirst) h
    | some key =>
      refine ⟨k.latch, key, ?_⟩
      rw [poll_false, hfirst]
  | true =>
    rcases hk.cases with hempty | ⟨key, hlatch⟩
    · exact absurd (.inl hempty) h
    · have hup : k.isHeld key = false := by
        by_contra hheld
        exact h (.inr ⟨key, mem_heldKeys.2 (by simpa using hheld), hlatch⟩)
      exact ⟨none, _, poll_released hlatch hup⟩

end Keypad

/-! ### The frame -/

/-- The address that a return takes from the stack. -/
def Cpu.returnAddress (c : Cpu) : Int := c.stack.toArray.getD (c.sp - 1).toNat 0

theorem Cpu.returnAddress_of_slot {c : Cpu} {slot : Fin stackDepth} (hslot : c.sp - 1 = slot.val) :
    c.returnAddress = c.stack.get slot := by
  have hlt : slot.val < c.stack.toArray.size := by
    rw [Vector.size_toArray]
    exact slot.isLt
  rw [returnAddress, hslot, Int.toNat_natCast, Array.getD, dif_pos hlt]
  rfl

namespace Core

variable {c : Core} {i : Instruction} {cpu : Cpu} {diagnostics : List Diagnostic}

/-- Whether an instruction writes a register: a wait for a key does when it completes. -/
def WritesRegister (c : Core) (i : Instruction) (r : Register) : Prop :=
  match i with
  | .loadByte x _ | .addByte x _ | .random x _ | .readDelay x => r = x
  | .arithmetic op x _ => r = x ∨ op.setsFlag = true ∧ r = .flag
  | .draw _ _ _ => r = .flag
  | .waitKey x => ¬ c.keypad.Pending c.dialect.keyWaitOnRelease ∧ r = x
  | .load x => r ≤ x
  | _ => False

/-- What an instruction does wrong. -/
def event? (c : Core) : Instruction → Option DiagnosticKind
  | .sys _ | .unknown _ => some .unknownOpcode
  | .call _ => if c.cpu.sp = stackDepth then some .stackOverflow else none
  | .ret => if c.cpu.sp = 0 then some .stackUnderflow else none
  | _ => none

/-- The recorded events after an instruction. -/
def eventsAfter (c : Core) (i : Instruction) : List Diagnostic :=
  (c.event? i).elim c.diagnostics fun kind =>
    pushDiagnostic c.diagnostics ⟨kind, c.cpu.pc, c.fetch⟩

theorem eventsAfter_of_none (h : c.event? i = none) : c.eventsAfter i = c.diagnostics := by
  rw [eventsAfter, h]
  rfl

theorem eventsAfter_of_some {kind : DiagnosticKind} (h : c.event? i = some kind) :
    c.eventsAfter i = pushDiagnostic c.diagnostics ⟨kind, c.cpu.pc, c.fetch⟩ := by
  rw [eventsAfter, h]
  rfl

/-- Where pc goes. -/
def nextPc (c : Core) : Instruction → Int
  | .jump target => target.toNat
  | .call target => if c.cpu.sp = stackDepth then c.cpu.pc else target.toNat
  | .ret => if c.cpu.sp = 0 then c.cpu.pc else c.cpu.returnAddress
  | .jumpOffset base => (base.toNat + c.cpu.reg .zero) % 65536
  | .skip test => if c.passes test then (c.cpu.pc + 4) % 65536 else (c.cpu.pc + 2) % 65536
  | .waitKey _ =>
    if c.keypad.Pending c.dialect.keyWaitOnRelease then c.cpu.pc else (c.cpu.pc + 2) % 65536
  | _ => (c.cpu.pc + 2) % 65536

/-- A core after an instruction, where everything is as before but what the instruction may write.
The events and pc are told exactly, and one step is counted. -/
structure Framed (c : Core) (i : Instruction) (next : Core) : Prop where
  memory : ∀ a : Int, (∀ j : Nat, j < i.cellsWritten →
    a % memorySize ≠ (c.cpu.index + j) % memorySize) → next.memory.read a = c.memory.read a
  register : ∀ r, ¬ c.WritesRegister i r → next.cpu.reg r = c.cpu.reg r
  index : i.writesIndex = false → next.cpu.index = c.cpu.index
  stack : i.usesStack = false → Cpu.SameStack c.cpu next.cpu
  delay : (∀ x, i ≠ .setDelay x) → next.timers.delay = c.timers.delay
  sound : (∀ x, i ≠ .setSound x) → next.timers.sound = c.timers.sound
  framebuffer : i.draws = false → next.framebuffer = c.framebuffer
  latch : (∀ x, i ≠ .waitKey x) → next.keypad.latch = c.keypad.latch
  held : next.keypad.held = c.keypad.held
  random : (∀ x nn, i ≠ .random x nn) → next.random = c.random
  dialect : next.dialect = c.dialect
  diagnostics : next.diagnostics = c.eventsAfter i
  cycles : next.cycles = c.cycles + 1
  pc : next.cpu.pc = c.nextPc i

/-- **Steps that change registers only.** -/
theorem framed_of_cpu (hregister : ∀ r, ¬ c.WritesRegister i r → cpu.reg r = c.cpu.reg r)
    (hindex : i.writesIndex = false → cpu.index = c.cpu.index)
    (hstack : i.usesStack = false → Cpu.SameStack c.cpu cpu)
    (hevents : diagnostics = c.eventsAfter i) (hpc : cpu.pc = c.nextPc i) :
    Framed c i { c with cpu, diagnostics, cycles := c.cycles + 1 } where
  memory _ _ := rfl
  register := hregister
  index := hindex
  stack := hstack
  delay _ := rfl
  sound _ := rfl
  framebuffer _ := rfl
  latch _ := rfl
  held := rfl
  random _ := rfl
  dialect := rfl
  diagnostics := hevents
  cycles := rfl
  pc := hpc

/-- Steps that set one register. -/
theorem framed_setReg {x : Register} (value : Int) (hwrites : c.WritesRegister i x)
    (hevent : c.event? i = none) (hpc : c.nextPc i = (c.cpu.pc + 2) % 65536) :
    Framed c i { c with cpu := c.cpu.advance.setReg x value, cycles := c.cycles + 1 } := by
  refine framed_of_cpu (fun r hr => ?_) (fun _ => rfl) (fun _ => ⟨rfl, rfl⟩)
    (eventsAfter_of_none hevent).symm hpc.symm
  have hne : x ≠ r := fun heq => hr (heq ▸ hwrites)
  rw [Cpu.reg_setReg, if_neg hne]
  rfl

/-- Steps that set the index. -/
theorem framed_setIndex (index : Int) (hwrites : i.writesIndex = true) (hevent : c.event? i = none)
    (hpc : c.nextPc i = (c.cpu.pc + 2) % 65536) :
    Framed c i { c with cpu := { c.cpu.advance with index }, cycles := c.cycles + 1 } := by
  refine framed_of_cpu (fun _ _ => rfl) (fun hkeeps => ?_) (fun _ => ⟨rfl, rfl⟩)
    (eventsAfter_of_none hevent).symm hpc.symm
  rw [hwrites] at hkeeps
  cases hkeeps

/-- Steps that set pc. -/
theorem framed_setPc {pc : Int} (hevents : diagnostics = c.eventsAfter i) (hpc : pc = c.nextPc i) :
    Framed c i { c with cpu := { c.cpu with pc }, diagnostics, cycles := c.cycles + 1 } :=
  framed_of_cpu (fun _ _ => rfl) (fun _ => rfl) (fun _ => ⟨rfl, rfl⟩) hevents hpc

/-- Steps that leave all registers alone and go on. -/
theorem framed_advance (hevents : diagnostics = c.eventsAfter i)
    (hpc : c.nextPc i = (c.cpu.pc + 2) % 65536) :
    Framed c i { c with cpu := c.cpu.advance, diagnostics, cycles := c.cycles + 1 } :=
  framed_setPc hevents hpc.symm

/-- Steps that leave all registers alone and stay. -/
theorem framed_stay (hevents : diagnostics = c.eventsAfter i) (hpc : c.nextPc i = c.cpu.pc) :
    Framed c i { c with diagnostics, cycles := c.cycles + 1 } :=
  framed_setPc hevents hpc.symm

/-! ### Families of instructions -/

theorem WellFormed.framed_call (h : c.WellFormed) {target : UInt16}
    (hi : Instruction.ofWord c.fetch = .call target) :
    Framed c (.call target) c.step.core ∧
      c.step.outcome = (c.event? (.call target)).elim .done .event := by
  obtain ⟨h₀, hle⟩ := h.cpu.sp
  by_cases hfull : c.cpu.sp = stackDepth
  · have hevent : c.event? (.call target) = some .stackOverflow := if_pos hfull
    rw [h.step_call_of_full hi hfull, hevent]
    exact ⟨framed_stay (eventsAfter_of_some hevent).symm (if_pos hfull), rfl⟩
  · have hevent : c.event? (.call target) = none := if_neg hfull
    obtain ⟨slot, hslot⟩ := Cpu.exists_slot h₀ (by omega)
    rw [step_call hi hslot, hevent]
    exact ⟨framed_of_cpu (fun _ _ => rfl) (fun _ => rfl) nofun (eventsAfter_of_none hevent).symm
      (if_neg hfull).symm, rfl⟩

theorem WellFormed.framed_ret (h : c.WellFormed) (hi : Instruction.ofWord c.fetch = .ret) :
    Framed c .ret c.step.core ∧ c.step.outcome = (c.event? .ret).elim .done .event := by
  obtain ⟨h₀, hle⟩ := h.cpu.sp
  by_cases hempty : c.cpu.sp = 0
  · have hevent : c.event? .ret = some .stackUnderflow := if_pos hempty
    rw [h.step_ret_of_empty hi hempty, hevent]
    exact ⟨framed_stay (eventsAfter_of_some hevent).symm (if_pos hempty), rfl⟩
  · have hevent : c.event? .ret = none := if_neg hempty
    obtain ⟨slot, hslot⟩ := Cpu.exists_slot (n := c.cpu.sp - 1) (by omega) (by omega)
    rw [step_ret hi hslot, hevent]
    have hpc : c.nextPc .ret = c.cpu.stack.get slot :=
      (if_neg hempty).trans (Cpu.returnAddress_of_slot hslot)
    exact ⟨framed_of_cpu (fun _ _ => rfl) (fun _ => rfl) nofun (eventsAfter_of_none hevent).symm
      hpc.symm, rfl⟩

theorem WellFormed.framed_waitKey (h : c.WellFormed) {x : Register}
    (hi : Instruction.ofWord c.fetch = .waitKey x) : Framed c (.waitKey x) c.step.core := by
  by_cases hpending : c.keypad.Pending c.dialect.keyWaitOnRelease
  · obtain ⟨latch, hpoll⟩ := Keypad.poll_of_pending hpending
    have hstay : Framed c (.waitKey x) { c with cycles := c.cycles + 1 } :=
      framed_stay rfl (if_pos hpending)
    rw [h.step_of_wait hi hpoll]
    exact { hstay with latch := fun hx => absurd rfl (hx x) }
  · obtain ⟨latch, key, hpoll⟩ := h.latch.poll_of_not_pending hpending
    have hset : Framed c (.waitKey x)
        { c with cpu := c.cpu.advance.setReg x key, cycles := c.cycles + 1 } :=
      framed_setReg key ⟨hpending, rfl⟩ rfl (if_neg hpending)
    rw [step_of_key hi hpoll]
    exact { hset with latch := fun hx => absurd rfl (hx x) }

/-- The flag of an operation on two registers is written before the result. -/
theorem framed_arithmetic (op : ArithmeticOp) (x y : Register) {result : Int × Option Int}
    (hflag : result.2.isSome = op.setsFlag) :
    Framed c (.arithmetic op x y)
      { c with cpu := c.cpu.advance.setResult x result, cycles := c.cycles + 1 } := by
  obtain ⟨value, flag⟩ := result
  have hset : ∀ r, ¬ c.WritesRegister (.arithmetic op x y) r →
      (c.cpu.advance.setResult x (value, flag)).reg r = c.cpu.reg r := by
    intro r hr
    refine Cpu.reg_setResult_of_ne c.cpu.advance (fun hx => hr (.inl hx)) fun hsome heq => ?_
    exact hr (.inr ⟨hflag.symm.trans hsome, heq⟩)
  cases flag with
  | none => exact framed_of_cpu hset (fun _ => rfl) (fun _ => ⟨rfl, rfl⟩) rfl rfl
  | some flag => exact framed_of_cpu hset (fun _ => rfl) (fun _ => ⟨rfl, rfl⟩) rfl rfl

/-- A run of values is written to its own cells only. -/
theorem read_load_of_not_written {m : Memory memorySize} {index a : Int} {data : List Int}
    (h : ∀ j : Nat, j < data.length → a % memorySize ≠ (index + j) % memorySize) :
    (m.load index data).read a = m.read a :=
  Memory.read_load_of_forall_ne fun j hj hslot => h j hj (Memory.slot_eq_iff.1 hslot).symm

theorem framed_decimal (x : Register) :
    Framed c (.decimal x) { c.advanced.storeDecimal x with cycles := c.cycles + 1 } :=
  have hadvance : Framed c (.decimal x) { c with cpu := c.cpu.advance, cycles := c.cycles + 1 } :=
    framed_advance rfl rfl
  { hadvance with memory := fun _ ha => read_load_of_not_written ha }

theorem length_registersUpTo (c : Core) (x : Register) :
    (c.registersUpTo x).length = x.val + 1 := by
  rw [registersUpTo, List.length_take, Vector.length_toList]
  omega

theorem framed_store (x : Register) :
    Framed c (.store x) { c.advanced.storeRegisters x with cycles := c.cycles + 1 } := by
  have hindex : Framed c (.store x)
      { c with
        cpu := { c.cpu.advance with index := c.advanced.indexAfterTransfer x }
        cycles := c.cycles + 1 } := framed_setIndex _ rfl rfl rfl
  refine { hindex with memory := fun a ha => read_load_of_not_written fun j hj => ha j ?_ }
  rwa [length_registersUpTo] at hj

theorem framed_load (x : Register) :
    Framed c (.load x) { c.advanced.loadRegisters x with cycles := c.cycles + 1 } := by
  refine framed_of_cpu (fun r hr => ?_) nofun (fun _ => ⟨rfl, rfl⟩) rfl rfl
  have hle : ¬ r ≤ x := hr
  show (Vector.ofFn _)[r] = _
  rw [Fin.getElem_fin, Vector.getElem_ofFn]
  exact if_neg hle

theorem passes_advanced (c : Core) (test : SkipTest) : c.advanced.passes test = c.passes test := by
  cases test <;> rfl

theorem framed_skip (c : Core) (test : SkipTest) :
    Framed c (.skip test) (c.counted (c.advanced.execute (.skip test)).1 .done) := by
  by_cases hpasses : c.passes test = true
  · have hskip : (c.advanced.execute (.skip test)).1 =
        { c with cpu := c.cpu.advance.advance } := by
      rw [execute, passes_advanced, if_pos hpasses]
      rfl
    have hnext : c.nextPc (.skip test) = (c.cpu.pc + 4) % 65536 := if_pos hpasses
    have hpc : lowWord (lowWord (c.cpu.pc + 2) + 2) = (c.cpu.pc + 4) % 65536 := by
      unfold lowWord
      omega
    rw [hskip]
    exact framed_setPc rfl (hpc.trans hnext.symm)
  · have hskip : (c.advanced.execute (.skip test)).1 = { c with cpu := c.cpu.advance } := by
      rw [execute, passes_advanced, if_neg hpasses]
      rfl
    rw [hskip]
    exact framed_advance rfl (if_neg hpasses)

theorem framed_random (x : Register) (nn : UInt8) :
    Framed c (.random x nn) { c.advanced.drawRandom x nn with cycles := c.cycles + 1 } :=
  have hset : Framed c (.random x nn)
      { c with cpu := (c.advanced.drawRandom x nn).cpu, cycles := c.cycles + 1 } :=
    framed_setReg _ rfl rfl rfl
  { hset with random := fun hx => absurd rfl (hx x nn) }

theorem framed_draw (x y : Register) (n : Fin 16) :
    Framed c (.draw x y n) { c.advanced.drawSprite x y n with cycles := c.cycles + 1 } :=
  have hset : Framed c (.draw x y n)
      { c with cpu := (c.advanced.drawSprite x y n).cpu, cycles := c.cycles + 1 } :=
    framed_setReg _ rfl rfl rfl
  { hset with framebuffer := nofun }

/-! ### All instructions -/

/-- **Every step of a well-formed core is framed by its instruction.** -/
theorem WellFormed.step_framed (h : c.WellFormed) (hi : Instruction.ofWord c.fetch = i) :
    Framed c i c.step.core := by
  have hstep := c.step_core
  have hadvance (hevent : c.event? i = none) (hpc : c.nextPc i = (c.cpu.pc + 2) % 65536) :
      Framed c i { c with cpu := c.cpu.advance, cycles := c.cycles + 1 } :=
    framed_advance (eventsAfter_of_none hevent).symm hpc
  rw [hi] at hstep
  cases i with
  -- what these three do hangs on the stack and on the keys
  | call target => exact (h.framed_call hi).1
  | ret => exact (h.framed_ret hi).1
  | waitKey x => exact h.framed_waitKey hi
  | skip test =>
    rw [hstep]
    exact c.framed_skip test
  | sys | unknown =>
    rw [hstep]
    exact framed_advance rfl rfl
  | jump | jumpOffset =>
    rw [hstep]
    exact framed_setPc rfl rfl
  | loadByte | addByte | readDelay =>
    rw [hstep]
    exact framed_setReg _ rfl rfl rfl
  | arithmetic op x y =>
    rw [hstep]
    exact framed_arithmetic op x y (op.isSome_eval _ _ _)
  | loadIndex | addIndex | glyph =>
    rw [hstep]
    exact framed_setIndex _ rfl rfl rfl
  | random x nn =>
    rw [hstep]
    exact framed_random x nn
  | draw x y n =>
    rw [hstep]
    exact framed_draw x y n
  | clear =>
    rw [hstep]
    exact { hadvance rfl rfl with framebuffer := nofun }
  | setDelay x =>
    rw [hstep]
    exact { hadvance rfl rfl with delay := fun hx => absurd rfl (hx x) }
  | setSound x =>
    rw [hstep]
    exact { hadvance rfl rfl with sound := fun hx => absurd rfl (hx x) }
  | decimal x =>
    rw [hstep]
    exact framed_decimal x
  | store x =>
    rw [hstep]
    exact framed_store x
  | load x =>
    rw [hstep]
    exact framed_load x

theorem awaitKey_snd (c : Core) (x : Register) :
    (c.awaitKey x).2 = .done ∨ (c.awaitKey x).2 = .broken := by
  unfold awaitKey
  split
  · exact .inl rfl
  · exact .inl rfl
  · exact .inr rfl

/-- **How a step of a well-formed core ends.** -/
theorem WellFormed.step_outcome_eq (h : c.WellFormed) (hi : Instruction.ofWord c.fetch = i) :
    c.step.outcome = (c.event? i).elim .done .event := by
  cases i with
  | call target => exact (h.framed_call hi).2
  | ret => exact (h.framed_ret hi).2
  | waitKey x =>
    have hbroken := h.step_outcome_ne_broken
    rw [step_outcome, hi] at hbroken ⊢
    exact (c.advanced.awaitKey_snd x).resolve_right hbroken
  | _ =>
    rw [step_outcome, hi]
    rfl

end Core

end Chip8
