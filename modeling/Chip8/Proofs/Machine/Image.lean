import Chip8.Machine.Basic
import Chip8.Proofs.Bytes
import Chip8.Proofs.Core.KeyWait
import Mathlib.Data.List.OfFn

/-!
# Machines and their images

An image tells whether its machine is well formed: the ranges of its fields are those of the
registers, pixels, timers and keys of the machine, and its word at pc is the word that the machine
fetches. A machine that is built of an image has that image again, so what holds of the image holds
of the machine.

The machine of an image is built by bringing the parts of a new machine into the state of the image,
one after the other. The screen and the keypad take only as many pixels and keys as they have, and
the memory takes a run of any length; so it is the lengths of an image in range that make the machine
be built and its memory be overwritten as a whole, the font of the new machine with it.

## Main definitions

* `Machine.WellFormed` — the core is well formed and the breakpoints are addresses
* `Machine.Sound` — moreover a latched key is one that the instruction at pc waits for
* `Machine.Restores` — a machine has an image, and is new in everything that no image holds

## Main results

* `Machine.wordAtPc_image` — the word at pc of an image
* `Machine.inRange_image`, `Machine.wellFormed_of_image` — ranges of the image and of the machine
* `Machine.valid_image_iff` — the images that describe machines are those of sound machines
* `Machine.restores_ofImage` — the machine of an image is built, and restores it
* `Machine.eq_of_image_eq` — what an image does not hold
-/

namespace Chip8

/-! ### Vectors and lists -/

/-- What holds of every entry of a vector holds of every member of its list. -/
theorem forall_mem_toList {α : Type} {n : Nat} {v : Vector α n} {P : α → Prop} :
    (∀ a ∈ v.toList, P a) ↔ ∀ a ∈ v, P a := by
  simp only [Vector.mem_toList_iff]

/-- The vector of the entries of a list of the right length has that list. -/
theorem toList_ofFn_getD {α : Type} {n : Nat} {l : List α} (h : l.length = n) (d : α) :
    (Vector.ofFn fun i : Fin n => l.toArray.getD i d).toList = l := by
  refine List.ext_getElem (by simp [h]) fun i h₁ h₂ => ?_
  simp [h₂]

/-! ### Parts that are restored -/

/-- As many pixels as the screen has are its pixels when it is restored. -/
theorem Framebuffer.restore_of_length {pixels : List UInt8} (h : pixels.length = pixelCount)
    (changed : Bool) :
    ∃ f, restore pixels changed = .ok f ∧ f.pixels.toList = pixels ∧ f.changed = changed :=
  ⟨⟨⟨pixels.toArray, h⟩, changed⟩, dif_pos h, rfl, rfl⟩

/-- As many states as there are keys are those of the keys when the keypad is restored. -/
theorem Keypad.restore_of_length {states : List Bool} (h : states.length = keyCount)
    (latch : Option Int) :
    ∃ k, restore states latch = .ok k ∧ k.held.toList = states ∧ k.latch = latch :=
  ⟨⟨⟨states.toArray, h⟩, latch⟩, dif_pos h, rfl, rfl⟩

/-- As many bytes as there are cells are the cells when they are written from the first one on. -/
theorem Memory.toList_load_zero {size : Nat} [Nonempty (Fin size)] (m : Memory size)
    {bytes : List UInt8} (h : bytes.length = size) :
    (m.load 0 (bytes.map fun b => (b.toNat : Int))).toList = bytes := by
  have hlength : (bytes.map fun b => (b.toNat : Int)).length = size := by
    rw [List.length_map, h]
  refine List.ext_getElem (by rw [Memory.toList, Vector.length_toList, h]) fun i hi hi' => ?_
  have hread := read_load_get (m := m) (a := 0) hlength.le (hlength ▸ h ▸ hi')
  rw [List.getElem_map, Bytes.ofInt_toNat] at hread
  have hslot : (slot size (0 + (i : Int))).val = i := by
    show ((0 + (i : Int)) % size).toNat = i
    rw [Int.zero_add, Int.emod_eq_of_lt (by omega) (by omega), Int.toNat_natCast]
  rw [← hread]
  simp only [Memory.toList, Vector.getElem_toList, read, Fin.getElem_fin, hslot]

namespace Machine

variable {m : Machine} {image : Image}

/-- The core is well formed and the breakpoints are addresses. -/
structure WellFormed (m : Machine) : Prop where
  core : m.core.WellFormed
  breakpoints : ∀ a ∈ m.control.breakpoints, IsWord a

/-- The machine is well formed, and a key is latched only at an instruction that waits for it. -/
structure Sound (m : Machine) : Prop extends WellFormed m where
  latch_waits : m.core.LatchWaits

/-! ### The image of a machine -/

theorem byteAt_toList (memory : Memory memorySize) {a : Int} (h : 0 ≤ a) :
    Image.byteAt memory.toList a.toNat = memory.read a := by
  have hslot : (Memory.slot memorySize a).val = a.toNat % memorySize := by
    show (a % (4096 : Nat)).toNat = a.toNat % 4096
    omega
  have hlt : a.toNat % memorySize < memory.toList.length := by
    rw [Memory.toList, Vector.length_toList]
    exact Nat.mod_lt _ (by decide)
  rw [Image.byteAt, List.getD_eq_getElem _ _ hlt]
  simp only [Memory.toList, Vector.getElem_toList, Memory.read, Fin.getElem_fin, hslot]

/-- The image has the word at pc that the machine fetches. -/
theorem wordAtPc_image (h : 0 ≤ m.core.cpu.pc) : m.image.wordAtPc = m.core.fetch := by
  have hnext : m.core.cpu.pc.toNat + 1 = (m.core.cpu.pc + 1).toNat := by omega
  have hhigh := byteAt_toList m.core.memory h
  have hlow := byteAt_toList m.core.memory (Int.add_nonneg h Int.one_nonneg)
  rw [Image.wordAtPc, Image.wordAt, Core.fetch, Memory.readWord, ← hhigh, ← hlow, ← hnext]
  rfl

/-- The image of a well-formed machine is in range. -/
theorem inRange_image (h : m.WellFormed) : m.image.InRange where
  memory_length := Vector.length_toList
  registers_length := Vector.length_toList
  registers_range := by
    intro r hr
    obtain ⟨x, hx, rfl⟩ := Vector.getElem_of_mem (Vector.mem_toList_iff.1 hr)
    exact h.core.cpu.reg ⟨x, hx⟩
  index_range := h.core.cpu.index
  pc_range := h.core.cpu.pc
  stack_length := Vector.length_toList
  stack_range := forall_mem_toList.2 h.core.cpu.stack
  sp_range := h.core.cpu.sp
  delay_range := h.core.timers.delay
  sound_range := h.core.timers.sound
  framebuffer_length := Vector.length_toList
  framebuffer_values := forall_mem_toList.2 h.core.framebuffer
  keys_length := by
    rw [image, List.length_map, Vector.length_toList]
  keys_values := by
    intro k hk
    obtain ⟨down, -, rfl⟩ := List.mem_map.1 hk
    cases down
    · left; rfl
    · right; rfl
  breakpoints_range := h.breakpoints
  latch_range := h.core.latch

/-- A machine whose image is in range is well formed if it latches keys only in the dialect that
waits for a release. -/
theorem wellFormed_of_image (h : m.image.InRange)
    (hr : m.core.keypad.latch.isSome → m.core.dialect.keyWaitOnRelease = true) :
    m.WellFormed where
  core := {
    cpu := {
      pc := h.pc_range
      index := h.index_range
      reg := fun x => h.registers_range _ (Vector.mem_toList_iff.2 (Vector.getElem_mem x.isLt))
      stack := forall_mem_toList.1 h.stack_range
      sp := h.sp_range }
    framebuffer := forall_mem_toList.1 h.framebuffer_values
    timers := ⟨h.delay_range, h.sound_range⟩
    latch := h.latch_range
    release := hr }
  breakpoints := h.breakpoints_range

/-- **The images that describe machines are those of sound machines.** -/
theorem valid_image_iff : m.image.Valid ↔ m.Sound := by
  constructor
  · intro h
    have hm : m.WellFormed := wellFormed_of_image h.toInRange fun hs => (h.latch_waits hs).1
    refine { hm with latch_waits := fun hs => ?_ }
    rw [← wordAtPc_image hm.core.cpu.pc.1]
    exact (h.latch_waits hs).2
  · intro h
    have hm : m.WellFormed := h.toWellFormed
    refine { inRange_image hm with latch_waits := fun hs => ⟨hm.core.release hs, ?_⟩ }
    rw [wordAtPc_image hm.core.cpu.pc.1]
    exact h.latch_waits hs

/-! ### The machine of an image -/

/-- A machine has an image, and it is new in everything that no image holds: it has no skip and no
recorded events, has counted no steps, and its random numbers begin anew. -/
structure Restores (image : Image) (seed : Option Int) (clock : Int) (m : Machine) : Prop where
  random : m.core.random = .ofSeed (seed.getD clock)
  image : m.image = image
  seed : m.seed = seed
  skip : m.control.skip = none
  diagnostics : m.core.diagnostics = []
  cycles : m.core.cycles = 0

/-- The numbers of the states of keys. -/
theorem map_bne_zero {keys : List Int} (h : ∀ k ∈ keys, k = 0 ∨ k = 1) :
    (keys.map (· != 0)).map (fun down => if down then (1 : Int) else 0) = keys := by
  rw [List.map_map]
  refine (List.map_congr_left fun k hk => ?_).trans (List.map_id keys)
  rcases h k hk with rfl | rfl <;> rfl

/-- **A machine is brought into the state of an image** that is in range and of its dialect. Nothing
changes of what no image holds, but that a skip is forgotten. -/
theorem restore_of_inRange (h : image.InRange) (hdialect : m.core.dialect = image.dialect) :
    ∃ next, m.restore image = .ok next ∧ next.image = image ∧ next.seed = m.seed ∧
      next.control.skip = none ∧ next.core.diagnostics = m.core.diagnostics ∧
      next.core.cycles = m.core.cycles ∧ next.core.random = m.core.random := by
  have hstates : (image.keys.map (· != 0)).length = keyCount := by
    rw [List.length_map, h.keys_length]
  obtain ⟨framebuffer, hframe, hpixels, hchanged⟩ :=
    Framebuffer.restore_of_length h.framebuffer_length image.changed
  obtain ⟨keypad, hkeypad, hheld, hlatch⟩ := Keypad.restore_of_length hstates image.latch
  have hmemory := Memory.toList_load_zero m.core.memory h.memory_length
  have hregisters : (cpuOfImage image).v.toList = image.registers :=
    toList_ofFn_getD h.registers_length 0
  have hstack : (cpuOfImage image).stack.toList = image.stack :=
    toList_ofFn_getD h.stack_length 0
  have hkeys := map_bne_zero h.keys_values
  rw [restore, hframe, hkeypad]
  refine ⟨_, rfl, ?_, rfl, rfl, rfl, rfl, rfl⟩
  simp only [Machine.image, hmemory, hregisters, hstack, hpixels, hchanged, hheld, hlatch, hkeys,
    hdialect]
  rfl

/-- **The machine of an image in range is built, and it restores the image.** -/
theorem restores_ofImage (h : image.InRange) (seed : Option Int) (clock : Int) :
    ∃ m, ofImage image seed clock = .ok m ∧ Restores image seed clock m := by
  obtain ⟨m, hm, himage, hseed, hskip, hlog, hcycles, hrandom⟩ :=
    restore_of_inRange (m := create image.dialect seed clock) h rfl
  have hfresh : (create image.dialect seed clock).core =
      (Core.unset image.dialect).reset (seed.getD clock) := rfl
  rw [hfresh, Core.reset_eq] at hlog hcycles hrandom
  exact ⟨m, hm, hrandom, himage, hseed, hskip, hlog, hcycles⟩

/-- The machine of an image that describes a machine is sound. -/
theorem Restores.sound {seed : Option Int} {clock : Int} (hm : Restores image seed clock m)
    (h : image.Valid) : m.Sound := by
  rw [← valid_image_iff, hm.image]
  exact h

/-- Keys are told by the numbers of their states. -/
theorem held_of_map_eq {v w : Vector Bool keyCount}
    (h : v.toList.map (fun down => if down then (1 : Int) else 0) =
      w.toList.map fun down => if down then (1 : Int) else 0) : v = w := by
  have hinj : Function.Injective fun down : Bool => if down then (1 : Int) else 0 := by decide
  exact Vector.toList_inj.1 (List.map_injective_iff.2 hinj h)

/-- **What an image does not hold**: machines with the same image are the same if they have the same
seed, skip, recorded events, number of steps and random numbers. -/
theorem eq_of_image_eq {r : Machine} (himage : r.image = m.image) (hseed : r.seed = m.seed)
    (hskip : r.control.skip = m.control.skip) (hlog : r.core.diagnostics = m.core.diagnostics)
    (hcycles : r.core.cycles = m.core.cycles) (hrandom : r.core.random = m.core.random) :
    r = m := by
  obtain ⟨⟨dialect, ⟨pc, index, v, stack, sp⟩, ⟨cells⟩, ⟨pixels, changed⟩, ⟨held, latch⟩,
    ⟨delay, sound⟩, random, log, cycles⟩, ⟨running, breakpoints, skip⟩, seed⟩ := m
  obtain ⟨⟨dialect', ⟨pc', index', v', stack', sp'⟩, ⟨cells'⟩, ⟨pixels', changed'⟩, ⟨held', latch'⟩,
    ⟨delay', sound'⟩, random', log', cycles'⟩, ⟨running', breakpoints', skip'⟩, seed'⟩ := r
  simp only [Machine.image, Image.mk.injEq, Memory.toList, Vector.toList_inj] at *
  obtain ⟨hcells, hv, hindex, hpc, hstack, hsp, hdelay, hsound, hpixels, hchanged, hheld, hrunning,
    hdialect, hlatch, hbreakpoints⟩ := himage
  obtain rfl := held_of_map_eq hheld
  subst hcells hv hindex hpc hstack hsp hdelay hsound hpixels hchanged hrunning hdialect hlatch
  subst hbreakpoints hseed hskip hlog hcycles hrandom
  rfl

end Machine

end Chip8
