import Chip8.Proofs.Machine.Commands
import Chip8.Proofs.Snapshot.RoundTrip

/-!
# Reachable machines and their snapshots

Every reachable machine is well formed, so it has a snapshot. Whether the snapshot is accepted again
hangs on the latch alone: it is refused exactly when a key is latched and the word at pc waits for
none. A host brings this about by loading a program in the middle of a wait, since a load neither
resets the machine nor empties the latch.

## Main definitions

* `Machine.Reachable` — the machines that a host can reach from a new one

## Main results

* `Machine.Reachable.wellFormed` — they are well formed
* `Machine.Sound.deserialize` — the snapshot of a sound machine is accepted
* `Machine.WellFormed.deserialize_of_stale` — the snapshot of any other one is refused
* `Machine.Reachable.deserialize_serialize` — both for reachable machines
-/

namespace Chip8

namespace Machine

variable {m : Machine}

/-! ### Reachable machines -/

/-- The machine with other random numbers to come. -/
def withRandom (m : Machine) (random : MersenneTwister) : Machine :=
  { m with core := { m.core with random } }

/-- The machines that a host can reach. Without a seed the clock chooses the random numbers, so at
any time they may be any. -/
inductive Reachable : Machine → Prop where
  | create (dialect : Dialect) (seed : Option Int) : Reachable (create dialect seed)
  | perform {m : Machine} (h : Reachable m) (command : Command) : Reachable (m.perform command).1
  | clock {m : Machine} (h : Reachable m) (hs : m.seed = none) (random : MersenneTwister) :
    Reachable (m.withRandom random)

/-- Whole runs lead from reachable machines to reachable ones. -/
theorem Reachable.run (h : m.Reachable) (commands : List Command) :
    (m.run commands).Reachable := by
  induction commands generalizing m with
  | nil => exact h
  | cons command rest ih => exact ih (h.perform command)

theorem WellFormed.withRandom (h : m.WellFormed) (random : MersenneTwister) :
    (m.withRandom random).WellFormed :=
  { h with core := { h.core with } }

theorem Sound.withRandom (h : m.Sound) (random : MersenneTwister) :
    (m.withRandom random).Sound :=
  { h.toWellFormed.withRandom random with latch_waits := h.latch_waits.congr rfl rfl rfl }

/-- **Every reachable machine is well formed.** -/
theorem Reachable.wellFormed (h : m.Reachable) : m.WellFormed := by
  induction h with
  | create dialect seed => exact wellFormed_create dialect seed
  | perform _ command ih => exact ih.perform command
  | clock _ _ random ih => exact ih.withRandom random

/-! ### Snapshots -/

/-- A well-formed machine has a snapshot. -/
theorem WellFormed.serialize (h : m.WellFormed) (hcount : m.breakpoints.size < 65536) :
    m.serialize = .ok (Snapshot.parts m.image).flatten :=
  Snapshot.encode_eq (inRange_image h) hcount

theorem deserialize_eq_ok {source : Snapshot.Source} {seed : Option Int} {clock : Int} :
    deserialize source seed clock = .ok m ↔
      ∃ image, Snapshot.decode source = .ok image ∧ ofImage image seed clock = .ok m := by
  rw [Machine.deserialize, Except.bind_eq_ok]
  simp only [Except.mapError_eq_ok]

/-- A machine that was read from a snapshot restores the image of a machine. -/
theorem restores_of_deserialize {source : Snapshot.Source} {seed : Option Int} {clock : Int}
    (h : deserialize source seed clock = .ok m) :
    ∃ image, Snapshot.decode source = .ok image ∧ image.Valid ∧ Restores image seed clock m := by
  obtain ⟨image, hdecode, hm⟩ := deserialize_eq_ok.1 h
  have hvalid := Snapshot.valid_of_decode hdecode
  obtain ⟨next, hnext, hrestores⟩ := restores_ofImage hvalid.toInRange seed clock
  obtain rfl : m = next := Except.ok.inj (hm.symm.trans hnext)
  exact ⟨image, hdecode, hvalid, hrestores⟩

/-- A machine that was read from a snapshot is sound. -/
theorem sound_of_deserialize {source : Snapshot.Source} {seed : Option Int} {clock : Int}
    (h : deserialize source seed clock = .ok m) : m.Sound := by
  obtain ⟨image, -, hvalid, hrestores⟩ := restores_of_deserialize h
  exact hrestores.sound hvalid

/-- **The snapshot of a sound machine is accepted**, and the machine that it gives has the same
image. -/
theorem Sound.deserialize (h : m.Sound) (hcount : m.breakpoints.size < 65536) (seed : Option Int)
    (clock : Int) : ∃ next,
      deserialize (.bytes (Snapshot.parts m.image).flatten) seed clock = .ok next ∧
        Restores m.image seed clock next := by
  have hvalid : m.image.Valid := valid_image_iff.2 h
  obtain ⟨next, hnext, hrestores⟩ := restores_ofImage hvalid.toInRange seed clock
  exact ⟨next, deserialize_eq_ok.2 ⟨m.image, Snapshot.decode_parts hvalid hcount, hnext⟩, hrestores⟩

/-- **The snapshot of a machine with a stale latch is refused.** -/
theorem WellFormed.deserialize_of_stale (h : m.WellFormed) (hcount : m.breakpoints.size < 65536)
    (hstale : ¬ m.core.LatchWaits) (seed : Option Int) (clock : Int) :
    deserialize (.bytes (Snapshot.parts m.image).flatten) seed clock =
      .error (.snapshot (.latchNotWaiting m.core.fetch.toNat m.core.cpu.pc.toNat)) := by
  obtain ⟨hlatch, hwait⟩ := Classical.not_imp.1 hstale
  have hword := wordAtPc_image h.core.cpu.pc.1
  rw [← hword] at hwait
  rw [Machine.deserialize, Snapshot.decode_parts_of_stale (inRange_image h) hcount hlatch
    (h.core.release hlatch) hwait, hword]
  rfl

/-- **Which reachable machines can be saved and loaded back.** All of them can be saved. Loading
succeeds with every seed, and gives a machine with the same image, if a latched key is one that the
word at pc waits for; otherwise it fails with every seed. -/
theorem Reachable.deserialize_serialize (h : m.Reachable) (hcount : m.breakpoints.size < 65536) :
    ∃ data, m.serialize = .ok data ∧ ∀ seed,
      (m.core.LatchWaits →
        ∃ next, deserialize (.bytes data) seed = .ok next ∧ next.image = m.image) ∧
      (¬ m.core.LatchWaits → deserialize (.bytes data) seed =
        .error (.snapshot (.latchNotWaiting m.core.fetch.toNat m.core.cpu.pc.toNat))) := by
  have hwell := h.wellFormed
  refine ⟨_, hwell.serialize hcount, fun seed => ⟨fun hwaits => ?_, fun hstale => ?_⟩⟩
  · have hsound : m.Sound := { hwell with latch_waits := hwaits }
    obtain ⟨next, hnext, hrestores⟩ := hsound.deserialize hcount seed 0
    exact ⟨next, hnext, hrestores.image⟩
  · exact hwell.deserialize_of_stale hcount hstale seed 0

/-- A machine in the middle of a wait for the release of a key, at a breakpoint. -/
def waiting : Machine :=
  (create { keyWaitOnRelease := true } (some 0)).run
    [.loadRom [0xF5, 0x0A], .keyDown 5, .cycle, .setBreakpoint 0x200]

theorem deserialize_serialize_waiting :
    waiting.Reachable ∧ waiting.breakpoints.size < 65536 ∧ waiting.core.keypad.latch = some 5 ∧
      waiting.core.LatchWaits ∧ ∃ data, waiting.serialize = .ok data ∧ ∀ seed,
        (waiting.core.LatchWaits →
          ∃ next, deserialize (.bytes data) seed = .ok next ∧ next.image = waiting.image) ∧
        (¬ waiting.core.LatchWaits → deserialize (.bytes data) seed =
          .error (.snapshot
            (.latchNotWaiting waiting.core.fetch.toNat waiting.core.cpu.pc.toNat))) :=
  have hreachable : waiting.Reachable := (Reachable.create _ _).run _
  have hcount : waiting.breakpoints.size < 65536 := by decide +kernel
  ⟨hreachable, hcount, by decide +kernel, fun _ => by decide +kernel,
    hreachable.deserialize_serialize hcount⟩

/-- The same machine after the load of a program that does not wait: the key stays latched. -/
def staleLatch : Machine :=
  (create { keyWaitOnRelease := true } (some 0)).run
    [.loadRom [0xF5, 0x0A], .keyDown 5, .cycle, .loadRom [0x00, 0xE0]]

/-- A reachable machine without breakpoints that is saved and cannot be loaded back. -/
theorem deserialize_staleLatch :
    staleLatch.Reachable ∧ staleLatch.breakpoints.size < 65536 ∧
      ∃ data, staleLatch.serialize = .ok data ∧ ∀ seed, deserialize (.bytes data) seed =
        .error (.snapshot (.latchNotWaiting 0x00E0 0x200)) := by
  have hreachable : staleLatch.Reachable := (Reachable.create _ _).run _
  have hcount : staleLatch.breakpoints.size < 65536 := by decide +kernel
  have hlatch : staleLatch.core.keypad.latch = some 5 := by decide +kernel
  have hfetch : staleLatch.core.fetch = 0x00E0 := by decide +kernel
  have hpc : staleLatch.core.cpu.pc = 0x200 := by decide +kernel
  have hstale : ¬ staleLatch.core.LatchWaits := by
    intro hwaits
    have hword := hwaits (by rw [hlatch]; rfl)
    rw [hfetch] at hword
    exact absurd hword (by decide)
  refine ⟨hreachable, hcount, _, hreachable.wellFormed.serialize hcount, fun seed => ?_⟩
  rw [hreachable.wellFormed.deserialize_of_stale hcount hstale seed 0, hfetch, hpc]
  rfl

end Machine

end Chip8
