import Chip8.Proofs.Machine.Reachable
import Mathlib.Data.Int.Interval

/-!
# Saving sets of breakpoints

A host sets and clears breakpoints at any numbers; they are reduced to addresses of sixteen bits, of
which there are 65536. A snapshot has sixteen bits for how many of them there are. So it can count
every set of breakpoints that lacks an address, and the set of all addresses is the only one that it
cannot: a machine that stops everywhere is refused.

## Main definitions

* `Machine.Command.EditsBreakpoints` — the calls that set or clear a breakpoint

## Main results

* `AddressSet.size_lt_iff` — a set of addresses has fewer than 65536 members when it lacks one
* `Machine.Sound.decode_serialize` — a sound machine that lacks a breakpoint is saved and read back
* `Machine.WellFormed.serialize_of_full` — a machine that lacks none is refused
* `Machine.decode_serialize_of_edits` — both, after any edits of the breakpoints of a new machine
* `Machine.serialize_everyAddress` — there are edits after which a machine is refused
-/

namespace Chip8

namespace AddressSet

variable {s : AddressSet}

theorem card_toFinset (s : AddressSet) : s.toList.toFinset.card = s.size :=
  List.toFinset_card_of_nodup (s.increasing.imp fun hlt => Int.ne_of_lt hlt)

/-- **A set of addresses has fewer than 65536 members when it lacks one.** -/
theorem size_lt_iff (h : ∀ a ∈ s, IsWord a) : s.size < 65536 ↔ ∃ a, IsWord a ∧ a ∉ s := by
  -- the addresses of sixteen bits as a finite set
  have hwords (a : Int) : a ∈ Finset.Ico (0 : Int) 65536 ↔ IsWord a := Finset.mem_Ico
  have hcard : (Finset.Ico (0 : Int) 65536).card = 65536 := by simp
  have hsub : s.toList.toFinset ⊆ Finset.Ico 0 65536 := by
    intro a ha
    exact (hwords a).2 (h a (List.mem_toFinset.1 ha))
  rw [← card_toFinset, ← hcard]
  constructor
  · intro hlt
    by_contra hall
    push Not at hall
    -- all addresses would be members, and then as many as there are
    refine Nat.not_le.2 hlt (Finset.card_le_card fun a ha => ?_)
    exact List.mem_toFinset.2 (hall a ((hwords a).1 ha))
  · rintro ⟨a, ha, hmissing⟩
    refine Finset.card_lt_card ((Finset.ssubset_iff_of_subset hsub).2 ⟨a, ?_, ?_⟩)
    · exact (hwords a).2 ha
    · intro hmem
      exact hmissing (List.mem_toFinset.1 hmem)

end AddressSet

namespace Machine

variable {m : Machine}

/-! ### Saving -/

/-- **A sound machine that lacks a breakpoint is saved**, and its image is read back. -/
theorem Sound.decode_serialize (h : m.Sound) (hfree : ∃ a, IsWord a ∧ a ∉ m.breakpoints) :
    ∃ data, m.serialize = .ok data ∧ Snapshot.decode (.bytes data) = .ok m.image := by
  have hcount : m.breakpoints.size < 65536 := (AddressSet.size_lt_iff h.breakpoints).2 hfree
  exact ⟨_, h.toWellFormed.serialize hcount, Snapshot.decode_parts (valid_image_iff.2 h) hcount⟩

/-- **A machine that stops everywhere is not saved.** -/
theorem WellFormed.serialize_of_full (h : m.WellFormed)
    (hfull : ∀ a, IsWord a → a ∈ m.breakpoints) : m.serialize = .error .fieldOverflow := by
  refine Snapshot.encode_of_full (inRange_image h) fun hcount => ?_
  obtain ⟨a, ha, hmissing⟩ := (AddressSet.size_lt_iff h.breakpoints).1 hcount
  exact hmissing (hfull a ha)

/-! ### Edits of the breakpoints -/

/-- The calls that set or clear a breakpoint. -/
def Command.EditsBreakpoints : Command → Prop
  | .setBreakpoint _ | .clearBreakpoint _ => True
  | _ => False

/-- After breakpoints were set at a list of numbers, their addresses have been added. -/
theorem mem_breakpoints_setAll {a : Int} (numbers : List Int) :
    a ∈ (m.run (numbers.map .setBreakpoint)).breakpoints ↔
      (∃ n ∈ numbers, a = Control.addressOf n) ∨ a ∈ m.breakpoints := by
  induction numbers generalizing m with
  | nil => simp [run]
  | cons n rest ih =>
    have hfirst : a ∈ (m.setBreakpoint n).breakpoints ↔
        a = Control.addressOf n ∨ a ∈ m.breakpoints := AddressSet.mem_insert
    rw [List.exists_mem_cons_iff, or_assoc, or_left_comm, ← hfirst]
    exact ih

/-- **Which sets of breakpoints are saved.** After any edits of the breakpoints of a new machine,
the machine is saved as long as it lacks one of the addresses, and what is read back has its
breakpoints. A machine that lacks none is refused. -/
theorem decode_serialize_of_edits (dialect : Dialect) (seed : Option Int) {commands : List Command}
    (h : ∀ command ∈ commands, command.EditsBreakpoints) :
    ((∃ a, IsWord a ∧ a ∉ ((create dialect seed).run commands).breakpoints) →
      ∃ data image, ((create dialect seed).run commands).serialize = .ok data ∧
        Snapshot.decode (.bytes data) = .ok image ∧
        image.breakpoints = ((create dialect seed).run commands).breakpoints) ∧
      ((∀ a, IsWord a → a ∈ ((create dialect seed).run commands).breakpoints) →
        ((create dialect seed).run commands).serialize = .error .fieldOverflow) := by
  have hsound : ((create dialect seed).run commands).Sound := by
    refine (sound_create dialect seed).run fun command hmem data hload => ?_
    have hedits := h command hmem
    rw [hload] at hedits
    exact hedits
  constructor
  · intro hfree
    obtain ⟨data, hdata, hdecode⟩ := hsound.decode_serialize hfree
    exact ⟨data, _, hdata, hdecode, rfl⟩
  · exact hsound.toWellFormed.serialize_of_full

/-- Edits at numbers beyond sixteen bits, two of them at the same address. -/
def farEdits : List Command := [.setBreakpoint (-1), .setBreakpoint 0x10300, .clearBreakpoint 65535]

theorem decode_serialize_of_farEdits :
    (∀ command ∈ farEdits, command.EditsBreakpoints) ∧
      (∃ a, IsWord a ∧ a ∉ ((create {} none).run farEdits).breakpoints) ∧
      ((create {} none).run farEdits).breakpoints.toList = [0x300] ∧
      ∃ data image, ((create {} none).run farEdits).serialize = .ok data ∧
        Snapshot.decode (.bytes data) = .ok image ∧
        image.breakpoints = ((create {} none).run farEdits).breakpoints := by
  have hedits : ∀ command ∈ farEdits, command.EditsBreakpoints := by
    simp [farEdits, Command.EditsBreakpoints]
  have hfree : ∃ a, IsWord a ∧ a ∉ ((create {} none).run farEdits).breakpoints :=
    ⟨65535, ⟨by decide, by decide⟩, by decide +kernel⟩
  exact ⟨hedits, hfree, by decide +kernel, (decode_serialize_of_edits {} none hedits).1 hfree⟩

/-- A breakpoint is set at every address. -/
def everyAddress : List Command :=
  ((List.range 65536).map fun n : Nat => (n : Int)).map .setBreakpoint

/-- Edits of the breakpoints of a new machine after which it is not saved. -/
theorem serialize_everyAddress :
    (∀ command ∈ everyAddress, command.EditsBreakpoints) ∧
      ((create {} (some 0)).run everyAddress).serialize = .error .fieldOverflow := by
  have hedits : ∀ command ∈ everyAddress, command.EditsBreakpoints := by
    intro command hmem
    obtain ⟨n, -, rfl⟩ := List.mem_map.1 hmem
    trivial
  have hreachable : ((create {} (some 0)).run everyAddress).Reachable :=
    (Reachable.create {} (some 0)).run everyAddress
  refine ⟨hedits, hreachable.wellFormed.serialize_of_full fun a ha => ?_⟩
  refine (mem_breakpoints_setAll _).2 (.inl ⟨a, ?_, ?_⟩)
  · obtain ⟨h₀, h₁⟩ := ha
    exact List.mem_map.2 ⟨a.toNat, List.mem_range.2 (by omega), by omega⟩
  · exact (Int.emod_eq_of_lt ha.1 ha.2).symm

end Machine

end Chip8
