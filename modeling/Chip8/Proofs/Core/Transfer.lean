import Chip8.Proofs.Bytes
import Chip8.Proofs.Core.Frame
import Mathlib.Logic.Function.Iterate

/-!
# Transfers of registers

Two instructions move the registers up to a given one, the one to memory and the other back, from
the index on and round the end of the memory. There are at most sixteen of them, so a transfer meets
different cells, and what was stored is there until somebody writes it over. A load from the same
index brings it back, and does not touch the registers above.

In one of the dialects a transfer leaves the index behind the last cell that it met, and the next
transfer goes on there. The index goes round at 65536 and the memory at 4096, which divides it, so a
run of stores fills cells in a row, whatever its length is and wherever the index goes round. Once
the run is longer than the memory it meets its own cells again, and of those that it met the last
4096 are as they were stored.

## Main definitions

* `Core.withRegisters` — the core with another index and other registers
* `Core.Restores` — what a store and a load leave
* `Core.storedTimes`, `Core.StoresRun` — several stores, and what they leave

## Main results

* `Core.toNat_read_storeRegisters`, `Core.read_storeRegisters_of_ne` — the cells after one store
* `Core.restores_storeRegisters` — a store and a load
* `Core.StoresRun.store`, `Core.WellFormed.storesRun` — one more store, and runs of them
* `Core.WellFormed.transfer_inverts` — both together
-/

namespace Chip8

namespace Core

variable {c d : Core} {x : Register}

/-! ### One store -/

theorem getElem_registersUpTo {i : Nat} (h : i < (c.registersUpTo x).length) (hi : i < 16) :
    (c.registersUpTo x)[i] = c.cpu.reg ⟨i, hi⟩ := by
  simp only [registersUpTo, List.getElem_take, Vector.getElem_toList]
  rfl

/-- **A register that is stored is in its cell.** -/
theorem toNat_read_storeRegisters {r : Register} (hbyte : IsByte (c.cpu.reg r)) (hr : r ≤ x) :
    (((c.storeRegisters x).memory.read (c.cpu.index + r.val)).toNat : Int) = c.cpu.reg r := by
  have hlength := c.length_registersUpTo x
  have hsize : memorySize = 4096 := rfl
  have hle : r.val ≤ x.val := hr
  have hlt : r.val < (c.registersUpTo x).length := by omega
  have hread : (c.storeRegisters x).memory.read (c.cpu.index + r.val) =
      UInt8.ofInt (c.registersUpTo x)[r.val] := Memory.read_load_get (by omega) hlt
  rw [hread, getElem_registersUpTo hlt r.isLt, Bytes.toNat_ofInt hbyte]

/-- **The other cells are as before.** -/
theorem read_storeRegisters_of_ne {a : Int}
    (ha : ∀ i : Nat, i ≤ x.val → a % memorySize ≠ (c.cpu.index + i) % memorySize) :
    (c.storeRegisters x).memory.read a = c.memory.read a := by
  refine read_load_of_not_written fun j hj => ha j ?_
  rw [length_registersUpTo] at hj
  omega

/-! ### A store and a load -/

/-- The core with another index and other data registers. -/
def withRegisters (c : Core) (index : Int) (v : Vector Int 16) : Core :=
  { c with cpu := { c.cpu with index, v } }

/-- What is left when the registers up to `x` were stored, all registers were overwritten with
`scratch`, and those up to `x` were loaded from the same index: they are as before the store, the
others are those of `scratch`, and of the memory only the cells of the transfer may have changed,
one for each register. Where a transfer leaves the index is a matter of the dialect. -/
structure Restores (c : Core) (x : Register) (scratch : Vector Int 16) (stored loaded : Core) :
    Prop where
  restored : ∀ r ≤ x, loaded.cpu.reg r = c.cpu.reg r
  overwritten : ∀ r, x < r → loaded.cpu.reg r = scratch.get r
  memory : ∀ a : Int, (∀ i : Nat, i ≤ x.val → a % memorySize ≠ (c.cpu.index + i) % memorySize) →
    loaded.memory.read a = c.memory.read a
  distinct : ∀ i j : Nat, i ≤ x.val → j ≤ x.val →
    (c.cpu.index + i) % memorySize = (c.cpu.index + j) % memorySize → i = j
  index_stored : stored.cpu.index =
    if c.dialect.loadStoreIncrementsIndex then (c.cpu.index + x.val + 1) % 65536 else c.cpu.index
  index_loaded : loaded.cpu.index =
    if c.dialect.loadStoreIncrementsIndex then (c.cpu.index + x.val + 1) % 65536 else c.cpu.index

theorem reg_loadRegisters (c : Core) (x r : Register) :
    (c.loadRegisters x).cpu.reg r =
      if r ≤ x then ((c.memory.read (c.cpu.index + r.val)).toNat : Int) else c.cpu.reg r := by
  show (Vector.ofFn _)[r] = _
  rw [Fin.getElem_fin, Vector.getElem_ofFn]
  rfl

/-- **A load brings back what was stored.** -/
theorem restores_storeRegisters (hbyte : ∀ r, IsByte (c.cpu.reg r)) (x : Register)
    (scratch : Vector Int 16) :
    Restores c x scratch (c.storeRegisters x)
      (((c.storeRegisters x).withRegisters c.cpu.index scratch).loadRegisters x) where
  restored r hr := by
    rw [reg_loadRegisters, if_pos hr]
    exact toNat_read_storeRegisters (hbyte r) hr
  overwritten r hr := by
    rw [reg_loadRegisters, if_neg (Fin.not_le.2 hr)]
    rfl
  memory a ha := read_storeRegisters_of_ne ha
  distinct i j hi hj hsame := by
    have hsame : (c.cpu.index + i) % 4096 = (c.cpu.index + j) % 4096 := hsame
    omega
  index_stored := rfl
  index_loaded := rfl

/-! ### Runs of stores -/

/-- The core after the registers up to `x` were stored `k` times, one store after the other. -/
def storedTimes (c : Core) (x : Register) (k : Nat) : Core :=
  (fun d => (d.execute (.store x)).1)^[k] c

/-- What `k` stores leave that go on where the one before stopped. They met as many cells in a row
as registers were stored, and nothing else has changed in memory. Of the cells that they met the
last ones, as many as there are in memory, hold what was stored there. The next store would go on
behind the run. -/
structure StoresRun (c : Core) (x : Register) (k : Nat) (next : Core) : Prop where
  index : next.cpu.index = (c.cpu.index + (k * (x.val + 1) : Nat)) % 65536
  goesOn : ∀ i : Nat,
    (next.cpu.index + i) % memorySize = (c.cpu.index + (k * (x.val + 1) + i : Nat)) % memorySize
  outside : ∀ a : Int,
    (∀ j : Nat, j < k * (x.val + 1) → a % memorySize ≠ (c.cpu.index + j) % memorySize) →
    next.memory.read a = c.memory.read a
  written : ∀ (n : Nat) (r : Register), n < k → r ≤ x →
    k * (x.val + 1) ≤ n * (x.val + 1) + r.val + memorySize →
    ((next.memory.read (c.cpu.index + (n * (x.val + 1) + r.val : Nat))).toNat : Int) = c.cpu.reg r
  registers : next.cpu.v = c.cpu.v
  dialect : next.dialect = c.dialect

/-- **One more store** goes on behind the run, and spares what the run has written last. -/
theorem StoresRun.store {k : Nat} (h : StoresRun c x k d) (hbyte : ∀ r, IsByte (c.cpu.reg r))
    (hindex : c.dialect.loadStoreIncrementsIndex = true) :
    StoresRun c x (k + 1) (d.execute (.store x)).1 := by
  have hreg (r : Register) : d.cpu.reg r = c.cpu.reg r :=
    congrArg (fun v : Vector Int 16 => v[r]) h.registers
  have hsucc : (k + 1) * (x.val + 1) = k * (x.val + 1) + (x.val + 1) := Nat.succ_mul k (x.val + 1)
  have hnext : (d.storeRegisters x).cpu.index =
      (c.cpu.index + ((k + 1) * (x.val + 1) : Nat)) % 65536 := by
    have hmoved : (d.storeRegisters x).cpu.index = (d.cpu.index + x.val + 1) % 65536 :=
      if_pos (h.dialect ▸ hindex)
    rw [hmoved, h.index, hsucc]
    omega
  refine ⟨hnext, fun i => ?_, fun a ha => ?_, fun n r hn hr hlast => ?_, h.registers, h.dialect⟩
  · have hmod : (d.storeRegisters x).cpu.index % 4096 =
        (c.cpu.index + ((k + 1) * (x.val + 1) : Nat)) % 4096 := by
      rw [hnext]
      omega
    show ((d.storeRegisters x).cpu.index + i) % 4096 = _ % 4096
    omega
  · have hstore : (d.storeRegisters x).memory.read a = d.memory.read a := by
      refine read_storeRegisters_of_ne fun i hi => ?_
      rw [h.goesOn i]
      exact ha _ (by omega)
    exact hstore.trans (h.outside a fun j hj => ha j (by omega))
  · have hle : r.val ≤ x.val := hr
    rcases Nat.lt_succ_iff_lt_or_eq.1 hn with hearlier | rfl
    · -- the cell is of an earlier store, and less than a whole memory behind the last one
      have hbefore : n * (x.val + 1) + (x.val + 1) ≤ k * (x.val + 1) := by
        rw [← Nat.succ_mul]
        exact Nat.mul_le_mul_right _ hearlier
      have hsize : memorySize = 4096 := rfl
      have hstore : (d.storeRegisters x).memory.read
            (c.cpu.index + (n * (x.val + 1) + r.val : Nat)) =
          d.memory.read (c.cpu.index + (n * (x.val + 1) + r.val : Nat)) := by
        refine read_storeRegisters_of_ne fun i hi => ?_
        rw [h.goesOn i]
        show _ % (4096 : Int) ≠ _ % (4096 : Int)
        omega
      show (((d.storeRegisters x).memory.read _).toNat : Int) = _
      rw [hstore]
      exact h.written n r hearlier hr (by omega)
    · -- the cell is of the last store
      have hcell : (d.storeRegisters x).memory.read
            (c.cpu.index + (n * (x.val + 1) + r.val : Nat)) =
          (d.storeRegisters x).memory.read (d.cpu.index + r.val) := by
        rw [← Memory.read_emod, ← h.goesOn r.val, Memory.read_emod]
      show (((d.storeRegisters x).memory.read _).toNat : Int) = _
      rw [hcell, toNat_read_storeRegisters (hreg r ▸ hbyte r) hr, hreg]

/-- **Runs of stores** of any length, in the dialect where transfers move the index. -/
theorem WellFormed.storesRun (h : c.WellFormed)
    (hindex : c.dialect.loadStoreIncrementsIndex = true) (x : Register) (k : Nat) :
    StoresRun c x k (c.storedTimes x k) := by
  induction k with
  | zero =>
    obtain ⟨h₀, hlt⟩ := h.cpu.index
    refine ⟨?_, fun i => ?_, fun a _ => rfl, fun n r hn => absurd hn (Nat.not_lt_zero n), rfl, rfl⟩
    · show c.cpu.index = _
      omega
    · show (c.cpu.index + i) % _ = _
      rw [Nat.zero_mul, Nat.zero_add]
  | succ k ih =>
    rw [storedTimes, Function.iterate_succ_apply']
    exact ih.store h.cpu.reg hindex

/-- **Transfers are inverse.** In a well-formed core, whatever the index is, a load from the index
of a store brings back the registers that were stored and leaves the others as they were
overwritten, and both move the index as the dialect has it. If they move it, stores that follow each
other fill cells in a row, round the end of the memory and of the index. -/
theorem WellFormed.transfer_inverts (h : c.WellFormed) (x : Register) (scratch : Vector Int 16) :
    (∃ stored loaded, c.execute (.store x) = (stored, .done) ∧
      (stored.withRegisters c.cpu.index scratch).execute (.load x) = (loaded, .done) ∧
      Restores c x scratch stored loaded) ∧
      (c.dialect.loadStoreIncrementsIndex = true →
        ∀ k, StoresRun c x k (c.storedTimes x k)) :=
  ⟨⟨_, _, rfl, rfl, restores_storeRegisters h.cpu.reg x scratch⟩,
    fun hindex => h.storesRun hindex x⟩

/-- A core whose index is about to go round, with different numbers in all registers. -/
def transferring : Core :=
  { initial {} none with
    cpu := { Cpu.initial with index := 0xFFFA, v := Vector.ofFn fun r => 3 + 16 * r.val } }

theorem wellFormed_transferring : transferring.WellFormed := by
  have hbyte : ∀ r, 0 ≤ transferring.cpu.reg r ∧ transferring.cpu.reg r < 256 := by decide +kernel
  exact (wellFormed_initial {} none).setCpu
    { Cpu.wellFormed_initial with index := ⟨by decide, by decide⟩, reg := hbyte }

/-- All registers are stored round the end, and three of them three hundred times, which is 900
cells in a row. -/
theorem transfer_inverts_transferring :
    transferring.WellFormed ∧ transferring.dialect.loadStoreIncrementsIndex = true ∧
      (∃ stored loaded, transferring.execute (.store 15) = (stored, .done) ∧
        (stored.withRegisters 0xFFFA (Vector.replicate 16 (-1))).execute (.load 15) =
          (loaded, .done) ∧
        Restores transferring 15 (Vector.replicate 16 (-1)) stored loaded) ∧
      (transferring.storedTimes 2 300).cpu.index = 894 ∧
      ((transferring.storedTimes 2 300).memory.read (0xFFFA + 898)).toNat = (19 : Int) := by
  have hwell := wellFormed_transferring
  have hindex : transferring.dialect.loadStoreIncrementsIndex = true := rfl
  obtain ⟨htransfer, -⟩ := hwell.transfer_inverts 15 (Vector.replicate 16 (-1))
  have hrun := (hwell.transfer_inverts 2 (Vector.replicate 16 0)).2 hindex 300
  have hlast : transferring.cpu.reg 1 = 19 := by decide +kernel
  exact ⟨hwell, hindex, htransfer, hrun.index,
    (hrun.written 299 1 (by decide) (by decide) (by decide)).trans hlast⟩

end Core

end Chip8
