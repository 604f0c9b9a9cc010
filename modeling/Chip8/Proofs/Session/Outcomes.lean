import Chip8.Proofs.Machine.LoadRom
import Chip8.Session.Basic

/-!
# What session calls can do

A program is checked twice. The session looks at it before it resets the machine, and the machine
looks at it again afterwards. The second look is the dangerous one: a program that fails it has
already cost the machine its state. In a load the first look spares it, since both see the same
bytes. A soft reset has no first look, and what spares it is only that the remembered program passed
both when it was loaded; this is an invariant of sessions and not of the call, so the outcome that it
rules out is listed here with the others.

States are decoded, and files read, before anything is replaced.

## Main definitions

* `Session.startRom` — a session whose machine was reset and started on a program
* `Session.Atomic` — a call is answered, or it is refused and has left no trace

## Main results

* `Machine.loadRom_bytes` — the second look
* `Session.loadRom_atomic`, `Session.loadRomFile_atomic` — programs
* `Session.softReset_cases` — the remembered program
* `Session.loadState_atomic`, `Session.loadStateFile_atomic` — states
-/

namespace Chip8

namespace Machine

/-- A machine that is given the bytes of a program starts it if there is room for it, and otherwise
stays as it is. -/
theorem loadRom_bytes (m : Machine) (rom : Bytes) :
    m.loadRom (rom.map fun b => (b.toNat : Int)) =
      if romCapacity < rom.length then (m, .error (.romTooLarge rom.length romCapacity))
      else (m.startRom rom, .ok ()) := by
  have hbytes := Bytes.ofInts_map_toNat rom
  rcases Nat.lt_or_ge romCapacity rom.length with hlarge | hfits
  · have hcheck : checkRom (rom.map fun b => (b.toNat : Int)) =
        .error (.romTooLarge rom.length romCapacity) := by
      rw [checkRom, hbytes]
      exact if_pos hlarge
    rw [loadRom, hcheck, if_pos hlarge]
  · have hcheck := checkRom_eq_ok_iff.2 ⟨hbytes, hfits⟩
    rw [loadRom, hcheck, if_neg (Nat.not_lt.2 hfits)]

end Machine

namespace Session

variable {s : Session}

/-! ### Atomic calls -/

/-- A call of a session is answered, and `P` tells what it leaves then, or it is refused and leaves
the session as it was. -/
inductive Atomic {α : Type} (s : Session) (P : Session → Prop) : Session × Except Error α → Prop where
  | answered {next : Session} (answer : α) (h : P next) : Atomic s P (next, .ok answer)
  | refused (reason : Error) : Atomic s P (s, .error reason)

namespace Atomic

variable {α : Type} {P : Session → Prop} {result : Session × Except Error α}

theorem eq_of_refused (h : Atomic s P result) {reason : Error}
    (hrefused : result.2 = .error reason) : result.1 = s := by
  cases h with
  | answered answer => cases hrefused
  | refused => rfl

theorem of_answered (h : Atomic s P result) {answer : α} (hanswered : result.2 = .ok answer) :
    P result.1 := by
  cases h with
  | answered _ hnext => exact hnext
  | refused => cases hanswered

/-- What holds of the session and of all that the call can lead to holds after the call. -/
theorem elim (h : Atomic s P result) {Q : Session → Prop} (hs : Q s)
    (hnext : ∀ next, P next → Q next) : Q result.1 := by
  cases h with
  | answered _ h => exact hnext _ h
  | refused => exact hs

end Atomic

/-! ### Programs -/

/-- The session after its machine was reset and started on a program, which is remembered. -/
def startRom (s : Session) (rom : Bytes) (clock : Int) : Session :=
  ⟨(s.machine.reset clock).startRom rom, some rom⟩

/-- A program that passes the first look passes the second one, and is started. -/
theorem loadRom_of_accepted {data : List Int} {rom : Bytes}
    (hcheck : Machine.checkRom data = .ok rom) (clock : Int) :
    s.loadRom data clock = (s.startRom rom clock, .ok ()) := by
  obtain ⟨-, hfits⟩ := Machine.checkRom_eq_ok_iff.1 hcheck
  have hsecond := (s.machine.reset clock).loadRom_bytes rom
  rw [if_neg (Nat.not_lt.2 hfits)] at hsecond
  rw [loadRom, hcheck]
  simp only [hsecond]
  rfl

/-- **A load is atomic**, and when it is answered the program was started that the integers are. -/
theorem loadRom_atomic (s : Session) (data : List Int) (clock : Int) :
    Atomic s (fun next => ∃ rom, Bytes.ofInts data = .ok rom ∧ rom.length ≤ romCapacity ∧
      next = s.startRom rom clock) (s.loadRom data clock) := by
  cases hcheck : Machine.checkRom data with
  | ok rom =>
    obtain ⟨hbytes, hfits⟩ := Machine.checkRom_eq_ok_iff.1 hcheck
    rw [loadRom_of_accepted hcheck clock]
    exact .answered () ⟨rom, hbytes, hfits, rfl⟩
  | error reason =>
    rw [loadRom, hcheck]
    exact .refused reason

/-- **A load from a file is atomic**, and starts the contents of the file. -/
theorem loadRomFile_atomic (s : Session) (files : FileTree) (path : String) (clock : Int) :
    Atomic s (fun next => ∃ rom, files.read path = .ok rom ∧ rom.length ≤ romCapacity ∧
      next = s.startRom rom clock) (s.loadRomFile files path clock) := by
  rw [loadRomFile]
  cases files.read path with
  | error reason => exact .refused (.file reason)
  | ok contents =>
    have hload := s.loadRom_atomic (contents.map fun b => (b.toNat : Int)) clock
    dsimp only
    generalize s.loadRom (contents.map fun b => (b.toNat : Int)) clock = result at hload ⊢
    cases hload with
    | answered answer h =>
      obtain ⟨rom, hbytes, hfits, rfl⟩ := h
      rw [Bytes.ofInts_map_toNat] at hbytes
      obtain rfl := Except.ok.inj hbytes
      exact .answered _ ⟨contents, rfl, hfits, rfl⟩
    | refused reason => exact .refused reason

/-- **What a soft reset can do**: it is refused when nothing is remembered, starts the remembered
program if there is room for it, and is refused after the reset if there is none. -/
theorem softReset_cases (s : Session) (clock : Int) :
    (s.rom = none ∧ s.softReset clock = (s, .error .noRom)) ∨
      (∃ rom, s.rom = some rom ∧ rom.length ≤ romCapacity ∧
        s.softReset clock = (s.startRom rom clock, .ok ())) ∨
      ∃ rom, s.rom = some rom ∧ romCapacity < rom.length ∧
        s.softReset clock =
          (s.reset clock, .error (.romTooLarge rom.length romCapacity)) := by
  rw [softReset]
  cases hrom : s.rom with
  | none => exact .inl ⟨rfl, rfl⟩
  | some rom =>
    have hload := (s.machine.reset clock).loadRom_bytes rom
    rcases Nat.lt_or_ge romCapacity rom.length with hlarge | hfits
    · rw [if_pos hlarge] at hload
      refine .inr (.inr ⟨rom, rfl, hlarge, ?_⟩)
      simp only [hload, reset, hrom]
    · rw [if_neg (Nat.not_lt.2 hfits)] at hload
      refine .inr (.inl ⟨rom, rfl, hfits, ?_⟩)
      simp only [hload, startRom]

/-- A soft reset starts the remembered program if it fits. -/
theorem softReset_of_fits {rom : Bytes} (hrom : s.rom = some rom) (hfits : rom.length ≤ romCapacity)
    (clock : Int) : s.softReset clock = (s.startRom rom clock, .ok ()) := by
  rcases s.softReset_cases clock with ⟨hnone, -⟩ | ⟨other, hother, -, hsoft⟩ |
    ⟨other, hother, hlarge, -⟩
  · rw [hrom] at hnone
    cases hnone
  · obtain rfl := Option.some.inj (hrom.symm.trans hother)
    exact hsoft
  · obtain rfl := Option.some.inj (hrom.symm.trans hother)
    exact absurd hlarge (Nat.not_lt.2 hfits)

/-! ### States -/

/-- **A load of a state is atomic**, and puts the machine of the state into the place of the current
one. -/
theorem loadState_atomic (s : Session) (source : Snapshot.Source) (seed : Option Int)
    (clock : Int) :
    Atomic s (fun next => ∃ machine, Machine.deserialize source seed clock = .ok machine ∧
      next = { s with machine }) (s.loadState source seed clock) := by
  rw [loadState]
  cases Machine.deserialize source seed clock with
  | ok machine => exact .answered () ⟨machine, rfl, rfl⟩
  | error reason => exact .refused reason

/-- **A load of a state from a file is atomic**, and pauses the machine first. -/
theorem loadStateFile_atomic (s : Session) (files : FileTree) (path : String) (seed : Option Int)
    (clock : Int) :
    Atomic s (fun next => ∃ contents machine, files.read path = .ok contents ∧
      Machine.deserialize (.bytes contents) seed clock = .ok machine ∧
      next = { s with machine := machine.pause }) (s.loadStateFile files path seed clock) := by
  rw [loadStateFile]
  cases files.read path with
  | error reason => exact .refused (.file reason)
  | ok contents =>
    cases hmachine : Machine.deserialize (.bytes contents) seed clock with
    | ok machine =>
      simp only [hmachine]
      exact .answered () ⟨contents, machine, rfl, hmachine, rfl⟩
    | error reason =>
      simp only [hmachine]
      exact .refused reason

end Session

end Chip8
