import Chip8.Proofs.Core.KeyWait
import Chip8.Proofs.Machine.Breakpoints

/-!
# Waits for a key

While an instruction waits for a key, keys go down and up between the cycles, and the host pauses
and resumes. The program sees of this only which keys are held when a cycle executes. These looks
decide when the wait is completed, and with which key: without release with the first look that sees
a key, by the least that it sees; with release with the first later look that misses that key,
whatever the others do in between. A key that is let go and pressed again between two looks was held
all the time as far as the program can tell.

The looks so far also tell the latch, and this is the invariant: it is empty as long as no look saw
a key, and then it holds the least key of the first that did, which every look since has seen.

## Main definitions

* `Machine.looks` — the held keys at the cycles of a run that execute
* `FirstSeen`, `FirstMissed`, `CompletesAt` — which look completes a wait, and with which key
* `LatchTold` — what the looks so far tell of the latch
* `Machine.StandsStill`, `Machine.Receives` — a machine that waits on, and one that has its key

## Main results

* `LatchTold.poll` — one look of a waiting instruction
* `Machine.Waiting.perform`, `Machine.Waiting.run` — one call, and a whole run, during a wait
* `Machine.WellFormed.key_wait` — a wait is completed by the look that the keys tell
-/

namespace Chip8

/-! ### Which look completes a wait -/

section looks

variable {K : List (Finset Key)} {i j n : Nat} {key other : Key}

/-- The look number `i` is the first that sees a key, and the given one is its least. -/
structure FirstSeen (K : List (Finset Key)) (i : Nat) (key : Key) : Prop where
  least : ∃ S : Finset Key, K[i]? = some S ∧ IsLeast (S : Set Key) key
  before : ∀ j < i, K[j]? = some ∅

/-- The look number `n` is the first after number `i` that misses the key. -/
structure FirstMissed (K : List (Finset Key)) (i n : Nat) (key : Key) : Prop where
  after : i < n
  missed : ∃ S, K[n]? = some S ∧ key ∉ S
  between : ∀ j, i < j → j < n → ∃ S, K[j]? = some S ∧ key ∈ S

/-- The look number `n` completes a wait, with the given key: without release it is the first that
sees a key, and with release the first after that which misses the least key that was seen. -/
def CompletesAt (onRelease : Bool) (K : List (Finset Key)) (n : Nat) (key : Key) : Prop :=
  match onRelease with
  | false => FirstSeen K n key
  | true => ∃ i, FirstSeen K i key ∧ FirstMissed K i n key

theorem FirstSeen.not_lt (h : FirstSeen K i key) (h' : FirstSeen K j other) : ¬ i < j := by
  intro hlt
  obtain ⟨S, hS, hleast⟩ := h.least
  rw [h'.before i hlt] at hS
  obtain rfl := Option.some.inj hS
  exact absurd hleast.1 (Finset.notMem_empty key)

theorem FirstSeen.unique (h : FirstSeen K i key) (h' : FirstSeen K j other) :
    i = j ∧ key = other := by
  obtain rfl : i = j := Nat.le_antisymm (Nat.not_lt.1 (h'.not_lt h)) (Nat.not_lt.1 (h.not_lt h'))
  obtain ⟨S, hS, hleast⟩ := h.least
  obtain ⟨T, hT, hleast'⟩ := h'.least
  obtain rfl : S = T := Option.some.inj (hS.symm.trans hT)
  exact ⟨rfl, hleast.unique hleast'⟩

theorem FirstMissed.not_lt (h : FirstMissed K i n key) (h' : FirstMissed K i j key) : ¬ n < j := by
  intro hlt
  obtain ⟨S, hS, hmissed⟩ := h.missed
  obtain ⟨T, hT, hheld⟩ := h'.between n h.after hlt
  obtain rfl : S = T := Option.some.inj (hS.symm.trans hT)
  exact hmissed hheld

/-- At most one look completes a wait, and with one key. -/
theorem CompletesAt.unique {onRelease : Bool} (h : CompletesAt onRelease K n key)
    (h' : CompletesAt onRelease K j other) : n = j ∧ key = other := by
  cases onRelease with
  | false => exact FirstSeen.unique h h'
  | true =>
    obtain ⟨i, hseen, hmissed⟩ := h
    obtain ⟨i', hseen', hmissed'⟩ := h'
    obtain ⟨rfl, rfl⟩ := hseen.unique hseen'
    have hle := Nat.not_lt.1 (hmissed.not_lt hmissed')
    have hge := Nat.not_lt.1 (hmissed'.not_lt hmissed)
    exact ⟨Nat.le_antisymm hge hle, rfl⟩

/-! More looks change nothing about the ones before. -/

theorem getElem?_append_of_eq_some {S : Finset Key} (h : K[i]? = some S)
    (more : List (Finset Key)) : (K ++ more)[i]? = some S := by
  obtain ⟨hi, -⟩ := List.getElem?_eq_some_iff.1 h
  rw [List.getElem?_append_left hi, h]

theorem FirstSeen.append (h : FirstSeen K i key) (more : List (Finset Key)) :
    FirstSeen (K ++ more) i key where
  least := by
    obtain ⟨S, hS, hleast⟩ := h.least
    exact ⟨S, getElem?_append_of_eq_some hS more, hleast⟩
  before j hj := getElem?_append_of_eq_some (h.before j hj) more

theorem FirstMissed.append (h : FirstMissed K i n key) (more : List (Finset Key)) :
    FirstMissed (K ++ more) i n key where
  after := h.after
  missed := by
    obtain ⟨S, hS, hmissed⟩ := h.missed
    exact ⟨S, getElem?_append_of_eq_some hS more, hmissed⟩
  between j hij hjn := by
    obtain ⟨S, hS, hheld⟩ := h.between j hij hjn
    exact ⟨S, getElem?_append_of_eq_some hS more, hheld⟩

theorem CompletesAt.append {onRelease : Bool} (h : CompletesAt onRelease K n key)
    (more : List (Finset Key)) : CompletesAt onRelease (K ++ more) n key := by
  cases onRelease with
  | false => exact FirstSeen.append h more
  | true =>
    obtain ⟨i, hseen, hmissed⟩ := h
    exact ⟨i, hseen.append more, hmissed.append more⟩

/-! ### What the looks tell of the latch -/

/-- What the looks so far tell of the latch while the wait goes on: it is empty if no look saw a
key, and else it is the least key that the first of them saw, which all looks since have seen. It is
only set in a wait for a release. -/
inductive LatchTold (onRelease : Bool) (K : List (Finset Key)) : Option Int → Prop where
  | empty (h : ∀ S ∈ K, S = ∅) : LatchTold onRelease K none
  | latched {i : Nat} {key : Key} (hrelease : onRelease = true) (hseen : FirstSeen K i key)
    (hheld : ∀ j S, i < j → K[j]? = some S → key ∈ S) :
    LatchTold onRelease K (some (key.val : Int))

variable {onRelease : Bool} {latch : Option Int}

theorem not_firstSeen_of_empty (h : ∀ S ∈ K, S = ∅) : ¬ FirstSeen K i key := by
  intro hseen
  obtain ⟨S, hS, hleast⟩ := hseen.least
  obtain rfl := h S (List.mem_of_getElem? hS)
  exact absurd hleast.1 (Finset.notMem_empty key)

/-- As long as the wait goes on, none of its looks completes it. -/
theorem LatchTold.not_completesAt (h : LatchTold onRelease K latch) :
    ¬ CompletesAt onRelease K n key := by
  intro hcompletes
  cases h with
  | empty h =>
    cases onRelease with
    | false => exact not_firstSeen_of_empty h hcompletes
    | true =>
      obtain ⟨i, hseen, -⟩ := hcompletes
      exact not_firstSeen_of_empty h hseen
  | latched hrelease hseen hheld =>
    subst hrelease
    obtain ⟨i, hseen', hmissed⟩ := hcompletes
    obtain ⟨rfl, rfl⟩ := hseen.unique hseen'
    obtain ⟨S, hS, hnot⟩ := hmissed.missed
    exact hnot (hheld n S hmissed.after hS)

theorem getElem?_concat {S T : Finset Key} (h : (K ++ [S])[j]? = some T) :
    K[j]? = some T ∨ j = K.length ∧ T = S := by
  rcases Nat.lt_or_ge j K.length with hlt | hge
  · rw [List.getElem?_append_left hlt] at h
    exact .inl h
  · rw [List.getElem?_append_right hge, List.getElem?_singleton] at h
    split at h
    · exact .inr ⟨by omega, (Option.some.inj h).symm⟩
    · cases h

/-- After looks that saw no key the next one is the first that sees one. -/
theorem firstSeen_concat {S : Finset Key} (h : ∀ S ∈ K, S = ∅)
    (hleast : IsLeast (S : Set Key) key) : FirstSeen (K ++ [S]) K.length key where
  least := ⟨S, List.getElem?_concat_length, hleast⟩
  before j hj := by
    rw [List.getElem?_append_left hj, List.getElem?_eq_getElem hj, h _ (List.getElem_mem hj)]

theorem forall_mem_concat_empty {S : Finset Key} (h : ∀ S ∈ K, S = ∅) (hS : S = ∅) :
    ∀ T ∈ K ++ [S], T = ∅ := by
  intro T hT
  rcases List.mem_append.1 hT with hT | hT
  · exact h T hT
  · rw [List.mem_singleton.1 hT, hS]

/-- In a wait for a release the first look that sees a key latches the least one that it sees. -/
theorem latchTold_concat_of_isLeast {S : Finset Key} (h : ∀ S ∈ K, S = ∅)
    (hleast : IsLeast (S : Set Key) key) : LatchTold true (K ++ [S]) (some (key.val : Int)) := by
  refine .latched rfl (firstSeen_concat h hleast) fun j T hj hT => ?_
  obtain ⟨hlt, -⟩ := List.getElem?_eq_some_iff.1 hT
  rw [List.length_append, List.length_singleton] at hlt
  omega

/-- A look that sees the latched key leaves it latched. -/
theorem FirstSeen.latchTold_concat {S : Finset Key} (h : FirstSeen K i key)
    (hheld : ∀ j S, i < j → K[j]? = some S → key ∈ S) (hkey : key ∈ S) :
    LatchTold true (K ++ [S]) (some (key.val : Int)) := by
  refine .latched rfl (h.append _) fun j T hj hT => ?_
  rcases getElem?_concat hT with hT | ⟨-, rfl⟩
  · exact hheld j T hj hT
  · exact hkey

/-- A look that misses the latched key completes the wait. -/
theorem FirstSeen.completesAt_concat {S : Finset Key} (h : FirstSeen K i key)
    (hheld : ∀ j S, i < j → K[j]? = some S → key ∈ S) (hmissed : key ∉ S) :
    CompletesAt true (K ++ [S]) K.length key := by
  obtain ⟨T, hT, -⟩ := h.least
  obtain ⟨hlt, -⟩ := List.getElem?_eq_some_iff.1 hT
  refine ⟨i, h.append _, hlt, ⟨_, List.getElem?_concat_length, hmissed⟩, fun j hij hj => ?_⟩
  have hj' : K[j]? = some K[j] := List.getElem?_eq_getElem hj
  exact ⟨K[j], getElem?_append_of_eq_some hj' _, hheld j _ hij hj'⟩

/-- **One look of a waiting instruction.** It leaves the latch that the looks tell, or it completes
the wait as the looks tell, and empties the latch. -/
theorem LatchTold.poll {k : Keypad} (h : LatchTold onRelease K k.latch) :
    (∃ next, k.poll onRelease = .ok (next, none) ∧
        LatchTold onRelease (K ++ [k.heldKeys]) next.latch) ∨
      ∃ next, ∃ key : Key, k.poll onRelease = .ok (next, some (key.val : Int)) ∧
        next.latch = none ∧ CompletesAt onRelease (K ++ [k.heldKeys]) K.length key := by
  generalize hl : k.latch = latch at h
  cases h with
  | empty hempty =>
    cases hfirst : k.firstNumber? with
    | none =>
      -- no key is held
      have hnone := forall_mem_concat_empty hempty (Keypad.firstNumber?_eq_none_iff.1 hfirst)
      left
      cases onRelease with
      | false =>
        refine ⟨k, by rw [Keypad.poll_false, hfirst], ?_⟩
        rw [hl]
        exact .empty hnone
      | true =>
        refine ⟨_, Keypad.poll_unlatched hl, ?_⟩
        rw [hfirst]
        exact .empty hnone
    | some number =>
      -- the first look that sees a key
      obtain ⟨key, rfl, hleast⟩ := Keypad.isLeast_of_firstNumber? hfirst
      cases onRelease with
      | false =>
        right
        exact ⟨k, key, by rw [Keypad.poll_false, hfirst], hl, firstSeen_concat hempty hleast⟩
      | true =>
        left
        refine ⟨_, Keypad.poll_unlatched hl, ?_⟩
        rw [hfirst]
        exact latchTold_concat_of_isLeast hempty hleast
  | @latched i key hrelease hseen hheld =>
    subst hrelease
    cases hk : k.isHeld key with
    | true =>
      left
      refine ⟨k, Keypad.poll_held hl hk, ?_⟩
      rw [hl]
      exact hseen.latchTold_concat hheld (Keypad.mem_heldKeys.2 hk)
    | false =>
      right
      have hmissed : key ∉ k.heldKeys := by
        rw [Keypad.mem_heldKeys, hk]
        nofun
      exact ⟨_, key, Keypad.poll_released hl hk, rfl, hseen.completesAt_concat hheld hmissed⟩

end looks

namespace Machine

variable {m w : Machine} {K : List (Finset Key)} {x : Register} {command : Command}
  {commands : List Command}

/-! ### The looks of a run -/

/-- The calls that a host makes during a wait: keys, ticks, pauses and cycles. -/
def Command.DuringWait : Command → Prop
  | .keyDown _ | .keyUp _ | .tick | .pause | .resume | .togglePause | .hardStop | .cycle => True
  | _ => False

/-- The look of a call at the keys: a cycle that executes sees those that are held. -/
def look (m : Machine) : Command → List (Finset Key)
  | .cycle =>
    match m.cycle.2 with
    | .ok (some _) => [m.core.keypad.heldKeys]
    | _ => []
  | _ => []

/-- The looks of a run at the keys. -/
def looks (m : Machine) : List Command → List (Finset Key)
  | [] => []
  | command :: rest => m.look command ++ (m.perform command).1.looks rest

theorem Executes.look (h : m.Executes) : m.look .cycle = [m.core.keypad.heldKeys] := by
  rw [Machine.look, h.1]

theorem look_of_rests (h : m.cycle.2 = .ok none) : m.look .cycle = [] := by
  rw [look, h]

theorem looks_append (m : Machine) (first rest : List Command) :
    m.looks (first ++ rest) = m.looks first ++ (m.run first).looks rest := by
  induction first generalizing m with
  | nil => rfl
  | cons command first ih =>
    rw [List.cons_append, looks, looks, ih, List.append_assoc]
    rfl

/-! ### A machine that waits -/

/-- The machine stands still at the instruction of another: but for the keypad, the timers and the
number of steps its core is the same. It executes when it runs. -/
structure StandsStill (m w : Machine) : Prop where
  core : ∃ keypad timers cycles, w.core = { m.core with keypad, timers, cycles }
  executes : w.running = true → w.Executes

/-- The machine is behind the instruction of another, with a key in the given register and no latch.
But for the keypad, the timers and the number of steps nothing else in its core has changed. -/
structure Receives (m : Machine) (x : Register) (key : Key) (w : Machine) : Prop where
  core : ∃ keypad timers cycles, w.core =
    { m.core with
      cpu :=
        { m.core.cpu with
          pc := lowWord (m.core.cpu.pc + 2)
          v := m.core.cpu.v.set x.val (key.val : Int) x.isLt }
      keypad, timers, cycles }
  latch : w.core.keypad.latch = none

/-- A machine stands still in a wait that began on another one, and its latch is the one that the
looks since then tell. -/
structure Waiting (m : Machine) (K : List (Finset Key)) (w : Machine) : Prop where
  core : ∃ keypad timers cycles, w.core = { m.core with keypad, timers, cycles }
  wellFormed : w.WellFormed
  breakpoints : w.breakpoints = m.breakpoints
  latch : LatchTold m.core.dialect.keyWaitOnRelease K w.core.keypad.latch

theorem Waiting.standsStill (h : Waiting m K w) (hpc : m.core.cpu.pc ∉ m.breakpoints) :
    StandsStill m w where
  core := h.core
  executes hrun := by
    obtain ⟨keypad, timers, cycles, hcore⟩ := h.core
    refine h.wellFormed.executes_of_not_mem hrun ?_
    show w.core.cpu.pc ∉ w.breakpoints
    rw [h.breakpoints, hcore]
    exact hpc

/-- Only the keypad, the timers and the number of steps may differ, and not the latch. -/
theorem Waiting.congr (h : Waiting m K w) {next : Machine} (hnext : next.WellFormed)
    (hcore : ∃ keypad timers, next.core = { w.core with keypad, timers } ∧
      keypad.latch = w.core.keypad.latch)
    (hbreakpoints : next.breakpoints = w.breakpoints) : Waiting m K next := by
  obtain ⟨keypad, timers, hnow, hlatch⟩ := hcore
  obtain ⟨_, _, cycles, hbefore⟩ := h.core
  refine ⟨⟨keypad, timers, cycles, ?_⟩, hnext, hbreakpoints.trans h.breakpoints, ?_⟩
  · rw [hnow, hbefore]
  · rw [hnow]
    show LatchTold _ K keypad.latch
    rw [hlatch]
    exact h.latch

/-- The calls of a wait other than cycles are about keys, timers and the running flag. -/
theorem perform_duringWait (hduring : command.DuringWait) (hcycle : command ≠ .cycle) :
    (∃ keypad timers, (m.perform command).1.core = { m.core with keypad, timers } ∧
        keypad.latch = m.core.keypad.latch) ∧
      (m.perform command).1.breakpoints = m.breakpoints ∧ m.look command = [] := by
  cases command with
  | cycle => exact absurd rfl hcycle
  | keyDown key => exact ⟨⟨_, _, rfl, m.core.keypad.latch_setHeld key true⟩, rfl, rfl⟩
  | keyUp key => exact ⟨⟨_, _, rfl, m.core.keypad.latch_setHeld key false⟩, rfl, rfl⟩
  | pause | resume | hardStop => exact ⟨⟨_, _, rfl, rfl⟩, rfl, rfl⟩
  | tick =>
    simp only [perform, tick]
    split
    · exact ⟨⟨_, _, rfl, rfl⟩, rfl, rfl⟩
    · exact ⟨⟨_, _, rfl, rfl⟩, rfl, rfl⟩
  | togglePause =>
    simp only [perform, togglePause]
    split
    · exact ⟨⟨_, _, rfl, rfl⟩, rfl, rfl⟩
    · exact ⟨⟨_, _, rfl, rfl⟩, rfl, rfl⟩
  | _ => exact hduring.elim

/-! ### One call -/

/-- The wait is completed by a cycle: it executes, the looks tell so, and the key arrives. -/
structure CompletedBy (m : Machine) (x : Register) (K : List (Finset Key)) (w : Machine)
    (key : Key) : Prop where
  executes : w.Executes
  told : CompletesAt m.core.dialect.keyWaitOnRelease (K ++ w.look .cycle) K.length key
  receives : Receives m x key (w.perform .cycle).1

/-- **An execution during a wait goes on waiting or completes it**, as the looks tell. -/
theorem Waiting.cycle (h : Waiting m K w) (hword : Instruction.ofWord m.core.fetch = .waitKey x)
    (hexec : w.Executes) :
    Waiting m (K ++ w.look .cycle) (w.perform .cycle).1 ∨ ∃ key, CompletedBy m x K w key := by
  obtain ⟨keypad, timers, cycles, hcore⟩ := h.core
  have hfetch : Instruction.ofWord w.core.fetch = .waitKey x := by
    rw [hcore]
    exact hword
  have hdialect : w.core.dialect = m.core.dialect := by rw [hcore]
  have hstep : (w.perform .cycle).1.core = w.core.step.core := hexec.2
  rcases h.latch.poll with ⟨next, hpoll, htold⟩ | ⟨next, key, hpoll, hempty, htold⟩
  · left
    rw [← hdialect] at hpoll
    rw [h.wellFormed.core.step_of_wait hfetch hpoll] at hstep
    refine ⟨⟨next, timers, cycles + 1, ?_⟩, h.wellFormed.perform .cycle, ?_, ?_⟩
    · rw [hstep, hcore]
    · exact w.breakpoints_cycle.trans h.breakpoints
    · rw [hstep, hexec.look]
      exact htold
  · right
    rw [← hdialect] at hpoll
    rw [Core.step_of_key hfetch hpoll] at hstep
    refine ⟨key, hexec, ?_, ⟨next, timers, cycles + 1, ?_⟩, ?_⟩
    · rw [hexec.look]
      exact htold
    · rw [hstep, hcore]
      rfl
    · rw [hstep]
      exact hempty

/-- **One call during a wait.** It goes on, or the call is a cycle that completes it. -/
theorem Waiting.perform (h : Waiting m K w) (hword : Instruction.ofWord m.core.fetch = .waitKey x)
    (hduring : command.DuringWait) :
    Waiting m (K ++ w.look command) (w.perform command).1 ∨
      command = .cycle ∧ ∃ key, CompletedBy m x K w key := by
  have hnext := h.wellFormed.perform command
  by_cases hcycle : command = .cycle
  · subst hcycle
    rcases h.wellFormed.executes_or_rests with hexec | ⟨hcore, hanswer⟩
    · exact (h.cycle hword hexec).imp_right fun hdone => ⟨rfl, hdone⟩
    · left
      rw [look_of_rests hanswer, List.append_nil]
      exact h.congr hnext ⟨_, _, hcore, rfl⟩ w.breakpoints_cycle
  · obtain ⟨hcore, hbreakpoints, hlook⟩ := w.perform_duringWait hduring hcycle
    left
    rw [hlook, List.append_nil]
    exact h.congr hnext hcore hbreakpoints

/-! ### Whole runs -/

/-- The machine waits before a run and after each of its calls. -/
def WaitsAlong (m : Machine) (K : List (Finset Key)) (w : Machine) (commands : List Command) :
    Prop :=
  ∀ i, Waiting m (K ++ w.looks (commands.take i)) (w.run (commands.take i))

theorem Waiting.along_nil (h : Waiting m K w) : WaitsAlong m K w [] := by
  intro i
  rw [List.take_nil, looks, List.append_nil]
  exact h

theorem WaitsAlong.cons (h : Waiting m K w)
    (hrest : WaitsAlong m (K ++ w.look command) (w.perform command).1 commands) :
    WaitsAlong m K w (command :: commands) := by
  intro i
  cases i with
  | zero => exact h.along_nil 0
  | succ i =>
    rw [List.take_succ_cons, looks, ← List.append_assoc]
    exact hrest i

/-- **A run during a wait.** It waits all along, or up to a cycle that completes the wait. -/
theorem Waiting.run (h : Waiting m K w) (hword : Instruction.ofWord m.core.fetch = .waitKey x)
    (hduring : ∀ command ∈ commands, command.DuringWait) :
    WaitsAlong m K w commands ∨
      ∃ before after key, commands = before ++ .cycle :: after ∧ WaitsAlong m K w before ∧
        CompletedBy m x (K ++ w.looks before) (w.run before) key := by
  induction commands generalizing K w with
  | nil => exact .inl h.along_nil
  | cons command rest ih =>
    have hduring' : ∀ next ∈ rest, next.DuringWait :=
      fun next hnext => hduring next (List.mem_cons_of_mem command hnext)
    rcases h.perform hword (hduring command List.mem_cons_self) with hgoes | ⟨rfl, key, hdone⟩
    · rcases ih hgoes hduring' with hwaits | ⟨before, after, key, rfl, hwaits, hdone⟩
      · exact .inl (.cons h hwaits)
      · refine .inr ⟨command :: before, after, key, rfl, .cons h hwaits, ?_⟩
        rw [looks, ← List.append_assoc]
        exact hdone
    · refine .inr ⟨[], rest, key, rfl, h.along_nil, ?_⟩
      rw [looks, List.append_nil]
      exact hdone

/-- **A wait is completed by the look that the keys tell.** A well-formed machine without a latch is
at an instruction that waits for a key, and not at a breakpoint; keys go down and up, timers tick,
and the host pauses, resumes and cycles in any order. If one of the looks completes the wait, it is
that of a cycle which executes and puts the key into the register, and up to it the machine stands
still after every call. If none does, it stands still all along. -/
theorem WellFormed.key_wait (h : m.WellFormed) (hlatch : m.core.keypad.latch = none)
    (hword : Instruction.ofWord m.core.fetch = .waitKey x) (hpc : m.core.cpu.pc ∉ m.breakpoints)
    (hduring : ∀ command ∈ commands, command.DuringWait) :
    (∀ n key, CompletesAt m.core.dialect.keyWaitOnRelease (m.looks commands) n key →
      ∃ before after, commands = before ++ .cycle :: after ∧ (m.looks before).length = n ∧
        (∀ i, StandsStill m (m.run (before.take i))) ∧ (m.run before).Executes ∧
        Receives m x key (m.run (before ++ [.cycle]))) ∧
      ((∀ n key, ¬ CompletesAt m.core.dialect.keyWaitOnRelease (m.looks commands) n key) →
        ∀ i, StandsStill m (m.run (commands.take i))) := by
  have hbegins : Waiting m [] m := by
    refine ⟨⟨m.core.keypad, m.core.timers, m.core.cycles, rfl⟩, h, rfl, ?_⟩
    rw [hlatch]
    exact .empty nofun
  rcases hbegins.run hword hduring with hwaits | ⟨before, after, key, rfl, hwaits, hdone⟩
  · refine ⟨fun n key hcompletes => ?_, fun _ i => (hwaits i).standsStill hpc⟩
    have htold := (hwaits commands.length).latch
    rw [List.take_length] at htold
    exact absurd hcompletes htold.not_completesAt
  · have hlooks : m.looks (before ++ .cycle :: after) =
        m.looks before ++ (m.run before).look .cycle ++
          ((m.run before).perform .cycle).1.looks after := by
      rw [looks_append, looks, List.append_assoc]
    have htold : CompletesAt m.core.dialect.keyWaitOnRelease (m.looks (before ++ .cycle :: after))
        (m.looks before).length key := by
      rw [hlooks]
      exact hdone.told.append _
    refine ⟨fun n other hcompletes => ?_, fun hnone => absurd htold (hnone _ _)⟩
    obtain ⟨rfl, rfl⟩ := htold.unique hcompletes
    refine ⟨before, after, rfl, rfl, fun i => (hwaits i).standsStill hpc, hdone.executes, ?_⟩
    have hrun : m.run (before ++ [.cycle]) = ((m.run before).perform .cycle).1 := by
      rw [run, List.foldl_append]
      rfl
    rw [hrun]
    exact hdone.receives

/-- A machine that waits for the release of a key. -/
def keyLoop : Machine :=
  (create { keyWaitOnRelease := true } (some 0)).run [.loadRom [0xF5, 0x0A, 0x12, 0x00]]

/-- The least of two keys is latched. It is let go and pressed again while the machine is paused,
and it is missed only when another key is down. -/
def fumbledKeys : List Command :=
  [.cycle, .keyDown 7, .keyDown 19, .keyDown 3, .cycle, .tick, .keyUp 7, .pause, .keyUp 3, .cycle,
    .keyDown 3, .resume, .cycle, .keyUp 3, .keyDown 1, .cycle, .cycle]

theorem key_wait_keyLoop :
    keyLoop.WellFormed ∧ keyLoop.core.keypad.latch = none ∧
      Instruction.ofWord keyLoop.core.fetch = .waitKey 5 ∧
      keyLoop.core.cpu.pc ∉ keyLoop.breakpoints ∧
      (∀ command ∈ fumbledKeys, command.DuringWait) ∧
      keyLoop.looks fumbledKeys = [∅, {3, 7}, {3}, {1}, {1}] ∧
      ∃ before after, fumbledKeys = before ++ .cycle :: after ∧ (keyLoop.looks before).length = 3 ∧
        (∀ i, StandsStill keyLoop (keyLoop.run (before.take i))) ∧ (keyLoop.run before).Executes ∧
        Receives keyLoop 5 3 (keyLoop.run (before ++ [.cycle])) := by
  have hwell : keyLoop.WellFormed := ((Reachable.create _ _).run _).wellFormed
  have hlatch : keyLoop.core.keypad.latch = none := by decide +kernel
  have hword : Instruction.ofWord keyLoop.core.fetch = .waitKey 5 := by decide +kernel
  have hpc : keyLoop.core.cpu.pc ∉ keyLoop.breakpoints := by decide +kernel
  have hduring : ∀ command ∈ fumbledKeys, command.DuringWait := by
    simp [fumbledKeys, Command.DuringWait]
  have hlooks : keyLoop.looks fumbledKeys = [∅, {3, 7}, {3}, {1}, {1}] := by decide +kernel
  have hseen : FirstSeen [∅, {3, 7}, {3}, {1}, {1}] 1 3 := by
    refine ⟨⟨{3, 7}, rfl, by decide, ?_⟩, by decide⟩
    intro key hkey
    revert key
    decide
  have hmissed : FirstMissed [∅, {3, 7}, {3}, {1}, {1}] 1 3 3 := by
    refine ⟨by decide, ⟨{1}, rfl, by decide⟩, fun j hj hlt => ?_⟩
    obtain rfl : j = 2 := by omega
    exact ⟨{3}, rfl, by decide⟩
  have hcompletes : CompletesAt true (keyLoop.looks fumbledKeys) 3 3 := by
    rw [hlooks]
    exact ⟨1, hseen, hmissed⟩
  exact ⟨hwell, hlatch, hword, hpc, hduring, hlooks,
    (hwell.key_wait hlatch hword hpc hduring).1 3 3 hcompletes⟩

end Machine

end Chip8
