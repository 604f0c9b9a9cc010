/-!
# Address sets

Finite sets of addresses, kept as strictly increasing lists. The list determines the set and the
set determines the list, so two address sets are equal as soon as they have the same members.

## Main definitions

* `AddressSet` — a finite set of addresses
* `AddressSet.insert`, `AddressSet.erase`, `AddressSet.ofList` — the operations on it

## Main results

* `AddressSet.mem_insert`, `AddressSet.mem_erase`, `AddressSet.mem_ofList` — the members after
  each operation
* `AddressSet.ext` — sets with the same members are equal
* `AddressSet.size_ofList_le` — a list has at least as many entries as its set has members
-/

namespace Chip8

/-- A finite set of addresses as the increasing list of its members. -/
structure AddressSet where
  toList : List Int
  increasing : toList.Pairwise (· < ·)
  deriving DecidableEq

namespace AddressSet

instance : Membership Int AddressSet := ⟨fun s a => a ∈ s.toList⟩

instance (a : Int) (s : AddressSet) : Decidable (a ∈ s) :=
  inferInstanceAs (Decidable (a ∈ s.toList))

theorem mem_iff {a : Int} {s : AddressSet} : a ∈ s ↔ a ∈ s.toList := Iff.rfl

/-- The set without members. -/
def empty : AddressSet := ⟨[], .nil⟩

instance : Inhabited AddressSet := ⟨empty⟩

/-- The number of members. -/
def size (s : AddressSet) : Nat := s.toList.length

@[simp] theorem not_mem_empty (a : Int) : a ∉ empty := by simp [mem_iff, empty]

/-! ### Extensionality -/

/-- Two increasing lists with the same members are equal. -/
theorem eq_of_mem_iff : ∀ {l k : List Int}, l.Pairwise (· < ·) → k.Pairwise (· < ·) →
    (∀ a, a ∈ l ↔ a ∈ k) → l = k
  | [], [], _, _, _ => rfl
  | [], b :: k, _, _, h => absurd ((h b).2 (by simp)) (by simp)
  | a :: l, [], _, _, h => absurd ((h a).1 (by simp)) (by simp)
  | a :: l, b :: k, hl, hk, h => by
    rw [List.pairwise_cons] at hl hk
    have hab : a = b := by
      have ha := (h a).1 (by simp)
      have hb := (h b).2 (by simp)
      rw [List.mem_cons] at ha hb
      rcases ha with rfl | ha
      · rfl
      · rcases hb with rfl | hb
        · rfl
        · have := hl.1 b hb
          have := hk.1 a ha
          omega
    subst hab
    refine congrArg (a :: ·) (eq_of_mem_iff hl.2 hk.2 fun c => ?_)
    have hc := h c
    rw [List.mem_cons, List.mem_cons] at hc
    constructor
    · intro hm
      have := hl.1 c hm
      rcases hc.1 (.inr hm) with rfl | hm'
      · omega
      · exact hm'
    · intro hm
      have := hk.1 c hm
      rcases hc.2 (.inr hm) with rfl | hm'
      · omega
      · exact hm'

@[ext] theorem ext {s t : AddressSet} (h : ∀ a, a ∈ s ↔ a ∈ t) : s = t := by
  obtain ⟨l, hl⟩ := s
  obtain ⟨k, hk⟩ := t
  have : l = k := eq_of_mem_iff hl hk h
  subst this
  rfl

/-! ### Insertion -/

/-- Puts an address into its place in an increasing list. -/
def insertInto (a : Int) : List Int → List Int
  | [] => [a]
  | b :: rest => if a < b then a :: b :: rest else if a = b then b :: rest else b :: insertInto a rest

theorem mem_insertInto {a b : Int} {l : List Int} : b ∈ insertInto a l ↔ b = a ∨ b ∈ l := by
  induction l with
  | nil => simp [insertInto]
  | cons c l ih =>
    rw [insertInto]
    split
    · simp
    · split
      · subst_vars; simp
      · simp only [List.mem_cons, ih]
        constructor
        · rintro (h | h | h) <;> simp [h]
        · rintro (h | h | h) <;> simp [h]

theorem pairwise_insertInto {a : Int} {l : List Int} (h : l.Pairwise (· < ·)) :
    (insertInto a l).Pairwise (· < ·) := by
  induction l with
  | nil => simp [insertInto]
  | cons c l ih =>
    rw [List.pairwise_cons] at h
    rw [insertInto]
    split
    · rename_i hac
      refine List.pairwise_cons.2 ⟨fun b hb => ?_, List.pairwise_cons.2 h⟩
      rcases List.mem_cons.1 hb with rfl | hb
      · exact hac
      · have := h.1 b hb; omega
    · split
      · exact List.pairwise_cons.2 h
      · refine List.pairwise_cons.2 ⟨fun b hb => ?_, ih h.2⟩
        rcases mem_insertInto.1 hb with rfl | hb
        · omega
        · exact h.1 b hb

/-- The set with an address added. -/
def insert (a : Int) (s : AddressSet) : AddressSet :=
  ⟨insertInto a s.toList, pairwise_insertInto s.increasing⟩

@[simp] theorem mem_insert {a b : Int} {s : AddressSet} : b ∈ s.insert a ↔ b = a ∨ b ∈ s :=
  mem_insertInto

/-! ### Removal -/

/-- The set without an address. -/
def erase (a : Int) (s : AddressSet) : AddressSet :=
  ⟨s.toList.filter (· ≠ a), s.increasing.filter _⟩

@[simp] theorem mem_erase {a b : Int} {s : AddressSet} : b ∈ s.erase a ↔ b ∈ s ∧ b ≠ a := by
  simp [mem_iff, erase]

/-! ### Sets from lists -/

/-- An ordered list without the second of two equal neighbours. -/
def dropRepeats : List Int → List Int
  | [] => []
  | [a] => [a]
  | a :: b :: rest => if a = b then dropRepeats (b :: rest) else a :: dropRepeats (b :: rest)

theorem mem_dropRepeats {a : Int} : ∀ {l : List Int}, a ∈ dropRepeats l ↔ a ∈ l
  | [] => by simp [dropRepeats]
  | [b] => by simp [dropRepeats]
  | b :: c :: l => by
    rw [dropRepeats]
    split
    · rename_i h
      subst h
      rw [mem_dropRepeats]
      simp
    · rw [List.mem_cons, mem_dropRepeats, List.mem_cons (b := b)]

theorem pairwise_dropRepeats : ∀ {l : List Int}, l.Pairwise (· ≤ ·) →
    (dropRepeats l).Pairwise (· < ·)
  | [], _ => .nil
  | [a], _ => by simp [dropRepeats]
  | a :: b :: l, h => by
    rw [List.pairwise_cons] at h
    rw [dropRepeats]
    split
    · exact pairwise_dropRepeats h.2
    · rename_i hab
      refine List.pairwise_cons.2 ⟨fun c hc => ?_, pairwise_dropRepeats h.2⟩
      rw [mem_dropRepeats] at hc
      have hb := h.1 b (by simp)
      rcases List.mem_cons.1 hc with rfl | hc
      · omega
      · have := (List.pairwise_cons.1 h.2).1 c hc
        omega

theorem length_dropRepeats_le : ∀ l : List Int, (dropRepeats l).length ≤ l.length
  | [] => Nat.le_refl _
  | [a] => Nat.le_refl _
  | a :: b :: rest => by
    have ih := length_dropRepeats_le (b :: rest)
    rw [dropRepeats]
    split
    · exact Nat.le_succ_of_le ih
    · exact Nat.succ_le_succ ih

/-- The set of the members of a list. -/
def ofList (l : List Int) : AddressSet :=
  ⟨dropRepeats (l.mergeSort fun a b => a ≤ b), pairwise_dropRepeats <| by
    have h : (l.mergeSort fun a b => a ≤ b).Pairwise fun a b => decide (a ≤ b) = true :=
      List.pairwise_mergeSort
        (fun a b c hab hbc => by
          have := of_decide_eq_true hab
          have := of_decide_eq_true hbc
          exact decide_eq_true (by omega))
        (fun a b => by
          rcases Int.le_total a b with h | h <;> simp [h]) l
    exact h.imp fun hab => of_decide_eq_true hab⟩

@[simp] theorem mem_ofList {a : Int} {l : List Int} : a ∈ ofList l ↔ a ∈ l := by
  rw [mem_iff, ofList, mem_dropRepeats, List.mem_mergeSort]

/-- A list has at least as many entries as its set has members. -/
theorem size_ofList_le (l : List Int) : (ofList l).size ≤ l.length := by
  have h := length_dropRepeats_le (l.mergeSort fun a b => a ≤ b)
  rwa [List.length_mergeSort] at h

@[simp] theorem ofList_toList (s : AddressSet) : ofList s.toList = s := by
  ext a
  rw [mem_ofList, mem_iff]

end AddressSet

end Chip8
