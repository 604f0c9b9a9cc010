import Chip8.Text.Numeral
import Mathlib.Algebra.Group.Nat.Defs

/-!
# Numerals read back

A numeral tells its number: its digits are read back one after the other, and zeros in front of them
do not count. So two numbers have the same hexadecimal text only if they are the same, whatever the
widths are.

## Main definitions

* `Numeral.valueOf` — the number that characters stand for

## Main results

* `Numeral.ofDigits_digits` — digits are read back
* `Numeral.length_digits_le` — how many digits a number has at most
* `Numeral.valueOf_hex` — hexadecimal texts are read back
* `Numeral.exists_of_mem_hex`, `Numeral.exists_of_mem_decimalInt` — the characters of texts
-/

namespace Chip8

namespace Numeral

/-! ### Digit values -/

/-- The first digits, and then the last one. -/
theorem ofDigits_concat (b : Nat) (ds : List Nat) (d : Nat) :
    ofDigits b (ds ++ [d]) = ofDigits b ds * b + d := by
  rw [ofDigits, List.foldl_append]
  rfl

/-- Zeros in front do not count. -/
theorem ofDigits_replicate_append (b k : Nat) (ds : List Nat) :
    ofDigits b (List.replicate k 0 ++ ds) = ofDigits b ds := by
  induction k with
  | zero => rfl
  | succ k ih =>
    have hzero : 0 * b + 0 = 0 := by rw [Nat.zero_mul]
    rw [List.replicate_succ, List.cons_append, ofDigits, List.foldl_cons, hzero]
    exact ih

theorem ofDigits_digitsUpTo (b fuel n : Nat) : ofDigits b (digitsUpTo b fuel n) = n := by
  have hone (n : Nat) : ofDigits b [n] = n := by
    rw [ofDigits, List.foldl_cons, Nat.zero_mul, Nat.zero_add]
    rfl
  induction fuel generalizing n with
  | zero => exact hone n
  | succ fuel ih =>
    rw [digitsUpTo]
    split
    · exact hone n
    · rw [ofDigits_concat, ih]
      exact Nat.div_add_mod' n b

/-- **Digits are read back.** -/
theorem ofDigits_digits (b n : Nat) : ofDigits b (digits b n) = n := ofDigits_digitsUpTo b n n

theorem lt_of_mem_digitsUpTo {b : Nat} (hb : 1 < b) {fuel n d : Nat} (hn : n ≤ fuel)
    (hd : d ∈ digitsUpTo b fuel n) : d < b := by
  induction fuel generalizing n with
  | zero =>
    obtain rfl : d = n := List.mem_singleton.1 hd
    omega
  | succ fuel ih =>
    rw [digitsUpTo] at hd
    split at hd
    · obtain rfl : d = n := List.mem_singleton.1 hd
      assumption
    · rename_i hge
      rcases List.mem_append.1 hd with hfirst | hlast
      · have hless : n / b < n := Nat.div_lt_self (by omega) hb
        exact ih (by omega) hfirst
      · rw [List.mem_singleton.1 hlast]
        exact Nat.mod_lt n (by omega)

/-- Digits are below the base. -/
theorem lt_of_mem_digits {b : Nat} (hb : 1 < b) {n d : Nat} (hd : d ∈ digits b n) : d < b :=
  lt_of_mem_digitsUpTo hb (Nat.le_refl n) hd

theorem digitsUpTo_ne_nil (b fuel n : Nat) : digitsUpTo b fuel n ≠ [] := by
  cases fuel with
  | zero => exact List.cons_ne_nil n []
  | succ fuel =>
    rw [digitsUpTo]
    split
    · exact List.cons_ne_nil n []
    · exact List.concat_ne_nil _ _

/-- Every number has a digit. -/
theorem digits_ne_nil (b n : Nat) : digits b n ≠ [] := digitsUpTo_ne_nil b n n

theorem length_digitsUpTo_le {b : Nat} {fuel n k : Nat} (hk : 0 < k) (hn : n < b ^ k) :
    (digitsUpTo b fuel n).length ≤ k := by
  induction fuel generalizing n k with
  | zero => exact hk
  | succ fuel ih =>
    rw [digitsUpTo]
    split
    · exact hk
    · rename_i hge
      obtain ⟨j, rfl⟩ := Nat.exists_eq_succ_of_ne_zero (Nat.ne_of_gt hk)
      have hj : 0 < j := by
        refine Nat.pos_of_ne_zero fun hzero => hge ?_
        rwa [hzero, Nat.pow_succ, Nat.pow_zero, Nat.one_mul] at hn
      have hless : n / b < b ^ j := Nat.div_lt_of_lt_mul (by rwa [Nat.pow_succ'] at hn)
      rw [List.length_append, List.length_singleton]
      exact Nat.succ_le_succ (ih hj hless)

/-- A number below a power of the base has at most as many digits as the exponent says. -/
theorem length_digits_le {b n k : Nat} (hk : 0 < k) (hn : n < b ^ k) : (digits b n).length ≤ k :=
  length_digitsUpTo_le hk hn

/-! ### Characters -/

theorem digitValue?_upperDigit : ∀ d < 16, digitValue? (upperDigit d) = some d := by decide

/-- The number that characters stand for in a base. Those that are no digits count as zeros. -/
def valueOf (b : Nat) (cs : List Char) : Nat :=
  ofDigits b (cs.map fun c => (digitValue? c).getD 0)

/-! ### Hexadecimal texts -/

theorem toList_hex (width n : Nat) :
    (hex width n).toList =
      List.replicate (width - ((digits 16 n).map upperDigit).length) (upperDigit 0) ++
        (digits 16 n).map upperDigit := by
  rw [hex, String.toList_ofList]
  rfl

/-- **Hexadecimal texts are read back**, whatever their width is. -/
theorem valueOf_hex (width n : Nat) : valueOf 16 (hex width n).toList = n := by
  have hdigits : ((digits 16 n).map upperDigit).map (fun c => (digitValue? c).getD 0) =
      digits 16 n := by
    have hvalue : ∀ d ∈ digits 16 n, (digitValue? (upperDigit d)).getD 0 = d := by
      intro d hd
      rw [digitValue?_upperDigit d (lt_of_mem_digits (by decide) hd)]
      rfl
    rw [List.map_map]
    exact (List.map_congr_left hvalue).trans (List.map_id _)
  rw [valueOf, toList_hex, List.map_append, List.map_replicate, hdigits]
  exact (ofDigits_replicate_append 16 _ _).trans (ofDigits_digits 16 n)

/-- The characters of a hexadecimal text are digits. -/
theorem exists_of_mem_hex {width n : Nat} {c : Char} (hc : c ∈ (hex width n).toList) :
    ∃ d < 16, c = upperDigit d := by
  rw [toList_hex] at hc
  rcases List.mem_append.1 hc with hzero | hdigit
  · exact ⟨0, by decide, List.eq_of_mem_replicate hzero⟩
  · obtain ⟨d, hd, rfl⟩ := List.mem_map.1 hdigit
    exact ⟨d, lt_of_mem_digits (by decide) hd, rfl⟩

/-! ### Decimal texts -/

/-- The characters of a decimal text are digits, and a sign. -/
theorem exists_of_mem_decimalInt {n : Int} {c : Char} (hc : c ∈ (decimalInt n).toList) :
    c = '-' ∨ ∃ d < 10, c = upperDigit d := by
  have hdigit (hmem : c ∈ (decimal n.natAbs).toList) : ∃ d < 10, c = upperDigit d := by
    rw [decimal, String.toList_ofList] at hmem
    obtain ⟨d, hd, rfl⟩ := List.mem_map.1 hmem
    exact ⟨d, lt_of_mem_digits (by decide) hd, rfl⟩
  rw [decimalInt] at hc
  split at hc
  · rw [String.toList_append] at hc
    rcases List.mem_append.1 hc with hsign | hmem
    · exact .inl (List.mem_singleton.1 hsign)
    · exact .inr (hdigit hmem)
  · exact .inr (hdigit hc)

end Numeral

end Chip8
