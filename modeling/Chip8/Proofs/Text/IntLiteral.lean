import Chip8.Proofs.Text.Numeral
import Chip8.Text.IntLiteral
import Mathlib.Data.List.Forall2
import Mathlib.Data.List.TakeWhile

/-!
# Integer literals read back

What a numeral consists of when it is written is plain: a sign and decimal digits, or the mark `0x`
and hexadecimal digits. What may be read is far more, with blanks around it, underscores between its
digits, and digits of other scripts. Of all this a written numeral needs nothing, so every check
passes and the digits are read one by one; only their number matters, and only in base ten.

The letters of a hexadecimal numeral may be of either case, each for itself, and zeros may stand in
front of it.

## Main definitions

* `Numeral.WritesHex` — the characters that write a number in base sixteen

## Main results

* `IntLiteral.readBody_of_digits` — digits are read
* `IntLiteral.read_decimalInt` — decimal texts are read back
* `IntLiteral.read_writesHex` — hexadecimal texts are read back
-/

namespace Chip8

/-- The characters write a number in base sixteen: its digits, each as a letter of either case if it
is above nine, after any number of zeros. -/
def Numeral.WritesHex (cs : List Char) (n : Nat) : Prop :=
  ∃ zeros : Nat, List.Forall₂ (fun c d => c = lowerDigit d ∨ c = upperDigit d) cs
    (List.replicate zeros 0 ++ digits 16 n)

namespace IntLiteral

variable {base : Nat} {cs : List Char} {ds : List Nat} {c : Char}

/-! ### Characters -/

theorem digitValue?_underscore (base : Nat) : digitValue? base '_' = none := by
  have hnone : (CharClass.decimalValue? '_').or (Numeral.digitValue? '_') = none := by decide
  rw [digitValue?, hnone]
  rfl

theorem digitValue?_upperDigit_ten : ∀ d < 10, digitValue? 10 (Numeral.upperDigit d) = some d := by
  decide

theorem digitValue?_upperDigit_sixteen :
    ∀ d < 16, digitValue? 16 (Numeral.upperDigit d) = some d := by
  decide

theorem digitValue?_lowerDigit_sixteen :
    ∀ d < 16, digitValue? 16 (Numeral.lowerDigit d) = some d := by
  decide

/-- Decimal digits are neither blanks nor signs. -/
theorem plain_upperDigit : ∀ d < 10, CharClass.isBlank (Numeral.upperDigit d) = false ∧
    Numeral.upperDigit d ≠ '-' ∧ Numeral.upperDigit d ≠ '+' := by
  decide

/-! ### Bodies of numerals -/

/-- Underscores are well placed where there are none. -/
theorem wellSpaced_of_not_mem (hne : cs ≠ []) (h : '_' ∉ cs) : wellSpaced cs = true := by
  induction cs with
  | nil => exact absurd rfl hne
  | cons c rest ih =>
    rw [List.mem_cons, not_or] at h
    cases rest with
    | nil => simpa [wellSpaced] using Ne.symm h.1
    | cons d rest =>
      rw [wellSpaced, ih (List.cons_ne_nil d rest) h.2]
      simp [Ne.symm h.1]

/-- **Digits are read**, one by one. If the base is not a power of two there may not be too many of
them. -/
theorem readBody_of_digits (h : cs.map (digitValue? base) = ds.map some) (hne : ds ≠ [])
    (hcount : isUnlimited base = true ∨ ds.length ≤ maxDigits) :
    readBody base cs = .ok (Numeral.ofDigits base ds) := by
  have hdigit : ∀ c ∈ cs, ∃ d, digitValue? base c = some d := by
    intro c hc
    have hmem : digitValue? base c ∈ ds.map some := h ▸ List.mem_map_of_mem hc
    obtain ⟨d, -, hd⟩ := List.mem_map.1 hmem
    exact ⟨d, hd.symm⟩
  have hbody : ∀ c ∈ cs, isBodyChar base c = true := by
    intro c hc
    obtain ⟨d, hd⟩ := hdigit c hc
    rw [isBodyChar, hd, Option.isSome_some, Bool.or_true]
  have hunderscore : '_' ∉ cs := by
    intro hmem
    obtain ⟨d, hd⟩ := hdigit _ hmem
    rw [digitValue?_underscore] at hd
    cases hd
  have hcs : cs ≠ [] := by
    rintro rfl
    exact hne (List.map_eq_nil_iff.1 h.symm)
  have hvalues : cs.filterMap (digitValue? base) = ds := by
    calc cs.filterMap (digitValue? base)
        = (cs.map (digitValue? base)).filterMap id := by rw [List.filterMap_map, Function.id_comp]
      _ = (ds.map some).filterMap id := by rw [h]
      _ = ds := by rw [List.filterMap_map, Function.id_comp, List.filterMap_some]
  have htake : cs.takeWhile (isBodyChar base) = cs := List.takeWhile_eq_self_iff.2 hbody
  have hdrop : cs.dropWhile (isBodyChar base) = [] := List.dropWhile_eq_nil_iff.2 hbody
  have hhead : cs.head? ≠ some '_' := fun hhead => hunderscore (List.mem_of_head? hhead)
  have hfits : (!isUnlimited base && decide (maxDigits < ds.length)) = false := by
    rcases hcount with hunlimited | hfew
    · rw [hunlimited]
      rfl
    · rw [decide_eq_false (Nat.not_lt.2 hfew), Bool.and_false]
  simp only [readBody, htake, hdrop, hvalues, wellSpaced_of_not_mem hcs hunderscore, hfits, hhead]
  rfl

/-! ### Signs and marks -/

/-- There is no mark in base ten. -/
theorem dropBaseMark_ten (cs : List Char) : dropBaseMark 10 cs = cs := by
  unfold dropBaseMark
  split <;> rfl

/-- The mark is dropped in front of a digit. -/
theorem dropBaseMark_mark (hc : c ≠ '_') (cs : List Char) :
    dropBaseMark 16 ('0' :: 'x' :: c :: cs) = c :: cs := by
  rw [dropBaseMark, if_pos rfl]
  intro rest heq
  exact hc (List.cons.inj heq).1

/-- Without a blank or a sign in front a text is the body of a numeral. -/
theorem read_of_plain (hblank : CharClass.isBlank c = false) (hminus : c ≠ '-') (hplus : c ≠ '+')
    (cs : List Char) :
    read base (c :: cs) = (readBody base (dropBaseMark base (c :: cs))).map fun n => (n : Int) := by
  rw [read, List.dropWhile_cons_of_neg (by simp [hblank])]
  split
  · rename_i heq
    exact absurd (List.cons.inj heq).1 hminus
  · rename_i heq
    exact absurd (List.cons.inj heq).1 hplus
  · rfl

/-! ### Decimal texts -/

theorem readBody_decimal {n : Nat} (hn : n < 10 ^ maxDigits) :
    readBody 10 (Numeral.decimal n).toList = .ok n := by
  have hdigits : (Numeral.digits 10 n).length ≤ maxDigits :=
    Numeral.length_digits_le (by decide) hn
  have hchars : (Numeral.decimal n).toList.map (digitValue? 10) =
      (Numeral.digits 10 n).map some := by
    rw [Numeral.decimal, String.toList_ofList, List.map_map]
    refine List.map_congr_left fun d hd => ?_
    exact digitValue?_upperDigit_ten d (Numeral.lt_of_mem_digits (by decide) hd)
  rw [readBody_of_digits hchars (Numeral.digits_ne_nil 10 n) (.inr hdigits),
    Numeral.ofDigits_digits]

/-- A decimal text begins with a digit. -/
theorem exists_cons_decimal (n : Nat) :
    ∃ d < 10, ∃ cs, (Numeral.decimal n).toList = Numeral.upperDigit d :: cs := by
  rw [Numeral.decimal, String.toList_ofList]
  cases hdigits : Numeral.digits 10 n with
  | nil => exact absurd hdigits (Numeral.digits_ne_nil 10 n)
  | cons d rest =>
    have hmem : d ∈ Numeral.digits 10 n := hdigits ▸ List.mem_cons_self
    exact ⟨d, Numeral.lt_of_mem_digits (by decide) hmem, rest.map Numeral.upperDigit, rfl⟩

/-- **Decimal texts are read back.** -/
theorem read_decimalInt {n : Int} (hn : n.natAbs < 10 ^ maxDigits) :
    read 10 (Numeral.decimalInt n).toList = .ok n := by
  have hbody := readBody_decimal hn
  rw [Numeral.decimalInt]
  split
  · have htext : ("-" ++ Numeral.decimal n.natAbs).toList =
        '-' :: (Numeral.decimal n.natAbs).toList := String.toList_append
    have hread : read 10 ('-' :: (Numeral.decimal n.natAbs).toList) =
        (readBody 10 (dropBaseMark 10 (Numeral.decimal n.natAbs).toList)).map
          fun m => -(m : Int) := rfl
    have hvalue : -(n.natAbs : Int) = n := by omega
    rw [htext, hread, dropBaseMark_ten, hbody]
    exact congrArg Except.ok hvalue
  · obtain ⟨d, hd, cs, hcs⟩ := exists_cons_decimal n.natAbs
    obtain ⟨hblank, hminus, hplus⟩ := plain_upperDigit d hd
    have hvalue : (n.natAbs : Int) = n := by omega
    rw [hcs] at hbody ⊢
    rw [read_of_plain hblank hminus hplus, dropBaseMark_ten, hbody]
    exact congrArg Except.ok hvalue

/-! ### Hexadecimal texts -/

theorem map_of_writesHex {n : Nat} (h : Numeral.WritesHex cs n) :
    ∃ zeros, cs.map (digitValue? 16) =
      (List.replicate zeros 0 ++ Numeral.digits 16 n).map some := by
  obtain ⟨zeros, hcs⟩ := h
  have hlt : ∀ d ∈ List.replicate zeros 0 ++ Numeral.digits 16 n, d < 16 := by
    intro d hd
    rcases List.mem_append.1 hd with hzero | hdigit
    · rw [List.eq_of_mem_replicate hzero]
      decide
    · exact Numeral.lt_of_mem_digits (by decide) hdigit
  refine ⟨zeros, ?_⟩
  generalize List.replicate zeros 0 ++ Numeral.digits 16 n = ds at hcs hlt
  induction hcs with
  | nil => rfl
  | cons hc _ ih =>
    rw [List.forall_mem_cons] at hlt
    rw [List.map_cons, List.map_cons, ih hlt.2]
    rcases hc with rfl | rfl
    · rw [digitValue?_lowerDigit_sixteen _ hlt.1]
    · rw [digitValue?_upperDigit_sixteen _ hlt.1]

/-- **Hexadecimal texts are read back**, with the mark in front of them. -/
theorem read_writesHex {n : Nat} (h : Numeral.WritesHex cs n) :
    read 16 ('0' :: 'x' :: cs) = .ok n := by
  obtain ⟨zeros, hcs⟩ := map_of_writesHex h
  have hne : List.replicate zeros 0 ++ Numeral.digits 16 n ≠ [] :=
    List.append_ne_nil_of_right_ne_nil _ (Numeral.digits_ne_nil 16 n)
  have hbody : readBody 16 cs = .ok n := by
    rw [readBody_of_digits hcs hne (.inl rfl), Numeral.ofDigits_replicate_append,
      Numeral.ofDigits_digits]
  cases cs with
  | nil => exact absurd (List.map_eq_nil_iff.1 hcs.symm) hne
  | cons c rest =>
    have hc : c ≠ '_' := by
      rintro rfl
      have hmem : none ∈ (List.replicate zeros 0 ++ Numeral.digits 16 n).map some := by
        rw [← hcs, ← digitValue?_underscore 16]
        exact List.mem_map_of_mem List.mem_cons_self
      simp at hmem
    rw [read_of_plain (by decide) (by decide) (by decide), dropBaseMark_mark hc, hbody]
    rfl

end IntLiteral

end Chip8
