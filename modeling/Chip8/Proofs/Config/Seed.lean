import Chip8.Proofs.Config.Acceptance
import Chip8.Proofs.Text.IntLiteral

/-!
# Written seeds

A seed may be any integer, and there are several ways to write one into a configuration: as the
integer itself, as its decimal text, or as a hexadecimal text with the mark `0x`. All of them give
the same seed. In which base a text is read is told by its mark alone, so no decimal text may begin
like one; and none does, since it has no letters. Only decimal texts are limited in their length.

## Main definitions

* `Config.WritesSeed` — the values that write a seed

## Main results

* `Config.WritesSeed.describes` — such values describe their seed
* `Config.ofValue_of_writesSeed` — written seeds are read back
-/

namespace Chip8

namespace Config

variable {v : Value} {n : Int}

/-- The value writes an integer as a seed: it is the integer, its decimal text if it has at most
4300 digits, or its hexadecimal text if it is not negative. -/
inductive WritesSeed : Value → Int → Prop where
  | integer (n : Int) : WritesSeed (.int n) n
  | decimal {n : Int} (hn : n.natAbs < 10 ^ 4300) : WritesSeed (.text (Numeral.decimalInt n)) n
  | hexadecimal {n : Nat} {cs : List Char} (hcs : Numeral.WritesHex cs n) :
    WritesSeed (.text ("0x" ++ String.ofList cs)) n

/-- A decimal text has no mark of the base in front. -/
theorem not_begins_decimalInt (n : Int) : ¬ ['0', 'x'] <+: (Numeral.decimalInt n).toList := by
  intro hbegins
  have hmem : 'x' ∈ (Numeral.decimalInt n).toList :=
    hbegins.subset (List.mem_cons_of_mem '0' List.mem_cons_self)
  rcases Numeral.exists_of_mem_decimalInt hmem with hsign | ⟨d, hd, hdigit⟩
  · cases hsign
  · have hother : ∀ d < 10, 'x' ≠ Numeral.upperDigit d := by decide
    exact hother d hd hdigit

/-- **A value that writes a seed describes it.** -/
theorem WritesSeed.describes (h : WritesSeed v n) : DescribesSeed (some v) (some n) := by
  cases h with
  | integer => exact .int n
  | decimal hn =>
    have hmax : 4300 = IntLiteral.maxDigits := rfl
    rw [hmax] at hn
    exact .decimal (not_begins_decimalInt n) (IntLiteral.read_decimalInt hn)
  | @hexadecimal n cs hcs =>
    have htext : ("0x" ++ String.ofList cs).toList = '0' :: 'x' :: cs := by
      simp only [String.toList_append, String.toList_ofList]
      rfl
    refine .hexadecimal ?_ ?_
    · rw [htext]
      exact ⟨cs, rfl⟩
    · rw [htext]
      exact IntLiteral.read_writesHex hcs

/-- **Written seeds are read back.** A document whose choices are accepted gives the seed that it
writes, in whichever of the forms. -/
theorem ofValue_of_writesSeed {entries : List (Value × Value)} {dialect : Dialect}
    (hchoices : dialectOfValue ((Value.find? "quirks" entries).getD .null) = .ok dialect)
    (hseed : Value.find? "seed" entries = some v) (h : WritesSeed v n) :
    ofValue (.mapping entries) = .ok ⟨dialect, some n⟩ := by
  refine ofValue_mapping_eq_ok_iff.2 ⟨hchoices, ?_⟩
  rw [hseed]
  exact h.describes

/-- A document with a seed, and with a choice behind it. -/
def seeded (seed : Value) : List (Value × Value) :=
  [(.text "seed", seed), (.text "quirks", .mapping [(.text "shift_uses_vy", .bool true)])]

/-- The least integer whose decimal text is read. -/
def leastSeed : Int := -(10 ^ 4300 - 1 : Nat)

theorem ofValue_of_writesSeed_least :
    (∀ v, Value.find? "seed" (seeded v) = some v ∧
      dialectOfValue ((Value.find? "quirks" (seeded v)).getD .null) = .ok ⟨true, false, true⟩) ∧
      WritesSeed (.text (Numeral.decimalInt leastSeed)) leastSeed ∧
      ofValue (.mapping (seeded (.text (Numeral.decimalInt leastSeed)))) =
        .ok ⟨⟨true, false, true⟩, some leastSeed⟩ ∧
      ofValue (.mapping (seeded (.int leastSeed))) = .ok ⟨⟨true, false, true⟩, some leastSeed⟩ ∧
      WritesSeed (.text "0x00bEeF") 0xBEEF ∧
      ofValue (.mapping (seeded (.text "0x00bEeF"))) = .ok ⟨⟨true, false, true⟩, some 0xBEEF⟩ := by
  have hentries (v : Value) : Value.find? "seed" (seeded v) = some v ∧
      dialectOfValue ((Value.find? "quirks" (seeded v)).getD .null) = .ok ⟨true, false, true⟩ :=
    ⟨rfl, rfl⟩
  have hleast : leastSeed.natAbs < 10 ^ 4300 := by
    have hpower (k : Nat) : (-((10 ^ k - 1 : Nat) : Int)).natAbs < 10 ^ k := by
      have hpos : 0 < 10 ^ k := Nat.pow_pos (by decide)
      omega
    exact hpower 4300
  have hdigits : Numeral.WritesHex ['0', '0', 'b', 'E', 'e', 'F'] 0xBEEF := by
    have hbeef : Numeral.digits 16 0xBEEF = [11, 14, 14, 15] := by decide +kernel
    refine ⟨2, ?_⟩
    rw [hbeef]
    refine .cons (.inl rfl) (.cons (.inl rfl) (.cons (.inl rfl) ?_))
    exact .cons (.inr rfl) (.cons (.inl rfl) (.cons (.inr rfl) .nil))
  have hdecimal := WritesSeed.decimal hleast
  have hhex : WritesSeed (.text "0x00bEeF") 0xBEEF := WritesSeed.hexadecimal hdigits
  exact ⟨hentries, hdecimal,
    ofValue_of_writesSeed (hentries _).2 (hentries _).1 hdecimal,
    ofValue_of_writesSeed (hentries _).2 (hentries _).1 (.integer leastSeed), hhex,
    ofValue_of_writesSeed (hentries _).2 (hentries _).1 hhex⟩

end Config

end Chip8
