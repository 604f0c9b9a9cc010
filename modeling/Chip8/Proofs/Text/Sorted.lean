import Mathlib.Data.String.Basic

/-!
# Texts in order

Texts are sorted by their characters. Sorted texts increase, and they increase strictly where no
text is there twice.

## Main results

* `Text.pairwise_le_mergeSort`, `Text.pairwise_lt_mergeSort` — sorted texts
-/

namespace Chip8

namespace Text

theorem pairwise_le_mergeSort (texts : List String) :
    (texts.mergeSort fun a b => a ≤ b).Pairwise (· ≤ ·) := by
  have hsorted := @List.pairwise_mergeSort String (fun a b => a ≤ b)
    (by simpa using fun a b c => le_trans) (by simpa using le_total) texts
  exact hsorted.imp of_decide_eq_true

theorem pairwise_lt_mergeSort {texts : List String} (h : texts.Nodup) :
    (texts.mergeSort fun a b => a ≤ b).Pairwise (· < ·) := by
  have hdistinct : (texts.mergeSort fun a b => a ≤ b).Pairwise (· ≠ ·) :=
    (List.mergeSort_perm texts _).nodup_iff.2 h
  exact (pairwise_le_mergeSort texts).imp₂ (fun _ _ => lt_of_le_of_ne) hdistinct

end Text

end Chip8
