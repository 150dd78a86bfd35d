import CaptureAudit.Timestamp.Basic
import CaptureAudit.Decimal.Reading

/-! The decimal digits of a number: they are read back as the number, and no zero leads them unless
it stands alone. -/

namespace CaptureAudit

namespace Decimal

theorem digitsValue_append (a b : List Char) :
    digitsValue (a ++ b) = b.foldl (fun n c => 10 * n + (c.toNat - '0'.toNat)) (digitsValue a) :=
  List.foldl_append

theorem digitsValue_zeros_append (k : Nat) (ds : List Char) :
    digitsValue (List.replicate k '0' ++ ds) = digitsValue ds := by
  have hz : digitsValue (List.replicate k '0') = 0 := by
    induction k with
    | zero => rfl
    | succ k ih =>
      rw [List.replicate_succ', digitsValue_append, ih]
      rfl
  rw [digitsValue_append, hz]
  rfl

theorem isDigit_of_mem_natText {n : Nat} : ∀ c ∈ natText n, c.isDigit = true :=
  fun _ h => Nat.isDigit_of_mem_toDigits (by decide) (by decide) h

theorem natText_ne_nil (n : Nat) : natText n ≠ [] := Nat.toDigits_ne_nil

theorem digitsValue_natText (n : Nat) : digitsValue (natText n) = n :=
  Nat.ofDigitChars_ten_toDigits

theorem natText_of_lt {n : Nat} (h : n < 10) : natText n = [n.digitChar] :=
  Nat.toDigits_of_lt_base h

theorem natText_of_le {n : Nat} (h : 10 ≤ n) :
    natText n = natText (n / 10) ++ [(n % 10).digitChar] :=
  Nat.toDigits_of_base_le (by decide) h

theorem digitChar_ne_zero : ∀ n < 10, 0 < n → n.digitChar ≠ '0' := by decide

theorem head?_natText {n : Nat} (h : 0 < n) : (natText n).head? ≠ some '0' := by
  induction n using Nat.strongRecOn with
  | ind n ih =>
    by_cases hn : n < 10
    · rw [natText_of_lt hn]
      simpa using digitChar_ne_zero n hn h
    · have hq := ih (n / 10) (by omega) (by omega)
      rw [natText_of_le (by omega), List.head?_append]
      cases hd : (natText (n / 10)).head? with
      | none => exact absurd (List.head?_eq_none_iff.mp hd) (natText_ne_nil _)
      | some c => simpa [hd] using hq

theorem length_natText_le_iff {n k : Nat} (h : 0 < k) : (natText n).length ≤ k ↔ n < Nat.pow 10 k :=
  Nat.length_toDigits_le_iff (by decide) h

end Decimal

open Decimal

theorem isDigit_of_mem_padNat {width n : Nat} : ∀ c ∈ padNat width n, c.isDigit = true := by
  intro c h
  rcases List.mem_append.mp h with h | h
  · rw [List.eq_of_mem_replicate h]
    rfl
  · exact isDigit_of_mem_natText c h

theorem digitsValue_padNat (width n : Nat) : digitsValue (padNat width n) = n := by
  rw [padNat, digitsValue_zeros_append, digitsValue_natText]

theorem length_padNat {width n : Nat} (hw : 0 < width) (h : n < Nat.pow 10 width) :
    (padNat width n).length = width := by
  have hl := (length_natText_le_iff hw).mpr h
  simp only [padNat, List.length_append, List.length_replicate]
  omega

theorem padNat_ne_nil (width n : Nat) : padNat width n ≠ [] :=
  List.append_ne_nil_of_right_ne_nil _ (natText_ne_nil n)

end CaptureAudit
