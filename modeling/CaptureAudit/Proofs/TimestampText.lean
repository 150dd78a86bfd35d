import CaptureAudit.Proofs.DigitText
import CaptureAudit.Timestamp.Reading

/-! The text of a moment is read back as that moment. Fields of two digits need no character after
them to be told from the next field; years of more than four digits have a sign before them. -/

namespace CaptureAudit

open Decimal

theorem Text.isBlank_of_isDigit {c : Char} (h : c.isDigit = true) : Text.isBlank c = false := by
  have hl : 48 ≤ c.toNat ∧ c.toNat ≤ 57 := by
    simpa [Char.isDigit, UInt32.le_iff_toNat_le] using h
  simp only [isBlank, Ranges.covers, blankRanges, List.any_cons, List.any_nil, Bool.or_eq_false_iff,
    Bool.and_eq_false_iff, decide_eq_false_iff_not, and_true]
  omega

namespace Timestamp

namespace Step

variable {α β : Type}

theorem bind_apply (s : Step α) (f : α → Step β) (cs : List Char) :
    (s >>= f) cs = (s cs).bind fun p => f p.1 p.2 := rfl

theorem pure_apply (a : α) (cs : List Char) : (pure a : Step α) cs = .ok (a, cs) := rfl

theorem get_apply (cs : List Char) : (get : Step (List Char)) cs = .ok (cs, cs) := rfl

theorem set_apply (rest cs : List Char) : (set rest : Step PUnit) cs = .ok (⟨⟩, rest) := rfl

end Step

open Step

/-- Blanks are passed over, and a digit is none. -/
theorem trimLeft_digits {ds : List Char} (hd : ∀ c ∈ ds, c.isDigit = true) (hne : ds ≠ [])
    (rest : List Char) : Text.trimLeft (ds ++ rest) = ds ++ rest := by
  cases ds with
  | nil => exact absurd rfl hne
  | cons c ds => simp [Text.trimLeft, Text.isBlank_of_isDigit (hd c (by simp))]

theorem blanks_digits {ds : List Char} (hd : ∀ c ∈ ds, c.isDigit = true) (hne : ds ≠ [])
    (rest : List Char) : blanks (ds ++ rest) = .ok ((), ds ++ rest) := by
  rw [blanks, trimLeft_digits hd hne]

/-- As many digits as the field may have are read, whatever follows them. -/
theorem digits_append {ds : List Char} (hd : ∀ c ∈ ds, c.isDigit = true) (hne : ds ≠ [])
    (rest : List Char) : digits (some ds.length) (ds ++ rest) = .ok (digitsValue ds, rest) := by
  cases ds with
  | nil => exact absurd rfl hne
  | cons c ds =>
    have htake : ((c :: ds ++ rest).takeWhile Char.isDigit).take (ds.length + 1) = c :: ds := by
      rw [List.takeWhile_append_of_pos hd]
      simp
    simp only [digits, List.cons_append, hd c (by simp)] at htake ⊢
    simp [htake]

theorem takeWhile_digits {ds : List Char} (hd : ∀ c ∈ ds, c.isDigit = true) {c : Char}
    (hc : c.isDigit = false) (rest : List Char) :
    (ds ++ c :: rest).takeWhile Char.isDigit = ds := by
  rw [List.takeWhile_append_of_pos hd, List.takeWhile_cons_of_neg (by simp [hc]), List.append_nil]

theorem digits_none_append {ds : List Char} (hd : ∀ c ∈ ds, c.isDigit = true) (hne : ds ≠ [])
    {c : Char} (hc : c.isDigit = false) (rest : List Char) :
    digits none (ds ++ c :: rest) = .ok (digitsValue ds, c :: rest) := by
  have htake := takeWhile_digits hd hc rest
  cases ds with
  | nil => exact absurd rfl hne
  | cons d ds =>
    simp only [digits, List.cons_append, hd d (by simp)] at htake ⊢
    simp [htake]

theorem field_padNat {least greatest n : Nat} (hl : least ≤ n) (hg : n ≤ greatest)
    (hmax : greatest < 100) (rest : List Char) :
    field least greatest (padNat 2 n ++ rest) = .ok (n, rest) := by
  have hlen : (padNat 2 n).length = 2 := length_padNat (by decide) (by simp; omega)
  have hb := blanks_digits isDigit_of_mem_padNat (padNat_ne_nil 2 n) rest
  have hd := digits_append isDigit_of_mem_padNat (padNat_ne_nil 2 n) rest
  rw [hlen, digitsValue_padNat] at hd
  have hin : ¬ (n < least ∨ greatest < n) := by omega
  simp [field, bind_apply, hb, hd, hin, pure_apply, Except.bind]

/-- Four digits without a sign. -/
theorem yearField_padNat {n : Nat} (hn : n ≤ 9999) (rest : List Char) :
    yearField (padNat 4 n ++ '-' :: rest) = .ok ((n : Int), '-' :: rest) := by
  have hrange : ¬ ((n : Int) < -0x80000000 ∨ 0x80000000 ≤ (n : Int)) := by omega
  have hdigits : ∀ c ∈ padNat 4 n, c.isDigit = true := isDigit_of_mem_padNat
  have hlen : (padNat 4 n).length = 4 := length_padNat (by decide) (by simp; omega)
  have hb := blanks_digits hdigits (padNat_ne_nil 4 n) ('-' :: rest)
  have hd := digits_append hdigits (padNat_ne_nil 4 n) ('-' :: rest)
  rw [hlen, digitsValue_padNat] at hd
  cases hp : padNat 4 n with
  | nil => exact absurd hp (padNat_ne_nil _ _)
  | cons c cs =>
    have hc := hdigits c (by simp [hp])
    have hminus : c ≠ '-' := fun he => by simp [he] at hc
    have hplus : c ≠ '+' := fun he => by simp [he] at hc
    rw [hp, List.cons_append] at hb hd
    simp only [List.cons_append, yearField, bind_apply, get_apply, pure_apply, Except.bind, hb, hd,
      List.cons.injEq, hminus, hplus, false_and, if_neg hrange, imp_self, implies_true]

theorem yearField_sign (negative : Bool) {n : Nat} (hn : n < 0x80000000) (rest : List Char) :
    yearField ((if negative then '-' else '+') :: (padNat 4 n ++ '-' :: rest)) =
      .ok (if negative then -(n : Int) else n, '-' :: rest) := by
  have hd := digits_none_append isDigit_of_mem_padNat (padNat_ne_nil 4 n) (c := '-') (by decide)
    rest
  rw [digitsValue_padNat] at hd
  cases negative with
  | true =>
    have hrange : ¬ (-(n : Int) < -0x80000000 ∨ 0x80000000 ≤ -(n : Int)) := by omega
    have hb : blanks ('-' :: (padNat 4 n ++ '-' :: rest)) =
        .ok ((), '-' :: (padNat 4 n ++ '-' :: rest)) := rfl
    simp only [if_true, yearField, bind_apply, get_apply, set_apply, pure_apply, Except.bind, hb,
      hd, if_neg hrange]
  | false =>
    have hrange : ¬ ((n : Int) < -0x80000000 ∨ 0x80000000 ≤ (n : Int)) := by omega
    have hb : blanks ('+' :: (padNat 4 n ++ '-' :: rest)) =
        .ok ((), '+' :: (padNat 4 n ++ '-' :: rest)) := rfl
    simp only [Bool.false_eq_true, if_false, yearField, bind_apply, get_apply, set_apply,
      pure_apply, Except.bind, hb, hd, if_neg hrange]

theorem yearField_yearText {year : Int} (hl : -262143 ≤ year) (hu : year ≤ 262142)
    (rest : List Char) : yearField (yearText year ++ '-' :: rest) = .ok (year, '-' :: rest) := by
  by_cases hfour : 0 ≤ year ∧ year ≤ 9999
  · have hy : yearText year = padNat 4 year.toNat := if_pos hfour
    rw [hy, yearField_padNat (by omega), Int.toNat_of_nonneg hfour.1]
  · have hy : yearText year = (if year < 0 then '-' else '+') :: padNat 4 year.natAbs :=
      if_neg hfour
    have hsign := yearField_sign (decide (year < 0)) (n := year.natAbs) (by omega) rest
    simp only [decide_eq_true_eq] at hsign
    rw [hy, List.cons_append, hsign]
    congr
    split <;> omega

theorem fraction_digits {ds : List Char} (hd : ∀ c ∈ ds, c.isDigit = true) (hne : ds ≠ [])
    (hlen : ds.length ≤ 9) (rest : List Char) :
    fraction ('.' :: (ds ++ 'Z' :: rest)) =
      .ok (digitsValue ds * Nat.pow 10 (9 - ds.length), 'Z' :: rest) := by
  have htake := takeWhile_digits hd (c := 'Z') (by decide) rest
  have hkept : ds.take 9 = ds := List.take_of_length_le hlen
  cases ds with
  | nil => exact absurd rfl hne
  | cons c ds =>
    simp only [fraction, List.cons_append, hd c (by simp)] at htake ⊢
    simp only [htake, hkept]
    simp

theorem fraction_fractionText {nanos : Nat} (h : nanos < 1000000000) (rest : List Char) :
    fraction (fractionText nanos ++ 'Z' :: rest) = .ok (nanos, 'Z' :: rest) := by
  have hpad (width n : Nat) (hw : 0 < width) (hmax : width ≤ 9) (hn : n < Nat.pow 10 width) :
      fraction ('.' :: (padNat width n ++ 'Z' :: rest)) =
        .ok (n * Nat.pow 10 (9 - width), 'Z' :: rest) := by
    have hlen := length_padNat hw hn
    have hf := fraction_digits isDigit_of_mem_padNat (padNat_ne_nil width n) (by omega) rest
    rwa [hlen, digitsValue_padNat] at hf
  simp only [fractionText]
  split
  · next h0 =>
    subst h0
    rfl
  split
  · have hvalue : nanos / 1000000 * Nat.pow 10 (9 - 3) = nanos := by
      change nanos / 1000000 * 1000000 = nanos
      omega
    have hf := hpad 3 (nanos / 1000000) (by decide) (by decide) (by simp; omega)
    rwa [hvalue] at hf
  split
  · have hvalue : nanos / 1000 * Nat.pow 10 (9 - 6) = nanos := by
      change nanos / 1000 * 1000 = nanos
      omega
    have hf := hpad 6 (nanos / 1000) (by decide) (by decide) (by simp; omega)
    rwa [hvalue] at hf
  · have hf := hpad 9 nanos (by decide) (by decide) (by simpa using h)
    rwa [show nanos * Nat.pow 10 (9 - 9) = nanos from Nat.mul_one nanos] at hf

/-- A text that begins with neither a blank nor anything else that could be passed over. -/
theorem blanks_cons {c : Char} (hc : Text.isBlank c = false) (rest : List Char) :
    blanks (c :: rest) = .ok ((), c :: rest) := by
  simp [blanks, Text.trimLeft, hc]

theorem literal_cons (c : Char) (rest : List Char) : literal c (c :: rest) = .ok ((), rest) := by
  simp [literal]

theorem fields_toText (t : Timestamp) :
    fields (t.civil.secondsText ++ fractionText t.civil.nanos ++ ['Z']) =
      .ok ((t.civil, 0), []) := by
  obtain ⟨⟨hyl, hyu⟩, ⟨hml, hmu⟩, ⟨hdl, hdu⟩, hh, hmin, hs, hn⟩ := t.valid
  have hday : t.civil.day ≤ 31 := by
    refine Nat.le_trans hdu ?_
    simp only [daysInMonth]
    repeat' split
    all_goals decide
  have hseparator (rest : List Char) : separator ('T' :: rest) = .ok ((), rest) := rfl
  have hoffset : offset ['Z'] = .ok (0, []) := rfl
  simp only [Civil.secondsText, List.append_assoc, List.cons_append]
  simp only [fields, bind_apply, pure_apply, Except.bind, yearField_yearText hyl hyu,
    blanks_cons (c := '-') (by decide), blanks_cons (c := ':') (by decide),
    blanks_cons (c := 'Z') (by decide), literal_cons, hseparator,
    field_padNat hml hmu (by decide), field_padNat hdl hday (by decide),
    field_padNat (Nat.zero_le _) (Nat.le_of_lt_succ hh) (by decide),
    field_padNat (Nat.zero_le _) (Nat.le_of_lt_succ hmin) (by decide),
    field_padNat (Nat.zero_le _) hs (by decide), fraction_fractionText hn, hoffset]

/-- A moment is read back whatever its year, and with the whole of its fraction. -/
theorem read_toText (t : Timestamp) : read t.toText = .ok t := by
  have hf := fields_toText t
  have hu : t.civil.minutesBefore 0 = t.civil := if_pos rfl
  simp only [read, toText, String.toList_ofList, hf, bind, Except.bind, hu]
  simp [Text.trimLeft, t.valid]

end Timestamp

end CaptureAudit
