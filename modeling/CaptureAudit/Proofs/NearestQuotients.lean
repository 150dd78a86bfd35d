import CaptureAudit.Decimal.Dyadic
import Mathlib

/-! Quotients as doubles. In units of the smallest double above zero every double is a whole number,
and a quotient becomes the nearest of those that 53 bits and a power of two can hold. The greater of
two quotients never becomes the smaller double. -/

namespace CaptureAudit.Decimal

open Float.Model Float.Model.UnpackedFloat

variable {n num num' den den' : Nat}

theorem roundRatio_even_cases (num den : Nat) :
    (2 * (num % den) < den ∧ roundRatio .even num den = num / den) ∨
      (2 * (num % den) = den ∧ roundRatio .even num den = num / den + num / den % 2) ∨
      (den < 2 * (num % den) ∧ roundRatio .even num den = num / den + 1) := by
  simp only [roundRatio]
  cases hcompare : compare (2 * (num % den)) den with
  | lt => exact .inl ⟨Nat.compare_eq_lt.mp hcompare, rfl⟩
  | eq => exact .inr (.inl ⟨Nat.compare_eq_eq.mp hcompare, rfl⟩)
  | gt => exact .inr (.inr ⟨Nat.compare_eq_gt.mp hcompare, rfl⟩)

theorem lt_roundRatio_even_iff (hden : 0 < den) :
    n < roundRatio .even num den ↔
      (2 * n + 1) * den < 2 * num ∨ n % 2 = 1 ∧ (2 * n + 1) * den = 2 * num := by
  have hnum := Nat.div_add_mod' num den
  have hrest := Nat.mod_lt num hden
  have hcases := roundRatio_even_cases num den
  -- The half way above `n` is reached at an odd multiple of half the unit.
  have hodd : (2 * n + 1) * den = 2 * (n * den) + den := by ring
  rcases Nat.lt_trichotomy n (num / den) with hlt | rfl | hgt
  · have hmul : n * den + den ≤ num / den * den := by
      simpa [Nat.succ_mul] using Nat.mul_le_mul_right den (Nat.succ_le_of_lt hlt)
    omega
  · omega
  · have hmul : num / den * den + den ≤ n * den := by
      simpa [Nat.succ_mul] using Nat.mul_le_mul_right den (Nat.succ_le_of_lt hgt)
    omega

theorem roundRatio_even_mono (hden : 0 < den) (hden' : 0 < den')
    (h : num * den' ≤ num' * den) : roundRatio .even num den ≤ roundRatio .even num' den' := by
  by_contra hlt
  have hbelow := (lt_roundRatio_even_iff hden).mp (Nat.lt_of_not_le hlt)
  apply Nat.lt_irrefl (roundRatio .even num' den')
  rw [lt_roundRatio_even_iff hden']
  generalize 2 * roundRatio .even num' den' + 1 = half at hbelow ⊢
  have hscale : 2 * num * den' ≤ 2 * num' * den := by
    rw [Nat.mul_assoc, Nat.mul_assoc]
    exact Nat.mul_le_mul_left 2 h
  rcases hbelow with hlt | ⟨hodd, heq⟩
  · have hmul : half * den' * den < 2 * num' * den :=
      calc half * den' * den = half * den * den' := Nat.mul_right_comm half den' den
        _ < 2 * num * den' := Nat.mul_lt_mul_of_pos_right hlt hden'
        _ ≤ 2 * num' * den := hscale
    exact .inl (Nat.lt_of_mul_lt_mul_right hmul)
  · have hmul : half * den' * den ≤ 2 * num' * den := by
      rw [Nat.mul_right_comm, heq]
      exact hscale
    have hle := Nat.le_of_mul_le_mul_right hmul hden
    omega

theorem roundRatio_even_congr (hden : 0 < den) (hden' : 0 < den') (h : num * den' = num' * den) :
    roundRatio .even num den = roundRatio .even num' den' :=
  Nat.le_antisymm (roundRatio_even_mono hden hden' h.le) (roundRatio_even_mono hden' hden h.ge)

theorem roundRatio_mul (tie : Tie) (n : Nat) (hden : 0 < den) :
    roundRatio tie (n * den) den = n := by
  have hcompare : compare 0 den = .lt := Nat.compare_eq_lt.mpr hden
  simp [roundRatio, Nat.mul_div_cancel n hden, hcompare]

theorem roundRatio_even_le {k : Nat} (hlog : (num / den).log2 ≤ 52 + k) :
    roundRatio .even num (den * 2 ^ k) ≤ 2 ^ 53 := by
  have hlt : num / den < 2 ^ 53 * 2 ^ k := by
    rw [← Nat.pow_add]
    refine Nat.lt_of_lt_of_le Nat.lt_log2_self (Nat.pow_le_pow_right (by decide) (by omega))
  have hdiv : num / (den * 2 ^ k) < 2 ^ 53 := by
    rw [← Nat.div_div_eq_div_mul]
    exact Nat.div_lt_of_lt_mul (by rwa [Nat.mul_comm])
  have hcases := roundRatio_even_cases num (den * 2 ^ k)
  omega

theorem le_roundRatio_even {k : Nat} (hlog : (num / den).log2 = 52 + k) :
    2 ^ 52 ≤ roundRatio .even num (den * 2 ^ k) := by
  have hne : num / den ≠ 0 := by
    intro h
    rw [h, Nat.log2_zero] at hlog
    omega
  have hdiv : 2 ^ 52 ≤ num / (den * 2 ^ k) := by
    rw [← Nat.div_div_eq_div_mul, Nat.le_div_iff_mul_le (Nat.two_pow_pos k), ← Nat.pow_add, ← hlog]
    exact Nat.log2_self_le hne
  have hcases := roundRatio_even_cases num (den * 2 ^ k)
  omega

/-- A quotient as a double: the nearest multiple of the power of two that leaves it 53 bits. -/
def nearestQuotient (num den : Nat) : Nat :=
  roundRatio .even num (den * 2 ^ ((num / den).log2 - 52)) * 2 ^ ((num / den).log2 - 52)

theorem div_le_div_of_mul_le (hden : 0 < den) (hden' : 0 < den') (h : num * den' ≤ num' * den) :
    num / den ≤ num' / den' := by
  rw [Nat.le_div_iff_mul_le hden']
  refine Nat.le_of_mul_le_mul_right ?_ hden
  calc num / den * den' * den = num / den * den * den' := Nat.mul_right_comm ..
    _ ≤ num * den' := Nat.mul_le_mul_right den' (Nat.div_mul_le_self num den)
    _ ≤ num' * den := h

theorem log2_le_log2 {n m : Nat} (h : n ≤ m) : n.log2 ≤ m.log2 := by
  rw [Nat.log2_eq_log_two, Nat.log2_eq_log_two]
  exact Nat.log_mono_right h

theorem log2_div_two_pow (n k : Nat) : (n / 2 ^ k).log2 = n.log2 - k := by
  rw [Nat.log2_eq_log_two, Nat.log2_eq_log_two, Nat.log_div_base_pow]

theorem log2_lt_of_lt {n k : Nat} (h : n < 2 ^ k) (hk : 0 < k) : n.log2 < k := by
  by_cases hn : n = 0
  · simpa [hn] using hk
  · exact (Nat.log2_lt hn).mpr h

theorem nearestQuotient_mono (hden : 0 < den) (hden' : 0 < den') (h : num * den' ≤ num' * den) :
    nearestQuotient num den ≤ nearestQuotient num' den' := by
  have hlog := log2_le_log2 (div_le_div_of_mul_le hden hden' h)
  rw [nearestQuotient, nearestQuotient]
  generalize hk : (num / den).log2 - 52 = k
  generalize hk' : (num' / den').log2 - 52 = k'
  have hgreatest : roundRatio .even num (den * 2 ^ k) ≤ 2 ^ 53 := roundRatio_even_le (by omega)
  rcases Nat.eq_or_lt_of_le (show k ≤ k' by omega) with rfl | hlt
  · refine Nat.mul_le_mul_right _ (roundRatio_even_mono (by positivity) (by positivity) ?_)
    rw [← Nat.mul_assoc, ← Nat.mul_assoc]
    exact Nat.mul_le_mul_right _ h
  · -- The greater quotient has more bits: a power of two stands between them.
    have hleast : 2 ^ 52 ≤ roundRatio .even num' (den' * 2 ^ k') := le_roundRatio_even (by omega)
    calc roundRatio .even num (den * 2 ^ k) * 2 ^ k ≤ 2 ^ 53 * 2 ^ k :=
          Nat.mul_le_mul_right _ hgreatest
      _ = 2 ^ 52 * 2 ^ (k + 1) := by rw [← Nat.pow_add, ← Nat.pow_add]; congr 1; omega
      _ ≤ 2 ^ 52 * 2 ^ k' := Nat.mul_le_mul_left _ (Nat.pow_le_pow_right (by decide) hlt)
      _ ≤ roundRatio .even num' (den' * 2 ^ k') * 2 ^ k' := Nat.mul_le_mul_right _ hleast

theorem nearestQuotient_congr (hden : 0 < den) (hden' : 0 < den') (h : num * den' = num' * den) :
    nearestQuotient num den = nearestQuotient num' den' :=
  Nat.le_antisymm (nearestQuotient_mono hden hden' h.le) (nearestQuotient_mono hden' hden h.ge)

theorem nearestQuotient_mul_mul {c : Nat} (hden : 0 < den) (hc : 0 < c) :
    nearestQuotient (num * c) (den * c) = nearestQuotient num den :=
  nearestQuotient_congr (Nat.mul_pos hden hc) hden (by ring)

/-- A number of at most 53 bits is kept. -/
theorem nearestQuotient_mul (hn : n < 2 ^ 53) (hden : 0 < den) :
    nearestQuotient (n * den) den = n := by
  have hlog := log2_lt_of_lt hn (by decide)
  have hunit : n.log2 - 52 = 0 := by omega
  rw [nearestQuotient, Nat.mul_div_cancel n hden, hunit, pow_zero, Nat.mul_one, Nat.mul_one,
    roundRatio_mul .even n hden]

theorem nearestQuotient_mul_two_pow (n j : Nat) :
    nearestQuotient (n * 2 ^ j) 1 = nearestQuotient n 1 * 2 ^ j := by
  have hsub := log2_div_two_pow (n * 2 ^ j) j
  rw [Nat.mul_div_cancel _ (Nat.two_pow_pos j)] at hsub
  obtain ⟨k, hk⟩ : ∃ k, (n * 2 ^ j).log2 - 52 = k := ⟨_, rfl⟩
  rw [nearestQuotient, nearestQuotient, Nat.div_one, Nat.div_one, hk, Nat.one_mul, Nat.one_mul]
  by_cases hn : n.log2 < 52
  · -- Nothing is dropped on either side.
    have hunit : n.log2 - 52 = 0 := by omega
    have hsplit : n * 2 ^ j = n * 2 ^ (j - k) * 2 ^ k := by
      rw [Nat.mul_assoc, ← Nat.pow_add, Nat.sub_add_cancel (by omega)]
    have hexact := roundRatio_mul .even n Nat.one_pos
    rw [Nat.mul_one] at hexact
    rw [hunit, pow_zero, hexact, Nat.mul_one, hsplit, roundRatio_mul .even _ (Nat.two_pow_pos k)]
  · obtain rfl : k = n.log2 - 52 + j := by omega
    have hround : roundRatio .even (n * 2 ^ j) (2 ^ (n.log2 - 52 + j)) =
        roundRatio .even n (2 ^ (n.log2 - 52)) :=
      roundRatio_even_congr (by positivity) (by positivity) (by ring)
    rw [hround, Nat.pow_add, Nat.mul_assoc]

/-- A quotient as its whole part and two bits: whether the rest is at least a half, and whether more
than that is left. -/
def quotientBits (num den : Nat) : ExtendedMantissa where
  mantissa := num / den
  roundBit := den ≤ 2 * (num % den)
  stickyBit := 2 * (num % den) % den ≠ 0

theorem ofMantissaAndAccuracy_quotient (hden : 0 < den) :
    ExtendedMantissa.ofMantissaAndAccuracy (num / den) (accuracyOfFraction (num % den) den) =
      quotientBits num den := by
  have hrest := Nat.mod_lt num hden
  rw [accuracyOfFraction, quotientBits]
  generalize num % den = r at *
  by_cases hr : r = 0
  · simp [hr, ExtendedMantissa.ofMantissaAndAccuracy, Nat.ne_of_gt hden]
  · rw [if_neg hr]
    cases hcompare : compare (2 * r) den with
    | lt =>
      have hbelow := Nat.compare_eq_lt.mp hcompare
      have hround : ¬ den ≤ 2 * r := Nat.not_le.mpr hbelow
      simp [ExtendedMantissa.ofMantissaAndAccuracy, Nat.mod_eq_of_lt hbelow, hround, hr]
    | eq =>
      have heq := Nat.compare_eq_eq.mp hcompare
      simp [ExtendedMantissa.ofMantissaAndAccuracy, heq]
    | gt =>
      have habove := Nat.compare_eq_gt.mp hcompare
      have hmod : 2 * r % den = 2 * r - den := by
        rw [Nat.mod_eq_sub_mod (by omega), Nat.mod_eq_of_lt (by omega)]
      have hsticky : 2 * r - den ≠ 0 := by omega
      simp [ExtendedMantissa.ofMantissaAndAccuracy, hmod, hsticky, Nat.le_of_lt habove]

theorem roundedMantissa_quotientBits (hden : 0 < den) :
    (quotientBits num den).roundedMantissa = roundRatio .even num den := by
  have hrest := Nat.mod_lt num hden
  rw [ExtendedMantissa.roundedMantissa, quotientBits]
  rcases roundRatio_even_cases num den with ⟨hr, he⟩ | ⟨hr, he⟩ | ⟨hr, he⟩
  · have hround : decide (den ≤ 2 * (num % den)) = false := decide_eq_false (Nat.not_le.mpr hr)
    rw [he, hround]
    generalize decide (2 * (num % den) % den ≠ 0) = sticky
    cases sticky <;> rfl
  · simp [he, hr, ExtendedMantissa.accuracy, Accuracy.roundToNearestEven]
  · have hmod : 2 * (num % den) % den = 2 * (num % den) - den := by
      rw [Nat.mod_eq_sub_mod (by omega), Nat.mod_eq_of_lt (by omega)]
    have hsticky : 2 * (num % den) - den ≠ 0 := by omega
    simp [he, hmod, hsticky, Nat.le_of_lt hr, ExtendedMantissa.accuracy,
      Accuracy.roundToNearestEven]

theorem shiftRightOne_quotientBits (hden : 0 < den) :
    (quotientBits num den).shiftRightOne = quotientBits num (den * 2) := by
  have hrest := Nat.mod_lt num hden
  have hmod : num % (den * 2) = num % den + den * (num / den % 2) := Nat.mod_mul
  have hsticky : (den ≤ 2 * (num % den) ∨ 2 * (num % den) % den ≠ 0) ↔ num % den ≠ 0 := by
    by_cases hr : 2 * (num % den) < den
    · rw [Nat.mod_eq_of_lt hr]
      omega
    · omega
  have hmod' : 2 * (num % (den * 2)) % (den * 2) = 2 * (num % den) := by
    rw [hmod, Nat.mul_comm den 2, Nat.mul_mod_mul_left, Nat.add_mul_mod_self_left, Nat.mod_mod]
  have hround : (num / den % 2 != 0) = decide (den * 2 ≤ 2 * (num % (den * 2))) := by
    rw [hmod]
    rcases Nat.mod_two_eq_zero_or_one (num / den) with h | h <;> simp [h] <;> omega
  simp only [quotientBits, ExtendedMantissa.shiftRightOne, Nat.div_div_eq_div_mul, hround, hmod',
    ← Bool.decide_or, hsticky]
  simp

theorem quotientBits_shift (hden : 0 < den) (k : Nat) :
    quotientBits num den >>> k = quotientBits num (den * 2 ^ k) := by
  induction k with
  | zero => rw [pow_zero, Nat.mul_one]; rfl
  | succ k ih =>
    have hstep : quotientBits num den >>> (k + 1) = (quotientBits num den >>> k).shiftRightOne :=
      rfl
    rw [hstep, ih, shiftRightOne_quotientBits (by positivity), Nat.mul_assoc, pow_succ]

theorem ofMantissaAndAccuracy_exact (n : Nat) :
    ExtendedMantissa.ofMantissaAndAccuracy n .exact = quotientBits n 1 := by
  have hwhole := @ofMantissaAndAccuracy_quotient n 1 Nat.one_pos
  rwa [Nat.mod_one, Nat.div_one] at hwhole

/-- Mantissa and exponent of a double above zero: all 53 bits are there unless the exponent is the
least one. -/
def Canonical (m : Nat) (e : Int) : Prop := m < 2 ^ 53 ∧ -1074 ≤ e ∧ (-1074 < e → 2 ^ 52 ≤ m)

instance (m : Nat) (e : Int) : Decidable (Canonical m e) :=
  inferInstanceAs (Decidable (_ ∧ _))

/-- The number `m · 2 ^ e` in units of the smallest double. -/
def weight (m : Nat) (e : Int) : Nat := m * 2 ^ (e + 1074).toNat

theorem weight_add {e : Int} (he : -1074 ≤ e) (m k : Nat) :
    weight m (e + k) = weight (m * 2 ^ k) e := by
  have hsum : (e + k + 1074).toNat = k + (e + 1074).toNat := by omega
  rw [weight, weight, hsum, Nat.pow_add, Nat.mul_assoc]

/-- Doubles are ordered by exponent and then by mantissa. -/
theorem weight_lt_iff {m m' : Nat} {e e' : Int} (h : Canonical m e) (h' : Canonical m' e') :
    weight m e < weight m' e' ↔ e < e' ∨ e = e' ∧ m < m' := by
  have hmono : ∀ {m m' : Nat} {e e' : Int}, Canonical m e → Canonical m' e' → e < e' →
      weight m e < weight m' e' := by
    intro m m' e e' ⟨hsmall, he, _⟩ ⟨_, _, hfull⟩ hlt
    obtain ⟨k, rfl⟩ : ∃ k : Nat, e' = e + (k + 1 : Nat) := ⟨(e' - e - 1).toNat, by omega⟩
    rw [weight_add he]
    have hpow : 1 ≤ 2 ^ k := Nat.one_le_two_pow
    have hle : m' * 2 ≤ m' * 2 ^ (k + 1) := Nat.mul_le_mul_left m' (by rw [pow_succ]; omega)
    have hlow := hfull (by omega)
    exact Nat.mul_lt_mul_of_pos_right (by omega) (by positivity)
  rcases Int.lt_trichotomy e e' with hlt | rfl | hgt
  · exact iff_of_true (hmono h h' hlt) (.inl hlt)
  · rw [weight, weight, Nat.mul_lt_mul_right (by positivity)]
    omega
  · have hle := hmono h' h hgt
    omega

/-- An unpacked number that is not below zero and finite, of this weight. -/
def HasWeight (u : Float.Model.UnpackedFloat) (w : Nat) : Prop :=
  match u with
  | .zero _ => w = 0
  | .finite .positive m e _ => Canonical m e ∧ weight m e = w
  | _ => False

instance (u : Float.Model.UnpackedFloat) (w : Nat) : Decidable (HasWeight u w) :=
  match u with
  | .zero _ => inferInstanceAs (Decidable (w = 0))
  | .finite .positive m e _ => inferInstanceAs (Decidable (Canonical m e ∧ weight m e = w))
  | .finite .negative _ _ _ => inferInstanceAs (Decidable False)
  | .infinity _ => inferInstanceAs (Decidable False)
  | .notANumber => inferInstanceAs (Decidable False)

theorem HasWeight.cases {u : Float.Model.UnpackedFloat} {w : Nat} (h : HasWeight u w) :
    (∃ s, u = .zero s ∧ w = 0) ∨
      ∃ m e hm, u = .finite .positive m e hm ∧ Canonical m e ∧ w = weight m e := by
  match u, h with
  | .zero s, h => exact .inl ⟨s, rfl, h⟩
  | .finite .positive m e hm, h => exact .inr ⟨m, e, hm, rfl, h.1, h.2.symm⟩


theorem targetExponent_binary64 (e : Int) :
    Format.binary64.targetExponent e = max (e - 53) (-1074) := by
  simp only [Format.targetExponent]
  rfl

/-- The places that are dropped so that 53 bits are left and the exponent is not below the least. -/
def places (m : Nat) (e : Int) : Nat := (max ((m.log2 : Int) - 52 + e) (-1074) - e).toNat

theorem shiftToTargetExponent_eq (m : Nat) (e : Int) (a : Accuracy) :
    shiftToTargetExponent .binary64 m e a =
      (ExtendedMantissa.ofMantissaAndAccuracy m a >>> places m e, e + places m e) := by
  have hplaces : (max (totalExponent m e - 53) (-1074) - e).toNat = places m e := by
    rw [totalExponent, places]
    omega
  simp only [shiftToTargetExponent, shiftToExponent, targetExponent_binary64, hplaces]

variable {t : Int}

theorem roundRatio_places (hbits : -1074 < t → 52 ≤ (num / den).log2) :
    let r := roundRatio .even num (den * 2 ^ places (num / den) t)
    let e := t + places (num / den) t
    r ≤ 2 ^ 53 ∧ -1074 ≤ e ∧ (-1074 < e → 2 ^ 52 ≤ r) := by
  refine ⟨roundRatio_even_le ?_, ?_, fun hleast => le_roundRatio_even ?_⟩ <;>
    simp only [places] at * <;> omega

theorem weight_roundRatio_places (hden : 0 < den) (hbits : -1074 < t → 52 ≤ (num / den).log2) :
    weight (roundRatio .even num (den * 2 ^ places (num / den) t)) (t + places (num / den) t) =
      nearestQuotient (num * 2 ^ (t + 1074).toNat) (den * 2 ^ (-1074 - t).toNat) := by
  rw [nearestQuotient, weight]
  by_cases hleast : -1074 < t
  · obtain ⟨k, hk⟩ := Nat.exists_eq_add_of_le (hbits hleast)
    have hplaces : places (num / den) t = k := by
      rw [places]
      omega
    obtain ⟨a, ha⟩ : ∃ a : Nat, (t + 1074).toNat = a := ⟨_, rfl⟩
    have hright : (-1074 - t).toNat = 0 := by omega
    have hlog : (num * 2 ^ a / den).log2 - 52 = k + a := by
      have hdiv : num * 2 ^ a / den / 2 ^ a = num / den := by
        rw [Nat.div_div_eq_div_mul, Nat.mul_div_mul_right _ _ (Nat.two_pow_pos a)]
      have hsub := log2_div_two_pow (num * 2 ^ a / den) a
      rw [hdiv] at hsub
      omega
    have hround : roundRatio .even (num * 2 ^ a) (den * 2 ^ (k + a)) =
        roundRatio .even num (den * 2 ^ k) :=
      roundRatio_even_congr (by positivity) (by positivity) (by ring)
    have hunit : (t + k + 1074).toNat = k + a := by omega
    rw [hplaces, ha, hright, pow_zero, Nat.mul_one, hlog, hround, hunit]
  · obtain ⟨b, rfl⟩ : ∃ b : Nat, t = -1074 - b := ⟨(-1074 - t).toNat, by omega⟩
    have hleft : (-1074 - (b : Int) + 1074).toNat = 0 := by omega
    have hright : (-1074 - (-1074 - (b : Int))).toNat = b := by omega
    obtain ⟨k, hk⟩ : ∃ k : Nat, (num / den).log2 - b - 52 = k := ⟨_, rfl⟩
    have hplaces : places (num / den) (-1074 - b) = b + k := by
      rw [places]
      omega
    have hunit : (-1074 - (b : Int) + (b + k : Nat) + 1074).toNat = k := by omega
    rw [hplaces, hleft, hright, pow_zero, Nat.mul_one, ← Nat.div_div_eq_div_mul, log2_div_two_pow,
      hk, hunit, Nat.pow_add, Nat.mul_assoc]

/-- Rounding may add a bit, and then one more place is dropped. -/
theorem canonical_places {r : Nat} {e : Int} (hr : r ≤ 2 ^ 53) (he : -1074 ≤ e)
    (hfull : -1074 < e → 2 ^ 52 ≤ r) :
    Canonical (r / 2 ^ places r e) (e + places r e) ∧
      r / 2 ^ places r e * 2 ^ places r e = r := by
  by_cases hcarry : r = 2 ^ 53
  · have hplaces : places r e = 1 := by
      rw [places, hcarry, Nat.log2_two_pow]
      omega
    rw [hplaces, hcarry]
    exact ⟨⟨by decide, by omega, fun _ => by decide⟩, by decide⟩
  · have hlog := log2_lt_of_lt (k := 53) (show r < 2 ^ 53 by omega) (by decide)
    have hplaces : places r e = 0 := by
      rw [places]
      omega
    rw [hplaces, pow_zero, Nat.div_one, Nat.mul_one]
    exact ⟨⟨by omega, by omega, fun h => hfull (by omega)⟩, rfl⟩

theorem hasWeight_of_canonical {m : Nat} {e : Int} (h : Canonical m e) :
    HasWeight (if hm : m = 0 then .zero .positive
      else .finite .positive m e (Nat.pos_of_ne_zero hm)) (weight m e) := by
  by_cases hm : m = 0
  · rw [dif_pos hm, hm]
    exact Nat.zero_mul _
  · rw [dif_neg hm]
    exact ⟨h, rfl⟩

/-- Rounding goes to the nearest double. -/
theorem hasWeight_roundWithAccuracy (num : Nat) (t : Int) (hden : 0 < den)
    (hbits : -1074 < t → 52 ≤ (num / den).log2) :
    HasWeight (roundWithAccuracy .binary64 .positive (num / den) t
        (accuracyOfFraction (num % den) den))
      (nearestQuotient (num * 2 ^ (t + 1074).toNat) (den * 2 ^ (-1074 - t).toNat)) := by
  obtain ⟨hr, he, hfull⟩ := roundRatio_places hbits
  obtain ⟨hcanonical, hexact⟩ := canonical_places hr he hfull
  have hunit : 0 < den * 2 ^ places (num / den) t := by positivity
  have hweight := hasWeight_of_canonical hcanonical
  rw [weight_add he, hexact, weight_roundRatio_places hden hbits] at hweight
  simp only [roundWithAccuracy, shiftToTargetExponent_eq, ofMantissaAndAccuracy_quotient hden,
    quotientBits_shift hden, roundedMantissa_quotientBits hunit, ofMantissaAndAccuracy_exact,
    quotientBits_shift Nat.one_pos, Nat.one_mul]
  exact hweight

end CaptureAudit.Decimal
