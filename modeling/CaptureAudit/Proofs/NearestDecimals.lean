import CaptureAudit.Proofs.DigitText
import CaptureAudit.Proofs.FiniteNumbers
import CaptureAudit.Proofs.RoundedWords

/-! Decimal numbers as doubles. A number up to a hundred weighs the nearest double to it, whichever
way its power of ten is taken in, and the greater of two such numbers never becomes the smaller
double. -/

namespace CaptureAudit.Decimal

open Float.Model Float.Model.UnpackedFloat

/-- The weight of the double nearest to a number from zero up. -/
def nearestWeight (q : ℚ) : Nat := nearestQuotient (q.num.toNat * oneWeight) q.den

theorem cast_num_toNat {q : ℚ} (hq : 0 ≤ q) : (q.num.toNat : ℚ) = q * q.den := by
  have hnum : (q.num.toNat : ℤ) = q.num := Int.toNat_of_nonneg (Rat.num_nonneg.mpr hq)
  rw [Rat.mul_den_eq_num, ← hnum]
  rfl

theorem nearestWeight_mono {p q : ℚ} (hp : 0 ≤ p) (h : p ≤ q) :
    nearestWeight p ≤ nearestWeight q := by
  refine nearestQuotient_mono p.den_pos q.den_pos ?_
  rw [Nat.mul_right_comm, Nat.mul_right_comm q.num.toNat]
  refine Nat.mul_le_mul_right _ ?_
  have hcross : (p.num.toNat : ℚ) * q.den ≤ q.num.toNat * p.den := by
    rw [cast_num_toNat hp, cast_num_toNat (hp.trans h), mul_right_comm]
    gcongr
  exact_mod_cast hcross

theorem nearestWeight_div (num : Nat) {den : Nat} (hden : 0 < den) :
    nearestWeight (num / den : ℚ) = nearestQuotient (num * oneWeight) den := by
  refine nearestQuotient_congr (Rat.den_pos _) hden ?_
  rw [Nat.mul_right_comm, Nat.mul_right_comm num]
  refine congrArg (· * oneWeight) ?_
  have hcast : (den : ℚ) ≠ 0 := Nat.cast_ne_zero.mpr (Nat.ne_of_gt hden)
  have hcross : ((num / den : ℚ).num.toNat : ℚ) * den = num * (num / den : ℚ).den := by
    rw [cast_num_toNat (by positivity), mul_right_comm, div_mul_cancel₀ _ hcast]
  exact_mod_cast hcross

theorem weighs_powersOfTen : ∀ k (h : k < Float.exactlyRepresentablePowersOfTen.size),
    Weighs Float.exactlyRepresentablePowersOfTen[k] (10 ^ k * oneWeight) := by
  decide +kernel

variable {d k : Nat}

theorem nearestQuotient_le_hundred {num den : Nat} (hden : 0 < den) (h : num ≤ 100 * den) :
    nearestQuotient (num * oneWeight) den ≤ 100 * oneWeight :=
  calc nearestQuotient (num * oneWeight) den ≤ nearestQuotient (100 * oneWeight) 1 :=
        nearestQuotient_mono hden Nat.one_pos (by
          rw [Nat.mul_one, Nat.mul_right_comm]
          exact Nat.mul_le_mul_right _ h)
    _ = 100 * oneWeight := by decide +kernel

theorem hundred_lt : 100 * oneWeight < 2 ^ 1024 * oneWeight := by decide +kernel

/-- Digits and a power of ten that are doubles themselves are divided. -/
theorem weighs_div_powerOfTen {y : Float} (hd : d < 2 ^ 53) (hy : Weighs y (10 ^ k * oneWeight))
    (h : d ≤ 100 * 10 ^ k) :
    Weighs (d.toUInt64.toFloat / y) (nearestQuotient (d * oneWeight) (10 ^ k)) := by
  have hpower : 0 < 10 ^ k := Nat.pow_pos (by decide)
  have hword : d.toUInt64.toNat = d := UInt64.toNat_ofNat_of_lt (Nat.lt_trans hd (by decide))
  have hx := weighs_toFloat d.toUInt64
  rw [hword, nearestDouble_of_le hd.le] at hx
  have hscale : nearestQuotient (d * oneWeight * oneWeight) (10 ^ k * oneWeight) =
      nearestQuotient (d * oneWeight) (10 ^ k) :=
    nearestQuotient_mul_mul hpower oneWeight_pos
  have hdiv := hx.div hy (Nat.mul_pos hpower oneWeight_pos) (by
    rw [hscale]
    exact Nat.lt_of_le_of_lt (nearestQuotient_le_hundred hpower h) hundred_lt)
  exact hscale ▸ hdiv

/-- Other digits are divided by the power of ten before anything is rounded. -/
theorem hasWeight_ofScientific (hd : 0 < d) (hk : 0 < k) (hleast : k ≤ 2 ^ 11 + d.log2) :
    HasWeight (UnpackedFloat.ofScientific .binary64 d (Int.negOfNat k))
      (nearestQuotient (d * oneWeight) (10 ^ k)) := by
  have hpower : 0 < 10 ^ k := Nat.pow_pos (by decide)
  have hexponent : Int.negOfNat k = -k := Int.negOfNat_eq
  have hpart : (-Int.negOfNat k).toNat = k := by omega
  have hbits : ((2 : Int) ^ Format.binary64.exponentBits) = 2 ^ 11 := rfl
  have hdiv := hasWeight_div_finite hd hpower (e := 0) (f := 0) (by decide) (by decide)
  rw [weight_zero, weight_zero, nearestQuotient_mul_mul hpower oneWeight_pos] at hdiv
  rw [UnpackedFloat.ofScientific, dif_neg (Nat.ne_of_gt hd), if_neg, if_neg, if_neg]
  · simp only [hpart]
    exact hdiv
  · omega
  · omega
  · omega

theorem weighs_ofScientific (hd : 0 < d) (hk : 0 < k) (hleast : k ≤ 2 ^ 11 + d.log2)
    (h : d ≤ 100 * 10 ^ k) :
    Weighs (Float.ofScientific d true k) (nearestQuotient (d * oneWeight) (10 ^ k)) := by
  unfold Float.ofScientific
  split
  · next hfast =>
    simp only [if_true]
    exact weighs_div_powerOfTen hfast.1 (weighs_powersOfTen k _) h
  · simp only [if_true]
    have hbound := nearestQuotient_le_hundred (Nat.pow_pos (n := k) (by decide : 0 < 10)) h
    exact hasWeight_unpack_pack (hasWeight_ofScientific hd hk hleast)
      (Nat.lt_of_le_of_lt hbound hundred_lt)

theorem nearestQuotient_eq_zero {num den : Nat} (h : 2 * num < den) :
    nearestQuotient num den = 0 := by
  have hdiv : num / den = 0 := Nat.div_eq_of_lt (by omega)
  have hmod : num % den = num := Nat.mod_eq_of_lt (by omega)
  have hcases := roundRatio_even_cases num den
  rw [nearestQuotient, hdiv, Nat.log2_zero, Nat.zero_sub, pow_zero, Nat.mul_one, Nat.mul_one]
  omega

theorem natText_bounds (hd : 0 < d) :
    10 ^ ((natText d).length - 1) ≤ d ∧ d < 10 ^ (natText d).length := by
  have hlength : 0 < (natText d).length := List.length_pos_iff.mpr (natText_ne_nil d)
  refine ⟨?_, (length_natText_le_iff hlength).mp (Nat.le_refl _)⟩
  by_contra hlt
  by_cases hone : (natText d).length = 1
  · rw [hone] at hlt
    omega
  · have hle := (length_natText_le_iff (by omega)).mpr (Nat.lt_of_not_le hlt)
    omega

theorem weighs_ofScientific_whole : ∀ d ≤ 100, ∀ j ≤ 2, d * 10 ^ j ≤ 100 →
    Weighs (Float.ofScientific d false j) (nearestQuotient (d * 10 ^ j * oneWeight) 1) := by
  decide +kernel

/-- Digits that begin so far behind the point are nearest to zero. -/
theorem nearestQuotient_digits_eq_zero {length places : Nat} (h : d < 10 ^ length)
    (hplaces : length + 330 ≤ places) : nearestQuotient (d * oneWeight) (10 ^ places) = 0 := by
  obtain ⟨k, rfl⟩ := Nat.exists_eq_add_of_le (Nat.le_of_add_right_le hplaces)
  have hunit : 2 * oneWeight ≤ 10 ^ k :=
    calc 2 * oneWeight ≤ 10 ^ 330 := by decide +kernel
      _ ≤ 10 ^ k := pow_le_pow_right₀ (by decide) (by omega)
  apply nearestQuotient_eq_zero
  calc 2 * (d * oneWeight) = d * (2 * oneWeight) := by ring
    _ < 10 ^ length * 10 ^ k := Nat.mul_lt_mul_of_lt_of_le h hunit (Nat.pow_pos (by decide))
    _ = 10 ^ (length + k) := (Nat.pow_add 10 length k).symm

/-- Digits with a power of ten, at most a hundred together, become the nearest double. -/
theorem weighs_ofScientific_natAbs {e : Int} (hd : 0 < d) (hfirst : -2048 ≤ e + d.log2)
    (hsmall : e.toNat ≤ 2 + (-e).toNat)
    (h : d * 10 ^ e.toNat ≤ 100 * 10 ^ (-e).toNat) :
    Weighs (Float.ofScientific d (decide (e < 0)) e.natAbs)
      (nearestQuotient (d * 10 ^ e.toNat * oneWeight) (10 ^ (-e).toNat)) := by
  by_cases hneg : e < 0
  · have hwhole : e.toNat = 0 := by omega
    have habs : e.natAbs = (-e).toNat := by omega
    rw [hwhole, pow_zero, Nat.mul_one] at h ⊢
    rw [decide_eq_true hneg, habs]
    exact weighs_ofScientific hd (by omega) (by omega) h
  · have hpart : (-e).toNat = 0 := by omega
    have habs : e.natAbs = e.toNat := by omega
    rw [hpart, pow_zero, Nat.mul_one] at h
    rw [decide_eq_false hneg, habs, hpart, pow_zero]
    have hd' : d ≤ 100 := (Nat.le_mul_of_pos_right d (Nat.pow_pos (by decide))).trans h
    exact weighs_ofScientific_whole d hd' e.toNat (by omega) h

theorem weighs_nearest_div {e : Int} (h : d * 10 ^ e.toNat ≤ 100 * 10 ^ (-e).toNat) :
    Weighs (nearest d e) (nearestQuotient (d * 10 ^ e.toNat * oneWeight) (10 ^ (-e).toNat)) := by
  rcases Nat.eq_zero_or_pos d with rfl | hd
  · have hzero : nearest 0 e = 0 := by
      rw [nearest]
      exact if_pos (.inl rfl)
    rw [hzero, Nat.zero_mul, Nat.zero_mul, nearestQuotient_eq_zero (Nat.pow_pos (by decide))]
    exact weighs_zero
  obtain ⟨hleast, hgreatest⟩ := natText_bounds hd
  have hdigits : Nat.toDigits 10 d = natText d := rfl
  simp only [nearest, hdigits]
  generalize (natText d).length = length at *
  split
  · next hsmall =>
    have hfirst : e + length < -330 := hsmall.resolve_left (Nat.ne_of_gt hd)
    have hwhole : e.toNat = 0 := by omega
    rw [hwhole, pow_zero, Nat.mul_one, nearestQuotient_digits_eq_zero hgreatest (by omega)]
    exact weighs_zero
  · next hsmall =>
    have hfirst : ¬ e + length < -330 := fun h => hsmall (.inr h)
    have hplaces : length - 1 + e.toNat ≤ 2 + (-e).toNat := by
      rw [← Nat.pow_le_pow_iff_right (a := 10) (by decide), Nat.pow_add, Nat.pow_add]
      exact (Nat.mul_le_mul_right _ hleast).trans h
    have hlog : length - 1 ≤ d.log2 :=
      le_log2 ((Nat.pow_le_pow_left (by decide) _).trans hleast)
    rw [if_neg (by omega)]
    exact weighs_ofScientific_natAbs hd (by omega) (by omega) h

theorem weighs_nearest {e : Int} (h : (d : ℚ) * 10 ^ e ≤ 100) :
    Weighs (nearest d e) (nearestWeight (d * 10 ^ e)) := by
  have hvalue : (d : ℚ) * 10 ^ e = (d * 10 ^ e.toNat : Nat) / (10 ^ (-e).toNat : Nat) := by
    have hten : (10 : ℚ) ≠ 0 := by norm_num
    have hsplit : e = (e.toNat : ℤ) - ((-e).toNat : ℤ) := by omega
    conv_lhs => rw [hsplit, zpow_sub₀ hten, zpow_natCast, zpow_natCast]
    push_cast
    ring
  have hpower : 0 < 10 ^ (-e).toNat := Nat.pow_pos (by decide)
  rw [hvalue] at h ⊢
  rw [nearestWeight_div _ hpower]
  apply weighs_nearest_div
  rw [div_le_iff₀ (by exact_mod_cast hpower)] at h
  exact_mod_cast h

end CaptureAudit.Decimal
