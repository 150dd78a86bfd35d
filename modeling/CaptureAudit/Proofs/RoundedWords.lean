import CaptureAudit.Proofs.Weights

/-! 64-bit numbers as doubles. Each becomes the nearest number of 53 bits, and a quotient of two is
above one exactly when these are in that order: a quotient of different doubles is never so close to
one that rounding would lose it. -/

namespace CaptureAudit.Decimal

open Float.Model Float.Model.UnpackedFloat

/-- A whole number as a double: the nearest number of at most 53 bits. -/
def nearestDouble (n : Nat) : Nat := roundRatio .even n (2 ^ (n.log2 - 52)) * 2 ^ (n.log2 - 52)

theorem nearestDouble_eq (n : Nat) : nearestDouble n = nearestQuotient n 1 := by
  rw [nearestDouble, nearestQuotient, Nat.div_one, Nat.one_mul]

theorem nearestDouble_of_le {n : Nat} (h : n ≤ 2 ^ 53) : nearestDouble n = n := by
  rcases Nat.eq_or_lt_of_le h with rfl | hlt
  · decide +kernel
  · have hexact := nearestQuotient_mul hlt Nat.one_pos
    rwa [Nat.mul_one, ← nearestDouble_eq] at hexact

theorem nearestDouble_mono {n m : Nat} (h : n ≤ m) : nearestDouble n ≤ nearestDouble m := by
  rw [nearestDouble_eq, nearestDouble_eq]
  exact nearestQuotient_mono Nat.one_pos Nat.one_pos (by omega)

/-- A short number is shifted to 53 bits before it is rounded. -/
theorem hasWeight_normalize (n : Nat) :
    HasWeight (UnpackedFloat.normalize .binary64 (n : Int) 0 .positive)
      (nearestDouble n * oneWeight) := by
  rcases Nat.eq_zero_or_pos n with rfl | hn
  · have hzero : nearestDouble 0 = 0 := by decide
    rw [hzero, Nat.zero_mul]
    rfl
  · obtain ⟨s, hs⟩ : ∃ s : Nat, s = 52 - n.log2 := ⟨_, rfl⟩
    have hsign : compare (n : Int) 0 = .gt := Int.compare_eq_gt.mpr (by omega)
    have htarget : (-Format.binary64.targetExponent (totalExponent n 0)).toNat = s := by
      rw [targetExponent_binary64, totalExponent]
      omega
    have hround := hasWeight_roundWithAccuracy (n * 2 ^ s) (-s) Nat.one_pos
      fun _ => le_log2 (by rw [Nat.div_one]; exact two_pow_le_mul hn (by omega))
    have hleft : (-(s : Int) + 1074).toNat = 1074 - s := by omega
    have hright : (-1074 - -(s : Int)).toNat = 0 := by omega
    have hsum : s + (1074 - s) = 1074 := by omega
    have hone : 2 ^ s * 2 ^ (1074 - s) = oneWeight := by
      unfold oneWeight
      exact (Nat.pow_add 2 s _).symm.trans (congrArg (2 ^ ·) hsum)
    have hweight : nearestQuotient (n * oneWeight) 1 = nearestDouble n * oneWeight := by
      rw [nearestDouble_eq]
      unfold oneWeight
      exact nearestQuotient_mul_two_pow n 1074
    rw [Nat.div_one, Nat.mod_one, hleft, hright, pow_zero, Nat.mul_one,
      Nat.mul_assoc, hone, hweight] at hround
    simp only [UnpackedFloat.normalize, hsign, Int.toNat_natCast, UnpackedFloat.round,
      decreaseExponent, Int.zero_sub, htarget, Nat.shiftLeft_eq]
    exact hround

theorem weighs_toFloat (w : UInt64) : Weighs w.toFloat (nearestDouble w.toNat * oneWeight) := by
  have hmodel : w.toFloat.toModel = Float.Model.pack (UnpackedFloat.ofUInt64 .binary64 w) := rfl
  have hword : UnpackedFloat.ofUInt64 .binary64 w =
      UnpackedFloat.normalize .binary64 (w.toNat : Int) 0 .positive := rfl
  have hbound : nearestDouble w.toNat * oneWeight < 2 ^ 1024 * oneWeight := by
    refine Nat.mul_lt_mul_of_pos_right ?_ oneWeight_pos
    calc nearestDouble w.toNat ≤ nearestDouble (2 ^ 64) := nearestDouble_mono w.toNat_lt.le
      _ < 2 ^ 1024 := by decide +kernel
  rw [Weighs, hmodel, hword]
  exact hasWeight_unpack_pack (hasWeight_normalize w.toNat) hbound

theorem nearestDouble_pos {n : Nat} (hn : 0 < n) : 0 < nearestDouble n :=
  calc 0 < nearestDouble 1 := by decide
    _ ≤ nearestDouble n := nearestDouble_mono hn

theorem zero_lt_toFloat {w : UInt64} (hw : 0 < w.toNat) : 0 < w.toFloat := by
  rw [weighs_zero.lt_iff (weighs_toFloat w)]
  exact Nat.mul_pos (nearestDouble_pos hw) oneWeight_pos

theorem one_lt_div_toFloat_iff {used limit : UInt64} (hlimit : 0 < limit.toNat) :
    1 < used.toFloat / limit.toFloat ↔ nearestDouble limit.toNat < nearestDouble used.toNat := by
  have hx := weighs_toFloat used
  have hy := weighs_toFloat limit
  have hpos := nearestDouble_pos hlimit
  have hb : 0 < nearestDouble limit.toNat * oneWeight := Nat.mul_pos hpos oneWeight_pos
  have hbound : nearestQuotient (nearestDouble used.toNat * oneWeight * oneWeight)
      (nearestDouble limit.toNat * oneWeight) < 2 ^ 1024 * oneWeight := by
    have hused : nearestDouble used.toNat ≤ nearestDouble (2 ^ 64) :=
      nearestDouble_mono used.toNat_lt.le
    calc _ ≤ nearestQuotient (nearestDouble (2 ^ 64) * oneWeight) 1 :=
          nearestQuotient_mono hb Nat.one_pos ?_
      _ < 2 ^ 1024 * oneWeight := by decide +kernel
    rw [Nat.mul_one]
    exact Nat.mul_le_mul (Nat.mul_le_mul_right _ hused) (Nat.le_mul_of_pos_left _ hpos)
  rw [hx.one_lt_div_iff hy hb hbound, hy.lt_iff hx, Nat.mul_lt_mul_right oneWeight_pos]

end CaptureAudit.Decimal
