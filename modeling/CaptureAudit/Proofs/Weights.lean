import CaptureAudit.Proofs.NearestQuotients

/-! Doubles by weight. The doubles from zero up are ordered as their weights in units of the
smallest one are, and a quotient of two weighs the nearest to the quotient of their weights. -/

namespace CaptureAudit.Decimal

open Float.Model Float.Model.UnpackedFloat

variable {x y : Float} {a b : Nat}

/-- The weight of one. -/
@[irreducible] def oneWeight : Nat := 2 ^ 1074

theorem oneWeight_pos : 0 < oneWeight := by decide +kernel

theorem weight_zero (m : Nat) : weight m 0 = m * oneWeight := by
  have hexponent : ((0 : Int) + 1074).toNat = 1074 := rfl
  unfold weight oneWeight
  rw [hexponent]

theorem two_pow_le_mul {m s k : Nat} (hm : 0 < m) (h : k ≤ m.log2 + s) : 2 ^ k ≤ m * 2 ^ s :=
  calc 2 ^ k ≤ 2 ^ (m.log2 + s) := Nat.pow_le_pow_right (by decide) h
    _ ≤ m * 2 ^ s := by
        rw [Nat.pow_add]
        exact Nat.mul_le_mul_right _ (Nat.log2_self_le (Nat.ne_of_gt hm))

theorem le_log2 {n k : Nat} (h : 2 ^ k ≤ n) : k ≤ n.log2 :=
  calc k = (2 ^ k).log2 := Nat.log2_two_pow.symm
    _ ≤ n.log2 := log2_le_log2 h

theorem log2_le_div {m n s : Nat} (hn : 0 < n) (h : n.log2 + 53 ≤ m.log2 + s) (hm : 0 < m) :
    52 ≤ (m * 2 ^ s / n).log2 := by
  apply le_log2
  rw [Nat.le_div_iff_mul_le hn]
  calc 2 ^ 52 * n ≤ 2 ^ 52 * 2 ^ (n.log2 + 1) :=
        Nat.mul_le_mul_left _ (Nat.le_of_lt Nat.lt_log2_self)
    _ = 2 ^ (n.log2 + 53) := by rw [← Nat.pow_add]; congr 1; omega
    _ ≤ m * 2 ^ s := two_pow_le_mul hm h

theorem two_pow_mul_congr {i j k i' k' : Nat} (h : i + j + k = i' + 1074 + k') :
    2 ^ i * 2 ^ j * 2 ^ k = 2 ^ i' * oneWeight * 2 ^ k' := by
  unfold oneWeight
  rw [← Nat.pow_add, ← Nat.pow_add, ← Nat.pow_add, ← Nat.pow_add, h]

theorem hasWeight_div_finite {m n : Nat} {e f : Int} (hm : 0 < m) (hn : 0 < n) (he : -1074 ≤ e)
    (hf : -1074 ≤ f) :
    HasWeight (UnpackedFloat.div .binary64 (.finite .positive m e hm) (.finite .positive n f hn))
      (nearestQuotient (weight m e * oneWeight) (weight n f)) := by
  obtain ⟨t, ht⟩ : ∃ t, t = min (e - f) (Format.binary64.targetExponent
      (totalExponent m e - totalExponent n f)) := ⟨_, rfl⟩
  obtain ⟨s, hs⟩ : ∃ s : Nat, s = (e - f - t).toNat := ⟨_, rfl⟩
  have hcore : divCore .binary64 m e n f =
      (m * 2 ^ s / n, t, accuracyOfFraction (m * 2 ^ s % n) n) := by
    simp only [divCore, ← ht, ← hs, Nat.shiftLeft_eq]
  rw [targetExponent_binary64, totalExponent, totalExponent] at ht
  have hround := hasWeight_roundWithAccuracy (m * 2 ^ s) t hn
    fun hleast => log2_le_div hn (by omega) hm
  have hscale : nearestQuotient (m * 2 ^ s * 2 ^ (t + 1074).toNat) (n * 2 ^ (-1074 - t).toNat) =
      nearestQuotient (weight m e * oneWeight) (weight n f) := by
    refine nearestQuotient_congr (by positivity) (Nat.mul_pos hn (Nat.two_pow_pos _)) ?_
    have hpow : 2 ^ s * 2 ^ (t + 1074).toNat * 2 ^ (f + 1074).toNat =
        2 ^ (e + 1074).toNat * oneWeight * 2 ^ (-1074 - t).toNat :=
      two_pow_mul_congr (by omega)
    rw [weight, weight]
    calc m * 2 ^ s * 2 ^ (t + 1074).toNat * (n * 2 ^ (f + 1074).toNat)
        = m * n * (2 ^ s * 2 ^ (t + 1074).toNat * 2 ^ (f + 1074).toNat) := by ring
      _ = m * n * (2 ^ (e + 1074).toNat * oneWeight * 2 ^ (-1074 - t).toNat) := by rw [hpow]
      _ = m * 2 ^ (e + 1074).toNat * oneWeight * (n * 2 ^ (-1074 - t).toNat) := by ring
  rw [UnpackedFloat.div, hcore, ← hscale]
  exact hround

theorem hasWeight_div {u v : Float.Model.UnpackedFloat} (hu : HasWeight u a) (hv : HasWeight v b)
    (hb : 0 < b) :
    HasWeight (UnpackedFloat.div .binary64 u v) (nearestQuotient (a * oneWeight) b) := by
  rcases hv.cases with ⟨s, -, rfl⟩ | ⟨n, f, hn, rfl, hcanonical', rfl⟩
  · exact absurd hb (Nat.lt_irrefl 0)
  · rcases hu.cases with ⟨s, rfl, rfl⟩ | ⟨m, e, hm, rfl, hcanonical, rfl⟩
    · have hzero := nearestQuotient_mul (n := 0) (by decide) hb
      rw [Nat.zero_mul] at hzero ⊢
      exact hzero
    · exact hasWeight_div_finite hm hn hcanonical.2.1 hcanonical'.2.1

theorem unpackSign_packComponents (spec : Float.Model.Format) (s : Sign)
    (e : BitVec spec.exponentBits) (m : BitVec spec.mantissaBitsWithoutImplicit) :
    unpackSign (packComponents spec s e m) = s.toBitVec := by
  ext i hi
  have hsign : i = 0 := Nat.lt_one_iff.mp hi
  simp [hsign, unpackSign, packComponents, BitVec.getLsbD_append, BitVec.getElem_append]

theorem toNat_implicit_append (v : BitVec 52) : (1#1 ++ v).toNat = 2 ^ 52 + v.toNat := by
  rw [BitVec.toNat_append, ← Nat.shiftLeft_add_eq_or_of_lt v.isLt]
  rfl

theorem exponentBias_binary64 : (Format.binary64.exponentBias : Int) = 1023 := by decide

/-- An exponent field that is not zero stands for a mantissa with all its bits. -/
theorem unpack_packComponents_normal {m biased : Nat} (hm : 0 < m) (hfull : 2 ^ 52 ≤ m)
    (hsmall : m < 2 ^ 53) (hleast : 0 < biased) (hmost : biased < 2047) :
    UnpackedFloat.unpack .binary64 (packComponents .binary64 .positive (BitVec.ofNat 11 biased)
      (BitVec.ofNat 52 m)) = .finite .positive m (biased - 1075) hm := by
  have hexponent : (BitVec.ofNat 11 biased).toNat = biased := by
    rw [BitVec.toNat_ofNat]
    omega
  have hones : BitVec.ofNat 11 biased ≠ -1#11 := by
    intro h
    have hnat : (BitVec.ofNat 11 biased).toNat = 2047 := congrArg BitVec.toNat h
    omega
  have hzero : BitVec.ofNat 11 biased ≠ 0#11 := by
    intro h
    have hnat : (BitVec.ofNat 11 biased).toNat = 0 := congrArg BitVec.toNat h
    omega
  have hmantissa : (1#1 ++ BitVec.ofNat 52 m).toNat = m := by
    rw [toNat_implicit_append, BitVec.toNat_ofNat]
    omega
  simp only [UnpackedFloat.unpack, unpackExponent_packComponents, unpackMantissa_packComponents,
    unpackSign_packComponents, if_neg hones, if_neg hzero, hexponent, hmantissa,
    exponentBias_binary64]
  rfl

/-- Without all its bits the mantissa is stored beside an exponent field of zero. -/
theorem unpack_packComponents_subnormal {m : Nat} (hm : 0 < m) (hsmall : m < 2 ^ 52) :
    UnpackedFloat.unpack .binary64 (packComponents .binary64 .positive 0#11 (BitVec.ofNat 52 m)) =
      .finite .positive m (-1074) hm := by
  have hmantissa : (BitVec.ofNat 52 m).toNat = m := by
    rw [BitVec.toNat_ofNat]
    omega
  have hnonzero : BitVec.ofNat 52 m ≠ 0#52 := by
    intro h
    have hnat : (BitVec.ofNat 52 m).toNat = 0 := congrArg BitVec.toNat h
    omega
  simp only [UnpackedFloat.unpack, unpackExponent_packComponents, unpackMantissa_packComponents,
    unpackSign_packComponents, hmantissa, exponentBias_binary64]
  rw [if_neg (by decide), if_pos trivial, dif_neg hnonzero]
  rfl

theorem unpack_pack_finite {m : Nat} {e : Int} (h : Canonical m e) (he : e ≤ 971) (hm : 0 < m) :
    (Float.Model.pack (.finite .positive m e hm)).unpack = .finite .positive m e hm := by
  obtain ⟨hsmall, hleast, hfull⟩ := h
  have hbias := exponentBias_binary64
  change UnpackedFloat.unpack .binary64 (UnpackedFloat.pack .binary64 _) = _
  simp only [UnpackedFloat.pack]
  generalize hbiased : (e + Format.binary64.exponentBias + ((52 : Nat) : Int)).toNat = biased
  rw [if_neg (by omega)]
  by_cases hnormal : 2 ^ 52 ≤ m
  · have hbits : m.log2 + 1 = Format.binary64.mantissaBits := by
      rw [(Nat.log2_eq_iff (Nat.ne_of_gt hm)).mpr ⟨hnormal, hsmall⟩]
      rfl
    have hexponent : (biased : Int) - 1075 = e := by omega
    rw [if_pos hbits, unpack_packComponents_normal hm hnormal hsmall (by omega) (by omega)]
    congr 1
  · obtain rfl : e = -1074 := by omega
    have hlog := log2_lt_of_lt (k := 52) (Nat.lt_of_not_le hnormal) (by decide)
    have hbits : m.log2 + 1 ≠ Format.binary64.mantissaBits := by
      have hcount : Format.binary64.mantissaBits = 53 := rfl
      omega
    rw [if_neg hbits]
    exact unpack_packComponents_subnormal hm (Nat.lt_of_not_le hnormal)

/-- A double from zero up of this weight; the sign of zero does not count. -/
def Weighs (x : Float) (w : Nat) : Prop := HasWeight x.toModel.unpack w

/-- Rounded numbers are stored unless they are too large. -/
theorem hasWeight_unpack_pack {u : Float.Model.UnpackedFloat} {w : Nat} (h : HasWeight u w)
    (hw : w < 2 ^ 1024 * oneWeight) : HasWeight (Float.Model.pack u).unpack w := by
  rcases h.cases with ⟨s, rfl, rfl⟩ | ⟨m, e, hm, rfl, hcanonical, rfl⟩
  · cases s <;> rfl
  · have he : e ≤ 971 := by
      by_contra hlt
      have hfull := hcanonical.2.2 (by omega)
      have hlarge : 2046 ≤ (e + 1074).toNat := by omega
      refine Nat.not_le.mpr hw ?_
      calc 2 ^ 1024 * oneWeight = 2 ^ 52 * 2 ^ 2046 := by decide +kernel
        _ ≤ weight m e := Nat.mul_le_mul hfull (Nat.pow_le_pow_right Nat.two_pos hlarge)
    rw [unpack_pack_finite hcanonical he]
    exact h

theorem canonical_of_unpack {b : BitVec Format.binary64.numBits} {s : Sign} {m : Nat} {e : Int}
    {hm : 0 < m} (h : UnpackedFloat.unpack .binary64 b = .finite s m e hm) : Canonical m e := by
  have hbias := exponentBias_binary64
  have hsmall : (unpackMantissa b).toNat < 2 ^ 52 := (unpackMantissa b).isLt
  have hlarge : (1#1 ++ unpackMantissa b).toNat = 2 ^ 52 + (unpackMantissa b).toNat :=
    toNat_implicit_append (unpackMantissa b)
  simp only [UnpackedFloat.unpack] at h
  split at h
  · split at h <;> exact absurd h (by simp)
  · split at h
    · next hzero =>
      split at h
      · exact absurd h (by simp)
      · obtain ⟨-, rfl, rfl⟩ := UnpackedFloat.finite.inj h
        simp only [hzero, hbias]
        exact ⟨by omega, by decide, fun h => absurd h (by decide)⟩
    · next hzero =>
      obtain ⟨-, rfl, rfl⟩ := UnpackedFloat.finite.inj h
      have hpos : 0 < (unpackExponent b).toNat := by
        rw [Nat.pos_iff_ne_zero]
        exact fun h => hzero (BitVec.eq_of_toNat_eq h)
      have hplaces : Format.binary64.mantissaBitsWithoutImplicit = 52 := rfl
      exact ⟨by omega, by omega, fun _ => by omega⟩

theorem lt_iff_compare : x < y ↔ x.toModel.unpack.compare y.toModel.unpack = some .lt := by
  have hdecide : x < y ↔ x.toModel < y.toModel := decide_eq_true_iff
  have hmodel : x.toModel < y.toModel ↔
      (x.toModel.unpack.compare y.toModel.unpack == some .lt) = true := Iff.rfl
  rw [hdecide, hmodel, beq_iff_eq]

theorem le_iff_compare :
    x ≤ y ↔ ∃ o, x.toModel.unpack.compare y.toModel.unpack = some o ∧ o.isLE = true := by
  have hdecide : x ≤ y ↔ x.toModel ≤ y.toModel := decide_eq_true_iff
  have hmodel : x.toModel ≤ y.toModel ↔
      (x.toModel.unpack.compare y.toModel.unpack).any (·.isLE) = true := Iff.rfl
  rw [hdecide, hmodel]
  cases x.toModel.unpack.compare y.toModel.unpack <;> simp

theorem compare_weights {u v : Float.Model.UnpackedFloat} (hu : HasWeight u a)
    (hv : HasWeight v b) : u.compare v = some (compare a b) := by
  have hpos : ∀ {m e}, 0 < m → 0 < weight m e := fun hm => Nat.mul_pos hm (Nat.two_pow_pos _)
  rcases hu.cases with ⟨s, rfl, rfl⟩ | ⟨m, e, hm, rfl, hcanonical, rfl⟩ <;>
    rcases hv.cases with ⟨s', rfl, rfl⟩ | ⟨m', e', hm', rfl, hcanonical', rfl⟩
  · rfl
  · exact congrArg some (Nat.compare_eq_lt.mpr (hpos hm')).symm
  · exact congrArg some (Nat.compare_eq_gt.mpr (hpos hm)).symm
  · have hlt := weight_lt_iff hcanonical hcanonical'
    have hgt := weight_lt_iff hcanonical' hcanonical
    refine congrArg some ?_
    cases hcompare : (compare e e').then (compare m m') with
    | lt =>
      rw [Ordering.then_eq_lt, Int.compare_eq_lt, Int.compare_eq_eq, Nat.compare_eq_lt] at hcompare
      exact (Nat.compare_eq_lt.mpr (hlt.mpr hcompare)).symm
    | eq =>
      rw [Ordering.then_eq_eq, Int.compare_eq_eq, Nat.compare_eq_eq] at hcompare
      obtain ⟨rfl, rfl⟩ := hcompare
      exact (Nat.compare_eq_eq.mpr rfl).symm
    | gt =>
      rw [Ordering.then_eq_gt, Int.compare_eq_gt, Int.compare_eq_eq, Nat.compare_eq_gt] at hcompare
      exact (Nat.compare_eq_gt.mpr (hgt.mpr (by omega))).symm

theorem exists_weighs (hx : x.isFinite = true) (h : ¬ x < 0) : ∃ w, Weighs x w := by
  have hzero : (0 : Float).toModel.unpack = .zero .positive := by rfl
  have hfinite : x.toModel.unpack.isFinite = true := hx
  rw [lt_iff_compare, hzero] at h
  simp only [Weighs]
  cases hunpack : x.toModel.unpack with
  | notANumber => exact absurd hfinite (by simp [hunpack, UnpackedFloat.isFinite])
  | infinity s => exact absurd hfinite (by simp [hunpack, UnpackedFloat.isFinite])
  | zero s => exact ⟨0, rfl⟩
  | finite s m e hm => cases s with
    | negative => exact absurd (by rw [hunpack]; rfl) h
    | positive => exact ⟨weight m e, canonical_of_unpack hunpack, rfl⟩

instance (x : Float) (w : Nat) : Decidable (Weighs x w) :=
  inferInstanceAs (Decidable (HasWeight _ _))

theorem weighs_zero : Weighs 0 0 := by decide +kernel

theorem weighs_one : Weighs 1 oneWeight := by decide +kernel

/-- The greater of two doubles exceeds the other by at least one in 53 bits. -/
theorem weight_gap {u v : Float.Model.UnpackedFloat} (hu : HasWeight u a) (hv : HasWeight v b)
    (h : b < a) : 2 ^ 53 * b ≤ a * (2 ^ 53 - 1) := by
  rcases hv.cases with ⟨s, rfl, rfl⟩ | ⟨n, f, hn, rfl, hcanonical', rfl⟩
  · exact Nat.zero_le _
  · rcases hu.cases with ⟨s, rfl, rfl⟩ | ⟨m, e, hm, rfl, hcanonical, rfl⟩
    · exact absurd h (Nat.not_lt_zero _)
    · have horder := (weight_lt_iff hcanonical' hcanonical).mp h
      obtain ⟨hsmall, hleast, hfull⟩ := hcanonical
      obtain ⟨hsmall', hleast', hfull'⟩ := hcanonical'
      obtain ⟨k, rfl⟩ : ∃ k : Nat, e = f + k := ⟨(e - f).toNat, by omega⟩
      rw [weight_add hleast', weight, weight, ← Nat.mul_assoc, Nat.mul_right_comm _ _ (2 ^ 53 - 1)]
      refine Nat.mul_le_mul_right _ ?_
      rcases Nat.eq_zero_or_pos k with rfl | hk
      · omega
      · have hpow : 2 ≤ 2 ^ k := Nat.le_self_pow (Nat.ne_of_gt hk) 2
        have hmantissa : m * 2 ≤ m * 2 ^ k := Nat.mul_le_mul_left m hpow
        have hlarge := hfull (by omega)
        omega

namespace Weighs

theorem isFinite (hx : Weighs x a) : x.isFinite = true := by
  rw [Float.isFinite, Float.Model.isFinite]
  rcases HasWeight.cases hx with ⟨s, hunpack, -⟩ | ⟨m, e, hm, hunpack, -⟩ <;>
    rw [hunpack] <;> rfl

theorem lt_iff (hx : Weighs x a) (hy : Weighs y b) : x < y ↔ a < b := by
  rw [lt_iff_compare, compare_weights hx hy, Option.some.injEq, Nat.compare_eq_lt]

theorem le_iff (hx : Weighs x a) (hy : Weighs y b) : x ≤ y ↔ a ≤ b := by
  simp only [le_iff_compare, compare_weights hx hy, Option.some.injEq, exists_eq_left',
    Nat.isLE_compare]

theorem div (hx : Weighs x a) (hy : Weighs y b) (hb : 0 < b)
    (hbound : nearestQuotient (a * oneWeight) b < 2 ^ 1024 * oneWeight) :
    Weighs (x / y) (nearestQuotient (a * oneWeight) b) := by
  have hmodel : (x / y).toModel =
      Float.Model.pack (UnpackedFloat.div .binary64 x.toModel.unpack y.toModel.unpack) := rfl
  rw [Weighs, hmodel]
  exact hasWeight_unpack_pack (hasWeight_div hx hy hb) hbound

/-- Different doubles are not so close that rounding would make their quotient one. -/
theorem one_lt_div_iff (hx : Weighs x a) (hy : Weighs y b) (hb : 0 < b)
    (hbound : nearestQuotient (a * oneWeight) b < 2 ^ 1024 * oneWeight) : 1 < x / y ↔ y < x := by
  rw [weighs_one.lt_iff (hx.div hy hb hbound), hy.lt_iff hx]
  constructor
  · intro hlt
    by_contra hle
    have hmono : nearestQuotient (a * oneWeight) b ≤ nearestQuotient oneWeight 1 :=
      nearestQuotient_mono hb Nat.one_pos (by
        rw [Nat.mul_one, Nat.mul_comm oneWeight]
        exact Nat.mul_le_mul_right _ (Nat.le_of_not_lt hle))
    have hone : nearestQuotient oneWeight 1 = oneWeight := by decide +kernel
    exact absurd hlt (Nat.not_lt.mpr (hmono.trans hone.le))
  · intro hlt
    calc oneWeight < nearestQuotient (2 ^ 53 * oneWeight) (2 ^ 53 - 1) := by decide +kernel
      _ ≤ nearestQuotient (a * oneWeight) b :=
          nearestQuotient_mono (by decide) hb (by
            rw [Nat.mul_right_comm, Nat.mul_right_comm a]
            exact Nat.mul_le_mul_right _ (weight_gap hx hy hlt))

end Weighs

end CaptureAudit.Decimal
