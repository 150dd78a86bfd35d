import CaptureAudit.Proofs.ExceptSteps
import CaptureAudit.Proofs.Weights
import CaptureAudit.Tunable

/-! Numbers that are set are finite. A percentage is not above one hundred and becomes a number from
zero to one. -/

namespace CaptureAudit

namespace Decimal

variable {x : Float} {w : Nat}

theorem weighs_hundred : Weighs 100 (100 * oneWeight) := by decide +kernel

/-- Hundredths of a number that is not above a hundred. -/
theorem Weighs.div_hundred (hx : Weighs x w) (h : w ≤ 100 * oneWeight) :
    Weighs (x / 100) (nearestQuotient w 100) ∧ nearestQuotient w 100 ≤ oneWeight := by
  have hpos : 0 < 100 * oneWeight := Nat.mul_pos (by decide) oneWeight_pos
  have hscale : nearestQuotient (w * oneWeight) (100 * oneWeight) = nearestQuotient w 100 :=
    nearestQuotient_mul_mul (by decide) oneWeight_pos
  have hone : nearestQuotient w 100 ≤ oneWeight :=
    calc nearestQuotient w 100 ≤ nearestQuotient oneWeight 1 :=
          nearestQuotient_mono (by decide) (by decide) (by omega)
      _ = oneWeight := by decide +kernel
  have hbound : oneWeight < 2 ^ 1024 * oneWeight := by decide +kernel
  have hdiv := hx.div weighs_hundred hpos (by
    rw [hscale]
    exact Nat.lt_of_le_of_lt hone hbound)
  exact ⟨hscale ▸ hdiv, hone⟩

end Decimal

namespace Tunable

open Decimal

variable {key whole text : String} {x : Float}

theorem isFinite_of_readNumber (h : readNumber key whole text = .ok x) : x.isFinite = true := by
  unfold readNumber at h
  split at h
  · exact absurd h (by simp)
  · split at h
    · next hx => exact Except.ok.inj h ▸ hx
    · exact absurd h (by simp)

theorem exists_weighs_of_accept (h : accept .percentage key text = .ok x) :
    ∃ w ≤ oneWeight, Weighs x w := by
  obtain ⟨y, hread, h⟩ := exists_of_bind_ok h
  by_cases hneg : y < 0
  · exact absurd h (by simp [hneg])
  by_cases hlarge : 100 < y
  · exact absurd h (by simp [hneg, hlarge])
  obtain ⟨w, hy⟩ := exists_weighs (isFinite_of_readNumber hread) hneg
  have hvalue : (if 1 < y then y / 100 else y) = x := by simpa [hneg, hlarge] using h
  by_cases hover : 1 < y
  · rw [weighs_hundred.lt_iff hy] at hlarge
    obtain ⟨hdiv, hone⟩ := hy.div_hundred (Nat.le_of_not_lt hlarge)
    rw [if_pos hover] at hvalue
    exact ⟨_, hone, hvalue ▸ hdiv⟩
  · rw [if_neg hover] at hvalue
    rw [weighs_one.lt_iff hy] at hover
    exact ⟨w, Nat.le_of_not_lt hover, hvalue ▸ hy⟩

/-- Only finite numbers are accepted. -/
theorem isFinite_of_accept {unit : Measure} (h : accept unit key text = .ok x) :
    x.isFinite = true := by
  cases unit with
  | int => exact isFinite_of_readNumber h
  | uint =>
    obtain ⟨y, hread, h⟩ := exists_of_bind_ok h
    split at h
    · exact absurd h (by simp)
    · exact Except.ok.inj h ▸ isFinite_of_readNumber hread
  | percentage =>
    obtain ⟨w, -, hx⟩ := exists_weighs_of_accept h
    exact hx.isFinite

end Tunable

end CaptureAudit
