import CaptureAudit.Proofs.NumberToken

/-! The parts of the text of a number in a document. The digits of a value that is not zero are
never all zeros, so the text is a number whichever form it takes. -/

namespace CaptureAudit

namespace Decimal

theorem Interval.not_holds_zero {i : Interval} (h : 0 < i.low.mantissa) (k : Int) :
    i.holds 0 k = false := by
  have hpos : 0 < i.low.mantissa * Nat.pow 2 i.low.exponent.toNat * Nat.pow 10 (-k).toNat :=
    Nat.mul_pos (Nat.mul_pos h (Nat.pow_pos (by decide))) (Nat.pow_pos (by decide))
  have hlow : compareTo 0 k i.low = .lt := by
    simp only [compareTo, Nat.zero_mul]
    exact Nat.compare_eq_lt.mpr hpos
  simp [holds, hlow]

theorem le_roundRatio (tie : Tie) (num den : Nat) : num / den ≤ roundRatio tie num den := by
  simp only [roundRatio]
  split
  · exact Nat.le_refl _
  · exact Nat.le_succ _
  · split
    · exact Nat.le_add_right _ _
    · exact Nat.le_succ _

theorem Dyadic.onGrid?_ne_zero {d : Dyadic} {tie : Tie} {k : Int} {c : Nat}
    (hm : d.mantissa ≠ 0) (h : d.onGrid? tie k = some c) : c ≠ 0 := by
  have hlow : 0 < d.interval.low.mantissa := by
    simp only [interval]
    split <;> omega
  have hzero := Interval.not_holds_zero hlow k
  simp only [onGrid?] at h
  split at h
  · next hc _ =>
    have hq : (d.ratio (-k)).1 / (d.ratio (-k)).2 ≠ 0 := fun he => by simp [he, hzero] at hc
    have hle := le_roundRatio tie (d.ratio (-k)).1 (d.ratio (-k)).2
    obtain rfl := Option.some.inj h
    exact fun h0 => hq (Nat.eq_zero_of_le_zero (h0 ▸ hle))
  · next hc _ =>
    obtain rfl := Option.some.inj h
    exact fun he => by simp [he, hzero] at hc
  · obtain rfl := Option.some.inj h
    exact Nat.succ_ne_zero _
  · exact absurd h (by simp)

/-- No zeros follow digits that are zero. -/
def Digits.Proper (d : Digits) : Prop := d.digits = 0 → d.exponent = 0

theorem Digits.Proper.trim {d : Digits} (h : d.Proper) (n : Nat) : (d.trim n).Proper := by
  induction n generalizing d with
  | zero => exact h
  | succ n ih =>
    simp only [Digits.trim]
    split
    · next hd => exact ih fun h0 : d.digits / 10 = 0 => by omega
    · exact h

theorem Dyadic.proper_shortest {d : Dyadic} (hm : d.mantissa ≠ 0) (tie : Tie) :
    (d.shortest tie).Proper := by
  refine Digits.Proper.trim ?_ 18
  cases hf : (List.range 17).findSome? fun (n : Nat) =>
      (d.onGrid? tie (d.magnitude - n)).map fun c => (⟨c, d.magnitude - n⟩ : Digits) with
  | none => exact fun _ => rfl
  | some found =>
    obtain ⟨n, _, hn⟩ := List.exists_of_findSome?_eq_some hf
    obtain ⟨c, hc, rfl⟩ := Option.map_eq_some_iff.mp hn
    exact fun h0 => absurd h0 (onGrid?_ne_zero hm hc)

end Decimal

namespace Json

open Decimal

/-- The parts of digits with a point after the digit of exponent zero. -/
def plainNumeral (negative : Bool) (d : Digits) : Numeral :=
  let ds := natText d.digits
  if 0 ≤ d.exponent then ⟨negative, ds ++ List.replicate d.exponent.toNat '0', ['0'], none⟩
  else
    let places := (-d.exponent).toNat
    if ds.length ≤ places then
      ⟨negative, ['0'], List.replicate (places - ds.length) '0' ++ ds, none⟩
    else ⟨negative, ds.take (ds.length - places), ds.drop (ds.length - places), none⟩

/-- The parts of digits with a point after the first one. -/
def exponentNumeral (negative : Bool) (d : Digits) : Numeral :=
  let ds := natText d.digits
  ⟨negative, ds.take 1, ds.drop 1, some (d.exponent + ds.length - 1)⟩

def realNumeral (negative : Bool) (d : Decimal.Dyadic) : Numeral :=
  if d.mantissa = 0 then ⟨negative, ['0'], ['0'], none⟩
  else
    let digits := d.shortest .even
    let exponent := digits.exponent + (natText digits.digits).length - 1
    if -5 ≤ exponent ∧ exponent ≤ 15 then plainNumeral negative digits
    else exponentNumeral negative digits

/-- The parts of a number that is a number. -/
def Number.numeral : Number → Numeral
  | .whole n => ⟨n < 0, natText n.natAbs, [], none⟩
  | .real x => realNumeral (isNegative x) (.ofFloat x)

def Number.isFinite : Number → Bool
  | .whole _ => true
  | .real x => x.isFinite

theorem valid_plainNumeral (negative : Bool) {d : Digits} (hd : d.Proper) :
    (plainNumeral negative d).Valid := by
  have hz : ∀ k, ∀ c ∈ List.replicate k '0', c.isDigit = true := fun k c hc => by
    rw [List.eq_of_mem_replicate hc]
    rfl
  have hdigits : ∀ c ∈ natText d.digits, c.isDigit = true := isDigit_of_mem_natText
  simp only [plainNumeral]
  split
  · refine ⟨by simp [natText_ne_nil], ?_, by simp, ?_⟩
    · intro c hc
      exact (List.mem_append.mp hc).elim (hdigits c) (hz _ c)
    · intro h0
      have h0 : (natText d.digits).head? = some '0' := by
        simpa [List.head?_append, natText_ne_nil] using h0
      have hzero : d.digits = 0 := Nat.eq_zero_of_not_pos fun hpos => head?_natText hpos h0
      simp [hd hzero, hzero, natText_of_lt]
  · split
    · refine ⟨by simp, by simp, ?_, by simp⟩
      intro c hc
      exact (List.mem_append.mp hc).elim (hz _ c) (hdigits c)
    · refine ⟨?_, fun c hc => hdigits c (List.mem_of_mem_take hc),
        fun c hc => hdigits c (List.mem_of_mem_drop hc), ?_⟩
      · intro hnil
        rcases List.take_eq_nil_iff.mp hnil with hn | hn
        · omega
        · exact natText_ne_nil _ hn
      · intro h0
        have h0 : (natText d.digits).head? = some '0' := by
          simpa [List.head?_take, show (natText d.digits).length - (-d.exponent).toNat ≠ 0 by omega]
            using h0
        have hzero : d.digits = 0 := Nat.eq_zero_of_not_pos fun hpos => head?_natText hpos h0
        exact absurd (hd hzero) (by omega)

theorem valid_exponentNumeral (negative : Bool) (d : Digits) :
    (exponentNumeral negative d).Valid := by
  have hdigits : ∀ c ∈ natText d.digits, c.isDigit = true := isDigit_of_mem_natText
  have hlen : (natText d.digits).length ≠ 0 := by simp [natText_ne_nil]
  refine ⟨?_, fun c hc => hdigits c (List.mem_of_mem_take hc),
    fun c hc => hdigits c (List.mem_of_mem_drop hc), fun _ => ?_⟩
  · simp [exponentNumeral, natText_ne_nil]
  · simp only [exponentNumeral, List.length_take]
    omega

theorem valid_numeral (n : Number) : n.numeral.Valid := by
  cases n with
  | whole n =>
    refine ⟨natText_ne_nil _, isDigit_of_mem_natText, by simp [Number.numeral], fun h0 => ?_⟩
    have hzero : n.natAbs = 0 := Nat.eq_zero_of_not_pos fun hpos => head?_natText hpos h0
    simp [Number.numeral, hzero, natText_of_lt]
  | real x =>
    simp only [Number.numeral, realNumeral]
    split
    · exact ⟨by simp, by simp, by simp, by simp⟩
    · next hm =>
      split
      · exact valid_plainNumeral _ (Dyadic.proper_shortest hm .even)
      · exact valid_exponentNumeral _ _

theorem chars_plainNumeral (negative : Bool) (d : Digits) :
    (plainNumeral negative d).chars = (if negative then ['-'] else []) ++ plainText true d := by
  simp only [plainNumeral, plainText]
  split
  · simp [Numeral.chars, Numeral.partChars, Numeral.exponentChars]
  · next he =>
    split
    · have hne : List.replicate ((-d.exponent).toNat - (natText d.digits).length) '0' ++
          natText d.digits ≠ [] := List.append_ne_nil_of_right_ne_nil _ (natText_ne_nil _)
      cases hp : List.replicate ((-d.exponent).toNat - (natText d.digits).length) '0' ++
          natText d.digits with
      | nil => exact absurd hp hne
      | cons c cs => simp [Numeral.chars, Numeral.partChars, Numeral.exponentChars, hp]
    · cases hp : (natText d.digits).drop ((natText d.digits).length - (-d.exponent).toNat) with
      | nil =>
        have := List.drop_eq_nil_iff.mp hp
        omega
      | cons c cs => simp [Numeral.chars, Numeral.partChars, Numeral.exponentChars]

theorem chars_exponentNumeral (negative : Bool) (d : Digits) :
    (exponentNumeral negative d).chars =
      (if negative then ['-'] else []) ++ exponentText true d := by
  simp only [exponentNumeral, exponentText]
  cases hds : natText d.digits with
  | nil => exact absurd hds (natText_ne_nil _)
  | cons c cs =>
    cases cs <;> simp [Numeral.chars, Numeral.partChars, Numeral.exponentChars]

theorem magnitudeText_document (d : Decimal.Dyadic) :
    Style.document.magnitudeText d =
      if d.mantissa = 0 then ['0', '.', '0']
      else
        let digits := d.shortest .even
        let exponent := digits.exponent + (natText digits.digits).length - 1
        if -5 ≤ exponent ∧ exponent ≤ 15 then plainText true digits
        else exponentText true digits := rfl

theorem chars_realNumeral (negative : Bool) (d : Decimal.Dyadic) :
    (realNumeral negative d).chars =
      (if negative then ['-'] else []) ++ Style.document.magnitudeText d := by
  rw [magnitudeText_document, realNumeral]
  split
  · simp [Numeral.chars, Numeral.partChars, Numeral.exponentChars]
  · dsimp only
    split
    · exact chars_plainNumeral negative _
    · exact chars_exponentNumeral negative _

theorem not_nan_of_isFinite {x : Float} (h : x.isFinite = true) :
    x.isNaN = false ∧ x.isInf = false := by
  simp only [Float.isFinite, Float.isNaN, Float.isInf, Float.Model.isFinite, Float.Model.isNaN,
    Float.Model.isInf] at h ⊢
  cases hu : x.toModel.unpack with
  | notANumber | infinity =>
    rw [hu] at h
    exact absurd h Bool.false_ne_true
  | zero | finite => exact ⟨rfl, rfl⟩

/-- Whole numbers of 64 bits, with or without sign, keep their value. -/
theorem value_whole {n : Int} (hl : -0x8000000000000000 ≤ n) (hu : n < 0x10000000000000000) :
    (Number.whole n).numeral.value = some (.whole n) := by
  simp only [Number.numeral, Numeral.value, numberValue]
  have hvalue := digitsValue_natText n.natAbs
  by_cases hn : n < 0
  · have hpos : 0 < digitsValue (natText n.natAbs) ∧
        digitsValue (natText n.natAbs) ≤ 0x8000000000000000 := by omega
    have hneg : -(digitsValue (natText n.natAbs) : Int) = n := by omega
    simp [hn, hpos, hneg]
  · have hlt : digitsValue (natText n.natAbs) < 0x10000000000000000 := by omega
    have hnat : (digitsValue (natText n.natAbs) : Int) = n := by omega
    simp [hn, hlt, hnat]

theorem numberChars_eq (n : Number) :
    numberChars n = if n.isFinite then n.numeral.chars else ['n', 'u', 'l', 'l'] := by
  cases n with
  | whole n =>
    simp only [numberChars, Number.isFinite, if_true, Number.numeral, Numeral.chars, intText]
    by_cases hn : n < 0 <;> simp [hn, Numeral.partChars, Numeral.exponentChars]
  | real x =>
    by_cases hx : x.isFinite = true
    · obtain ⟨hnan, hinf⟩ := not_nan_of_isFinite hx
      have hw : (Style.document.write x).toList = (if isNegative x then ['-'] else []) ++
          Style.document.magnitudeText (.ofFloat x) := by
        simp only [Style.write, hnan, hinf, Bool.false_eq_true, if_false, String.toList_ofList]
      rw [numberChars, if_pos hx, hw, Number.isFinite, if_pos hx]
      exact (chars_realNumeral _ _).symm
    · simp [numberChars, Number.isFinite, hx]

end Json

end CaptureAudit
