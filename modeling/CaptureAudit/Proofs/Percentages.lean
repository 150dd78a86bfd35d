import CaptureAudit.Proofs.DecimalLiterals
import CaptureAudit.Proofs.StoredValues

/-! Percentages set from decimal literals with a percent sign. Numbers above one are hundredths and
the others are stored as they are: order is kept on either side, and lost where only the greater
number is taken for hundredths. -/

namespace CaptureAudit

open Decimal

namespace Text

variable {cs : List Char}

theorem trimLeft_of_forall (h : ∀ c ∈ cs, isBlank c = false) : trimLeft cs = cs :=
  List.dropWhile_eq_self_iff.mpr fun hl => by simp [h _ (List.getElem_mem hl)]

theorem trimRight_of_forall (h : ∀ c ∈ cs, isBlank c = false) : trimRight cs = cs := by
  have hreverse : trimLeft cs.reverse = cs.reverse :=
    trimLeft_of_forall fun c hc => h c (List.mem_reverse.mp hc)
  rw [trimRight, ← trimLeft, hreverse, List.reverse_reverse]

end Text

namespace Tunable

variable {x y : Float} {a b : Nat}

/-- What a percentage that is read is stored as. -/
def hundredths (x : Float) : Float := if 1 < x then x / 100 else x

theorem dropPercent_text (l : Literal) : dropPercent (Text.trim (l.text ++ "%")) = l.text := by
  have hplain := l.plain_of_mem_chars
  have hblank : ∀ c ∈ l.chars ++ ['%'], Text.isBlank c = false := by
    intro c hc
    rcases List.mem_append.mp hc with hc | hc
    · exact (hplain c hc).1
    · obtain rfl : c = '%' := by simpa using hc
      decide +kernel
  have htext : (l.text ++ "%").toList = l.chars ++ ['%'] := by
    simp [Literal.text]
  have hdrop : (l.chars ++ ['%']).reverse.dropWhile (· = '%') = l.chars.reverse := by
    rw [List.reverse_append, List.reverse_singleton, List.singleton_append,
      List.dropWhile_cons_of_pos (by simp), List.dropWhile_eq_self_iff]
    intro hl
    simpa using (hplain _ (List.mem_reverse.mp (List.getElem_mem hl))).2
  rw [Text.trim, htext, Text.trimLeft_of_forall hblank, Text.trimRight_of_forall hblank,
    dropPercent, String.toList_ofList, hdrop, List.reverse_reverse,
    Text.trimRight_of_forall fun c hc => (hplain c hc).1, Literal.text]

theorem nearestWeight_one : nearestWeight 1 = oneWeight := by decide +kernel

theorem nearestWeight_hundred : nearestWeight 100 = 100 * oneWeight := by decide +kernel

theorem exists_accept (l : Literal) (h : 0 ≤ l.value) (h' : l.value ≤ 100) :
    ∃ x, Decimal.read l.text = .ok x ∧ Weighs x (nearestWeight l.value) ∧
      ∀ key, accept .percentage key (l.text ++ "%") = .ok (hundredths x) := by
  obtain ⟨x, hread, hx⟩ := l.exists_read h h'
  have hneg : ¬ x < 0 := by
    rw [hx.lt_iff weighs_zero]
    exact Nat.not_lt_zero _
  have hlarge : ¬ 100 < x := by
    rw [weighs_hundred.lt_iff hx, ← nearestWeight_hundred]
    exact Nat.not_lt.mpr (nearestWeight_mono h h')
  refine ⟨x, hread, hx, fun key => ?_⟩
  have hnumber : readNumber key (l.text ++ "%") l.text = .ok x := by
    simp [readNumber, hread, hx.isFinite]
  simp only [accept, dropPercent_text, hnumber, bind, Except.bind, if_neg hneg, if_neg hlarge]
  rfl

theorem set_of_accept {t : Tunable} (ht : t.unit = .percentage) {text : String}
    (h : ∀ key, accept .percentage key text = .ok x) :
    t.set text = .ok { t with override := some x } := by
  rw [set, ht, h]
  rfl

/-- On either side of one the greater number is not stored as the smaller. -/
theorem hundredths_mono (hx : Weighs x a) (hy : Weighs y b) (h : a ≤ b) (hb : b ≤ 100 * oneWeight)
    (hside : 1 < x ∨ ¬ 1 < y) : hundredths x ≤ hundredths y := by
  have hle : ¬ 1 < y → ¬ 1 < x := by
    rw [weighs_one.lt_iff hx, weighs_one.lt_iff hy]
    omega
  by_cases hover : 1 < x
  · have hover' : 1 < y := by
      by_contra hnot
      exact hle hnot hover
    rw [hundredths, hundredths, if_pos hover, if_pos hover',
      (hx.div_hundred (h.trans hb)).1.le_iff (hy.div_hundred hb).1]
    exact nearestQuotient_mono (by decide) (by decide) (Nat.mul_le_mul_right 100 h)
  · rw [hundredths, hundredths, if_neg hover, if_neg (hside.resolve_left hover), hx.le_iff hy]
    exact h

/-- Percentages from zero to a hundred are accepted, and the greater of two is not read as the
smaller number. Nor is it stored as the smaller where both are read as above one or neither is,
which is so for all up to one. Of two with one between them the greater alone is divided by a
hundred, and order is kept only if that quotient is still the greater number. -/
theorem percentages_ordered (t : Tunable) (ht : t.unit = .percentage) (p q : Literal)
    (hp : 0 ≤ p.value) (hpq : p.value ≤ q.value) (hq : q.value ≤ 100) :
    ∃ x y, Decimal.read p.text = .ok x ∧ Decimal.read q.text = .ok y ∧ x ≤ y ∧
      t.set (p.text ++ "%") = .ok { t with override := some (hundredths x) } ∧
      t.set (q.text ++ "%") = .ok { t with override := some (hundredths y) } ∧
      (1 < x ∨ ¬ 1 < y → hundredths x ≤ hundredths y) ∧
      (q.value ≤ 1 → ¬ 1 < y) ∧
      (¬ 1 < x → 1 < y → (hundredths x ≤ hundredths y ↔ x ≤ y / 100)) := by
  obtain ⟨x, hreadp, hx, hacceptp⟩ := exists_accept p hp (hpq.trans hq)
  obtain ⟨y, hreadq, hy, hacceptq⟩ := exists_accept q (hp.trans hpq) hq
  have hle := nearestWeight_mono hp hpq
  have hmost : nearestWeight q.value ≤ 100 * oneWeight :=
    (nearestWeight_mono (hp.trans hpq) hq).trans nearestWeight_hundred.le
  refine ⟨x, y, hreadp, hreadq, (hx.le_iff hy).mpr hle, set_of_accept ht hacceptp,
    set_of_accept ht hacceptq, hundredths_mono hx hy hle hmost, fun hone => ?_,
    fun hnot hover => ?_⟩
  · rw [weighs_one.lt_iff hy, Nat.not_lt]
    exact (nearestWeight_mono (hp.trans hpq) hone).trans nearestWeight_one.le
  · rw [hundredths, hundredths, if_neg hnot, if_pos hover]

def memoryShare : Tunable where
  key := "memory"
  check := "SRV"
  description := "Memory"
  default := 0.9
  unit := .percentage
  override := none

theorem percentages_ordered_two_fifty :
    (Literal.ofNat 2).text = "2" ∧ (Literal.ofNat 50).text = "50" ∧
      ∃ x y, Decimal.read (Literal.ofNat 2).text = .ok x ∧
        Decimal.read (Literal.ofNat 50).text = .ok y ∧ x ≤ y ∧
        memoryShare.set ((Literal.ofNat 2).text ++ "%") =
          .ok { memoryShare with override := some (hundredths x) } ∧
        memoryShare.set ((Literal.ofNat 50).text ++ "%") =
          .ok { memoryShare with override := some (hundredths y) } ∧
        (1 < x ∨ ¬ 1 < y → hundredths x ≤ hundredths y) ∧
        ((Literal.ofNat 50).value ≤ 1 → ¬ 1 < y) ∧
        (¬ 1 < x → 1 < y → (hundredths x ≤ hundredths y ↔ x ≤ y / 100)) :=
  ⟨rfl, rfl, percentages_ordered memoryShare rfl (.ofNat 2) (.ofNat 50)
    (by rw [Literal.value_ofNat]; norm_num)
    (by rw [Literal.value_ofNat, Literal.value_ofNat]; norm_num)
    (by rw [Literal.value_ofNat]; norm_num)⟩

/-- One percent is stored as the whole, and two percent as two hundredths. -/
theorem percentages_not_ordered :
    ¬ ∀ (t : Tunable) (p q : Literal), t.unit = .percentage → 0 ≤ p.value → p.value ≤ q.value →
      q.value ≤ 100 → ∀ u v, t.set (p.text ++ "%") = .ok u → t.set (q.text ++ "%") = .ok v →
        u.value ≤ v.value := by
  intro h
  have hset : memoryShare.set ((Literal.ofNat 1).text ++ "%") =
      .ok { memoryShare with override := some 1 } := by decide +kernel
  have hset' : memoryShare.set ((Literal.ofNat 2).text ++ "%") =
      .ok { memoryShare with override := some 0.02 } := by decide +kernel
  have hle := h memoryShare (.ofNat 1) (.ofNat 2) rfl
    (by rw [Literal.value_ofNat]; norm_num)
    (by rw [Literal.value_ofNat, Literal.value_ofNat]; norm_num)
    (by rw [Literal.value_ofNat]; norm_num) _ _ hset hset'
  exact absurd hle (by decide +kernel)

end Tunable

end CaptureAudit
