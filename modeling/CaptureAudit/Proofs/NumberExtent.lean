import CaptureAudit.Proofs.WrittenDocument

/-! How far a number goes in a text. The reader takes off as much as can belong to it, and takes the
same off before whatever else ends a number. -/

namespace CaptureAudit.Json

open Text (Source)

theorem endsDigits_digitRun (r : Source) : EndsDigits (digitRun r).2 := by
  fun_induction digitRun r with
  | case1 c rest hc ih => exact ih
  | case2 c rest hc => simpa [EndsDigits] using hc
  | case3 r hr =>
    rcases r with _ | ⟨_ | c, rest⟩
    · trivial
    · trivial
    · exact absurd rfl (hr c rest)

theorem isDigit_of_mem_digitRun (r : Source) : ∀ c ∈ (digitRun r).1, c.isDigit = true := by
  fun_induction digitRun r with
  | case1 c rest hc ih => simpa using ⟨hc, ih⟩
  | case2 c rest hc => simp
  | case3 r hr => simp

theorem digitRun_join (r : Source) : (digitRun r).1.map some ++ (digitRun r).2 = r := by
  fun_induction digitRun r with
  | case1 c rest hc ih => simpa using ih
  | case2 c rest hc => rfl
  | case3 r hr => rfl

def EndsPart : Source → Prop
  | some c :: _ => c.isDigit = false ∧ c ≠ '.'
  | _ => True

theorem EndsNumber.endsPart {r : Source} (h : EndsNumber r) : EndsPart r := by
  match r, h with
  | some c :: _, h => exact ⟨h.1, h.2.1⟩
  | none :: _, _ => trivial
  | [], _ => trivial

theorem EndsPart.endsDigits {r : Source} (h : EndsPart r) : EndsDigits r := by
  match r, h with
  | some c :: _, h => exact h.1
  | none :: _, _ => trivial
  | [], _ => trivial

theorem ne_minus_of_isDigit {c : Char} (h : c.isDigit = true) : c ≠ '-' := by
  rintro rfl
  exact absurd h (by decide)

theorem ne_plus_of_isDigit {c : Char} (h : c.isDigit = true) : c ≠ '+' := by
  rintro rfl
  exact absurd h (by decide)

theorem exists_of_dropMinus (r : Source) :
    ∃ s, r = s ++ (dropMinus r).2 ∧ ∀ c z, c.isDigit = true →
      dropMinus (s ++ some c :: z) = ((dropMinus r).1, some c :: z) := by
  unfold dropMinus
  split
  · next rest => exact ⟨[some '-'], rfl, fun c z _ => rfl⟩
  · exact ⟨[], rfl, fun c z hc => by simp [ne_minus_of_isDigit hc]⟩

theorem exists_of_dropSign (r : Source) :
    ∃ s, r = s ++ (dropSign r).2 ∧ ∀ c z, c.isDigit = true →
      dropSign (s ++ some c :: z) = ((dropSign r).1, some c :: z) := by
  unfold dropSign
  split
  · next rest => exact ⟨[some '-'], rfl, fun c z _ => rfl⟩
  · next rest => exact ⟨[some '+'], rfl, fun c z _ => rfl⟩
  · exact ⟨[], rfl, fun c z hc => by simp [ne_minus_of_isDigit hc, ne_plus_of_isDigit hc]⟩

theorem exists_of_exponentDigits {r rest : Source} {e : Option Int}
    (h : exponentDigits r = some (e, rest)) (hr : EndsDigits r) :
    EndsDigits rest ∧ ∃ l, r = l ++ rest ∧
      ∀ z, EndsNumber z → EndsPart (l ++ z) ∧ exponentDigits (l ++ z) = some (e, z) := by
  have habsent : ∀ z, EndsNumber z → EndsPart z ∧ exponentDigits z = some (none, z) := by
    intro z hz
    exact ⟨hz.endsPart, Numeral.exponentDigits_append (e := none) hz⟩
  unfold exponentDigits at h
  split at h
  · next c tail =>
    split at h
    · next hc =>
      dsimp only at h
      split at h
      · contradiction
      · next hne =>
        obtain ⟨rfl, rfl⟩ := Prod.mk.inj (Option.some.inj h)
        obtain ⟨s, hs, hsign⟩ := exists_of_dropSign tail
        have hdigits := isDigit_of_mem_digitRun (dropSign tail).2
        have hjoin := digitRun_join (dropSign tail).2
        refine ⟨endsDigits_digitRun _,
          some c :: (s ++ (digitRun (dropSign tail).2).1.map some), ?_, fun z hz => ?_⟩
        · rw [List.cons_append, List.append_assoc, hjoin, ← hs]
        generalize (digitRun (dropSign tail).2).1 = ds at *
        have hrun := digitRun_append hdigits hz.endsDigits
        cases ds with
        | nil => exact absurd rfl hne
        | cons d ds =>
          have hdrop := hsign d (ds.map some ++ z) (hdigits d (by simp))
          refine ⟨?_, ?_⟩
          · rcases hc with rfl | rfl <;> exact ⟨by decide, by decide⟩
          · rw [List.map_cons, List.cons_append] at hrun
            simp only [List.cons_append, List.append_assoc, List.map_cons, exponentDigits,
              if_pos hc, hdrop, hrun, if_neg hne]
    · obtain ⟨rfl, rfl⟩ := Prod.mk.inj (Option.some.inj h)
      exact ⟨hr, [], rfl, habsent⟩
  · obtain ⟨rfl, rfl⟩ := Prod.mk.inj (Option.some.inj h)
    exact ⟨hr, [], rfl, habsent⟩

theorem exists_of_fractionDigits {r rest : Source} {ds : List Char}
    (h : fractionDigits r = some (ds, rest)) (hr : EndsDigits r) :
    EndsDigits rest ∧ ∃ l, r = l ++ rest ∧
      ∀ z, EndsPart z → EndsDigits (l ++ z) ∧ fractionDigits (l ++ z) = some (ds, z) := by
  unfold fractionDigits at h
  split at h
  · next tail =>
    split at h
    · contradiction
    · next hne =>
      have hds : (digitRun tail).1 = ds ∧ (digitRun tail).2 = rest :=
        Prod.ext_iff.mp (Option.some.inj h)
      obtain ⟨rfl, rfl⟩ := hds
      have hdigits := isDigit_of_mem_digitRun tail
      refine ⟨endsDigits_digitRun tail, some '.' :: (digitRun tail).1.map some, ?_, fun z hz => ?_⟩
      · rw [List.cons_append, digitRun_join]
      · have hrun := digitRun_append hdigits hz.endsDigits
        refine ⟨rfl, ?_⟩
        simp only [List.cons_append, fractionDigits, hrun, if_neg hne]
  · next hpoint =>
    obtain ⟨rfl, rfl⟩ := Prod.mk.inj (Option.some.inj h)
    refine ⟨hr, [], rfl, fun z hz => ⟨hz.endsDigits, ?_⟩⟩
    refine @Numeral.fractionDigits_append [] z (by simp) hz.endsDigits fun tail he => ?_
    rw [he] at hz
    exact hz.2 rfl

def Token.IsNumber (t : Token) : Prop := ∃ n, t = .number n

theorem exists_of_numberToken {r rest : Source} {t : Token} (h : numberToken r = some (t, rest)) :
    t.IsNumber ∧ EndsDigits rest ∧ ∃ l, r = l ++ rest ∧
      ∀ z, EndsNumber z → numberToken (l ++ z) = some (t, z) := by
  unfold numberToken at h
  dsimp only at h
  split at h
  · contradiction
  next hlead =>
  split at h
  · contradiction
  next fs r₁ hf =>
  split at h
  · contradiction
  next e r₂ he =>
  obtain ⟨rfl, rfl⟩ := Prod.mk.inj (Option.some.inj h)
  obtain ⟨s, hs, hsign⟩ := exists_of_dropMinus r
  obtain ⟨hends₁, l₁, hl₁, hfraction⟩ := exists_of_fractionDigits hf (endsDigits_digitRun _)
  obtain ⟨hends₂, l₂, hl₂, hexponent⟩ := exists_of_exponentDigits he hends₁
  have hdigits := isDigit_of_mem_digitRun (dropMinus r).2
  have hjoin := digitRun_join (dropMinus r).2
  refine ⟨⟨_, rfl⟩, hends₂, s ++ ((digitRun (dropMinus r).2).1.map some ++ (l₁ ++ l₂)), ?_,
    fun z hz => ?_⟩
  · simp only [List.append_assoc]
    rw [← hl₂, ← hl₁, hjoin, ← hs]
  generalize (digitRun (dropMinus r).2).1 = ds at *
  obtain ⟨hpart, hexponent⟩ := hexponent z hz
  obtain ⟨hends, hfraction⟩ := hfraction (l₂ ++ z) hpart
  have hrun := digitRun_append hdigits hends
  cases ds with
  | nil => exact absurd rfl hlead
  | cons d ds =>
    have hdrop := hsign d (ds.map some ++ (l₁ ++ (l₂ ++ z))) (hdigits d (by simp))
    rw [List.map_cons, List.cons_append] at hrun
    simp only [List.append_assoc, List.map_cons, List.cons_append, numberToken, hdrop, hrun,
      if_neg hlead, hfraction, hexponent]

end CaptureAudit.Json
