import CaptureAudit.Text.Lowercase

/-! Texts that differ in the case of ASCII letters alone have the same lower case. Such a letter is
cased and is not ignored, be it capital or small, so words end where they did and every sigma keeps
its form. -/

namespace CaptureAudit.Text

/-- What does not tell a capital letter of ASCII from the small one does not tell any character from
what `Char.toLower` makes of it. -/
theorem apply_toLower {α : Type} {f : Char → α}
    (h : ∀ n < 26, f (Char.ofNat (0x41 + n)).toLower = f (Char.ofNat (0x41 + n))) (c : Char) :
    f c.toLower = f c := by
  by_cases hc : 0x41 ≤ c.toNat ∧ c.toNat ≤ 0x5a
  · obtain ⟨n, hn⟩ := Nat.exists_eq_add_of_le hc.1
    have hcapital := h n (by omega)
    rwa [← hn, Char.ofNat_toNat] at hcapital
  · have hsame : c.toLower = c := by
      unfold Char.toLower
      exact dif_neg hc
    rw [hsame]

theorem isCased_toLower (c : Char) : isCased c.toLower = isCased c :=
  apply_toLower (by decide +kernel) c

theorem isCaseIgnorable_toLower (c : Char) : isCaseIgnorable c.toLower = isCaseIgnorable c :=
  apply_toLower (by decide +kernel) c

theorem lowerChar_toLower (c : Char) : lowerChar c.toLower = lowerChar c :=
  apply_toLower (by decide +kernel) c

theorem toLower_eq_sigma_iff (c : Char) : c.toLower = 'Σ' ↔ c = 'Σ' :=
  decide_eq_decide.mp (apply_toLower (f := fun c => decide (c = 'Σ')) (by decide +kernel) c)

theorem toLower_eq_dottedI_iff (c : Char) : c.toLower = 'İ' ↔ c = 'İ' :=
  decide_eq_decide.mp (apply_toLower (f := fun c => decide (c = 'İ')) (by decide +kernel) c)

theorem meetsCased_map_toLower (cs : List Char) :
    meetsCased (cs.map Char.toLower) = meetsCased cs := by
  have hignored : isCaseIgnorable ∘ Char.toLower = isCaseIgnorable :=
    funext isCaseIgnorable_toLower
  rw [meetsCased, List.dropWhile_map, hignored, meetsCased]
  cases cs.dropWhile isCaseIgnorable with
  | nil => rfl
  | cons c rest => exact isCased_toLower c

theorem lowerFrom_map_toLower (before cs : List Char) :
    lowerFrom (before.map Char.toLower) (cs.map Char.toLower) = lowerFrom before cs := by
  induction cs generalizing before with
  | nil => rfl
  | cons c rest ih =>
    simp only [List.map_cons, lowerFrom, toLower_eq_sigma_iff, toLower_eq_dottedI_iff,
      lowerChar_toLower, meetsCased_map_toLower, ← ih (c :: before)]

theorem lowercase_eq_of_eqIgnoreAsciiCase {s t : String} (h : eqIgnoreAsciiCase s t = true) :
    lowercase s = lowercase t := by
  have heq : s.toList.map Char.toLower = t.toList.map Char.toLower := by
    simpa [eqIgnoreAsciiCase] using h
  have hlower (u : String) :
      lowercase u = String.ofList (lowerFrom [] (u.toList.map Char.toLower)) :=
    congrArg String.ofList (lowerFrom_map_toLower [] u.toList).symm
  rw [hlower, hlower, heq]

theorem eqIgnoreAsciiCase_comm (s t : String) : eqIgnoreAsciiCase s t = eqIgnoreAsciiCase t s :=
  Bool.beq_comm

end CaptureAudit.Text
