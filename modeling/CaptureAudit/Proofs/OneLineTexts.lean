import CaptureAudit.Proofs.DigitText
import CaptureAudit.Proofs.VerdictLines
import CaptureAudit.Text.Quoted

/-! Texts that never have a newline, whatever they are made from: numbers, times, and texts between
quotes. -/

namespace CaptureAudit

namespace Text

theorem oneLine_ofList {cs : List Char} : OneLine (String.ofList cs) ↔ '\n' ∉ cs := by
  simp [OneLine]

theorem newline_notMem_of_isDigit {cs : List Char} (h : ∀ c ∈ cs, c.isDigit = true) : '\n' ∉ cs :=
  fun hm => absurd (h '\n' hm) (by decide)

theorem newline_notMem_hex (n : Nat) : '\n' ∉ hex n := by
  have hdigit : ∀ d < 16, '\n' ∉ [d.digitChar] := by decide
  induction n using Nat.strongRecOn with
  | ind n ih =>
    rw [hex, Nat.toDigits_eq_if (by decide)]
    split
    · next h => exact hdigit n h
    · rw [List.mem_append, not_or]
      exact ⟨ih (n / 16) (by omega), hdigit (n % 16) (Nat.mod_lt _ (by decide))⟩

theorem newline_notMem_escapeChar (c : Char) : '\n' ∉ escapeChar c := by
  by_cases hc : c = '\n'
  · rw [hc]
    decide
  · unfold escapeChar
    split_ifs <;> try decide
    · simp [newline_notMem_hex]
    · exact fun h => hc (List.mem_singleton.mp h).symm

theorem oneLine_quoted (s : String) : OneLine (quoted s) := by
  rw [quoted, oneLine_ofList]
  simp only [List.mem_cons, List.mem_append, List.mem_flatMap, List.not_mem_nil, or_false]
  rintro (h | ⟨c, -, h⟩ | h)
  · exact absurd h (by decide)
  · exact newline_notMem_escapeChar c h
  · exact absurd h (by decide)

end Text

open Decimal Text

theorem newline_notMem_natText (n : Nat) : '\n' ∉ natText n :=
  newline_notMem_of_isDigit isDigit_of_mem_natText

theorem newline_notMem_padNat (width n : Nat) : '\n' ∉ padNat width n :=
  newline_notMem_of_isDigit isDigit_of_mem_padNat

theorem oneLine_nat (n : Nat) : OneLine (toString n) :=
  oneLine_ofList.mpr (newline_notMem_natText n)

theorem oneLine_int (n : Int) : OneLine (toString n) := by
  cases n with
  | ofNat n => exact oneLine_nat n
  | negSucc n => exact .append (by decide) (oneLine_nat (n + 1))

theorem oneLine_bool (b : Bool) : OneLine (toString b) := by
  cases b <;> decide

theorem newline_notMem_replicate {c : Char} (hc : '\n' ≠ c) (n : Nat) :
    '\n' ∉ List.replicate n c :=
  fun h => hc (List.eq_of_mem_replicate h)

theorem newline_notMem_plainText (pointed : Bool) (d : Digits) : '\n' ∉ plainText pointed d := by
  have hdigits := newline_notMem_natText d.digits
  have hzeros : ∀ n, '\n' ∉ List.replicate n '0' := newline_notMem_replicate (by decide)
  unfold plainText
  split
  · cases pointed <;> simp [hdigits, hzeros]
  · dsimp only
    split
    · simp [hdigits, hzeros]
    · have htake := fun k => mt (List.mem_of_mem_take (i := k)) hdigits
      have hdrop := fun k => mt (List.mem_of_mem_drop (i := k)) hdigits
      simp [htake, hdrop]

theorem newline_notMem_intText (n : Int) : '\n' ∉ intText n := by
  unfold intText
  split <;> simp [newline_notMem_natText]

theorem newline_notMem_exponentText (plus : Bool) (d : Digits) : '\n' ∉ exponentText plus d := by
  have hdigits := newline_notMem_natText d.digits
  have hplus : ∀ b : Bool, '\n' ∉ if b then ['+'] else [] := by decide
  simp only [exponentText, List.mem_append, newline_notMem_intText, or_false, not_or]
  refine ⟨⟨?_, by decide⟩, hplus _⟩
  split
  · next hds => simpa [hds] using hdigits
  · exact hdigits

theorem oneLine_write (style : Style) (x : Float) : OneLine (style.write x) := by
  have hsign : ∀ b : Bool, '\n' ∉ if b then ['-'] else [] := by decide
  have hmagnitude : '\n' ∉ style.magnitudeText (.ofFloat x) := by
    unfold Style.magnitudeText
    split
    · cases style.pointed <;> decide
    · dsimp only
      split
      · exact newline_notMem_plainText _ _
      · split
        · exact newline_notMem_plainText _ _
        · exact newline_notMem_exponentText _ _
  unfold Style.write
  split
  · decide
  · dsimp only
    split <;> rw [oneLine_ofList, List.mem_append, not_or]
    · exact ⟨hsign _, by decide⟩
    · exact ⟨hsign _, hmagnitude⟩

theorem oneLine_fixedPlaces (places : Nat) (x : Float) : OneLine (fixedPlaces places x) := by
  have hsign : ∀ b : Bool, '\n' ∉ if b then ['-'] else [] := by decide
  unfold fixedPlaces
  split
  · decide
  · dsimp only
    split <;> rw [oneLine_ofList]
    · rw [List.mem_append, not_or]
      exact ⟨hsign _, by decide⟩
    · have hzeros : ∀ n, '\n' ∉ List.replicate n '0' := newline_notMem_replicate (by decide)
      rw [List.mem_append, List.mem_append, not_or, not_or]
      refine ⟨⟨hsign _, newline_notMem_natText _⟩, ?_⟩
      split
      · decide
      · simp [hzeros, newline_notMem_natText]

theorem oneLine_toSecondsText (t : Timestamp) : OneLine t.toSecondsText := by
  have hyear : '\n' ∉ yearText t.civil.year := by
    unfold yearText
    split
    · exact newline_notMem_padNat _ _
    · split <;> simp [newline_notMem_padNat]
  rw [Timestamp.toSecondsText, oneLine_ofList]
  simp [Civil.secondsText, hyear, newline_notMem_padNat]

end CaptureAudit
