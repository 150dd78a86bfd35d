import CaptureAudit.Json.Printer
import CaptureAudit.Json.Token
import CaptureAudit.Proofs.DigitText

/-! Every written number is one token, whatever follows it. Whole numbers of 64 bits are read back;
for other numbers the parts of the text are found again, and from these the value is computed. -/

namespace CaptureAudit.Json

open Text (Source)
open Decimal

/-- A number that stands before the source ends there. -/
def EndsNumber : Source → Prop
  | some c :: _ => c.isDigit = false ∧ c ≠ '.' ∧ c ≠ 'e' ∧ c ≠ 'E'
  | _ => True

/-- The source does not begin with a digit. -/
def EndsDigits : Source → Prop
  | some c :: _ => c.isDigit = false
  | _ => True

theorem EndsNumber.endsDigits {r : Source} (h : EndsNumber r) : EndsDigits r := by
  match r, h with
  | some c :: _, h => exact h.1
  | none :: _, _ => trivial
  | [], _ => trivial

theorem digitRun_append {ds : List Char} {rest : Source} (hd : ∀ c ∈ ds, c.isDigit = true)
    (hr : EndsDigits rest) : digitRun (ds.map some ++ rest) = (ds, rest) := by
  induction ds with
  | nil =>
    match rest, hr with
    | some c :: _, hr => simp [digitRun, show c.isDigit = false from hr]
    | none :: _, _ => rfl
    | [], _ => rfl
  | cons c ds ih =>
    have hc := hd c (by simp)
    simp [digitRun, hc, ih fun x hx => hd x (by simp [hx])]

/-- The parts of a written number; no digits after the point when there is no point. -/
structure Numeral where
  negative : Bool
  whole : List Char
  part : List Char
  exponent : Option Int
  deriving DecidableEq

namespace Numeral

def partChars : List Char → List Char
  | [] => []
  | ds => '.' :: ds

def exponentChars : Option Int → List Char
  | none => []
  | some e => 'e' :: ((if 0 ≤ e then ['+'] else []) ++ intText e)

def chars (n : Numeral) : List Char :=
  (if n.negative then ['-'] else []) ++ n.whole ++ partChars n.part ++ exponentChars n.exponent

def value (n : Numeral) : Option Number :=
  numberValue n.negative n.whole n.part n.exponent

structure Valid (n : Numeral) : Prop where
  whole_ne_nil : n.whole ≠ []
  digits_whole : ∀ c ∈ n.whole, c.isDigit = true
  digits_part : ∀ c ∈ n.part, c.isDigit = true
  leading : n.whole.head? = some '0' → n.whole.length = 1

theorem fractionDigits_append {ds : List Char} {rest : Source} (hd : ∀ c ∈ ds, c.isDigit = true)
    (hr : EndsDigits rest) (hp : ∀ r, rest ≠ some '.' :: r) :
    fractionDigits ((partChars ds).map some ++ rest) = some (ds, rest) := by
  cases ds with
  | nil =>
    simp only [partChars, List.map_nil, List.nil_append]
    unfold fractionDigits
    split
    · next r => exact absurd rfl (hp r)
    · rfl
  | cons d ds =>
    have hrun := digitRun_append hd hr
    simp [partChars, fractionDigits] at hrun ⊢
    simp [hrun]

theorem exponentDigits_append {e : Option Int} {rest : Source} (hr : EndsNumber rest) :
    exponentDigits ((exponentChars e).map some ++ rest) = some (e, rest) := by
  cases e with
  | none =>
    match rest, hr with
    | some c :: _, hr => simp [exponentChars, exponentDigits, hr.2.2.1, hr.2.2.2]
    | none :: _, _ => rfl
    | [], _ => rfl
  | some e =>
    have hrun : digitRun ((natText e.natAbs).map some ++ rest) = (natText e.natAbs, rest) :=
      digitRun_append isDigit_of_mem_natText hr.endsDigits
    have hne : (natText e.natAbs).isEmpty = false := by simp [natText_ne_nil]
    have hvalue := digitsValue_natText e.natAbs
    by_cases he : 0 ≤ e
    · have hlt : ¬ e < 0 := by omega
      have hint : (digitsValue (natText e.natAbs) : Int) = e := by omega
      have hdrop : dropSign (some '+' :: ((natText e.natAbs).map some ++ rest)) =
          (false, (natText e.natAbs).map some ++ rest) := rfl
      simp [exponentChars, exponentDigits, he, intText, hlt, hdrop, hrun, hne, hint]
    · have hlt : e < 0 := by omega
      have hint : -(digitsValue (natText e.natAbs) : Int) = e := by omega
      simp [exponentChars, exponentDigits, he, intText, hlt, dropSign, hrun, hne, hint]

theorem endsDigits_partChars (ds : List Char) (e : Option Int) {rest : Source}
    (hr : EndsNumber rest) :
    EndsDigits ((partChars ds).map some ++ ((exponentChars e).map some ++ rest)) := by
  cases ds with
  | cons d ds => rfl
  | nil =>
    cases e with
    | none => exact hr.endsDigits
    | some e => rfl

theorem endsDigits_exponentChars (e : Option Int) {rest : Source} (hr : EndsNumber rest) :
    EndsDigits ((exponentChars e).map some ++ rest) :=
  endsDigits_partChars [] e hr

theorem exponentChars_ne_point {e : Option Int} {rest r : Source} (hr : EndsNumber rest) :
    (exponentChars e).map some ++ rest ≠ some '.' :: r := by
  cases e with
  | some e => simp [exponentChars]
  | none =>
    intro he
    obtain rfl : rest = some '.' :: r := he
    exact hr.2.1 rfl

theorem dropMinus_append {n : Numeral} (hn : n.Valid) (rest : Source) :
    dropMinus ((if n.negative then ['-'] else []).map some ++ (n.whole.map some ++ rest)) =
      (n.negative, n.whole.map some ++ rest) := by
  cases n.negative with
  | true => rfl
  | false =>
    cases hw : n.whole with
    | nil => exact absurd hw hn.whole_ne_nil
    | cons d ds =>
      have hd : d ≠ '-' := by
        rintro rfl
        exact absurd (hn.digits_whole '-' (by simp [hw])) (by decide)
      simp [dropMinus, hd]

theorem numberToken_append {n : Numeral} (hn : n.Valid) {rest : Source} (hr : EndsNumber rest) :
    numberToken (n.chars.map some ++ rest) = some (.number n.value, rest) := by
  have hrun := digitRun_append hn.digits_whole (endsDigits_partChars n.part n.exponent hr)
  have hlead : (n.whole.isEmpty || n.whole.head? == some '0' && decide (1 < n.whole.length)) =
      false := by
    simp only [Bool.or_eq_false_iff, List.isEmpty_eq_false_iff, Bool.and_eq_false_imp, beq_iff_eq,
      decide_eq_false_iff_not]
    exact ⟨hn.whole_ne_nil, fun h0 => by simp [hn.leading h0]⟩
  have hpart := fractionDigits_append hn.digits_part (endsDigits_exponentChars n.exponent hr)
    fun _ => exponentChars_ne_point hr
  simp only [chars, List.map_append, List.append_assoc]
  simp only [numberToken, dropMinus_append hn, hrun, hlead, Bool.false_eq_true, if_false, hpart,
    exponentDigits_append hr]
  rfl

end Numeral

end CaptureAudit.Json
