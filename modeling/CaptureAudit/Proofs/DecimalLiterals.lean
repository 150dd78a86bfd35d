import CaptureAudit.Proofs.NearestDecimals
import CaptureAudit.Proofs.TimestampText

/-! Decimal literals: a sign, digits with a point anywhere among them, and a power of ten, all but
the digits being optional. Each is read as the double nearest to its value. -/

namespace CaptureAudit.Decimal

/-- What may stand before digits for their sign. -/
inductive SignMark where
  | none
  | plus
  | minus
  deriving DecidableEq, Repr

namespace SignMark

def chars : SignMark → List Char
  | none => []
  | plus => ['+']
  | minus => ['-']

def apply {α : Type} [Neg α] (s : SignMark) (a : α) : α :=
  match s with
  | minus => -a
  | _ => a

end SignMark

/-- The power of ten after the digits of a literal. -/
structure PowerText where
  capital : Bool
  sign : SignMark
  digits : List Char
  isDigit : ∀ c ∈ digits, c.isDigit = true
  digits_ne_nil : digits ≠ []

namespace PowerText

def chars (p : PowerText) : List Char :=
  (if p.capital then 'E' else 'e') :: (p.sign.chars ++ p.digits)

def value (p : PowerText) : Int := p.sign.apply (digitsValue p.digits : Int)

/-- A digit first, so none of the marks that the reader looks for. -/
theorem exponent?_chars (p : PowerText) : exponent? (p.sign.chars ++ p.digits) = some p.value := by
  obtain ⟨capital, sign, digits, hdigits, hne⟩ := p
  have hall : digits.all Char.isDigit = true := List.all_eq_true.mpr hdigits
  have hempty : digits.isEmpty = false := List.isEmpty_eq_false_iff.mpr hne
  cases sign with
  | plus => simp [SignMark.chars, exponent?, hall, hempty, value, SignMark.apply]
  | minus => simp [SignMark.chars, exponent?, hall, hempty, value, SignMark.apply]
  | none =>
    cases digits with
    | nil => exact absurd rfl hne
    | cons c ds =>
      have hc := hdigits c (by simp)
      have hminus : c ≠ '-' := by rintro rfl; exact absurd hc (by decide)
      have hplus : c ≠ '+' := by rintro rfl; exact absurd hc (by decide)
      simp [SignMark.chars, exponent?, hall, hminus, hplus, value, SignMark.apply]

end PowerText

/-- `part` is what follows the point, when there is one. -/
structure Literal where
  sign : SignMark
  whole : List Char
  part : Option (List Char)
  power : Option PowerText
  isDigit : ∀ c ∈ whole ++ part.getD [], c.isDigit = true
  digits_ne_nil : whole ++ part.getD [] ≠ []

theorem takeWhile_append_digits {ds r : List Char} (hd : ∀ c ∈ ds, c.isDigit = true)
    (hr : ∀ c ∈ r.head?, c.isDigit = false) :
    (ds ++ r).takeWhile Char.isDigit = ds ∧ (ds ++ r).dropWhile Char.isDigit = r := by
  rw [List.takeWhile_append_of_pos hd, List.dropWhile_append_of_pos hd]
  cases r with
  | nil => simp
  | cons c r => simp [hr c rfl]

/-- The digits after a point, and the point. -/
def pointChars : Option (List Char) → List Char
  | none => []
  | some ds => '.' :: ds

/-- What follows the digits is read as this power of ten. -/
def TellsPower (rest : List Char) (e : Int) : Prop :=
  rest = [] ∧ e = 0 ∨ ∃ r, (rest = 'e' :: r ∨ rest = 'E' :: r) ∧ exponent? r = some e

theorem magnitude?_append {whole rest : List Char} {part : Option (List Char)} {e : Int}
    (hd : ∀ c ∈ whole ++ part.getD [], c.isDigit = true) (hne : whole ++ part.getD [] ≠ [])
    (hrest : TellsPower rest e) :
    magnitude? (whole ++ (pointChars part ++ rest)) =
      some (nearest (digitsValue (whole ++ part.getD [])) (e - (part.getD []).length)) := by
  have hend : ∀ c ∈ rest.head?, c.isDigit = false := by
    rcases hrest with ⟨rfl, -⟩ | ⟨r, rfl | rfl, -⟩ <;> simp
  have hwhole : ∀ c ∈ whole, c.isDigit = true := fun c hc => hd c (List.mem_append_left _ hc)
  cases part with
  | none =>
    obtain ⟨htake, hdrop⟩ := takeWhile_append_digits hwhole hend
    have hfull : whole.isEmpty = false := by simpa using hne
    simp only [pointChars, List.nil_append, magnitude?, htake, hdrop]
    rcases hrest with ⟨rfl, rfl⟩ | ⟨r, rfl | rfl, hr⟩ <;> simp [*]
  | some ds =>
    have hpart : ∀ c ∈ ds, c.isDigit = true := fun c hc => hd c (List.mem_append_right _ hc)
    obtain ⟨htake, hdrop⟩ :=
      takeWhile_append_digits (r := '.' :: (ds ++ rest)) hwhole (by simp)
    obtain ⟨htake', hdrop'⟩ := takeWhile_append_digits hpart hend
    have hfull : (whole.isEmpty && ds.isEmpty) = false := by
      rw [Bool.eq_false_iff]
      simpa using hne
    simp only [pointChars, List.cons_append, magnitude?, htake, hdrop, htake', hdrop']
    rcases hrest with ⟨rfl, rfl⟩ | ⟨r, rfl | rfl, hr⟩ <;> simp [*]

theorem toLower_of_isDigit {c : Char} (h : c.isDigit = true) : c.toLower = c := by
  have hbounds : 48 ≤ c.toNat ∧ c.toNat ≤ 57 := by
    simpa [Char.isDigit, UInt32.le_iff_toNat_le] using h
  have hupper : ¬ (65 ≤ c.val ∧ c.val ≤ 90) := by
    have hval : c.val.toNat = c.toNat := rfl
    have hleast : (65 : UInt32).toNat = 65 := rfl
    rw [UInt32.le_iff_toNat_le, hval, hleast]
    omega
  exact dif_neg hupper

/-- No infinity or NaN begins with a digit or a point. -/
theorem named?_eq_none {c : Char} (hc : c.isDigit = true ∨ c = '.') (cs : List Char) :
    named? (c :: cs) = none := by
  have hname : ∀ d ds, d ≠ '.' → d.isDigit = false →
      String.ofList ((c :: cs).map Char.toLower) ≠ String.ofList (d :: ds) := by
    intro d ds hpoint hdigit heq
    have hlists : (c :: cs).map Char.toLower = d :: ds := by
      simpa using congrArg String.toList heq
    obtain ⟨hhead, -⟩ := List.cons.inj hlists
    rcases hc with hc | rfl
    · rw [toLower_of_isDigit hc] at hhead
      rw [hhead, hdigit] at hc
      exact absurd hc (by decide)
    · exact hpoint hhead.symm
  unfold named?
  split
  · next h => exact absurd h (hname 'i' ['n', 'f'] (by decide) (by decide))
  · next h => exact absurd h (hname 'i' ['n', 'f', 'i', 'n', 'i', 't', 'y'] (by decide) (by decide))
  · next h => exact absurd h (hname 'n' ['a', 'n'] (by decide) (by decide))
  · rfl

namespace Literal

variable (l : Literal)

def powerChars : List Char :=
  match l.power with
  | none => []
  | some p => p.chars

def unsigned : List Char := l.whole ++ (pointChars l.part ++ l.powerChars)

def chars : List Char := l.sign.chars ++ l.unsigned

def text : String := String.ofList l.chars

def digits : Nat := digitsValue (l.whole ++ l.part.getD [])

def exponent : Int := (l.power.map PowerText.value).getD 0 - (l.part.getD []).length

def value : ℚ := l.sign.apply ((l.digits : ℚ) * 10 ^ l.exponent)

theorem tellsPower : TellsPower l.powerChars ((l.power.map PowerText.value).getD 0) := by
  cases hp : l.power with
  | none => exact .inl ⟨by rw [powerChars, hp], rfl⟩
  | some p =>
    refine .inr ⟨p.sign.chars ++ p.digits, ?_, p.exponent?_chars⟩
    rw [powerChars, hp]
    cases hcapital : p.capital with
    | true => exact .inr (by simp [PowerText.chars, hcapital])
    | false => exact .inl (by simp [PowerText.chars, hcapital])

theorem exists_unsigned : ∃ c cs, l.unsigned = c :: cs ∧ (c.isDigit = true ∨ c = '.') := by
  have hne := l.digits_ne_nil
  unfold unsigned
  cases hwhole : l.whole with
  | cons c cs => exact ⟨c, _, rfl, .inl (l.isDigit c (by simp [hwhole]))⟩
  | nil =>
    cases hpart : l.part with
    | none => exact absurd (by simp [hwhole, hpart]) hne
    | some ds => exact ⟨'.', _, rfl, .inr rfl⟩

theorem read_text : read l.text = .ok (l.sign.apply (nearest l.digits l.exponent)) := by
  obtain ⟨c, cs, hunsigned, hc⟩ := l.exists_unsigned
  have hmagnitude : magnitude? (c :: cs) = some (nearest l.digits l.exponent) :=
    hunsigned ▸ magnitude?_append l.isDigit l.digits_ne_nil l.tellsPower
  have hnamed := named?_eq_none hc cs
  have hminus : c ≠ '-' := by rintro rfl; exact absurd hc (by decide)
  have hplus : c ≠ '+' := by rintro rfl; exact absurd hc (by decide)
  have hempty : l.text.isEmpty = false := by
    rw [text, chars, hunsigned]
    simp
  rw [read, hempty, text, chars, String.toList_ofList, hunsigned]
  cases l.sign <;>
    simp [SignMark.chars, SignMark.apply, hminus, hplus, hnamed, hmagnitude]

def ofNat (n : Nat) : Literal where
  sign := .none
  whole := natText n
  part := none
  power := none
  isDigit := by simpa using isDigit_of_mem_natText
  digits_ne_nil := by simpa using natText_ne_nil n

theorem value_ofNat (n : Nat) : (ofNat n).value = n := by
  simp [value, digits, exponent, ofNat, SignMark.apply, digitsValue_natText]

/-- From zero to a hundred, the double that is read weighs the nearest to the value. -/
theorem exists_read (h : 0 ≤ l.value) (h' : l.value ≤ 100) :
    ∃ x, read l.text = .ok x ∧ Weighs x (nearestWeight l.value) := by
  refine ⟨_, l.read_text, ?_⟩
  have hscale : (0 : ℚ) < 10 ^ l.exponent := by positivity
  unfold value at h h' ⊢
  cases hsign : l.sign with
  | none =>
    rw [hsign] at h'
    exact weighs_nearest h'
  | plus =>
    rw [hsign] at h'
    exact weighs_nearest h'
  | minus =>
    -- Nothing else is below zero and not below it.
    rw [hsign] at h
    have hdigits : l.digits = 0 := by
      by_contra hne
      have hpos : (0 : ℚ) < l.digits := by exact_mod_cast Nat.pos_of_ne_zero hne
      have hneg : (0 : ℚ) ≤ -(l.digits * 10 ^ l.exponent) := h
      have hprod := mul_pos hpos hscale
      linarith
    have hnearest : nearest 0 l.exponent = 0 := by
      rw [nearest]
      exact if_pos (.inl rfl)
    have hzero : SignMark.minus.apply (((0 : Nat) : ℚ) * 10 ^ l.exponent) = 0 := by
      simp [SignMark.apply]
    rw [hdigits, hnearest, hzero]
    decide +kernel

theorem plain_of_isDigit {c : Char} (h : c.isDigit = true) : Text.isBlank c = false ∧ c ≠ '%' := by
  refine ⟨Text.isBlank_of_isDigit h, ?_⟩
  rintro rfl
  exact absurd h (by decide)

theorem plain_of_mem_sign (s : SignMark) : ∀ c ∈ s.chars, Text.isBlank c = false ∧ c ≠ '%' := by
  intro c hc
  cases s with
  | none => simp [SignMark.chars] at hc
  | plus =>
    obtain rfl : c = '+' := by simpa [SignMark.chars] using hc
    decide +kernel
  | minus =>
    obtain rfl : c = '-' := by simpa [SignMark.chars] using hc
    decide +kernel

theorem plain_of_mem_chars : ∀ c ∈ l.chars, Text.isBlank c = false ∧ c ≠ '%' := by
  intro c hc
  simp only [chars, unsigned, List.mem_append] at hc
  rcases hc with hc | hc | hc | hc
  · exact plain_of_mem_sign _ c hc
  · exact plain_of_isDigit (l.isDigit c (List.mem_append_left _ hc))
  · cases hpart : l.part with
    | none => simp [hpart, pointChars] at hc
    | some ds =>
      rw [hpart] at hc
      rcases List.mem_cons.mp hc with rfl | hc
      · decide +kernel
      · exact plain_of_isDigit (l.isDigit c (List.mem_append_right _ (by simpa [hpart] using hc)))
  · cases hpower : l.power with
    | none => simp [powerChars, hpower] at hc
    | some p =>
      simp only [powerChars, hpower, PowerText.chars, List.mem_cons, List.mem_append] at hc
      rcases hc with rfl | hc | hc
      · cases p.capital <;> decide +kernel
      · exact plain_of_mem_sign _ c hc
      · exact plain_of_isDigit (p.isDigit c hc)

end Literal

end CaptureAudit.Decimal
