import CaptureAudit.Decimal.Reading
import CaptureAudit.Decimal.Shortest

/-! Binary64 values read by the leading digits of a number. Digits are taken as long as 64 bits hold
them, and the others count for the power of ten alone. The digits are then multiplied or divided by
that power, each step being rounded, so the value may miss the nearest one by its last bits. -/

namespace CaptureAudit.Decimal

/-- Go on from `n` with digits as long as 64 bits hold the number, and the digits left. -/
def takeDigits : Nat → List Char → Nat × List Char
  | n, [] => (n, [])
  | n, c :: cs =>
    let next := 10 * n + digitsValue [c]
    if next < 0x10000000000000000 then takeDigits next cs else (n, c :: cs)

/-- The number of the digits before and after a point. -/
def leadingDigits (whole part : List Char) : Digits :=
  let (n, dropped) := takeDigits 0 whole
  let (digits, left) := takeDigits n part
  ⟨digits, (dropped.length + left.length : Int) - part.length⟩

def tenTo (n : Nat) : Float :=
  Float.ofScientific 1 false n

/-- The number as a value, rounded at each step. Powers of ten reach `10 ^ 308`: a smaller number
takes two divisions, and where a third one were needed nothing is left of 64 bits. -/
def Digits.scaled (d : Digits) : Float :=
  let x := Float.ofNat d.digits
  if d.digits = 0 ∨ d.exponent < -616 then 0
  else if d.exponent < -308 then x / tenTo 308 / tenTo (-d.exponent - 308).toNat
  else if d.exponent < 0 then x / tenTo (-d.exponent).toNat
  else if d.exponent ≤ 308 then x * tenTo d.exponent.toNat
  else Float.ofBits 0x7ff0000000000000

end CaptureAudit.Decimal
