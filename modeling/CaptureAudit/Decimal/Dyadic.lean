/-! Finite binary64 values as whole multiples of powers of two, and exact rounding of them. -/

namespace CaptureAudit.Decimal

/-- The number `mantissa · 2 ^ exponent`. -/
structure Dyadic where
  mantissa : Nat
  exponent : Int
  deriving DecidableEq, Repr

def isNegative (x : Float) : Bool :=
  x.toBits.toNat / 0x8000000000000000 = 1

/-- The magnitude of a finite value. -/
def Dyadic.ofFloat (x : Float) : Dyadic :=
  let bits := x.toBits.toNat
  let fraction : Nat := bits % 0x10000000000000
  let field : Nat := bits / 0x10000000000000 % 0x800
  if field = 0 then ⟨fraction, -1074⟩ else ⟨fraction + 0x10000000000000, (field : Int) - 1075⟩

/-- Numerator and denominator of the number times `10 ^ places`. -/
def Dyadic.ratio (d : Dyadic) (places : Int) : Nat × Nat :=
  (d.mantissa * Nat.pow 2 d.exponent.toNat * Nat.pow 10 places.toNat,
    Nat.pow 2 (-d.exponent).toNat * Nat.pow 10 (-places).toNat)

/-- Where a value half way between two multiples goes. -/
inductive Tie where
  | even
  | up
  deriving DecidableEq, Repr

/-- The whole number nearest to `num / den`. -/
def roundRatio (tie : Tie) (num den : Nat) : Nat :=
  let quotient := num / den
  match compare (2 * (num % den)) den with
  | .lt => quotient
  | .gt => quotient + 1
  | .eq => match tie with
    | .even => quotient + quotient % 2
    | .up => quotient + 1

/-- The nearest whole number, a half going away from zero. -/
def roundHalfAway (x : Float) : Float :=
  if !x.isFinite then x
  else
    let d := Dyadic.ofFloat x
    if 0 ≤ d.exponent then x
    else
      let ratio := d.ratio 0
      let magnitude := Float.ofNat (roundRatio .up ratio.1 ratio.2)
      if isNegative x then -magnitude else magnitude

/-- The nearest signed 64-bit whole number, a half going away from zero. -/
def toInt64 (x : Float) : Int :=
  if x.isNaN then 0
  else if x.isInf then if isNegative x then -0x8000000000000000 else 0x7fffffffffffffff
  else
    let ratio := (Dyadic.ofFloat x).ratio 0
    let magnitude := roundRatio .up ratio.1 ratio.2
    if isNegative x then max (-(magnitude : Int)) (-0x8000000000000000)
    else min magnitude 0x7fffffffffffffff

end CaptureAudit.Decimal
