import CaptureAudit.Decimal.Dyadic

/-! The fewest decimal digits that round to a given binary64 value, and among those the nearest to
it. The candidates on a decimal grid are the two neighbours of the value, and the coarsest grid with
a neighbour inside the rounding interval is taken. -/

namespace CaptureAudit.Decimal

/-- The number `digits · 10 ^ exponent`. -/
structure Digits where
  digits : Nat
  exponent : Int
  deriving DecidableEq, Repr

/-- Compare `c · 10 ^ k` with the number `d`. -/
def compareTo (c : Nat) (k : Int) (d : Dyadic) : Ordering :=
  compare (c * Nat.pow 10 k.toNat * Nat.pow 2 (-d.exponent).toNat)
    (d.mantissa * Nat.pow 2 d.exponent.toNat * Nat.pow 10 (-k).toNat)

/-- The numbers that round to a value: its ends, which belong to it when the mantissa is even. -/
structure Interval where
  low : Dyadic
  high : Dyadic
  closed : Bool

/-- Below a power of two the neighbour is half as far away as above it. -/
def Dyadic.interval (d : Dyadic) : Interval :=
  let below := if d.mantissa = 0x10000000000000 ∧ -1074 < d.exponent then 1 else 2
  { low := ⟨4 * d.mantissa - below, d.exponent - 2⟩
    high := ⟨4 * d.mantissa + 2, d.exponent - 2⟩
    closed := d.mantissa % 2 = 0 }

def Interval.holds (i : Interval) (c : Nat) (k : Int) : Bool :=
  let low := compareTo c k i.low
  let high := compareTo c k i.high
  (low = .gt || i.closed && low = .eq) && (high = .lt || i.closed && high = .eq)

/-- Largest `e` with `10 ^ e` at most the number, which is not zero. -/
def Dyadic.magnitude (d : Dyadic) : Int :=
  let ratio := d.ratio 0
  if ratio.2 ≤ ratio.1 then ((Nat.toDigits 10 (ratio.1 / ratio.2)).length : Int) - 1
  else
    let places := (Nat.toDigits 10 (ratio.2 / ratio.1)).length
    if ratio.1 * Nat.pow 10 (places - 1) = ratio.2 then 1 - (places : Int) else -(places : Int)

/-- The neighbour of `d` on the grid of `10 ^ k` that rounds to it. -/
def Dyadic.onGrid? (tie : Tie) (d : Dyadic) (k : Int) : Option Nat :=
  let ratio := d.ratio (-k)
  let c := ratio.1 / ratio.2
  let interval := d.interval
  match interval.holds c k, interval.holds (c + 1) k with
  | true, true => some (roundRatio tie ratio.1 ratio.2)
  | true, false => some c
  | false, true => some (c + 1)
  | false, false => none

def Digits.trim : Nat → Digits → Digits
  | 0, d => d
  | n + 1, d =>
    if d.digits ≠ 0 ∧ d.digits % 10 = 0 then Digits.trim n ⟨d.digits / 10, d.exponent + 1⟩ else d

/-- Seventeen digits always suffice. -/
def Dyadic.shortest (tie : Tie) (d : Dyadic) : Digits :=
  let top := d.magnitude
  let found := (List.range 17).findSome? fun (n : Nat) =>
    (d.onGrid? tie (top - n)).map fun c => (⟨c, top - n⟩ : Digits)
  (found.getD ⟨0, 0⟩).trim 18

end CaptureAudit.Decimal
