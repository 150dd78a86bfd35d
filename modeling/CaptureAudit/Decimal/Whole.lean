import CaptureAudit.Decimal.Reading

/-! Whole numbers of 64 bits read from decimal texts. -/

namespace CaptureAudit.Decimal

inductive WholeFault where
  | empty
  | invalid
  | tooLarge
  deriving DecidableEq, Repr

def WholeFault.message : WholeFault → String
  | .empty => "cannot parse integer from empty string"
  | .invalid => "invalid digit found in string"
  | .tooLarge => "number too large to fit in target type"

/-- Go on from `n` with further digits. The first character that is no digit or leads above the
bound decides. -/
def wholeFrom (bound : Nat) : Nat → List Char → Except WholeFault Nat
  | n, [] => .ok n
  | n, c :: cs =>
    if !c.isDigit then .error .invalid
    else
      let next := 10 * n + digitsValue [c]
      if bound < next then .error .tooLarge else wholeFrom bound next cs

/-- Digits, of which there is at least one. -/
def wholeOf (bound : Nat) (cs : List Char) : Except WholeFault Nat :=
  if cs.isEmpty then .error .invalid else wholeFrom bound 0 cs

/-- A number of 64 bits without sign; a plus sign may stand before it. -/
def readWord (s : String) : Except WholeFault UInt64 :=
  let found : Except WholeFault Nat := match s.toList with
    | [] => .error .empty
    | '+' :: cs => wholeOf 0xffffffffffffffff cs
    | cs => wholeOf 0xffffffffffffffff cs
  found.map UInt64.ofNat

/-- A number of 64 bits, one of them the sign. -/
def readSigned? (s : String) : Option Int :=
  match s.toList with
  | '-' :: cs => ((wholeOf 0x8000000000000000 cs).toOption).map fun n => -(n : Int)
  | '+' :: cs => ((wholeOf 0x7fffffffffffffff cs).toOption).map Int.ofNat
  | cs => ((wholeOf 0x7fffffffffffffff cs).toOption).map Int.ofNat

end CaptureAudit.Decimal
