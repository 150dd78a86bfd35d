/-! Binary64 values read from decimal texts. -/

namespace CaptureAudit.Decimal

/-- The value nearest to `digits · 10 ^ exponent`. Numbers too large or too small for any value are
told by the exponent of their first digit alone, so that no power of ten is computed for them. -/
def nearest (digits : Nat) (exponent : Int) : Float :=
  let first := exponent + (Nat.toDigits 10 digits).length
  if digits = 0 ∨ first < -330 then 0
  else if 310 < first then Float.ofBits 0x7ff0000000000000
  else Float.ofScientific digits (exponent < 0) exponent.natAbs

def digitsValue (ds : List Char) : Nat :=
  ds.foldl (fun n c => 10 * n + (c.toNat - '0'.toNat)) 0

inductive Refusal where
  | empty
  | invalid
  deriving DecidableEq, Repr

def Refusal.message : Refusal → String
  | .empty => "cannot parse float from empty string"
  | .invalid => "invalid float literal"

/-- The exponent after `e`, with an optional sign. -/
def exponent? (cs : List Char) : Option Int :=
  let (negative, ds) := match cs with
    | '-' :: r => (true, r)
    | '+' :: r => (false, r)
    | r => (false, r)
  if ds.isEmpty || !ds.all Char.isDigit then none
  else some (if negative then -(digitsValue ds : Int) else digitsValue ds)

/-- Digits with an optional point, then an optional exponent. -/
def magnitude? (cs : List Char) : Option Float :=
  let whole := cs.takeWhile Char.isDigit
  let afterWhole := cs.dropWhile Char.isDigit
  let (part, rest) := match afterWhole with
    | '.' :: r => (r.takeWhile Char.isDigit, r.dropWhile Char.isDigit)
    | r => ([], r)
  if whole.isEmpty && part.isEmpty then none
  else
    let exponent := match rest with
      | [] => some 0
      | 'e' :: r => exponent? r
      | 'E' :: r => exponent? r
      | _ => none
    exponent.map fun e => nearest (digitsValue (whole ++ part)) (e - part.length)

def named? (cs : List Char) : Option Float :=
  match String.ofList (cs.map Char.toLower) with
  | "inf" => some (Float.ofBits 0x7ff0000000000000)
  | "infinity" => some (Float.ofBits 0x7ff0000000000000)
  | "nan" => some (Float.ofBits 0x7ff8000000000000)
  | _ => none

/-- A number with an optional sign, or a name of an infinity or of NaN in any case. -/
def read (s : String) : Except Refusal Float :=
  if s.isEmpty then .error .empty
  else
    let (negative, cs) := match s.toList with
      | '-' :: r => (true, r)
      | '+' :: r => (false, r)
      | r => (false, r)
    match (named? cs).or (magnitude? cs) with
    | some x => .ok (if negative then -x else x)
    | none => .error .invalid

end CaptureAudit.Decimal
