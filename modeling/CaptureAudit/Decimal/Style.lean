import CaptureAudit.Decimal.Shortest

/-! Texts of binary64 values. A style fixes when the digits are written without an exponent and how
whole numbers and exponents look; the digits are the shortest ones, or a fixed number of places. -/

namespace CaptureAudit.Decimal

/-- `plain` bounds the exponents of the first digit that are written without an exponent; with
`none` all are. `pointed` keeps a zero after the point of whole numbers. -/
structure Style where
  plain : Option (Int × Int)
  pointed : Bool
  plus : Bool
  tie : Tie

/-- Numbers as people read them: never an exponent, no point in whole numbers. -/
def Style.display : Style := ⟨none, false, false, .up⟩

/-- Numbers in a listing of a value's parts. -/
def Style.debug : Style := ⟨some (-4, 15), true, false, .up⟩

/-- Numbers in a JSON document. -/
def Style.document : Style := ⟨some (-5, 15), true, true, .even⟩

def natText (n : Nat) : List Char :=
  Nat.toDigits 10 n

def intText (n : Int) : List Char :=
  if n < 0 then '-' :: natText n.natAbs else natText n.natAbs

/-- The digits with a point after the digit of exponent zero. -/
def plainText (pointed : Bool) (d : Digits) : List Char :=
  let ds := natText d.digits
  if 0 ≤ d.exponent then
    ds ++ List.replicate d.exponent.toNat '0' ++ if pointed then ['.', '0'] else []
  else
    let places := (-d.exponent).toNat
    if ds.length ≤ places then ['0', '.'] ++ List.replicate (places - ds.length) '0' ++ ds
    else ds.take (ds.length - places) ++ ['.'] ++ ds.drop (ds.length - places)

/-- One digit before the point, then the exponent. -/
def exponentText (plus : Bool) (d : Digits) : List Char :=
  let ds := natText d.digits
  let exponent := d.exponent + ds.length - 1
  let mantissa := match ds with
    | first :: second :: rest => first :: '.' :: second :: rest
    | _ => ds
  mantissa ++ ['e'] ++ (if plus && 0 ≤ exponent then ['+'] else []) ++ intText exponent

def Style.magnitudeText (style : Style) (d : Dyadic) : List Char :=
  if d.mantissa = 0 then if style.pointed then ['0', '.', '0'] else ['0']
  else
    let digits := d.shortest style.tie
    let exponent := digits.exponent + (natText digits.digits).length - 1
    match style.plain with
    | none => plainText style.pointed digits
    | some (least, greatest) =>
      if least ≤ exponent ∧ exponent ≤ greatest then plainText style.pointed digits
      else exponentText style.plus digits

def Style.write (style : Style) (x : Float) : String :=
  if x.isNaN then "NaN"
  else
    let sign := if isNegative x then ['-'] else []
    if x.isInf then String.ofList (sign ++ ['i', 'n', 'f'])
    else String.ofList (sign ++ style.magnitudeText (Dyadic.ofFloat x))

/-- The value rounded to so many places, a half going to the even neighbour. -/
def fixedPlaces (places : Nat) (x : Float) : String :=
  if x.isNaN then "NaN"
  else
    let sign := if isNegative x then ['-'] else []
    if x.isInf then String.ofList (sign ++ ['i', 'n', 'f'])
    else
      let ratio := (Dyadic.ofFloat x).ratio places
      let n := roundRatio .even ratio.1 ratio.2
      let whole := natText (n / Nat.pow 10 places)
      let part := natText (n % Nat.pow 10 places)
      let fraction :=
        if places = 0 then [] else '.' :: (List.replicate (places - part.length) '0' ++ part)
      String.ofList (sign ++ whole ++ fraction)

end CaptureAudit.Decimal
