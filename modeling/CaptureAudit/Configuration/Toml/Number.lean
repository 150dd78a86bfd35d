import CaptureAudit.Configuration.Place
import CaptureAudit.Decimal.Reading
import CaptureAudit.Json.Token

/-! Numbers and truth values of a TOML document. A whole number has 64 bits, and any other number
has a finite binary64 value unless it is named `inf` or `nan`. -/

namespace CaptureAudit.Toml

/-- Digits, between which single underscores may stand. -/
def digits? (cs : List Char) : Option (List Char) :=
  let parts := Text.splitChars '_' cs
  if parts.all fun part => !part.isEmpty && part.all Char.isDigit then some parts.flatten else none

/-- Digits without a leading zero. -/
def wholeDigits? (cs : List Char) : Option (List Char) := do
  let ds ← digits? cs
  if 1 < ds.length ∧ ds.head? = some '0' then none else some ds

/-- Digits of another base after `0x`, `0o` or `0b`. -/
def basedNumber? (base : Nat) (cs : List Char) : Option Int := do
  let parts := Text.splitChars '_' cs
  if parts.any (·.isEmpty) then none
  else
    let ds ← parts.flatten.mapM Json.hexDigit?
    let n := ds.foldl (fun n d => base * n + d) 0
    if ds.all (· < base) ∧ n < 0x8000000000000000 then some n else none

def signed (negative : Bool) (n : Nat) : Option Int :=
  if negative then if n ≤ 0x8000000000000000 then some (-(n : Int)) else none
  else if n < 0x8000000000000000 then some n else none

def dropSign (cs : List Char) : Bool × List Char :=
  match cs with
  | '-' :: r => (true, r)
  | '+' :: r => (false, r)
  | r => (false, r)

/-- The exponent of a number, with an optional sign. -/
def exponent? (cs : List Char) : Option Int := do
  let (negative, r) := dropSign cs
  let ds ← digits? r
  let n := Decimal.digitsValue ds
  some (if negative then -n else n)

def number? (negative : Bool) (cs : List Char) : Option Setting := do
  let isMark (c : Char) : Bool := c = 'e' || c = 'E'
  let mantissa := cs.takeWhile (!isMark ·)
  let whole ← wholeDigits? (mantissa.takeWhile (· ≠ '.'))
  let part ← match mantissa.dropWhile (· ≠ '.') with
    | [] => some none
    | _ :: r => (digits? r).map some
  let exponent ← match cs.dropWhile (!isMark ·) with
    | [] => some none
    | _ :: r => (exponent? r).map some
  match part, exponent with
  | none, none => (signed negative (Decimal.digitsValue whole)).map .whole
  | _, _ =>
    let places := part.getD []
    let x := Decimal.nearest (Decimal.digitsValue (whole ++ places))
      (exponent.getD 0 - places.length)
    if x.isFinite then some (.real (if negative then -x else x)) else none

/-- A number or truth value. -/
def plain? (cs : List Char) : Option Setting :=
  match cs with
  | ['t', 'r', 'u', 'e'] => some (.bool true)
  | ['f', 'a', 'l', 's', 'e'] => some (.bool false)
  | '0' :: 'x' :: r => (basedNumber? 16 r).map .whole
  | '0' :: 'o' :: r => (basedNumber? 8 r).map .whole
  | '0' :: 'b' :: r => (basedNumber? 2 r).map .whole
  | _ =>
    match dropSign cs with
    | (_, ['i', 'n', 'f']) => (Decimal.read (String.ofList cs)).toOption.map .real
    | (_, ['n', 'a', 'n']) => (Decimal.read (String.ofList cs)).toOption.map .real
    | (negative, r) => number? negative r

def isPlain (c : Char) : Bool :=
  Place.isNameChar c || c = '+' || c = '.'

end CaptureAudit.Toml
