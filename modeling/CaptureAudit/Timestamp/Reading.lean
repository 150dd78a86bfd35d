import CaptureAudit.Timestamp.Basic
import CaptureAudit.Decimal.Reading
import CaptureAudit.Text.Blank

/-! Moments read from texts such as `2024-05-01T12:00:00.5+02:00`. Blanks may stand before each
field and sign, fields may be short, and the offset is taken off to give universal time. -/

namespace CaptureAudit.Timestamp

inductive Fault where
  | tooShort
  | invalid
  | outOfRange
  | impossible
  | tooLong
  deriving DecidableEq, Repr

def Fault.message : Fault → String
  | .tooShort => "premature end of input"
  | .invalid => "input contains invalid characters"
  | .outOfRange => "input is out of range"
  | .impossible => "no possible date and time matching input"
  | .tooLong => "trailing input"

/-- A step that reads a value off the front of a text. -/
abbrev Step (α : Type) := StateT (List Char) (Except Fault) α

/-- One to `width` digits, or any number of them. -/
def digits (width : Option Nat) : Step Nat := fun cs =>
  match cs with
  | [] => .error .tooShort
  | c :: _ =>
    if !c.isDigit then .error .invalid
    else
      let run := cs.takeWhile Char.isDigit
      let ds := match width with
        | some w => run.take w
        | none => run
      .ok (Decimal.digitsValue ds, cs.drop ds.length)

def blanks : Step Unit := fun cs => .ok ((), Text.trimLeft cs)

def fault {α : Type} (f : Fault) : Step α := fun _ => .error f

def literal (c : Char) : Step Unit := fun cs =>
  match cs with
  | [] => .error .tooShort
  | d :: rest => if d = c then .ok ((), rest) else .error .invalid

/-- A number of up to two digits between bounds, after blanks. -/
def field (least greatest : Nat) : Step Nat := do
  blanks
  let n ← digits (some 2)
  if n < least ∨ greatest < n then fault .outOfRange else pure n

/-- Four digits at most, or a sign and any number of digits. -/
def yearField : Step Int := do
  blanks
  let year : Int ← match ← get with
    | '-' :: rest => do
      set rest
      let n ← digits none
      pure (-(n : Int))
    | '+' :: rest => do
      set rest
      let n ← digits none
      pure (n : Int)
    | _ => do
      let n ← digits (some 4)
      pure (n : Int)
  if year < -0x80000000 ∨ 0x80000000 ≤ year then fault .outOfRange else pure year

def separator : Step Unit := fun cs =>
  match cs with
  | [] => .error .tooShort
  | c :: rest => if c = 'T' ∨ c = 't' ∨ c = ' ' then .ok ((), rest) else .error .invalid

/-- Digits after a point, cut to nine. -/
def fraction : Step Nat := fun cs =>
  match cs with
  | '.' :: rest =>
    match rest with
    | [] => .error .tooShort
    | c :: _ =>
      if !c.isDigit then .error .invalid
      else
        let run := rest.takeWhile Char.isDigit
        let kept := run.take 9
        .ok (Decimal.digitsValue kept * Nat.pow 10 (9 - kept.length), rest.drop run.length)
  | _ => .ok (0, cs)

def twoDigits (greatestTens : Char) : Step Nat := fun cs =>
  match cs with
  | a :: b :: rest =>
    if a.isDigit ∧ b.isDigit then
      if a ≤ greatestTens then .ok (Decimal.digitsValue [a, b], rest) else .error .outOfRange
    else .error .invalid
  | [a] => if a.utf8Size = 1 then .error .tooShort else .error .invalid
  | [] => .error .tooShort

/-- Minutes east of Greenwich. -/
def offset : Step Int := fun cs =>
  match cs with
  | [] => .error .tooShort
  | c :: rest =>
    if c = 'Z' ∨ c = 'z' then .ok (0, rest)
    else if (cs.take 3).map Char.toLower = ['u', 't', 'c'] then .ok (0, cs.drop 3)
    else if c = '+' ∨ c = '-' ∨ c = '−' then do
      let (hours, afterHours) ← twoDigits '9' rest
      let (minutes, afterMinutes) ←
        twoDigits '5' (afterHours.dropWhile fun c => c = ':' || Text.isBlank c)
      let east : Int := hours * 60 + minutes
      .ok (if c = '+' then east else -east, afterMinutes)
    else .error .invalid

/-- The fields as written, and the offset. -/
def fields : Step (Civil × Int) := do
  let year ← yearField
  blanks
  literal '-'
  let month ← field 1 12
  blanks
  literal '-'
  let day ← field 1 31
  separator
  let hour ← field 0 23
  blanks
  literal ':'
  let minute ← field 0 59
  blanks
  literal ':'
  let second ← field 0 60
  let nanos ← fraction
  blanks
  let east ← offset
  pure (⟨year, month, day, hour, minute, second, nanos⟩, east)

def read (s : String) : Except Fault Timestamp := do
  let ((civil, east), rest) ← fields s.toList
  if !(Text.trimLeft rest).isEmpty then .error .tooLong
  else if ¬ civil.Valid ∨ 1440 ≤ east.natAbs then .error .outOfRange
  else
    let universal := civil.minutesBefore east
    if h : universal.Valid then .ok ⟨universal, h⟩ else .error .impossible

end CaptureAudit.Timestamp
