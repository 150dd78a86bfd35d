import CaptureAudit.Decimal.Style

/-! Moments of universal time as calendar fields. A sixtieth second is a leap second. -/

namespace CaptureAudit

def isLeapYear (year : Int) : Bool :=
  year % 4 = 0 && (year % 100 ≠ 0 || year % 400 = 0)

def daysInMonth (year : Int) (month : Nat) : Nat :=
  if month = 2 then if isLeapYear year then 29 else 28
  else if month = 4 ∨ month = 6 ∨ month = 9 ∨ month = 11 then 30
  else 31

structure Civil where
  year : Int
  month : Nat
  day : Nat
  hour : Nat
  minute : Nat
  second : Nat
  nanos : Nat
  deriving DecidableEq, Repr

def Civil.Valid (c : Civil) : Prop :=
  (-262143 ≤ c.year ∧ c.year ≤ 262142) ∧ (1 ≤ c.month ∧ c.month ≤ 12) ∧
    (1 ≤ c.day ∧ c.day ≤ daysInMonth c.year c.month) ∧
    c.hour < 24 ∧ c.minute < 60 ∧ c.second ≤ 60 ∧ c.nanos < 1000000000

instance (c : Civil) : Decidable c.Valid :=
  inferInstanceAs (Decidable (_ ∧ _))

structure Timestamp where
  civil : Civil
  valid : civil.Valid
  deriving DecidableEq

/-- Days from the first of March of year 0 to a date, counting years from March on so that the day
of a leap year comes last. -/
def dayNumber (year : Int) (month day : Nat) : Int :=
  let y := if month ≤ 2 then year - 1 else year
  let m : Int := if month ≤ 2 then month + 9 else month - 3
  365 * y + y.fdiv 4 - y.fdiv 100 + y.fdiv 400 + (153 * m + 2) / 5 + day - 1

/-- The date of a day number, by the 400 years after which the calendar repeats. -/
def dateOfDay (n : Int) : Int × Nat × Nat :=
  let era := n.fdiv 146097
  let dayOfEra := n - era * 146097
  let yearOfEra := (dayOfEra - dayOfEra / 1460 + dayOfEra / 36524 - dayOfEra / 146096) / 365
  let dayOfYear := dayOfEra - (365 * yearOfEra + yearOfEra / 4 - yearOfEra / 100)
  let m := (5 * dayOfYear + 2) / 153
  let day := (dayOfYear - (153 * m + 2) / 5 + 1).toNat
  let month := (if m < 10 then m + 3 else m - 9).toNat
  (yearOfEra + era * 400 + (if month ≤ 2 then 1 else 0), month, day)

/-- The fields so many minutes earlier. -/
def Civil.minutesBefore (c : Civil) (minutes : Int) : Civil :=
  if minutes = 0 then c
  else
    let total := dayNumber c.year c.month c.day * 1440 + c.hour * 60 + c.minute - minutes
    let date := dateOfDay (total.fdiv 1440)
    let inDay := (total.fmod 1440).toNat
    { c with
      year := date.1, month := date.2.1, day := date.2.2
      hour := inDay / 60, minute := inDay % 60 }

/-- `n` with zeros in front up to the width. -/
def padNat (width n : Nat) : List Char :=
  let ds := Decimal.natText n
  List.replicate (width - ds.length) '0' ++ ds

/-- Years of other than four digits carry their sign. -/
def yearText (year : Int) : List Char :=
  if 0 ≤ year ∧ year ≤ 9999 then padNat 4 year.toNat
  else (if year < 0 then '-' else '+') :: padNat 4 year.natAbs

/-- As few groups of three digits as hold the fraction. -/
def fractionText (nanos : Nat) : List Char :=
  if nanos = 0 then []
  else if nanos % 1000000 = 0 then '.' :: padNat 3 (nanos / 1000000)
  else if nanos % 1000 = 0 then '.' :: padNat 6 (nanos / 1000)
  else '.' :: padNat 9 nanos

def Civil.secondsText (c : Civil) : List Char :=
  yearText c.year ++ '-' :: padNat 2 c.month ++ '-' :: padNat 2 c.day ++ 'T' :: padNat 2 c.hour ++
    ':' :: padNat 2 c.minute ++ ':' :: padNat 2 c.second

def Timestamp.toText (t : Timestamp) : String :=
  String.ofList (t.civil.secondsText ++ fractionText t.civil.nanos ++ ['Z'])

def Timestamp.toSecondsText (t : Timestamp) : String :=
  String.ofList (t.civil.secondsText ++ ['Z'])

end CaptureAudit
