import CaptureAudit.Json.Reader

/-! What a check says of an archive, and how often each outcome occurs. -/

namespace CaptureAudit

/-- A check passes, passes with issues, fails, or did not run to its end. -/
inductive Outcome where
  | pass
  | passWithIssues
  | fail
  | skipped
  deriving DecidableEq, Repr

namespace Outcome

def all : List Outcome := [.pass, .passWithIssues, .fail, .skipped]

def label : Outcome → String
  | .pass => "PASS"
  | .passWithIssues => "WARN"
  | .fail => "FAIL"
  | .skipped => "SKIP"

def code : Outcome → Nat
  | .pass => 0
  | .passWithIssues => 1
  | .fail => 2
  | .skipped => 3

instance : Ord Outcome := ⟨compareOn code⟩

instance : Std.TransOrd Outcome :=
  inferInstanceAs (Std.TransCmp (compareOn code))

instance : Std.LawfulEqOrd Outcome where
  eq_of_compare {a b} h := by
    have h : a.code = b.code := Std.LawfulEqOrd.eq_of_compare h
    cases a <;> cases b <;> simp_all [code]

inductive ParseError where
  | unknownLabel (label : String)
  | unknownCode (code : Nat)
  deriving DecidableEq, Repr

def ParseError.message : ParseError → String
  | .unknownLabel label => s!"unknown outcome label '{label}'"
  | .unknownCode code => s!"unknown outcome code {code}"

def ofLabel (s : String) : Except ParseError Outcome :=
  match all.find? (·.label == s) with
  | some o => .ok o
  | none => .error (.unknownLabel s)

def ofCode (n : Nat) : Except ParseError Outcome :=
  match all.find? (·.code == n) with
  | some o => .ok o
  | none => .error (.unknownCode n)

def refusal (e : ParseError) : Json.Fault := .mismatch (.refused e.message)

def read : Json.Reader Outcome := fun n =>
  (Json.Reader.text n).bind fun s => (ofLabel s).mapError refusal

def readCode : Json.Reader Outcome := fun n =>
  (Json.Reader.word64 n).bind fun k => (ofCode k.toNat).mapError refusal

def toJson (o : Outcome) : Json.Value := .text o.label

end Outcome

/-- How often each outcome occurs; an outcome may be missing. -/
abbrev Tally := SortedMap Outcome Nat

namespace Tally

def count (t : Tally) (o : Outcome) : Nat := (t.get? o).getD 0

def zero : Tally := .ofList (Outcome.all.map fun o => (o, 0))

def ofOutcomes (os : List Outcome) : Tally :=
  os.foldl (fun t o => t.alter o 0 (· + 1)) zero

def read : Json.Reader Tally :=
  Json.Reader.map (fun s => (Outcome.ofLabel s).mapError Outcome.refusal) Json.Reader.size

def toJson (t : Tally) : Json.Value :=
  .object (t.entries.map fun e => (e.1.label, .ofNat e.2))

/-- `PASS=1 WARN=0` and so on. -/
def describe (t : Tally) : String :=
  String.intercalate " " (t.entries.map fun e => s!"{e.1.label}={e.2}")

end Tally

end CaptureAudit
