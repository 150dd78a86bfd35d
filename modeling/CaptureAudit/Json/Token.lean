import CaptureAudit.Json.Value
import CaptureAudit.Decimal.Leading
import CaptureAudit.Text.Source

/-! The tokens of a document. A text with a lone surrogate or a byte that belongs to no character
and a number beyond every binary64 value are tokens without a value: a reader that wants the value
refuses them, one that passes over them does not. Where no token begins, the list ends with
`broken`. -/

namespace CaptureAudit.Json

open Text (Source)

inductive Token where
  | openBrace
  | closeBrace
  | openBracket
  | closeBracket
  | colon
  | comma
  | null
  | bool (b : Bool)
  | number (n : Option Number)
  | text (s : Option String)
  | broken
  deriving DecidableEq

def isBlank (c : Char) : Bool :=
  c = ' ' || c = '\n' || c = '\t' || c = '\r'

/-- The source after the given characters. -/
def dropLiteral : List Char → Source → Option Source
  | [], r => some r
  | c :: cs, some d :: r => if c = d then dropLiteral cs r else none
  | _ :: _, _ => none

theorem length_dropLiteral {cs : List Char} {r rest : Source} (h : dropLiteral cs r = some rest) :
    rest.length ≤ r.length := by
  induction cs generalizing r with
  | nil => simp_all [dropLiteral]
  | cons c cs ih =>
    match r, h with
    | some d :: r, h =>
      simp only [dropLiteral] at h
      split at h
      · have := ih h
        simp only [List.length_cons]
        omega
      · contradiction

/-- A run of digits and the source after it. -/
def digitRun : Source → List Char × Source
  | some c :: rest =>
    if c.isDigit then (c :: (digitRun rest).1, (digitRun rest).2) else ([], some c :: rest)
  | r => ([], r)

theorem length_digitRun (r : Source) : (digitRun r).2.length ≤ r.length := by
  induction r with
  | nil => simp [digitRun]
  | cons c rest ih =>
    cases c with
    | none => simp [digitRun]
    | some c =>
      unfold digitRun
      split
      · simp only [List.length_cons]
        omega
      · simp

/-- A sign before digits, `-` alone or either. -/
def dropMinus : Source → Bool × Source
  | some '-' :: r => (true, r)
  | r => (false, r)

def dropSign : Source → Bool × Source
  | some '-' :: r => (true, r)
  | some '+' :: r => (false, r)
  | r => (false, r)

theorem length_dropMinus (r : Source) : (dropMinus r).2.length ≤ r.length := by
  unfold dropMinus
  split <;> simp

theorem length_dropSign (r : Source) : (dropSign r).2.length ≤ r.length := by
  unfold dropSign
  split <;> simp

/-- Digits after a point, none when there is no point. -/
def fractionDigits : Source → Option (List Char × Source)
  | some '.' :: r => if (digitRun r).1.isEmpty then none else some (digitRun r)
  | r => some ([], r)

theorem length_fractionDigits {r rest : Source} {ds : List Char}
    (h : fractionDigits r = some (ds, rest)) : rest.length ≤ r.length := by
  unfold fractionDigits at h
  split at h
  · next r =>
    split at h
    · contradiction
    · have := length_digitRun r
      simp only [Option.some.injEq] at h
      simp only [h] at this
      simp only [List.length_cons]
      omega
  · simp_all

/-- The exponent, `none` inside when there is none. -/
def exponentDigits (r : Source) : Option (Option Int × Source) :=
  match r with
  | some c :: rest =>
    if c = 'e' ∨ c = 'E' then
      let sign := dropSign rest
      let run := digitRun sign.2
      if run.1.isEmpty then none
      else
        let n : Int := Decimal.digitsValue run.1
        some (some (if sign.1 then -n else n), run.2)
    else some (none, r)
  | _ => some (none, r)

theorem length_exponentDigits {r rest : Source} {e : Option Int}
    (h : exponentDigits r = some (e, rest)) : rest.length ≤ r.length := by
  unfold exponentDigits at h
  split at h
  · next c tail =>
    split at h
    · dsimp only at h
      split at h
      · contradiction
      · have hs := length_dropSign tail
        have hd := length_digitRun (dropSign tail).2
        simp only [Option.some.injEq, Prod.mk.injEq] at h
        rw [← h.2]
        simp only [List.length_cons]
        omega
    · simp_all
  · simp_all

/-- The value of a number by its sign, digits, fraction digits and exponent. Digits alone are a
whole number when 64 bits hold it; negative zero and all others are binary64 values, read by their
leading digits. -/
def numberValue (negative : Bool) (ds fs : List Char) (exponent : Option Int) : Option Number :=
  let n := Decimal.digitsValue ds
  if fs.isEmpty ∧ exponent = none ∧ !negative ∧ n < 0x10000000000000000 then some (.whole n)
  else if fs.isEmpty ∧ exponent = none ∧ negative ∧ 0 < n ∧ n ≤ 0x8000000000000000 then
    some (.whole (-(n : Int)))
  else
    let leading := Decimal.leadingDigits ds fs
    let x := { leading with exponent := leading.exponent + exponent.getD 0 }.scaled
    if x.isFinite then some (.real (if negative then -x else x)) else none

theorem length_digitRun_lt {r : Source} (h : (digitRun r).1.isEmpty = false) :
    (digitRun r).2.length < r.length := by
  match r, h with
  | some d :: s, h =>
    have := length_digitRun s
    unfold digitRun at h ⊢
    split
    · simp only [List.length_cons]
      omega
    · next hd => simp [hd] at h
  | none :: s, h => simp [digitRun] at h
  | [], h => simp [digitRun] at h

/-- A leading zero stands alone before the point. -/
def numberToken (r : Source) : Option (Token × Source) :=
  let sign := dropMinus r
  let run := digitRun sign.2
  if run.1.isEmpty || (run.1.head? == some '0' && 1 < run.1.length) then none
  else
    match fractionDigits run.2 with
    | none => none
    | some (fs, r) =>
      match exponentDigits r with
      | none => none
      | some (e, r) => some (.number (numberValue sign.1 run.1 fs e), r)

/-- A number takes at least one character. -/
theorem length_numberToken {r rest : Source} {t : Token} (h : numberToken r = some (t, rest)) :
    rest.length < r.length := by
  unfold numberToken at h
  dsimp only at h
  split at h
  · contradiction
  · next hne =>
    split at h
    · contradiction
    · next fs r₁ hf =>
      split at h
      · contradiction
      · next e r₂ he =>
        have h1 := length_dropMinus r
        have h2 : (digitRun (dropMinus r).2).2.length < (dropMinus r).2.length :=
          length_digitRun_lt (by simp_all)
        have h3 := length_fractionDigits hf
        have h4 := length_exponentDigits he
        simp only [Option.some.injEq, Prod.mk.injEq] at h
        rw [← h.2]
        omega

/-- A part of a text between quotes: a character, a unit of an escape `\uXXXX`, or a byte that
belongs to no character. -/
inductive Piece where
  | char (c : Char)
  | unit (u : Nat)
  | stray
  deriving DecidableEq

def hexDigit? (c : Char) : Option Nat :=
  if c.isDigit then some (c.toNat - '0'.toNat)
  else if 'a' ≤ c ∧ c ≤ 'f' then some (c.toNat - 'a'.toNat + 10)
  else if 'A' ≤ c ∧ c ≤ 'F' then some (c.toNat - 'A'.toNat + 10)
  else none

def hexValue? (a b c d : Char) : Option Nat := do
  some ((((← hexDigit? a) * 16 + (← hexDigit? b)) * 16 + (← hexDigit? c)) * 16 + (← hexDigit? d))

def simpleEscape? (c : Char) : Option Char :=
  if c = '"' ∨ c = '\\' ∨ c = '/' then some c
  else if c = 'b' then some '\x08'
  else if c = 'f' then some '\x0c'
  else if c = 'n' then some '\n'
  else if c = 'r' then some '\r'
  else if c = 't' then some '\t'
  else none

/-- The pieces up to the closing quote, and the source after it. -/
def pieces : Source → Option (List Piece × Source)
  | [] => none
  | none :: r => (pieces r).map fun p => (.stray :: p.1, p.2)
  | some '"' :: r => some ([], r)
  | some '\\' :: some 'u' :: some a :: some b :: some c :: some d :: r =>
    match hexValue? a b c d with
    | some u => (pieces r).map fun p => (.unit u :: p.1, p.2)
    | none => none
  | some '\\' :: some e :: r =>
    match simpleEscape? e with
    | some c => (pieces r).map fun p => (.char c :: p.1, p.2)
    | none => none
  | some c :: r =>
    if c.toNat < 0x20 ∨ c = '\\' then none else (pieces r).map fun p => (.char c :: p.1, p.2)

theorem length_pieces {r rest : Source} {ps : List Piece} (h : pieces r = some (ps, rest)) :
    rest.length ≤ r.length := by
  fun_induction pieces r generalizing ps rest <;> simp_all <;> grind

def isHigh (u : Nat) : Bool := 0xd800 ≤ u && u < 0xdc00

def isLow (u : Nat) : Bool := 0xdc00 ≤ u && u < 0xe000

/-- The characters of the pieces: two surrogates join to one character, a lone one is none. -/
def joinPieces : List Piece → Option (List Char)
  | [] => some []
  | .stray :: _ => none
  | .char c :: r => (joinPieces r).map (c :: ·)
  | .unit u :: .unit v :: r =>
    if isHigh u && isLow v then
      (joinPieces r).map (Char.ofNat (0x10000 + (u - 0xd800) * 0x400 + (v - 0xdc00)) :: ·)
    else if isHigh u || isLow u then none
    else (joinPieces (.unit v :: r)).map (Char.ofNat u :: ·)
  | .unit u :: r =>
    if isHigh u || isLow u then none else (joinPieces r).map (Char.ofNat u :: ·)

def textToken (r : Source) : Option (Token × Source) :=
  (pieces r).map fun p => (.text ((joinPieces p.1).map String.ofList), p.2)

def tokenAt (c : Char) (r : Source) : Option (Token × Source) :=
  if c = '\x7b' then some (.openBrace, r)
  else if c = '\x7d' then some (.closeBrace, r)
  else if c = '[' then some (.openBracket, r)
  else if c = ']' then some (.closeBracket, r)
  else if c = ':' then some (.colon, r)
  else if c = ',' then some (.comma, r)
  else if c = '"' then textToken r
  else if c = 'n' then (dropLiteral ['u', 'l', 'l'] r).map (.null, ·)
  else if c = 't' then (dropLiteral ['r', 'u', 'e'] r).map (.bool true, ·)
  else if c = 'f' then (dropLiteral ['a', 'l', 's', 'e'] r).map (.bool false, ·)
  else numberToken (some c :: r)

theorem length_tokenAt {c : Char} {r rest : Source} {t : Token}
    (h : tokenAt c r = some (t, rest)) : rest.length ≤ r.length := by
  unfold tokenAt at h
  repeat' split at h
  all_goals first
    | (simp only [Option.some.injEq, Prod.mk.injEq] at h
       exact h.2 ▸ Nat.le_refl _)
    | (obtain ⟨q, hq, he⟩ := Option.map_eq_some_iff.mp h
       simp only [Prod.mk.injEq] at he
       rw [← he.2]
       exact length_dropLiteral hq)
    | (obtain ⟨q, hq, he⟩ := Option.map_eq_some_iff.mp h
       simp only [Prod.mk.injEq] at he
       rw [← he.2]
       exact length_pieces hq)
    | (have hl := length_numberToken h
       simp only [List.length_cons] at hl
       omega)

/-- The tokens of a document, blanks between them passed over. -/
def tokens : Source → List Token
  | [] => []
  | none :: _ => [.broken]
  | some c :: r =>
    if isBlank c then tokens r
    else
      match _h : tokenAt c r with
      | some (t, rest) => t :: tokens rest
      | none => [.broken]
  termination_by r => r.length
  decreasing_by
    · simp
    · have := length_tokenAt _h
      simp only [List.length_cons]
      omega

end CaptureAudit.Json
