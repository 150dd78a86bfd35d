import CaptureAudit.Configuration.Toml.Blank
import CaptureAudit.Json.Token

/-! Texts of a TOML document. Between double quotes a backslash begins an escape, between single
quotes it stands for itself. Three quotes of either kind enclose a text of several lines. Every
reader starts after the opening quotes and gives the text and what follows the closing quotes. -/

namespace CaptureAudit.Toml

/-- The character that so many digits in base sixteen stand for, and the text after them. -/
def coded? (width : Nat) (cs : List Char) : Option (Char × List Char) := do
  let digits ← (cs.take width).mapM Json.hexDigit?
  let n := digits.foldl (fun n d => 16 * n + d) 0
  if digits.length = width ∧ n.isValidChar then some (Char.ofNat n, cs.drop width) else none

/-- The character of an escape, whose backslash is left out here. -/
def escaped? : List Char → Option (Char × List Char)
  | [] => none
  | 'x' :: r => coded? 2 r
  | 'u' :: r => coded? 4 r
  | 'U' :: r => coded? 8 r
  | 'e' :: r => some ('\x1b', r)
  | c :: r => if c = '/' then none else (Json.simpleEscape? c).map fun d => (d, r)

theorem length_coded? {width : Nat} {cs rest : List Char} {c : Char}
    (h : coded? width cs = some (c, rest)) : rest.length ≤ cs.length := by
  obtain ⟨digits, _, h⟩ := Option.bind_eq_some_iff.mp h
  dsimp only at h
  split at h
  · simp only [Option.some.injEq, Prod.mk.injEq] at h
    rw [← h.2, List.length_drop]
    omega
  · contradiction

theorem length_escaped? {cs rest : List Char} {c : Char} (h : escaped? cs = some (c, rest)) :
    rest.length < cs.length := by
  unfold escaped? at h
  split at h
  · contradiction
  · exact Nat.lt_succ_of_le (length_coded? h)
  · exact Nat.lt_succ_of_le (length_coded? h)
  · exact Nat.lt_succ_of_le (length_coded? h)
  · simp_all
  · split at h
    · contradiction
    · obtain ⟨d, _, h⟩ := Option.map_eq_some_iff.mp h
      simp_all

/-- A text on one line between double quotes. -/
def quotedText (cs : List Char) : Option (List Char × List Char) :=
  match cs with
  | [] => none
  | '"' :: r => some ([], r)
  | '\\' :: r =>
    match _h : escaped? r with
    | some (c, rest) => (quotedText rest).map fun p => (c :: p.1, p.2)
    | none => none
  | c :: r => if isControl c then none else (quotedText r).map fun p => (c :: p.1, p.2)
  termination_by cs.length
  decreasing_by
    · have := length_escaped? _h
      simp only [List.length_cons]
      omega
    · simp

/-- A text on one line between single quotes. -/
def literalText (cs : List Char) : Option (List Char × List Char) :=
  let text := cs.takeWhile (· ≠ '\'')
  match cs.dropWhile (· ≠ '\'') with
  | _ :: rest => if text.any isControl then none else some (text, rest)
  | [] => none

def dropBlankLines : List Char → List Char
  | [] => []
  | '\r' :: '\n' :: cs => dropBlankLines cs
  | c :: cs => if Place.isSpace c || c = '\n' then dropBlankLines cs else c :: cs

theorem length_dropBlankLines (cs : List Char) : (dropBlankLines cs).length ≤ cs.length := by
  fun_induction dropBlankLines cs <;> simp only [List.length_cons, List.length_nil] <;> omega

/-- After a backslash at the end of a line the text goes on with the next character that is no
blank. -/
def continued? (cs : List Char) : Option (List Char) :=
  (afterBreak? (dropSpaces cs)).map dropBlankLines

theorem length_continued? {cs rest : List Char} (h : continued? cs = some rest) :
    rest.length < cs.length := by
  obtain ⟨r, hr, rfl⟩ := Option.map_eq_some_iff.mp h
  have h1 := length_afterBreak? hr
  have h2 : (dropSpaces cs).length ≤ cs.length := (List.dropWhile_suffix _).length_le
  have h3 := length_dropBlankLines r
  omega

/-- Up to two quotes that stand before the three closing ones belong to the text. -/
def closing (quote : Char) (cs : List Char) : List Char × List Char :=
  let own := (cs.take 2).takeWhile (· = quote)
  (own, cs.drop own.length)

/-- A text of several lines between double quotes. -/
def quotedLines (cs : List Char) : Option (List Char × List Char) :=
  match cs with
  | [] => none
  | '"' :: '"' :: '"' :: r => some (closing '"' r)
  | '\\' :: r =>
    match _he : escaped? r with
    | some (c, rest) => (quotedLines rest).map fun p => (c :: p.1, p.2)
    | none =>
      match _hc : continued? r with
      | some rest => quotedLines rest
      | none => none
  | '\r' :: '\n' :: r => (quotedLines r).map fun p => ('\r' :: '\n' :: p.1, p.2)
  | c :: r =>
    if isControl c && c ≠ '\n' then none else (quotedLines r).map fun p => (c :: p.1, p.2)
  termination_by cs.length
  decreasing_by
    · have := length_escaped? _he
      simp only [List.length_cons]
      omega
    · have := length_continued? _hc
      simp only [List.length_cons]
      omega
    · simp only [List.length_cons]
      omega
    · simp

/-- A text of several lines between single quotes. -/
def literalLines : List Char → Option (List Char × List Char)
  | [] => none
  | '\'' :: '\'' :: '\'' :: r => some (closing '\'' r)
  | '\r' :: '\n' :: r => (literalLines r).map fun p => ('\r' :: '\n' :: p.1, p.2)
  | c :: r =>
    if isControl c && c ≠ '\n' then none else (literalLines r).map fun p => (c :: p.1, p.2)

/-- An end of line right after three opening quotes does not belong to the text. -/
def dropFirstBreak (cs : List Char) : List Char :=
  (afterBreak? cs).getD cs

end CaptureAudit.Toml
