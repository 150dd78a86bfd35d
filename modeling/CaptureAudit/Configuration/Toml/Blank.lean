import CaptureAudit.Configuration.Place

/-! What stands between the values of a TOML document: blanks, comments and the ends of lines. -/

namespace CaptureAudit.Toml

/-- Control characters may stand neither in a text nor in a comment. -/
def isControl (c : Char) : Bool :=
  (c.toNat < 0x20 && c ≠ '\t') || c.toNat = 0x7f

/-- Drop blanks between the parts of a line. -/
def dropSpaces (cs : List Char) : List Char :=
  cs.dropWhile Place.isSpace

/-- The text after the end of a line. A carriage return does not end one by itself. -/
def afterBreak? : List Char → Option (List Char)
  | '\n' :: r => some r
  | '\r' :: '\n' :: r => some r
  | _ => none

theorem length_afterBreak? {cs r : List Char} (h : afterBreak? cs = some r) :
    r.length < cs.length := by
  unfold afterBreak? at h
  split at h
  · rw [Option.some.inj h]
    exact Nat.lt_succ_self _
  · rw [Option.some.inj h]
    exact Nat.lt_succ_of_lt (Nat.lt_succ_self _)
  · contradiction

/-- Drop blanks, comments and the ends of lines, or refuse a comment with a control character. -/
def dropIgnored (inComment : Bool) : List Char → Option (List Char)
  | [] => some []
  | '\n' :: cs => dropIgnored false cs
  | '\r' :: '\n' :: cs => dropIgnored false cs
  | c :: cs =>
    if inComment then if isControl c then none else dropIgnored true cs
    else if Place.isSpace c then dropIgnored false cs
    else if c = '#' then dropIgnored true cs
    else some (c :: cs)

/-- The text after a line, on which nothing but a comment may be left. -/
def afterLine? (cs : List Char) : Option (List Char) :=
  let isEnd (c : Char) : Bool := c = '\n' || c = '\r'
  let cs := dropSpaces cs
  let comment := cs.takeWhile (!isEnd ·)
  if comment.head?.any (· ≠ '#') || comment.any isControl then none
  else
    match cs.dropWhile (!isEnd ·) with
    | [] => some []
    | rest => afterBreak? rest

end CaptureAudit.Toml
