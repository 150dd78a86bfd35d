/-! A text as it is seen: control characters and control sequences, which begin with an escape
character, are left out. Blanks among the control characters stay. -/

namespace CaptureAudit.Text

inductive Sequence where
  | outside
  /-- After the escape character. -/
  | begun
  /-- After a mark that selects a set of characters. -/
  | selecting
  /-- After `[`, up to a letter. -/
  | control
  /-- After `]`, up to a bell. -/
  | command
  /-- After `P`, up to a letter, with which a string begins. -/
  | header
  /-- In such a header after a mark, behind which no number may follow. -/
  | marked
  /-- A string that is passed on, up to its terminator. -/
  | passed
  deriving DecidableEq, Repr

def isControlBlank (c : Char) : Bool :=
  c = '\t' || c = '\n' || c = '\x0c' || c = '\r'

/-- The byte `0x9c` ends a string, also where it stands in the encoding of a character. -/
def holdsTerminator (c : Char) : Bool :=
  (List.range (c.utf8Size - 1)).any fun i => c.toNat / Nat.pow 64 i % 64 = 0x1c

/-- The sequence that the character after an escape character begins. -/
def Sequence.ofMark (c : Char) : Sequence :=
  if c = '[' then .control
  else if c = ']' then .command
  else if c = 'P' then .header
  else if c = 'X' || c = '^' || c = '_' then .passed
  else if c.toNat < 0x30 then .selecting
  else .outside

/-- The sequence after a printable ASCII character of it. -/
def Sequence.after (s : Sequence) (c : Char) : Sequence :=
  match s with
  | .begun => .ofMark c
  | .selecting => if c.toNat < 0x30 then .selecting else .outside
  | .control => if c.toNat < 0x40 then .control else .outside
  | .header =>
    if c.toNat < 0x30 then .marked else if c.toNat < 0x40 then .header else .passed
  | .marked => if c.toNat < 0x30 then .marked else .passed
  | s => s

/-- Control characters mean nothing inside the sequence. -/
def Sequence.isDeaf (s : Sequence) : Bool :=
  s = .command || s = .header || s = .marked || s = .passed

/-- The sequence after a character, and whether the character is seen. A blank that is seen ends the
sequence it stands in; a character beyond ASCII is seen outside of sequences alone. -/
def Sequence.next (s : Sequence) (c : Char) : Sequence × Bool :=
  if c = '\x1b' then (.begun, false)
  else if c = '\x18' || c = '\x1a' then (.outside, false)
  else if 0x80 ≤ c.toNat then
    (if s = .passed && holdsTerminator c then .outside else s, s = .outside)
  else if c.toNat < 0x20 || c = '\x7f' then
    if s.isDeaf then (if s = .command && c = '\x07' then .outside else s, false)
    else if isControlBlank c then (.outside, true)
    else (s, false)
  else (s.after c, s = .outside)

def visibleFrom (s : Sequence) : List Char → List Char
  | [] => []
  | c :: cs =>
    let (after, seen) := s.next c
    if seen then c :: visibleFrom after cs else visibleFrom after cs

def visible (s : String) : String :=
  String.ofList (visibleFrom .outside s.toList)

end CaptureAudit.Text
