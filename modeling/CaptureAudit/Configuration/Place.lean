import CaptureAudit.Ascending
import CaptureAudit.Configuration.Setting
import CaptureAudit.Text.Split

/-! Places in a configuration, written like `checks.limits[0]`, and how a value is put at a place.
What stands on the way there and is no table or list where one is needed is replaced by an empty
one. -/

namespace CaptureAudit

inductive Turn where
  | member (name : String)
  /-- Negative positions count from the end. -/
  | item (position : Int)
  deriving DecidableEq, Repr

abbrev Place := List Turn

namespace Place

def isNameChar (c : Char) : Bool :=
  c.isAlphanum || c = '_' || c = '-'

def isSpace (c : Char) : Bool :=
  c = ' ' || c = '\t'

def signedPosition? (cs : List Char) : Option Int :=
  match cs with
  | '+' :: _ => none
  | cs => Decimal.readSigned? (String.ofList cs)

/-- A position between brackets, where blanks may surround it. -/
def position? (cs : List Char) : Option Int :=
  signedPosition? ((cs.dropWhile isSpace).reverse.dropWhile isSpace).reverse

/-- The turns after the first name. -/
def turns? : List Char → Option (List Turn)
  | [] => some []
  | '.' :: cs =>
    let name := cs.takeWhile isNameChar
    if name.isEmpty then none
    else (turns? (cs.dropWhile isNameChar)).map (.member (String.ofList name) :: ·)
  | '[' :: cs =>
    let after := cs.dropWhile (· ≠ ']')
    if after.isEmpty then none
    else
      match position? (cs.takeWhile (· ≠ ']')) with
      | none => none
      | some n => (turns? after.tail).map (.item n :: ·)
  | _ :: _ => none
  termination_by cs => cs.length
  decreasing_by
    · have h : (cs.dropWhile isNameChar).length ≤ cs.length :=
        (List.dropWhile_suffix isNameChar).length_le
      simp only [List.length_cons]
      omega
    · have h : (cs.dropWhile (· ≠ ']')).length ≤ cs.length :=
        (List.dropWhile_suffix _).length_le
      simp only [List.length_tail, List.length_cons]
      omega

/-- Names have ASCII letters, digits, `_` and `-`. -/
def parse? (s : String) : Option Place :=
  let name := s.toList.takeWhile isNameChar
  if name.isEmpty then none
  else (turns? (s.toList.dropWhile isNameChar)).map (.member (String.ofList name) :: ·)

/-- The place of a key. A key that is no place is a name as it stands. -/
def ofKey (key : String) : Place :=
  (parse? key).getD [.member key]

end Place

namespace Setting

def member? (name : String) (s : Setting) : Option Setting :=
  (s.members.find? fun e => e.1 == name).map Prod.snd

/-- A list that is long enough for a position, and that position counted from the start. -/
def reach (position : Int) (items : List Setting) : List Setting × Nat :=
  let missing (n : Nat) := List.replicate n absent
  if 0 ≤ position then
    (items ++ missing (position.toNat + 1 - items.length), position.toNat)
  else if position.natAbs ≤ items.length then (items, items.length - position.natAbs)
  else (missing (position.natAbs - items.length) ++ items, 0)

def alterAt (f : Setting → Setting) : Place → Setting → Setting
  | [], s => f s
  | .member name :: rest, s =>
    .table (putEntry name (alterAt f rest ((s.member? name).getD absent)) s.members)
  | .item position :: rest, s =>
    let found := reach position s.items.2
    .list s.items.1 (found.1.modify found.2 (alterAt f rest))

/-- What a table merges with: a value that is not there counts as an empty table. -/
def orEmpty : Setting → Setting
  | .null _ => emptyTable
  | s => s

mutual

/-- Put a value over another. The members of a table are put over the members of the other value. -/
def putOver : Setting → Setting → Setting
  | .table members, below => overMembers members (orEmpty below)
  | s, _ => s

def overMembers : List (String × Setting) → Setting → Setting
  | [], below => below
  | (name, s) :: rest, below => overMembers rest (alterAt (putOver s) [.member name] below)

end

end Setting

end CaptureAudit
