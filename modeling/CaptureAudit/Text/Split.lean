/-! Texts cut at every occurrence of a character, or at the first. -/

namespace CaptureAudit.Text

/-- The parts between the separators, one more than there are separators. -/
def splitChars (separator : Char) : List Char → List (List Char)
  | [] => [[]]
  | c :: cs =>
    if c = separator then [] :: splitChars separator cs
    else
      match splitChars separator cs with
      | [] => [[c]]
      | part :: parts => (c :: part) :: parts

def split (separator : Char) (s : String) : List String :=
  (splitChars separator s.toList).map String.ofList

/-- What stands before and after the first separator. -/
def splitFirst? (separator : Char) (s : String) : Option (String × String) :=
  let before := s.toList.takeWhile (· ≠ separator)
  match s.toList.dropWhile (· ≠ separator) with
  | _ :: after => some (String.ofList before, String.ofList after)
  | [] => none

/-- The lines of a text, each without a carriage return at its end. -/
def lines (s : String) : List String :=
  (splitChars '\n' s.toList).map fun line =>
    String.ofList (if line.getLast? = some '\r' then line.dropLast else line)

def beginsWith (c : Char) (s : String) : Bool := s.toList.head? = some c

def finishesWith (c : Char) (s : String) : Bool := s.toList.getLast? = some c

end CaptureAudit.Text
