/-! Bytes read as characters. A byte that begins no character's encoding stands for itself, and
reading goes on with the byte after it. -/

namespace CaptureAudit.Text

/-- The characters of a document, with `none` for a byte that belongs to none. -/
abbrev Source := List (Option Char)

/-- The character whose encoding the bytes begin with. -/
def firstChar? (bytes : List UInt8) : Option Char :=
  (bytes.take 4).toByteArray.utf8DecodeChar? 0

def charsFrom : List UInt8 → Source
  | [] => []
  | b :: rest =>
    match firstChar? (b :: rest) with
    | some c => some c :: charsFrom (rest.drop (c.utf8Size - 1))
    | none => none :: charsFrom rest
  termination_by bytes => bytes.length
  decreasing_by all_goals simp; try omega

def ofBytes (bytes : ByteArray) : Source :=
  charsFrom bytes.data.toList

/-- The bytes begin the encoding of a character that is longer than they are. -/
def isCutShort (bytes : List UInt8) : Bool :=
  [0x80, 0xbf].any fun last =>
    match firstChar? (bytes ++ List.replicate 3 last) with
    | some c => bytes.length < c.utf8Size
    | none => false

/-- How many bytes one replacement character stands for: as many as could begin a character. -/
def strayLength (bytes : List UInt8) : Nat :=
  (([3, 2].find? fun n => n ≤ bytes.length && isCutShort (bytes.take n))).getD 1

/-- The characters of a document in which replacement characters stand for bytes that belong to
none. -/
def replaceStray : List UInt8 → List Char
  | [] => []
  | b :: rest =>
    match firstChar? (b :: rest) with
    | some c => c :: replaceStray (rest.drop (c.utf8Size - 1))
    | none => '\ufffd' :: replaceStray (rest.drop (strayLength (b :: rest) - 1))
  termination_by bytes => bytes.length
  decreasing_by all_goals simp; try omega

def ofText (s : String) : Source :=
  s.toList.map some

end CaptureAudit.Text
