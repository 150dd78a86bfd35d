import CaptureAudit.Configuration.Toml.Number
import CaptureAudit.Configuration.Toml.Part
import CaptureAudit.Configuration.Toml.Text

/-! TOML documents: keys, values and headers of tables. Dates and times are not read. -/

namespace CaptureAudit.Toml

/-- How many names a key may have, and how far lists and tables may nest in a value. -/
def maxDepth : Nat := 80

/-- One name of a key, and the text after it. -/
def name? (cs : List Char) : Option (String × List Char) :=
  match cs with
  | '"' :: r => (quotedText r).map fun p => (String.ofList p.1, p.2)
  | '\'' :: r => (literalText r).map fun p => (String.ofList p.1, p.2)
  | _ =>
    let bare := cs.takeWhile Place.isNameChar
    if bare.isEmpty then none else some (String.ofList bare, cs.dropWhile Place.isNameChar)

/-- Names joined by points. The first argument bounds their number. -/
def key? : Nat → List Char → Option (List String × List Char)
  | 0, _ => none
  | n + 1, cs => do
    let (first, rest) ← name? (dropSpaces cs)
    match dropSpaces rest with
    | '.' :: r =>
      let (more, rest) ← key? n r
      some (first :: more, rest)
    | r => some ([first], r)

/-- A key, and the text of its value. -/
def assigned? (cs : List Char) : Option (List String × List Char) :=
  match key? maxDepth cs with
  | some (names, '=' :: rest) => some (names, dropSpaces rest)
  | _ => none

mutual

/-- The value at the head of the text, and the text after it. The first argument bounds the steps,
the second one the depth. -/
def value (source : Option String) : Nat → Nat → List Char → Option (Setting × List Char)
  | 0, _, _ => none
  | _ + 1, _, '"' :: '"' :: '"' :: r =>
    (quotedLines (dropFirstBreak r)).map fun p => (.text (String.ofList p.1), p.2)
  | _ + 1, _, '\'' :: '\'' :: '\'' :: r =>
    (literalLines (dropFirstBreak r)).map fun p => (.text (String.ofList p.1), p.2)
  | _ + 1, _, '"' :: r => (quotedText r).map fun p => (.text (String.ofList p.1), p.2)
  | _ + 1, _, '\'' :: r => (literalText r).map fun p => (.text (String.ofList p.1), p.2)
  | n + 1, depth + 1, '[' :: r => do
    let (items, rest) ← items source n depth (← dropIgnored false r)
    some (.list source items, rest)
  | n + 1, depth + 1, '\x7b' :: r => do
    let (table, rest) ← members source n depth .empty (← dropIgnored false r)
    some (table.setting source, rest)
  | _ + 1, _, cs => (plain? (cs.takeWhile isPlain)).map fun s => (s, cs.dropWhile isPlain)

/-- Items up to the closing bracket. A comma may stand after the last one. -/
def items (source : Option String) : Nat → Nat → List Char → Option (List Setting × List Char)
  | 0, _, _ => none
  | _ + 1, _, ']' :: r => some ([], r)
  | n + 1, depth, cs => do
    let (s, rest) ← value source n depth cs
    match ← dropIgnored false rest with
    | ',' :: r =>
      let (more, rest) ← items source n depth (← dropIgnored false r)
      some (s :: more, rest)
    | ']' :: r => some ([s], r)
    | _ => none

/-- Members up to the closing brace, put into the table so far. A comma may stand after the last
one. -/
def members (source : Option String) : Nat → Nat → Part → List Char → Option (Part × List Char)
  | 0, _, _, _ => none
  | _ + 1, _, table, '\x7d' :: r => some (table, r)
  | n + 1, depth, table, cs => do
    let (names, rest) ← assigned? cs
    let (s, rest) ← value source n depth rest
    let table ← table.insert s names
    match ← dropIgnored false rest with
    | ',' :: r => members source n depth table (← dropIgnored false r)
    | '\x7d' :: r => some (table, r)
    | _ => none

end

/-- A document read so far, and the names of the table that its keys are put into. -/
structure Draft where
  root : Part
  table : List String

/-- Read one line, which is not blank. -/
def line (source : Option String) (d : Draft) (cs : List Char) : Option (Draft × List Char) :=
  match cs with
  | '[' :: '[' :: r =>
    match key? maxDepth r with
    | some (names, ']' :: ']' :: rest) => do
      some (⟨← d.root.openItem source names, names⟩, ← afterLine? rest)
    | _ => none
  | '[' :: r =>
    match key? maxDepth r with
    | some (names, ']' :: rest) => do
      some (⟨← d.root.openTable names, names⟩, ← afterLine? rest)
    | _ => none
  | cs => do
    let (names, rest) ← assigned? cs
    let (s, rest) ← value source (rest.length + 1) maxDepth rest
    let root ← d.root.alter .passed (·.insert s names) d.table
    some ({ d with root }, ← afterLine? rest)

/-- Read the lines. Every line takes at least one character. -/
def lines (source : Option String) : Nat → Draft → List Char → Option Part
  | 0, _, _ => none
  | n + 1, d, cs => do
    match ← dropIgnored false cs with
    | [] => some d.root
    | rest =>
      let (d, rest) ← line source d rest
      lines source n d rest

/-- A mark that may stand before the first character of a document. -/
def byteOrderMark : Char := '\ufeff'

def read (source : Option String) (cs : List Char) : Option (List (String × Setting)) :=
  let cs := if cs.head? = some byteOrderMark then cs.tail else cs
  (lines source (cs.length + 1) ⟨.empty, []⟩ cs).map fun root => (root.setting source).members

end CaptureAudit.Toml
