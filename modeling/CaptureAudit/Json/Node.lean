import CaptureAudit.Json.Token

/-! A document as far as it can be read. Where the text stops being JSON the tree is cut: an array
or object keeps what stands before the fault and is not closed, and a value that is missing is
`broken`. A reader that walks the tree in document order thus meets every fault where it stands. -/

namespace CaptureAudit.Json

/-- What names a member: a text, a text with no value, or something else than a text, which then is
the value of the member. -/
inductive Key where
  | name (s : String)
  | flawed
  | absent
  deriving DecidableEq

/-- A flawed node is a number or text that has no value. -/
inductive Node where
  | null
  | bool (b : Bool)
  | number (n : Number)
  | text (s : String)
  | flawed
  | array (items : List Node) (closed : Bool)
  | object (members : List (Key × Node)) (closed : Bool)
  | broken

def Key.ofText : Option String → Key
  | some s => .name s
  | none => .flawed

mutual

/-- The node at the head of the tokens, and the tokens after it, of which none are left after a
fault. The first argument bounds the depth of the recursion. -/
def Node.parse : Nat → List Token → Node × List Token
  | _ + 1, .null :: r => (.null, r)
  | _ + 1, .bool b :: r => (.bool b, r)
  | _ + 1, .number (some n) :: r => (.number n, r)
  | _ + 1, .number none :: r => (.flawed, r)
  | _ + 1, .text (some s) :: r => (.text s, r)
  | _ + 1, .text none :: r => (.flawed, r)
  | _ + 1, .openBracket :: .closeBracket :: r => (.array [] true, r)
  | n + 1, .openBracket :: r =>
    let found := Node.parseItems n r
    (.array found.1 found.2.1, found.2.2)
  | _ + 1, .openBrace :: .closeBrace :: r => (.object [] true, r)
  | n + 1, .openBrace :: r =>
    let found := Node.parseMembers n r
    (.object found.1 found.2.1, found.2.2)
  | _, _ => (.broken, [])

/-- Items up to the closing bracket, and whether it was reached. -/
def Node.parseItems : Nat → List Token → List Node × Bool × List Token
  | 0, _ => ([], false, [])
  | n + 1, ts =>
    match Node.parse n ts with
    | (v, .comma :: r) =>
      let found := Node.parseItems n r
      (v :: found.1, found.2)
    | (v, .closeBracket :: r) => ([v], true, r)
    | (v, _) => ([v], false, [])

/-- Members up to the closing brace, and whether it was reached. -/
def Node.parseMembers : Nat → List Token → List (Key × Node) × Bool × List Token
  | 0, _ => ([], false, [])
  | n + 1, .text k :: .colon :: ts =>
    match Node.parse n ts with
    | (v, .comma :: r) =>
      let found := Node.parseMembers n r
      ((.ofText k, v) :: found.1, found.2)
    | (v, .closeBrace :: r) => ([(.ofText k, v)], true, r)
    | (v, _) => ([(.ofText k, v)], false, [])
  | _ + 1, .text k :: _ => ([(.ofText k, .broken)], false, [])
  | n + 1, ts => ([(.absent, (Node.parse n ts).1)], false, [])

end

/-- A document: its value, and whether anything follows it. -/
structure Document where
  root : Node
  trailing : Bool

/-- Every level of nesting takes a token and two steps. -/
def Document.ofTokens (ts : List Token) : Document :=
  let found := Node.parse (2 * ts.length + 2) ts
  ⟨found.1, !found.2.isEmpty⟩

def Document.ofSource (r : Text.Source) : Document :=
  .ofTokens (tokens r)

def Document.ofText (s : String) : Document :=
  .ofSource (Text.ofText s)

def Document.ofBytes (bytes : ByteArray) : Document :=
  .ofSource (Text.ofBytes bytes)

mutual

/-- Nothing is missing in the node; flawed numbers and texts are not looked at. -/
def Node.complete : Node → Bool
  | .array items closed => Node.completeItems items && closed
  | .object members closed => Node.completeMembers members && closed
  | .broken => false
  | _ => true

def Node.completeItems : List Node → Bool
  | [] => true
  | v :: vs => v.complete && Node.completeItems vs

def Node.completeMembers : List (Key × Node) → Bool
  | [] => true
  | (k, v) :: ms => k ≠ .absent && v.complete && Node.completeMembers ms

end

end CaptureAudit.Json
