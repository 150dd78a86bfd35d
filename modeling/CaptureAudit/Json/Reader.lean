import CaptureAudit.Ascending
import CaptureAudit.Json.Fault
import CaptureAudit.Json.Node

/-! Typed values read from a document. The parts are read in document order and the first fault
decides, so a fault of type before the place where the text breaks off is the one reported. -/

namespace CaptureAudit.Json

abbrev Reader (α : Type) := Node → Except Fault α

/-- The fault of a node that is not what is expected. -/
def Node.unlike (n : Node) (expected : String) : Fault :=
  let found (f : Found) := Fault.mismatch (.wrongType f expected)
  match n with
  | .null => found .null
  | .bool b => found (.bool b)
  | .number (.whole k) => found (.whole k)
  | .number (.real x) => found (.real x)
  | .text s => found (.text s)
  | .array _ _ => found .sequence
  | .object _ _ => found .map
  | .flawed => .malformed
  | .broken => .malformed

namespace Reader

variable {α κ : Type}

def text : Reader String
  | .text s => .ok s
  | n => .error (n.unlike "a string")

def bool : Reader Bool
  | .bool b => .ok b
  | n => .error (n.unlike "a boolean")

/-- Whole numbers between two bounds. -/
def whole (least greatest : Int) (expected : String) : Reader Int
  | .number (.whole k) =>
    if least ≤ k ∧ k ≤ greatest then .ok k
    else .error (.mismatch (.wrongValue (.whole k) expected))
  | n => .error (n.unlike expected)

def word64 : Reader UInt64 := fun n =>
  (whole 0 0xffffffffffffffff "u64" n).map fun k => UInt64.ofNat k.toNat

def word32 : Reader UInt32 := fun n =>
  (whole 0 0xffffffff "u32" n).map fun k => UInt32.ofNat k.toNat

def word16 : Reader UInt16 := fun n =>
  (whole 0 0xffff "u16" n).map fun k => UInt16.ofNat k.toNat

def signed64 : Reader Int64 := fun n =>
  (whole (-0x8000000000000000) 0x7fffffffffffffff "i64" n).map Int64.ofInt

/-- Counts and sizes, which 64 bits hold. -/
def size : Reader Nat := fun n =>
  (whole 0 0xffffffffffffffff "usize" n).map Int.toNat

def real : Reader Float
  | .number (.whole k) => .ok (Float.ofInt k)
  | .number (.real x) => .ok x
  | n => .error (n.unlike "f64")

def optional (r : Reader α) : Reader (Option α)
  | .null => .ok none
  | n => (r n).map some

/-- A text that a further step takes or refuses. -/
def refine {β : Type} (expected : String) (f : String → Except String β) : Reader β
  | .text s => (f s).mapError fun reason => .mismatch (.refused reason)
  | n => .error (n.unlike expected)

def list (r : Reader α) : Reader (List α)
  | .array items closed => do
    let xs ← items.mapM r
    if closed then .ok xs else .error .malformed
  | n => .error (n.unlike "a sequence")

/-- The entry of a member, whose name is read before its value. -/
def entry (key : String → Except Fault κ) (r : Reader α) (m : Key × Node) :
    Except Fault (κ × α) := do
  match m.1 with
  | .name s =>
    let k ← key s
    let v ← r m.2
    .ok (k, v)
  | _ => .error .malformed

def map [Ord κ] [Std.TransOrd κ] [Std.LawfulEqOrd κ] (key : String → Except Fault κ)
    (r : Reader α) : Reader (SortedMap κ α)
  | .object members closed => do
    let es ← members.mapM (entry key r)
    if closed then .ok (.ofList es) else .error .malformed
  | n => .error (n.unlike "a map")

def dictionary (r : Reader α) : Reader (SortedMap String α) :=
  map .ok r

/-- One of a few names, as a text or as the only member of an object, where null is its value. -/
def variant (known : List (String × α)) : Reader α := fun n =>
  let named (s : String) : Except Fault α :=
    match known.find? (·.1 == s) with
    | some k => .ok k.2
    | none => .error (.mismatch (.unknownVariant s (known.map Prod.fst)))
  match n with
  | .text s => named s
  | .object ((.name s, v) :: rest) closed => do
    let a ← named s
    match v with
    | .null => if rest.isEmpty && closed then .ok a else .error .malformed
    | v => .error (v.unlike "unit")
  | _ => .error .malformed

/-- Any value. Objects come out with ascending names, the last value of a repeated name staying. The
first argument is the number of levels that may still nest. -/
def value : Nat → Reader Value
  | _, .null => .ok .null
  | _, .bool b => .ok (.bool b)
  | _, .number n => .ok (.number n)
  | _, .text s => .ok (.text s)
  | depth + 1, .array items closed => do
    let vs ← items.mapM (value depth)
    if closed then .ok (.array vs) else .error .malformed
  | depth + 1, .object members closed => do
    let es ← members.mapM (entry .ok (value depth))
    if closed then .ok (.object (SortedMap.ofList es).entries) else .error .malformed
  | _, _ => .error .malformed

end Reader

/-- Levels of nesting that a value of any type may have. -/
def maxDepth : Nat := 127

/-- A member of a record: its name, whether it must be there, and how it changes the record. -/
structure Field (σ : Type) where
  name : String
  required : Bool
  read : Reader (σ → σ)

namespace Field

variable {σ α : Type}

def defaulted (name : String) (r : Reader α) (set : α → σ → σ) : Field σ :=
  ⟨name, false, fun n => (r n).map set⟩

def needed (name : String) (r : Reader α) (set : α → σ → σ) : Field σ :=
  ⟨name, true, fun n => (r n).map set⟩

end Field

/-- A record is written as an object, or as an array of its members in order. `blank` holds the
values of the members that are left out. -/
structure Record (σ : Type) where
  label : String
  blank : σ
  fields : List (Field σ)

namespace Record

variable {σ : Type} (r : Record σ)

def field? (name : String) : Option (Field σ) :=
  r.fields.find? (·.name == name)

/-- Read the members in order, those of other names being passed over. `seen` holds the names read.
-/
def readMembers (seen : List String) (x : σ) : List (Key × Node) → Except Fault (List String × σ)
  | [] => .ok (seen, x)
  | (.name s, v) :: rest =>
    match r.field? s with
    | some f =>
      if seen.contains s then .error (.mismatch (.repeatedMember s))
      else do
        let change ← f.read v
        readMembers (s :: seen) (change x) rest
    | none => if v.complete then readMembers seen x rest else .error .malformed
  | _ :: _ => .error .malformed

/-- Read the elements by position, starting at `position`. -/
def readItems (closed : Bool) : List (Field σ) → Nat → σ → List Node → Except Fault σ
  | [], _, x, [] => if closed then .ok x else .error .malformed
  | [], _, _, _ :: _ => .error .malformed
  | f :: fs, position, x, v :: rest => do
    let change ← f.read v
    readItems closed fs (position + 1) (change x) rest
  | f :: fs, position, x, [] =>
    if !closed then .error .malformed
    else
      match (f :: fs).findIdx? (·.required) with
      | some i => .error (.mismatch (.wrongLength (position + i) r.label r.fields.length))
      | none => .ok x

def read : Reader σ
  | .object members closed => do
    let (seen, x) ← r.readMembers [] r.blank members
    if !closed then .error .malformed
    else
      match r.fields.find? fun f => f.required && !seen.contains f.name with
      | some f => .error (.mismatch (.missingMember f.name))
      | none => .ok x
  | .array items closed => r.readItems closed r.fields 0 r.blank items
  | n => .error (n.unlike s!"struct {r.label}")

end Record

/-- Nothing may follow the value of a document. -/
def Document.read {α : Type} (r : Reader α) (d : Document) : Except Fault α := do
  let x ← r d.root
  if d.trailing then .error .malformed else .ok x

def readText {α : Type} (r : Reader α) (s : String) : Except Fault α :=
  (Document.ofText s).read r

def readBytes {α : Type} (r : Reader α) (bytes : ByteArray) : Except Fault α :=
  (Document.ofBytes bytes).read r

end CaptureAudit.Json
