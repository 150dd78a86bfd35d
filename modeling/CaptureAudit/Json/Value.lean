/-! Values of a JSON document. -/

namespace CaptureAudit.Json

/-- Whole numbers keep their value, all others are binary64 values. -/
inductive Number where
  | whole (n : Int)
  | real (x : Float)
  deriving DecidableEq

/-- Members of an object keep the order in which they are written. -/
inductive Value where
  | null
  | bool (b : Bool)
  | number (n : Number)
  | text (s : String)
  | array (items : List Value)
  | object (members : List (String × Value))

namespace Value

def ofNat (n : Nat) : Value := .number (.whole n)

def ofInt (n : Int) : Value := .number (.whole n)

def ofFloat (x : Float) : Value := .number (.real x)

def ofOption {α : Type} (f : α → Value) : Option α → Value
  | some a => f a
  | none => .null

/-- A member that is left out when there is no value. -/
def optionalMember {α : Type} (name : String) (f : α → Value) : Option α → List (String × Value)
  | some a => [(name, f a)]
  | none => []

end Value

end CaptureAudit.Json
