/-! A property of characters as the ascending list of the code point intervals that have it. -/

namespace CaptureAudit.Text

/-- First and last code point of each interval. -/
abbrev Ranges := List (Nat × Nat)

def Ranges.covers (r : Ranges) (c : Char) : Bool :=
  r.any fun bounds => bounds.1 ≤ c.toNat && c.toNat ≤ bounds.2

end CaptureAudit.Text
