/-! What is asked of the program. -/

namespace CaptureAudit

/-- An analysis of the archive in a directory. What is given here goes before the configuration. -/
structure AnalysisRequest where
  archive : String
  examples : Option UInt64 := none
  skip : List String := []
  suites : List String := []
  workers : Option Nat := none
  overrides : List (String × String) := []
  save : Option String := none
  deriving DecidableEq

inductive Command where
  | analyze (request : AnalysisRequest)
  | checks
  | view (report : String)
  deriving DecidableEq

structure Invocation where
  configuration : Option String
  verbose : Bool
  command : Command
  deriving DecidableEq

end CaptureAudit
