import CaptureAudit.CommandLine.Arguments
import CaptureAudit.Decimal.Whole
import CaptureAudit.Program.Request
import CaptureAudit.Text.Blank
import CaptureAudit.Text.Lowercase

/-! The command line: two options that may stand before or after the command, and the options of
each command. -/

namespace CaptureAudit.CommandLine

/-- A level as it is being read; every level has the options of the whole program. -/
structure Draft (α : Type) where
  configuration : Option String
  verbose : Bool
  own : α

def Draft.start {α : Type} (x : α) : Draft α := ⟨none, false, x⟩

/-- A path has at least one character. -/
def path (s : String) : Except UsageError String :=
  if s.isEmpty then .error .missingValue else .ok s

def word (option s : String) : Except UsageError UInt64 :=
  (Decimal.readWord s).mapError fun fault => .refusedValue s option fault.message

/-- An override `key=value`, with the key in lower case and without blanks around either. -/
def readOverride (s : String) : Except String (String × String) :=
  match Text.splitFirst? '=' s with
  | none => .error s!"expected KEY=VALUE, got '{s}'"
  | some (key, value) =>
    let key := Text.trim key
    if key.isEmpty then .error s!"missing key in '{s}'"
    else .ok (Text.lowercase key, Text.trim value)

section

variable {α : Type}

def programOptions : List (Argument (Draft α)) :=
  [⟨"config", some 'c', .single fun s d => do
      let file ← path s
      .ok { d with configuration := some file }⟩,
   ⟨"verbose", some 'v', .flag fun d => { d with verbose := true }⟩,
   ⟨"help", some 'h', .help⟩]

/-- An option or argument of one command alone. -/
def ofCommand (take : String → α → Except UsageError α) (s : String) (d : Draft α) :
    Except UsageError (Draft α) := do
  let own ← take s d.own
  .ok { d with own }

end

def commandNames : List String := ["analyze", "checks", "view", "help"]

def topLevel : Level (Draft Unit) := ⟨programOptions, [], commandNames⟩

def analyzeLevel : Level (Draft AnalysisRequest) where
  commands := []
  positional := [⟨"archive", none, .single (ofCommand fun s r => do
    let archive ← path s
    .ok { r with archive })⟩]
  named := programOptions ++
    [⟨"examples", none, .single (ofCommand fun s r => do
        let n ← word "--examples <EXAMPLES>" s
        .ok { r with examples := some n })⟩,
     ⟨"skip", none, .repeated (ofCommand fun s r => .ok { r with skip := r.skip ++ [s] })⟩,
     ⟨"suite", none, .repeated (ofCommand fun s r => .ok { r with suites := r.suites ++ [s] })⟩,
     ⟨"workers", none, .single (ofCommand fun s r => do
        let n ← word "--workers <WORKERS>" s
        .ok { r with workers := some n.toNat })⟩,
     ⟨"set", none, .repeated (ofCommand fun s r => do
        let override ← (readOverride s).mapError fun reason =>
          .refusedValue s "--set <KEY=VALUE>" reason
        .ok { r with overrides := r.overrides ++ [override] })⟩,
     ⟨"save", none, .single (ofCommand fun s r => do
        let file ← path s
        .ok { r with save := some file })⟩]

def checksLevel : Level (Draft Unit) := ⟨programOptions, [], []⟩

def viewLevel : Level (Draft String) :=
  ⟨programOptions, [⟨"report", none, .single (ofCommand fun s _ => path s)⟩], []⟩

/-- Read the words of a command, all of whose arguments without a name have to be there. -/
def readCommand {α : Type} (l : Level (Draft α)) (x : α) (words : List String) :
    Except UsageError (Draft α) := do
  let reading ← l.read false (.start (.start x)) words
  let p ← reading.progress.settle
  if l.positional.all fun a => p.given.contains a.long then .ok p.result
  else .error .missingArgument

def commandOf (name : String) (words : List String) : Except UsageError (Draft Command) :=
  match name with
  | "analyze" => do
    let d ← readCommand analyzeLevel { archive := "" } words
    .ok ⟨d.configuration, d.verbose, .analyze d.own⟩
  | "checks" => do
    let d ← readCommand checksLevel () words
    .ok ⟨d.configuration, d.verbose, .checks⟩
  | "view" => do
    let d ← readCommand viewLevel "" words
    .ok ⟨d.configuration, d.verbose, .view d.own⟩
  | _ =>
    match words with
    | [] => .error .help
    | [w] => .error (if commandNames.contains w then .help else .unknownCommand)
    | _ => .error .unknownCommand

/-- Read a command line. An option of the program that stands after the command goes before one that
stands in front of it. -/
def read (words : List String) : Except UsageError Invocation := do
  let top ← topLevel.read false (.start (.start ())) words
  match top.command with
  | none =>
    let p ← top.progress.settle
    .error (if p.given.isEmpty then .nothingGiven else .missingCommand)
  | some (name, rest) =>
    let d ← commandOf name rest
    let p ← top.progress.settle
    .ok ⟨d.configuration.or p.result.configuration, d.verbose || p.result.verbose, d.own⟩

end CaptureAudit.CommandLine
