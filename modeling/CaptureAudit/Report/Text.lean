import CaptureAudit.Check.Basic
import CaptureAudit.Report.Basic

/-! Plain text of a report and of the catalog. -/

namespace CaptureAudit

def joinLines (lines : List String) : String :=
  String.join (lines.map (· ++ "\n"))

def indent : String := "       "

/-- Examples shown of a result, unless all stored ones are asked for. -/
def shownExamples : Nat := 3

namespace CaptureMetadata

def line (m : CaptureMetadata) : String :=
  if m.isEmpty then "Capture metadata unavailable"
  else
    let time := match m.captured with
      | some t => s!" at {t.toSecondsText}"
      | none => ""
    let version := if m.serverVersion.isEmpty then "" else s!" ({m.serverVersion})"
    let server := if m.serverName.isEmpty then "" else s!" via {m.serverName}{version}"
    let user := if m.userName.isEmpty then "" else s!" as {m.userName}"
    s!"Captured{time}{server}{user}"

end CaptureMetadata

namespace CheckResult

def headline (r : CheckResult) : String :=
  s!"[{r.outcome.label}] {r.check.code} {r.check.name}"

def shown (r : CheckResult) (verbose : Bool) : List String :=
  if verbose then r.examples.stored else r.examples.stored.take shownExamples

def lines (r : CheckResult) (verbose : Bool) : List String :=
  let error := match r.examples.error with
    | some e => [s!"{indent}error: {e}"]
    | none => []
  let shown := r.shown verbose
  let hidden := r.examples.offered.toNat - shown.length
  r.headline :: error ++ shown.map (indent ++ ·) ++
    if 0 < hidden then [s!"{indent}... {hidden} more"] else []

end CheckResult

namespace Report

def lines (r : Report) (verbose : Bool) : List String :=
  let skipped :=
    if r.skipped.isEmpty then []
    else ["Skipped by request: " ++ String.intercalate ", " r.skipped]
  let counts := Outcome.all.map fun o => s!"{o.label}={r.count o}"
  [s!"Analysis of {r.results.length} checks at {r.time.toSecondsText}", r.metadata.line] ++
    skipped ++ [""] ++ r.results.flatMap (·.lines verbose) ++
    ["", "Summary: " ++ String.intercalate " " counts]

def render (r : Report) (verbose : Bool) : String :=
  joinLines (r.lines verbose)

end Report

/-- Blanks after the text up to a width in characters. -/
def padRight (width : Nat) (s : String) : String :=
  s ++ String.ofList (List.replicate (width - s.length) ' ')

def padLeft (width : Nat) (s : String) : String :=
  String.ofList (List.replicate (width - s.length) ' ') ++ s

/-- The width of a column: the longest of its texts in bytes. -/
def columnWidth (texts : List String) : Nat :=
  texts.foldl (fun n s => max n s.utf8ByteSize) 0

/-- A line for every check, then a line for every tunable. -/
def renderChecks (checks : List Descriptor) (tunables : List Tunable) : String :=
  let codeWidth := columnWidth (checks.map Descriptor.code)
  let suiteWidth := columnWidth (checks.map Descriptor.suite)
  let checkLine (d : Descriptor) : String :=
    padRight codeWidth d.code ++ "  " ++ padRight suiteWidth d.suite ++
      s!"  {d.name}: {d.description}"
  let itemWidth := columnWidth (tunables.map Tunable.item)
  let itemLine (t : Tunable) : String :=
    "  " ++ padRight itemWidth t.item ++ "  " ++ padLeft 8 t.display ++ "  " ++ t.description
  let items := if tunables.isEmpty then [] else ["", "Configuration:"] ++ tunables.map itemLine
  joinLines (checks.map checkLine ++ items)

end CaptureAudit
