import CaptureAudit.Report.Text

/-! The lines of a rendered report: what opens it, the blocks of its results in their order, and
what closes it. -/

namespace CaptureAudit

theorem joinLines_append (front back : List String) :
    joinLines (front ++ back) = joinLines front ++ joinLines back := by
  simp [joinLines, String.join_append]

theorem CheckResult.lines_eq (c : CheckResult) (verbose : Bool) :
    c.lines verbose =
      c.headline :: c.examples.error.toList.map (fun text => s!"{indent}error: {text}") ++
        (c.shown verbose).map (indent ++ ·) ++
        if 0 < c.examples.offered.toNat - (c.shown verbose).length then
          [s!"{indent}... {c.examples.offered.toNat - (c.shown verbose).length} more"]
        else [] := by
  rw [lines]
  cases c.examples.error <;> rfl

namespace Report

/-- The lines before the first result. -/
def opening (r : Report) : List String :=
  let skipped :=
    if r.skipped.isEmpty then []
    else ["Skipped by request: " ++ String.intercalate ", " r.skipped]
  [s!"Analysis of {r.results.length} checks at {r.time.toSecondsText}", r.metadata.line] ++
    skipped ++ [""]

/-- The lines after the last result. -/
def closing (r : Report) : List String :=
  ["", "Summary: " ++ String.intercalate " "
    (Outcome.all.map fun o => s!"{o.label}={r.count o}")]

theorem lines_eq (r : Report) (verbose : Bool) :
    r.lines verbose = r.opening ++ r.results.flatMap (·.lines verbose) ++ r.closing := rfl

theorem render_of_block {r : Report} {before after : List CheckResult} {c : CheckResult}
    (h : r.results = before ++ c :: after) (verbose : Bool) :
    r.render verbose = joinLines (r.opening ++ before.flatMap (·.lines verbose)) ++
      joinLines (c.lines verbose) ++ joinLines (after.flatMap (·.lines verbose) ++ r.closing) := by
  rw [render, lines_eq, h, ← joinLines_append, ← joinLines_append]
  simp only [List.flatMap_append, List.flatMap_cons, List.append_assoc]

end Report

end CaptureAudit
