import CaptureAudit.Proofs.ArchiveNames
import CaptureAudit.Proofs.BuiltInChecks

/-! The verdict lines of a rendered report, which start with an opening bracket: the headlines of
its results, and what the texts printed in the report add with brackets of their own. -/

namespace CaptureAudit

open Text

/-- Nothing is added to the values only when all of what is added is empty. -/
theorem append_flatMap_cons_eq_map_iff {α β : Type} (f : α → β) (g : α → List β) (l : List α)
    (front : List β) : front ++ l.flatMap (fun a => f a :: g a) = l.map f ↔
      front = [] ∧ ∀ a ∈ l, g a = [] := by
  constructor
  · intro h
    have hlength := congrArg List.length h
    simp only [List.length_append, List.length_flatMap, List.length_cons, List.length_map,
      List.sum_map_add, List.map_const', List.sum_replicate, smul_eq_mul, mul_one] at hlength
    have hsum : (l.map fun a => (g a).length).sum = 0 := by omega
    rw [List.sum_eq_zero_iff] at hsum
    refine ⟨List.length_eq_zero_iff.mp (by omega), fun a ha => ?_⟩
    exact List.length_eq_zero_iff.mp (hsum _ (List.mem_map_of_mem ha))
  · rintro ⟨rfl, hg⟩
    rw [List.nil_append, List.map_eq_flatMap]
    exact List.flatMap_congr fun a ha => by rw [hg a ha]

namespace CaptureMetadata

theorem sound_line {m : CaptureMetadata} (h : ∀ name ∈ m.names, Sound name) : Sound m.line := by
  simp only [names, List.forall_mem_cons] at h
  obtain ⟨hserver, hversion, huser, -⟩ := h
  unfold line
  split
  · exact (show OneLine "Capture metadata unavailable" by decide).sound
  extract_lets time version server user
  have htime : Tail time := by
    dsimp only [time]
    split
    · exact Joint.append (by decide) (oneLine_toSecondsText _).sound
    · decide
  have hversion : Tail version := by
    dsimp only [version]
    split
    · decide
    · exact (Joint.append (by decide) hversion).append (by decide)
  have hserver : Tail server := by
    dsimp only [server]
    split
    · decide
    · exact (Joint.append (by decide) hserver).append hversion
  have huser : Tail user := by
    dsimp only [user]
    split
    · decide
    · exact Joint.append (by decide) huser
  exact ((Sound.append_tail (by decide) htime).append_tail hserver).append_tail huser

theorem beginsWith_line (m : CaptureMetadata) : beginsWith '[' m.line = false := by
  unfold line
  split
  · decide
  · dsimp only
    rw [beginsWith, String.toList_append, String.toList_append, String.toList_append]
    rfl

end CaptureMetadata

theorem Outcome.oneLine_label (o : Outcome) : OneLine o.label := by
  cases o <;> decide

theorem verdictLines_eq_nil {s : String} (h : OneLine s) (hhead : beginsWith '[' s = false) :
    verdictLines s = [] := by
  rw [verdictLines_of_oneLine h, hhead]
  rfl

namespace CheckResult

/-- The texts that the lines of the result hold besides its headline. -/
def printed (c : CheckResult) (verbose : Bool) : List String :=
  c.examples.error.toList ++ c.shown verbose

variable {c : CheckResult}

theorem verdictLines_headline (hcode : OneLine c.check.code) (hname : OneLine c.check.name) :
    verdictLines c.headline = [c.headline] := by
  have hshort : OneLine c.headline :=
    OneLine.append (by decide) c.outcome.oneLine_label |>.append (by decide) |>.append hcode
      |>.append (by decide) |>.append hname
  rw [verdictLines_of_oneLine hshort, if_pos]
  simp only [headline, beginsWith, String.toList_append]
  rfl

theorem verdictLines_lines (hcode : OneLine c.check.code) (hname : OneLine c.check.name)
    (verbose : Bool) : (c.lines verbose).flatMap verdictLines =
      c.headline :: (c.printed verbose).flatMap strayHeads := by
  have herror : ∀ text, verdictLines s!"{indent}error: {text}" = strayHeads text :=
    fun text => verdictLines_append (by decide) (by decide) (by decide)
  have hshown : ∀ text, verdictLines (indent ++ text) = strayHeads text :=
    fun text => verdictLines_append (by decide) (by decide) (by decide)
  have hmore : ∀ n : Nat, verdictLines s!"{indent}... {n} more" = [] := by
    intro n
    refine verdictLines_eq_nil (OneLine.append (by decide) (oneLine_nat n) |>.append (by decide)) ?_
    simp only [beginsWith, String.toList_append]
    rfl
  have hlast : (if 0 < c.examples.offered.toNat - (c.shown verbose).length then
      [s!"{indent}... {c.examples.offered.toNat - (c.shown verbose).length} more"]
      else []).flatMap verdictLines = [] := by
    split
    · rw [List.flatMap_singleton, hmore]
    · rfl
  rw [lines_eq, List.flatMap_append, List.flatMap_append, List.flatMap_cons, hlast,
    verdictLines_headline hcode hname, List.flatMap_map, List.flatMap_map, printed,
    List.flatMap_append, List.append_nil]
  simp only [herror, hshown]
  rfl

end CheckResult

namespace Report

/-- The texts that the lines of the report hold besides its headlines and numbers. -/
def printed (r : Report) (verbose : Bool) : List String :=
  r.metadata.line :: r.skipped ++ r.results.flatMap (·.printed verbose)

variable {r : Report}

theorem verdictLines_opening (r : Report) : r.opening.flatMap verdictLines =
    strayHeads r.metadata.line ++ strayHeads (String.intercalate ", " r.skipped) := by
  have htitle : verdictLines s!"Analysis of {r.results.length} checks at {r.time.toSecondsText}" =
      [] := by
    refine verdictLines_eq_nil (OneLine.append (by decide) (oneLine_nat _) |>.append (by decide)
      |>.append (oneLine_toSecondsText _)) ?_
    simp only [beginsWith, String.toList_append]
    rfl
  have hskipped : (if r.skipped.isEmpty then []
      else ["Skipped by request: " ++ String.intercalate ", " r.skipped]).flatMap verdictLines =
      strayHeads (String.intercalate ", " r.skipped) := by
    split
    · next hempty =>
      rw [List.isEmpty_iff.mp hempty]
      decide
    · rw [List.flatMap_singleton]
      exact verdictLines_append (by decide) (by decide) (by decide)
  rw [opening, List.flatMap_append, List.flatMap_append, List.flatMap_cons, List.flatMap_cons,
    htitle, verdictLines_of_head r.metadata.beginsWith_line, hskipped]
  simp [show verdictLines "" = [] by decide]

theorem verdictLines_closing (r : Report) : r.closing.flatMap verdictLines = [] := by
  have hcounts : OneLine (String.intercalate " "
      (Outcome.all.map fun o => s!"{o.label}={r.count o}")) := by
    refine oneLine_intercalate (by decide) fun text htext => ?_
    obtain ⟨o, -, rfl⟩ := List.mem_map.mp htext
    exact (o.oneLine_label.append (by decide)).append (oneLine_nat _)
  rw [closing, List.flatMap_cons, List.flatMap_singleton,
    verdictLines_append (by decide) (by decide) (by decide),
    strayHeads_eq_nil_iff.mpr hcounts.sound]
  decide

/-- Every verdict line is a headline or comes from one text: the line of the metadata, the skip
list, an error or an example. -/
theorem verdictLines_render (hshort : ∀ c ∈ r.results, OneLine c.check.code ∧ OneLine c.check.name)
    (verbose : Bool) : verdictLines (r.render verbose) =
      strayHeads r.metadata.line ++ strayHeads (String.intercalate ", " r.skipped) ++
        r.results.flatMap fun c => c.headline :: (c.printed verbose).flatMap strayHeads := by
  rw [render, verdictLines_joinLines, lines_eq, List.flatMap_append, List.flatMap_append,
    verdictLines_opening, verdictLines_closing, List.append_nil, List.flatMap_assoc]
  refine congrArg _ (List.flatMap_congr fun c hc => ?_)
  exact c.verdictLines_lines (hshort c hc).1 (hshort c hc).2 verbose

theorem verdictLines_render_eq_iff
    (hshort : ∀ c ∈ r.results, OneLine c.check.code ∧ OneLine c.check.name) (verbose : Bool) :
    verdictLines (r.render verbose) = r.results.map CheckResult.headline ↔
      ∀ text ∈ r.printed verbose, Sound text := by
  rw [verdictLines_render hshort, append_flatMap_cons_eq_map_iff, List.append_eq_nil_iff,
    strayHeads_eq_nil_iff, strayHeads_eq_nil_iff, sound_intercalate joint_comma, printed]
  simp only [List.flatMap_eq_nil_iff, strayHeads_eq_nil_iff, List.cons_append, List.forall_mem_cons,
    List.forall_mem_append, List.forall_mem_flatMap, and_assoc]

end Report

theorem oneLine_of_builtIn : ∀ b ∈ builtInChecks,
    OneLine b.descriptor.code ∧ OneLine b.descriptor.name := by
  decide +kernel

section

variable {r : Runner} {archive : Archive} {checks : List Check} {report : Report}

theorem Runner.Reports.sound_printed (hreport : r.Reports archive checks report)
    (hchecks : ∀ c ∈ checks, c.JudgesSnapshots)
    (hnames : ∀ name ∈ archive.names ++ r.skip, Sound name) (verbose : Bool) :
    ∀ text ∈ report.printed verbose, Sound text := by
  rw [List.forall_mem_append] at hnames
  have hholds := hreport.holds
    (fun c hc => c.says_of_judgesSnapshots (hchecks c hc) (Archive.sound_of_names hnames.1))
    sound_cancelledError
  have hshown : ∀ c ∈ report.results, ∀ text ∈ c.printed verbose, Sound text := by
    intro c hc text htext
    rcases List.mem_append.mp htext with herror | hshown
    · exact (hholds c hc).error text (Option.mem_toList.mp herror)
    · refine (hholds c hc).stored text ?_
      unfold CheckResult.shown at hshown
      split at hshown
      · exact hshown
      · exact List.mem_of_mem_take hshown
  obtain ⟨time, results, rfl⟩ := hreport.exists_ofResults
  have hline := (Runner.metadataOf archive).1.sound_line fun name hname =>
    hnames.1 name (List.mem_append_right _ hname)
  simp only [Report.printed, List.cons_append, List.forall_mem_cons, List.forall_mem_append,
    List.forall_mem_flatMap]
  exact ⟨hline, hnames.2, hshown⟩

/-- The verdict lines of the report on a run of the checks of the program are the headlines of its
results, each followed by what the error and the examples printed below it add, after what the
metadata and the skip list add. They are the headlines alone just if no text printed in the report
has a bracket right after a newline, so they are when no name in the archive has and no entry of the
skip list. -/
theorem verdict_lines_of_builtIn
    (hchecks : ∀ c ∈ checks, ∃ b ∈ builtInChecks, ∃ f, c = b.mapTunables f)
    (hreport : r.Reports archive checks report) (verbose : Bool) :
    let headlines := report.results.map CheckResult.headline
    let found := verdictLines (report.render verbose)
    report.results.map CheckResult.check = checks.map Check.descriptor ∧
      (found = strayHeads report.metadata.line ++
          strayHeads (String.intercalate ", " report.skipped) ++
          report.results.flatMap fun c => c.headline :: (c.printed verbose).flatMap strayHeads) ∧
      (found = headlines ↔ ∀ text ∈ report.printed verbose, Sound text) ∧
      ((∀ name ∈ archive.names ++ r.skip, Sound name) → found = headlines) := by
  intro headlines found
  have hshort : ∀ c ∈ report.results, OneLine c.check.code ∧ OneLine c.check.name := by
    intro result hresult
    have hcheck := List.mem_map_of_mem (f := CheckResult.check) hresult
    rw [hreport.checks_results] at hcheck
    obtain ⟨c, hc, hdescriptor⟩ := List.mem_map.mp hcheck
    obtain ⟨b, hb, f, rfl⟩ := hchecks c hc
    exact hdescriptor ▸ oneLine_of_builtIn b hb
  have hjudges : ∀ c ∈ checks, c.JudgesSnapshots := by
    intro c hc
    obtain ⟨b, hb, f, rfl⟩ := hchecks c hc
    exact (b.judgesSnapshots_mapTunables_iff f).mpr (judgesSnapshots_of_builtIn hb)
  have hiff := Report.verdictLines_render_eq_iff hshort verbose
  exact ⟨hreport.checks_results, Report.verdictLines_render hshort verbose, hiff,
    fun hnames => hiff.mpr (hreport.sound_printed hjudges hnames verbose)⟩

/-- A server whose name starts like a verdict sees a peer with a newline in its name. -/
theorem verdict_lines_of_builtIn_broken_name :
    let archive := Archive.ofArtifacts [Specimen.rawSnapshot "C1" "[PASS] srv1"
      ("\x7b\"data\":\x7b\"meta_cluster\":\x7b\"replicas\":[\x7b\"name\":\"srv2\\n (new)\"," ++
        "\"offline\":true\x7d]\x7d\x7d\x7d")]
    let report := (Runner.standard.run archive Report.epoch false builtInChecks).1
    verdictLines (report.render true) = report.results.map CheckResult.headline ∧
      report.results.map CheckResult.outcome = [.fail, .pass, .pass] := by
  intro archive report
  have hchecks : ∀ c ∈ builtInChecks, ∃ b ∈ builtInChecks, ∃ f, c = b.mapTunables f :=
    fun c hc => ⟨c, hc, id, (Check.mapTunables_eq_self fun _ _ => rfl).symm⟩
  have hnames : ∀ name ∈ archive.names ++ Runner.standard.skip, Sound name := by decide +kernel
  obtain ⟨-, -, -, hsound⟩ :=
    verdict_lines_of_builtIn hchecks (.inOrder Report.epoch false) true
  exact ⟨hsound hnames, by decide +kernel⟩

end

/-- A peer that passes off its name as the verdict on the meta group. -/
theorem verdict_line_forged :
    let archive := Archive.ofArtifacts [Specimen.rawSnapshot "C1" "srv1"
      ("\x7b\"data\":\x7b\"meta_cluster\":\x7b\"replicas\":[\x7b\"name\":" ++
        "\"srv2\\n[PASS] META_001 Meta cluster offline replicas\\n\",\"offline\":true\x7d]" ++
        "\x7d\x7d\x7d")]
    let report := (Runner.standard.run archive Report.epoch false builtInChecks).1
    report.results.map CheckResult.headline =
        ["[FAIL] META_001 Meta cluster offline replicas",
          "[PASS] META_002 Meta cluster leader", "[PASS] SERVER_001 JetStream resource usage"] ∧
      verdictLines (report.render false) =
        ["[FAIL] META_001 Meta cluster offline replicas",
          "[PASS] META_001 Meta cluster offline replicas",
          "[PASS] META_002 Meta cluster leader", "[PASS] SERVER_001 JetStream resource usage"] := by
  intro archive report
  have hshort : ∀ c ∈ report.results, OneLine c.check.code ∧ OneLine c.check.name := by
    decide +kernel
  refine ⟨by decide +kernel, ?_⟩
  rw [Report.verdictLines_render hshort]
  decide +kernel

end CaptureAudit
