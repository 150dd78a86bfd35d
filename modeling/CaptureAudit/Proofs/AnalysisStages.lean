import CaptureAudit.Proofs.BuiltInChecks
import CaptureAudit.Proofs.SavedReport

/-! The stages of an analysis: settings, selection, loading, the run and saving. The first stage
that fails gives the error, and until a report is saved nothing on the disk is changed. -/

namespace CaptureAudit

open Tunable

theorem Runner.check_settled (r : Runner) (archive : Archive) (check : Check) :
    (r.settled archive check).check = check.descriptor := by
  unfold settled
  split <;> rfl

theorem Runner.label_settled (r : Runner) (archive : Archive) (check : Check) :
    (r.settled archive check).label = (r.settled archive check).outcome.label := by
  unfold settled
  split <;> rfl

namespace AnalysisRequest

/-- The checks asked for, with what was set for them. -/
def checks (request : AnalysisRequest) (settings : List TextSetting) : List Check :=
  (builtInChecks.filter (Check.isAsked request.suites)).map
    (Check.mapTunables (withSettings (settings ++ request.overrides)))

def runner (request : AnalysisRequest) (c : Configuration) (processors : Option Nat) : Runner :=
  ((RunSettings.ofConfiguration c processors).withRequest request).runner

/-- The skip list of the configuration or that of the request names the check. -/
def NamesSkipped (request : AnalysisRequest) (c : Configuration) (code : String) : Prop :=
  ∃ name ∈ (c.texts? RunSettings.skipKey).getD [] ++ request.skip,
    Text.eqIgnoreAsciiCase name code = true

structure Selects (request : AnalysisRequest) (c : Configuration) (settings : List TextSetting) :
    Prop where
  accepted : c.Accepted (tunablesOf builtInChecks) request.overrides settings
  suites : ∀ s ∈ request.suites, ∃ check ∈ builtInChecks, check.isOf s = true

/-- The first stage before the run that fails. -/
inductive Fails (request : AnalysisRequest) (c : Configuration) (w : World) : Failure → Prop where
  | settings {failure : Failure}
      (refused : c.Refused (tunablesOf builtInChecks) request.overrides failure) :
      Fails request c w failure
  | suite {settings : List TextSetting} {suite : String}
      (accepted : c.Accepted (tunablesOf builtInChecks) request.overrides settings)
      (strange : StrangeSuite builtInChecks request.suites suite) :
      Fails request c w [s!"unknown check suite '{suite}'"]
  | archive {settings : List TextSetting} {e : ArchiveError} (selects : request.Selects c settings)
      (unloaded : ((Archive.loadDirectory request.archive).run w).1 = .error e) :
      Fails request c w (s!"failed to load archive {request.archive}" :: e.chain)

/-- The report has one result of each check asked for, by code. The checks to skip are skipped
without an error, the others are judged as each is alone, and any number of workers, not only the
one that was asked for, gives the same report. -/
structure Reports (request : AnalysisRequest) (c : Configuration) (processors : Option Nat)
    (settings : List TextSetting) (archive : Archive) (time : Timestamp) (report : Report) :
    Prop where
  checks : report.results.map CheckResult.check =
    (request.checks settings).map Check.descriptor
  ascending : report.results.Pairwise fun a b => compare a.check.code b.check.code = .lt
  skipped : ∀ result ∈ report.results, request.NamesSkipped c result.check.code →
    result.outcome = .skipped ∧ result.examples = .empty (request.runner c processors).limit
  judged : ∀ check ∈ request.checks settings, ¬request.NamesSkipped c check.code →
    let ran := runCheck quiet false (request.runner c processors).limit archive check
    .ofOutcome check.descriptor ran.1 ran.2.examples ∈ report.results
  pooled : ∀ workers schedule p, Move.fire ∉ schedule →
    let r := Runner.ofLimits (request.runner c processors).limit (request.runner c processors).skip
      workers
    (Pool.ofChecks false (request.checks settings)).follow r archive schedule = some p →
      p.isComplete = true → p.report r archive time = report

variable {request : AnalysisRequest} {c : Configuration} {processors : Option Nat}
  {settings : List TextSetting} {archive : Archive} {time : Timestamp}

theorem skips_runner_iff {check : Check} :
    (request.runner c processors).skips check = true ↔ request.NamesSkipped c check.code :=
  Runner.skips_iff

theorem lets_of_mem (r : Runner) (archive : Archive) {check : Check}
    (h : check ∈ request.checks settings) : r.Lets archive check := by
  obtain ⟨plain, hplain, rfl⟩ := List.mem_map.mp h
  have hjudges := judgesSnapshots_of_builtIn (List.mem_of_mem_filter hplain)
  exact Runner.lets_of_judgesSnapshots ((plain.judgesSnapshots_mapTunables_iff _).mpr hjudges) _ _

theorem ascending_checks :
    (request.checks settings).Pairwise fun a b => compare a.code b.code = .lt :=
  List.pairwise_map.mpr (ascending_builtInChecks.filter _)

def report (request : AnalysisRequest) (c : Configuration) (processors : Option Nat)
    (settings : List TextSetting) (archive : Archive) (time : Timestamp) : Report :=
  ((request.runner c processors).run archive time false (request.checks settings)).1

theorem report_eq : request.report c processors settings archive time =
    .ofResults time (Runner.metadataOf archive).1 (request.runner c processors).skip
      ((request.checks settings).map ((request.runner c processors).settled archive)) :=
  Runner.results_run fun _ hcheck => lets_of_mem _ archive hcheck

theorem mem_results_iff {result : CheckResult} :
    result ∈ (request.report c processors settings archive time).results ↔
      ∃ check ∈ request.checks settings,
        (request.runner c processors).settled archive check = result := by
  rw [report_eq]
  exact List.mem_map

theorem reports_report : request.Reports c processors settings archive time
    (request.report c processors settings archive time) := by
  refine ⟨?_, ?_, ?_, ?_, ?_⟩
  · rw [report_eq]
    refine (List.map_map).trans (List.map_congr_left fun check _ => ?_)
    exact Runner.check_settled _ _ check
  · rw [report_eq]
    refine List.pairwise_map.mpr (ascending_checks.imp fun {a b} hab => ?_)
    rw [Runner.check_settled, Runner.check_settled]
    exact hab
  · intro result hresult hskipped
    obtain ⟨check, _, rfl⟩ := mem_results_iff.mp hresult
    rw [Runner.check_settled] at hskipped
    rw [Runner.settled, if_pos (skips_runner_iff.mpr hskipped)]
    exact ⟨rfl, rfl⟩
  · intro check hcheck hskipped ran
    refine mem_results_iff.mpr ⟨check, hcheck, ?_⟩
    rw [Runner.settled, if_neg fun hs => hskipped (skips_runner_iff.mp hs)]
  · intro workers schedule p hfire r hfollow hcomplete
    have hlets : ∀ check ∈ request.checks settings, r.Lets archive check :=
      fun check hcheck => lets_of_mem r archive hcheck
    have hp := (Pool.Undisturbed.ofChecks r archive _).follow hlets hfire hfollow
    rw [Pool.report, hp.results hcomplete, report_eq]
    -- The number of workers has no part in the result of a check.
    rfl

theorem isFinite_of_mem_numbers {result : CheckResult}
    (h : result ∈ (request.report c processors settings archive time).results) :
    ∀ x ∈ result.check.numbers, x.isFinite = true := by
  obtain ⟨check, hcheck, rfl⟩ := mem_results_iff.mp h
  obtain ⟨plain, hplain, rfl⟩ := List.mem_map.mp hcheck
  rw [Runner.check_settled]
  exact isFinite_of_builtIn (List.mem_of_mem_filter hplain) _

theorem length_checks_le (request : AnalysisRequest) (settings : List TextSetting) :
    (request.checks settings).length ≤ 3 := by
  rw [checks, List.length_map]
  exact List.length_filter_le _ _

/-- What was set is finite, so only the digits of finite numbers matter to what is read back. -/
theorem ofText_toText_report
    (h : ∀ result ∈ (request.report c processors settings archive time).results,
      ∀ x ∈ result.check.numbers, x.isFinite = true → Json.ReadsBack x) :
    Report.ofText (request.report c processors settings archive time).toText =
      .ok (request.report c processors settings archive time) := by
  let r := request.runner c processors
  have hnumbers : ∀ result ∈ (request.checks settings).map (r.settled archive),
      ∀ x ∈ result.check.numbers, Json.ReadsBack x := by
    intro result hresult x hx
    have hmem : result ∈ (request.report c processors settings archive time).results := by
      rw [report_eq]
      exact hresult
    exact h result hmem x hx (isFinite_of_mem_numbers hmem x hx)
  have hlength : ((request.checks settings).map (r.settled archive)).length <
      0x10000000000000000 := by
    rw [List.length_map]
    exact Nat.lt_of_le_of_lt (request.length_checks_le settings) (by decide)
  rw [report_eq]
  refine Report.ofText_ofResults hlength (fun result hresult => ?_) hnumbers
  obtain ⟨check, _, rfl⟩ := List.mem_map.mp hresult
  exact Runner.label_settled _ _ check

end AnalysisRequest

open AnalysisRequest

variable {request : AnalysisRequest} {c : Configuration} {processors : Option Nat}
  {settings : List TextSetting} {w : World}

theorem run_selectedChecks {catalog : Catalog} (h : Catalog.builtIn = .ok catalog)
    (request : AnalysisRequest) (c : Configuration) (w : World) :
    let configured := c.configure catalog request.overrides
    ∃ w', (selectedChecks request c).run w =
      (match configured.error with
        | some e => .error e
        | none => configured.catalog.select request.suites, w') ∧ w'.Alike w := by
  -- The catalog is taken as it is given: its registration need not be computed again.
  delta selectedChecks
  rw [h]
  simp only [Session.run_bind, Session.run_notes]
  cases (c.configure catalog request.overrides).error with
  | some e => exact ⟨_, rfl, rfl, rfl⟩
  | none => exact ⟨_, rfl, rfl, rfl⟩

theorem selectedChecks_cases (request : AnalysisRequest) (c : Configuration) (w : World) :
    ∃ w', w'.Alike w ∧
      ((∃ settings, request.Selects c settings ∧
          (selectedChecks request c).run w = (.ok (request.checks settings), w')) ∨
        ∃ failure, request.Fails c w failure ∧
          (selectedChecks request c).run w = (.error failure, w')) := by
  obtain ⟨catalog, hbuiltIn, hwf, hlist⟩ := Catalog.exists_builtIn
  obtain ⟨w', hrun, halike⟩ := run_selectedChecks hbuiltIn request c w
  refine ⟨w', halike, ?_⟩
  have hconfigure := c.configure_cases hwf request.overrides
  rw [hlist] at hconfigure
  rcases hconfigure with ⟨settings, haccepted, hnone, hcatalog⟩ | ⟨failure, hrefused, herror⟩
  · have hmap : (c.configure catalog request.overrides).catalog.checkList =
        builtInChecks.map (Check.mapTunables (withSettings (settings ++ request.overrides))) := by
      rw [hcatalog, Catalog.checkList_mapTunables, hlist]
    simp only [hnone] at hrun
    rcases Catalog.select_cases (c.configure catalog request.overrides).catalog request.suites with
      ⟨hsuites, hselect⟩ | ⟨suite, hstrange, hselect⟩
    · rw [hmap] at hsuites hselect
      refine .inl ⟨settings, ⟨haccepted, ?_⟩, ?_⟩
      · simpa only [List.mem_map, exists_exists_and_eq_and, Check.isOf_mapTunables] using hsuites
      · rw [hrun, hselect, List.filter_map]
        rfl
    · obtain ⟨before, rest, hsplit, hbefore, hsuite⟩ := hstrange
      rw [hmap] at hbefore hsuite
      refine .inr ⟨_, .suite haccepted ⟨before, rest, hsplit, ?_, ?_⟩, by rw [hrun, hselect]⟩
      · simpa only [List.mem_map, exists_exists_and_eq_and, Check.isOf_mapTunables] using hbefore
      · simpa only [List.mem_map, forall_exists_index, and_imp, forall_apply_eq_imp_iff₂,
          Check.isOf_mapTunables] using hsuite
  · simp only [herror] at hrun
    exact .inr ⟨failure, .settings hrefused, hrun⟩

/-- Once the checks are selected, either the archive is not loaded, or the report is there and only
saving is left. -/
theorem analyze_of_selected {checks : List Check} {selected : World}
    (h : (selectedChecks request c).run w = (.ok checks, selected)) (hselected : selected.Alike w) :
    (∃ e w', ((Archive.loadDirectory request.archive).run w).1 = .error e ∧ w'.Alike w ∧
        (analyze request c processors).run w =
          (.error (s!"failed to load archive {request.archive}" :: e.chain), w')) ∨
      ∃ archive w', ((Archive.loadDirectory request.archive).run w).1 = .ok archive ∧ w'.Alike w ∧
        (analyze request c processors).run w =
          (saveReport request
            ((request.runner c processors).run archive w.time false checks).1).run w' := by
  -- The archive is loaded after some events were told, which makes no difference to it.
  let told : World := { selected with events := selected.events ++ RunSettings.events c }
  have htold : told.Alike w := ⟨hselected.disk, hselected.time⟩
  have hload := (Session.run_alike (Archive.loadDirectory request.archive) htold).1
  have hworld := ((Archive.readsOnly_loadDirectory request.archive).run told).trans htold
  generalize hloaded : (Archive.loadDirectory request.archive).run told = loaded at hload hworld
  cases hresult : ((Archive.loadDirectory request.archive).run w).1 with
  | error e =>
    rw [hresult] at hload
    refine .inl ⟨e, loaded.2, rfl, hworld, ?_⟩
    simp only [analyze, Session.run_bind, h, Session.run_notes]
    rw [hloaded, hload]
    rfl
  | ok archive =>
    rw [hresult] at hload
    have hsave : ∃ events, (analyze request c processors).run w =
        (saveReport request ((request.runner c processors).run archive w.time false checks).1).run
          { loaded.2 with events } := by
      simp only [analyze, Session.run_bind, h, Session.run_notes]
      rw [hloaded, hload]
      simp only [Session.run_bind, Session.run_note, Session.run_notes, Session.run_time,
        hworld.time]
      exact ⟨_, rfl⟩
    obtain ⟨events, hsave⟩ := hsave
    exact .inr ⟨archive, { loaded.2 with events }, rfl, ⟨hworld.disk, hworld.time⟩, hsave⟩

theorem analyze_of_unselected {failure : Failure} {selected : World}
    (h : (selectedChecks request c).run w = (.error failure, selected)) :
    (analyze request c processors).run w = (.error failure, selected) := by
  rw [analyze, Session.run_bind, h]
  rfl

theorem run_saveReport_none (h : request.save = none) (report : Report) (w : World) :
    (saveReport request report).run w = (.ok report, w) := by
  rw [saveReport, h]
  rfl

theorem run_saveReport_some {path : String} (h : request.save = some path) (report : Report)
    (w : World) :
    (∃ fault, w.disk.write path report.toText.toUTF8 = .error fault ∧
        ((saveReport request report).run w).1 =
          .error (s!"failed to save analysis to {path}" :: (ReportError.io path fault).chain)) ∨
      ((saveReport request report).run w).1 = .ok report ∧
        w.disk.Wrote ((saveReport request report).run w).2.disk path report.toText.toUTF8 := by
  rcases report.run_save_cases path w with ⟨fault, hwrite, hsave⟩ | ⟨disk, hwrite, hsave⟩
  · refine .inl ⟨fault, hwrite, ?_⟩
    simp only [saveReport, h, Session.run_bind, hsave, Session.run_pure]
  · refine .inr ?_
    simp only [saveReport, h, Session.run_bind, hsave, Session.run_note, Session.run_pure]
    exact ⟨trivial, Disk.wrote_of_write hwrite⟩

/-- An analysis ends with the error of the first stage that fails, and before saving it changes
nothing on the disk. Otherwise it gives the report of the checks asked for, and the file it saves
holds that report and is the only one that it changes. -/
theorem analyze_stages (request : AnalysisRequest) (c : Configuration) (processors : Option Nat)
    (w : World) :
    let answer := ((analyze request c processors).run w).1
    let after := ((analyze request c processors).run w).2
    (∃ failure, request.Fails c w failure ∧ answer = .error failure ∧ after.disk = w.disk) ∨
      ∃ settings archive report, request.Selects c settings ∧
        ((Archive.loadDirectory request.archive).run w).1 = .ok archive ∧
        request.Reports c processors settings archive w.time report ∧
        (request.save = none → answer = .ok report ∧ after.disk = w.disk) ∧
        ∀ path, request.save = some path →
          (∃ fault, w.disk.write path report.toText.toUTF8 = .error fault ∧
            answer =
              .error (s!"failed to save analysis to {path}" :: (ReportError.io path fault).chain)) ∨
          answer = .ok report ∧ w.disk.Wrote after.disk path report.toText.toUTF8 ∧
            ((∀ result ∈ report.results, ∀ x ∈ result.check.numbers,
                x.isFinite = true → Json.ReadsBack x) →
              ((Report.load path).run after).1 = .ok report) := by
  intro answer after
  obtain ⟨selected, hselected, ⟨settings, hselects, hselection⟩ | ⟨failure, hfails, hselection⟩⟩ :=
    selectedChecks_cases request c w
  · let report := request.report c processors settings
    rcases analyze_of_selected hselection hselected with
      ⟨e, w', hunloaded, halike, hrun⟩ | ⟨archive, w', hloaded, halike, hrun⟩
    · exact .inl ⟨_, .archive hselects hunloaded, congrArg Prod.fst hrun,
        (congrArg (·.2.disk) hrun).trans halike.disk⟩
    · refine .inr ⟨settings, archive, report archive w.time, hselects, hloaded,
        reports_report, fun hnone => ?_, fun path hsome => ?_⟩
      · have hsave := run_saveReport_none hnone (report archive w.time) w'
        have hanalyze := hrun.trans hsave
        exact ⟨congrArg Prod.fst hanalyze, (congrArg (·.2.disk) hanalyze).trans halike.disk⟩
      · rcases run_saveReport_some hsome (report archive w.time) w' with
          ⟨fault, hwrite, hanswer⟩ | ⟨hanswer, hwrote⟩
        · rw [halike.disk] at hwrite
          exact .inl ⟨fault, hwrite, (congrArg Prod.fst hrun).trans hanswer⟩
        · have hwrote' : w.disk.Wrote after.disk path (report archive w.time).toText.toUTF8 := by
            have hafter : after.disk = _ := congrArg (·.2.disk) hrun
            rw [hafter, ← halike.disk]
            exact hwrote
          refine .inr ⟨(congrArg Prod.fst hrun).trans hanswer, hwrote', fun hnumbers => ?_⟩
          exact Report.run_load_of_read hwrote'.read (ofText_toText_report hnumbers)
  · have hrun : (analyze request c processors).run w = (.error failure, selected) :=
      analyze_of_unselected hselection
    exact .inl ⟨failure, hfails, congrArg Prod.fst hrun,
      (congrArg (·.2.disk) hrun).trans hselected.disk⟩

-- Without settings the thresholds are the default one, and a saved report is loaded as it was.
example : Json.ReadsBack ResourceUsage.defaultThreshold := by
  rw [Json.readsBack_iff]
  decide +kernel

end CaptureAudit
