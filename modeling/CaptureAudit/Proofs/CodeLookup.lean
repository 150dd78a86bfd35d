import CaptureAudit.Proofs.AsciiCase
import CaptureAudit.Proofs.CancelledReport
import CaptureAudit.Proofs.CatalogCalls

/-! Codes up to the case of ASCII letters, by which checks are skipped and results are looked up.
The codes of a catalog differ in lower case, so such a code is that of one check at most. -/

namespace CaptureAudit

theorem countP_or_le {α : Type} (p q : α → Bool) (l : List α) :
    (l.countP fun a => p a || q a) ≤ l.countP p + l.countP q := by
  induction l with
  | nil => simp
  | cons a l ih =>
    simp only [List.countP_cons]
    cases p a <;> cases q a <;> simp <;> omega

namespace Runner

/-- A run comes to this report: one check is run after the other, or workers take the checks up on
some schedule until each has its result. -/
inductive Reports (r : Runner) (archive : Archive) (checks : List Check) : Report → Prop where
  | inOrder (time : Timestamp) (cancelled : Bool) :
      Reports r archive checks (r.run archive time cancelled checks).1
  | byWorkers (time : Timestamp) {fired : Bool} {schedule : List Move} {p : Pool}
      (follows : (Pool.ofChecks fired checks).follow r archive schedule = some p)
      (complete : p.isComplete = true) : Reports r archive checks (p.report r archive time)

variable {r : Runner} {archive : Archive} {checks : List Check} {report : Report}

theorem check_execute (r : Runner) (archive : Archive) (cancelled : Bool) (c : Check) :
    (r.execute archive cancelled c).result.check = c.descriptor := by
  unfold execute
  split
  · rfl
  split
  · rfl
  · simp only [keep]
    split <;> rfl

theorem checks_executeAll (r : Runner) (archive : Archive) (cancelled : Bool)
    (checks : List Check) :
    (r.executeAll archive cancelled checks).map (fun step => step.result.check) =
      checks.map Check.descriptor := by
  induction checks generalizing cancelled with
  | nil => rfl
  | cons c rest ih => simp only [executeAll, List.map_cons, check_execute, ih]

end Runner

theorem Course.Gives.check_eq {r : Runner} {archive : Archive} {c : Check} {result : CheckResult}
    {course : Course} (h : course.Gives r archive c result) : result.check = c.descriptor := by
  cases course with
  | skipListed => exact congrArg CheckResult.check h.2
  | unreached => exact congrArg CheckResult.check h.2
  | interrupted =>
    obtain ⟨_, _, hresult⟩ := h
    exact congrArg CheckResult.check hresult
  | undisturbed => exact congrArg CheckResult.check h.2

theorem Pool.Coursed.checks_results {r : Runner} {archive : Archive} {checks : List Check}
    {p : Pool} {done : List (Nat × Course)} (h : Coursed r archive checks p done)
    (hc : p.isComplete = true) : p.results.map CheckResult.check = checks.map Check.descriptor := by
  have hlength := h.accounted.length_results hc
  refine List.ext_getElem? fun i => ?_
  cases hi : checks[i]? with
  | none =>
    have hle := List.getElem?_eq_none_iff.mp hi
    simp [hlength, hle]
  | some c =>
    obtain ⟨course, result, -, hresult, hgives⟩ := h.result_of_complete hc hi
    simp [hi, hresult, hgives.check_eq]

theorem Runner.Reports.checks_results {r : Runner} {archive : Archive} {checks : List Check}
    {report : Report} (h : r.Reports archive checks report) :
    report.results.map CheckResult.check = checks.map Check.descriptor := by
  cases h with
  | inOrder time cancelled =>
    rw [← r.checks_executeAll archive cancelled]
    exact List.map_map
  | byWorkers time follows complete =>
    exact (Pool.Traced.follow follows).coursed.checks_results complete

namespace Report

/-- The code of a result finds that result when no other result has it in lower case. -/
theorem result?_of_nodup {report : Report} {result : CheckResult} {s : String}
    (hnd : (report.results.map fun result => Text.lowercase result.check.code).Nodup)
    (hm : result ∈ report.results) (hs : Text.eqIgnoreAsciiCase result.check.code s = true) :
    report.result? s = some result := by
  unfold result?
  cases hfind : report.results.find? fun result => Text.eqIgnoreAsciiCase result.check.code s with
  | none => exact absurd hs (List.find?_eq_none.mp hfind result hm)
  | some found =>
    have hfound : Text.eqIgnoreAsciiCase found.check.code s = true := by
      simpa using List.find?_some hfind
    have hlower := (Text.lowercase_eq_of_eqIgnoreAsciiCase hfound).trans
      (Text.lowercase_eq_of_eqIgnoreAsciiCase hs).symm
    rw [List.inj_on_of_nodup_map hnd (List.mem_of_find?_eq_some hfind) hm hlower]

end Report

namespace Catalog

variable {c : Catalog}

theorem WellFormed.nodup_codes_checkList (h : c.WellFormed) :
    (c.checkList.map fun check => Text.lowercase check.code).Nodup :=
  ((List.mergeSort_perm _ _).map _).nodup_iff.mpr h.nodup_codes

theorem WellFormed.countP_code_le (h : c.WellFormed) (s : String) :
    (c.checkList.countP fun check => Text.eqIgnoreAsciiCase check.code s) ≤ 1 := by
  have hcount := List.nodup_iff_count_le_one.mp h.nodup_codes_checkList (Text.lowercase s)
  rw [List.count_eq_countP, List.countP_map] at hcount
  refine (List.countP_mono_left fun check _ hs => ?_).trans hcount
  simpa using Text.lowercase_eq_of_eqIgnoreAsciiCase hs

theorem WellFormed.countP_skips_cons_le (h : c.WellFormed) (r : Runner) (entry : String) :
    c.checkList.countP ({ r with skip := entry :: r.skip } : Runner).skips ≤
      c.checkList.countP r.skips + 1 := by
  have hor := countP_or_le (fun check => Text.eqIgnoreAsciiCase entry check.code) r.skips
    c.checkList
  have hentry : (c.checkList.countP fun check => Text.eqIgnoreAsciiCase entry check.code) ≤ 1 := by
    simp only [Text.eqIgnoreAsciiCase_comm entry]
    exact h.countP_code_le entry
  have hskips : ({ r with skip := entry :: r.skip } : Runner).skips =
      fun check => Text.eqIgnoreAsciiCase entry check.code || r.skips check := rfl
  rw [hskips]
  omega

theorem WellFormed.countP_skips_le (h : c.WellFormed) (r : Runner) :
    c.checkList.countP r.skips ≤ r.skip.length := by
  obtain ⟨limit, skip, workers⟩ := r
  induction skip with
  | nil => simp [Runner.skips]
  | cons entry rest ih =>
    exact (h.countP_skips_cons_le ⟨limit, rest, workers⟩ entry).trans (Nat.succ_le_succ ih)

/-- However a catalog came about, no code up to the case of ASCII letters is that of two of its
checks. So an entry of a skip list skips one check at most, and in the report of any run over the
checks of the catalog the code of a check finds the result of that check, which stands where the
check does. -/
theorem code_lookup_ofCalls (calls : List Call) :
    let c := ofCalls calls
    (∀ s, (c.checkList.countP fun check => Text.eqIgnoreAsciiCase check.code s) ≤ 1) ∧
    (∀ r : Runner, c.checkList.countP r.skips ≤ r.skip.length ∧
      ∀ entry, c.checkList.countP ({ r with skip := entry :: r.skip } : Runner).skips ≤
        c.checkList.countP r.skips + 1) ∧
    ∀ (r : Runner) (archive : Archive) (report : Report), r.Reports archive c.checkList report →
      report.results.length = c.checkList.length ∧
      ∀ (i : Nat) (check : Check) (s : String), c.checkList[i]? = some check →
        Text.eqIgnoreAsciiCase check.code s = true →
        ∃ result, report.results[i]? = some result ∧ result.check = check.descriptor ∧
          report.result? s = some result := by
  intro c
  have h : c.WellFormed := wellFormed_ofCalls calls
  refine ⟨h.countP_code_le, fun r => ⟨h.countP_skips_le r, h.countP_skips_cons_le r⟩,
    fun r archive report hreport => ?_⟩
  have hchecks := hreport.checks_results
  have hcodes : (report.results.map fun result => Text.lowercase result.check.code) =
      c.checkList.map fun check => Text.lowercase check.code := by
    simpa [List.map_map, Function.comp_def, Check.code] using
      congrArg (List.map fun d => Text.lowercase d.code) hchecks
  refine ⟨by simpa using congrArg List.length hchecks, fun i check s hi hs => ?_⟩
  obtain ⟨result, hresult, hcheck⟩ : ∃ result, report.results[i]? = some result ∧
      result.check = check.descriptor := by
    simpa [hi] using congrArg (·[i]?) hchecks
  refine ⟨result, hresult, hcheck, ?_⟩
  refine Report.result?_of_nodup (hcodes ▸ h.nodup_codes_checkList)
    (List.mem_of_getElem? hresult) ?_
  rw [hcheck]
  exact hs

/-- In the second code alone the sigma is a final one. The skip list keeps that check from running,
and the lookup still finds its result. -/
theorem code_lookup_ofCalls_two_checks :
    let first : Check := ⟨.plain "aΣb" "" "first" "First", some fun _ _ => .done .pass⟩
    let second : Check := ⟨.plain "aΣ" "" "second" "Second", some fun _ _ => .done .fail⟩
    let c := ofCalls [.register [first, second]]
    let r := Runner.ofLimits 3 ["AΣ"] 1
    let report := (r.run (.ofArtifacts []) Report.epoch false c.checkList).1
    c.checks.values.map Check.code = ["aΣb", "aΣ"] ∧ Text.lowercase "AΣ" = "aς" ∧
      ∃ (i : Nat) (check : Check) (result : CheckResult), c.checkList[i]? = some check ∧
        check.code = "aΣ" ∧ report.results[i]? = some result ∧ result.check = check.descriptor ∧
        report.result? "AΣ" = some result := by
  intro first second c r report
  have hcodes : c.checks.values.map Check.code = ["aΣb", "aΣ"] := by decide +kernel
  have hcode : "aΣ" ∈ c.checks.values.map Check.code := by simp [hcodes]
  obtain ⟨check, hcheck, hcode⟩ := List.mem_map.mp hcode
  obtain ⟨i, hi⟩ := List.getElem?_of_mem ((List.mergeSort_perm _ _).mem_iff.mpr hcheck)
  obtain ⟨result, hresult⟩ := ((code_lookup_ofCalls [.register [first, second]]).2.2 r
    (.ofArtifacts []) report (.inOrder Report.epoch false)).2 i check "AΣ" hi
    (by rw [hcode]; decide +kernel)
  exact ⟨hcodes, by decide +kernel, i, check, result, hi, hcode, hresult⟩

end Catalog

end CaptureAudit
