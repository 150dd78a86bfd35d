import CaptureAudit.Program.Analyze
import CaptureAudit.Proofs.FiniteNumbers
import CaptureAudit.Proofs.ReportText
import CaptureAudit.Proofs.Settings
import CaptureAudit.Proofs.SnapshotReport

/-! The checks of the program. All of them are let into the catalog, whatever is set for them is a
finite number, and suites select among them. -/

namespace CaptureAudit

open Tunable

/-- The checks of the program, by code. -/
def builtInChecks : List Check :=
  (MetaGroup.checks ++ ResourceUsage.checks).map Catalog.own

theorem ascending_builtInChecks :
    builtInChecks.Pairwise fun a b => compare a.code b.code = .lt := by
  decide +kernel

theorem Check.judgesSnapshots_mapTunables_iff (check : Check) (f : Tunable → Tunable) :
    (check.mapTunables f).JudgesSnapshots ↔ check.JudgesSnapshots := Iff.rfl

theorem judgesSnapshots_of_builtIn {check : Check} (h : check ∈ builtInChecks) :
    check.JudgesSnapshots := by
  simp only [builtInChecks, MetaGroup.checks, ResourceUsage.checks, List.cons_append,
    List.nil_append, List.map_cons, List.map_nil, List.mem_cons, List.not_mem_nil, or_false] at h
  rcases h with rfl | rfl | rfl
  · exact .inl rfl
  · exact .inr (.inl rfl)
  · exact .inr (.inr rfl)

namespace Catalog

theorem exists_register (c : Catalog) (batch : List Check)
    (h : (batch.foldlM claim c.taken).toOption.isSome = true) : ∃ d, c.register batch = .ok d := by
  cases hclaims : batch.foldlM claim c.taken with
  | error e => simp [hclaims, Except.toOption] at h
  | ok t => exact ⟨_, register_of_claims hclaims⟩

theorem exists_builtIn :
    ∃ c, builtIn = .ok c ∧ c.WellFormed ∧ c.checkList = builtInChecks := by
  obtain ⟨first, hfirst⟩ := empty.exists_register MetaGroup.checks (by decide +kernel)
  have hwf := WellFormed.empty.register hfirst
  obtain ⟨all, hall⟩ := empty.exists_register (MetaGroup.checks ++ ResourceUsage.checks)
    (by decide +kernel)
  have hsecond : first.register ResourceUsage.checks = .ok all := by
    rw [WellFormed.empty.register_append, hfirst] at hall
    exact hall
  have hwf' := hwf.register hsecond
  have hempty : empty.checkList = [] := by
    simp [checkList, empty, SortedMap.values, SortedMap.empty]
  have hperm : all.checkList.Perm builtInChecks := by
    have hregistered := WellFormed.empty.checkList_register_perm hall
    rw [hempty, List.nil_append] at hregistered
    exact hregistered
  refine ⟨all, ?_, hwf', hperm.eq_of_pairwise ?_ hwf'.ascending_checkList ascending_builtInChecks⟩
  · rw [builtIn, hfirst]
    exact congrArg (Except.mapError _) hsecond
  · intro a b _ _ hab hba
    exact absurd hba (Std.OrientedCmp.not_lt_of_lt hab)

end Catalog

theorem isFinite_of_builtIn {check : Check} (h : check ∈ builtInChecks)
    (settings : List TextSetting) :
    ∀ x ∈ (check.mapTunables (withSettings settings)).descriptor.numbers, x.isFinite = true := by
  have hdefaults : ∀ t ∈ tunablesOf builtInChecks, ∀ x ∈ t.numbers, x.isFinite = true := by
    decide +kernel
  intro x hx
  obtain ⟨t', ht', hx⟩ := List.mem_flatMap.mp hx
  rw [Check.mapTunables, SortedMap.values_mapValues] at ht'
  obtain ⟨t, ht, rfl⟩ := List.mem_map.mp ht'
  have hnumbers := hdefaults t (List.mem_flatMap.mpr ⟨check, h, ht⟩)
  unfold withSettings at hx
  split at hx
  · exact hnumbers x hx
  · next text _ =>
    rcases List.mem_cons.mp hx with rfl | hx
    · exact hnumbers _ (by simp [numbers])
    · cases haccept : accept t.unit t.key text with
      | error e => simp [haccept, Except.toOption] at hx
      | ok y =>
        obtain rfl : x = y := by simpa [haccept, Except.toOption] using hx
        exact isFinite_of_accept haccept

def Check.isOf (check : Check) (suite : String) : Bool :=
  Text.eqIgnoreAsciiCase check.descriptor.suite suite

@[simp] theorem Check.isOf_mapTunables (f : Tunable → Tunable) (check : Check) (suite : String) :
    (check.mapTunables f).isOf suite = check.isOf suite := rfl

/-- Without suites every check is asked for. -/
def Check.isAsked (suites : List String) (check : Check) : Bool :=
  suites.isEmpty || suites.any check.isOf

/-- The first suite of no check. -/
def StrangeSuite (checks : List Check) (suites : List String) (suite : String) : Prop :=
  ∃ before rest, suites = before ++ suite :: rest ∧
    (∀ s ∈ before, ∃ check ∈ checks, check.isOf s = true) ∧
    ∀ check ∈ checks, check.isOf suite = false

theorem Catalog.select_cases (c : Catalog) (suites : List String) :
    (∀ s ∈ suites, ∃ check ∈ c.checkList, check.isOf s = true) ∧
        c.select suites = .ok (c.checkList.filter (Check.isAsked suites)) ∨
      ∃ suite, StrangeSuite c.checkList suites suite ∧
        c.select suites = .error [s!"unknown check suite '{suite}'"] := by
  by_cases hempty : suites = []
  · subst hempty
    refine .inl ⟨by simp, congrArg Except.ok ?_⟩
    exact (List.filter_eq_self.mpr fun _ _ => rfl).symm
  · have hne : suites.isEmpty = false := by simpa using hempty
    simp only [select, hne, Bool.false_eq_true, if_false]
    split
    · next suite hfind =>
      obtain ⟨hsuite, before, rest, hsplit, hbefore⟩ := List.find?_eq_some_iff_append.mp hfind
      have hstrange : StrangeSuite c.checkList suites suite :=
        ⟨before, rest, hsplit, by simpa [Check.isOf] using hbefore,
          by simpa [Check.isOf] using hsuite⟩
      exact .inr ⟨suite, hstrange, rfl⟩
    · next hfind =>
      refine .inl ⟨by simpa [Check.isOf] using hfind, congrArg Except.ok ?_⟩
      refine List.filter_congr fun check _ => ?_
      rw [Check.isAsked, hne, Bool.false_or]
      rfl

end CaptureAudit
