import CaptureAudit.Proofs.ReloadedReport
import Mathlib.Data.List.Induction

/-! The account of the evidence of a check, from the texts that it offers to the lines that are
printed. What is not stored is counted, and what is stored and not printed is counted with it,
before a report is saved and after it is loaded. -/

namespace CaptureAudit

namespace Examples

/-- What a check does to its evidence. -/
inductive Call where
  | add (text : String)
  | setError (text : String)

def Call.offered? : Call → Option String
  | .add text => some text
  | .setError _ => none

def Call.error? : Call → Option String
  | .add _ => none
  | .setError text => some text

def after (e : Examples) : Call → Examples
  | .add text => e.add text
  | .setError text => e.setError text

/-- The evidence after calls, in their order, where there was none. -/
def ofCalls (limit : UInt64) (calls : List Call) : Examples := calls.foldl after (empty limit)

variable (limit : UInt64) (calls : List Call)

theorem ofCalls_eq :
    ofCalls limit calls =
      { (calls.filterMap Call.offered?).foldl add (empty limit) with
        error := (calls.filterMap Call.error?).getLast? } := by
  induction calls using List.reverseRecOn with
  | nil => rfl
  | append_singleton calls call ih =>
    rw [ofCalls, List.foldl_append, ← ofCalls, ih]
    cases call with
    | add text => simp [after, add, Call.offered?, Call.error?]
    | setError text => simp [after, setError, Call.offered?, Call.error?, List.filterMap_cons]

theorem ofCalls_parts :
    ofCalls limit calls = ⟨(calls.filterMap Call.offered?).take limit.toNat, limit,
      UInt64.ofNat (calls.filterMap Call.offered?).length,
      (calls.filterMap Call.error?).getLast?⟩ := by
  rw [ofCalls_eq, foldl_add_empty]

end Examples

/-- The lines of a result that stores the first of the texts that it was offered. -/
theorem CheckResult.lines_of_taken {check : Descriptor} {outcome : Outcome} {e : Examples}
    {texts : List String} {room : Nat} (hstored : e.stored = texts.take room)
    (hoffered : e.offered.toNat = texts.length) (verbose : Bool) :
    let k := if verbose then min texts.length room else min (min texts.length room) 3
    (ofOutcome check outcome e).lines verbose =
      (ofOutcome check outcome e).headline ::
        e.error.toList.map (fun text => s!"{indent}error: {text}") ++
        (e.stored.take k).map (indent ++ ·) ++
        if 0 < texts.length - k then [s!"{indent}... {texts.length - k} more"] else [] := by
  intro k
  have hshown : (ofOutcome check outcome e).shown verbose = e.stored.take k := by
    have hlength : e.stored.length = min texts.length room := by
      rw [hstored, List.length_take, Nat.min_comm]
    cases verbose with
    | true => exact (List.take_of_length_le hlength.le).symm
    | false =>
      change e.stored.take 3 = e.stored.take (min (min texts.length room) 3)
      rw [← hlength, Nat.min_comm, ← List.take_take, List.take_length]
  have hk : (e.stored.take k).length = k := by
    have hle : k ≤ min texts.length room := by
      dsimp only [k]
      split
      · exact Nat.le_refl _
      · exact Nat.min_le_left _ _
    rw [hstored, List.length_take, List.length_take]
    omega
  have hhidden : (ofOutcome check outcome e).examples.offered.toNat = texts.length := hoffered
  rw [lines_eq, hshown, hhidden, hk]
  rfl

/-- Of the texts that are offered the first are stored, as many as there is room for, and all are
counted. In a rendered report the block of the result has the first of those that are stored, all of
them or three at most, and then the number of all others, which is left out when it is zero. A
report that was saved and loaded has the same block, and it is loaded when its numbers are read
back. -/
theorem evidence_of_calls (limit : UInt64) (calls : List Examples.Call)
    (hcount : (calls.filterMap Examples.Call.offered?).length < 0x10000000000000000) :
    let texts := calls.filterMap Examples.Call.offered?
    let n := texts.length
    let l := limit.toNat
    let e := Examples.ofCalls limit calls
    e.stored = texts.take (min n l) ∧ e.offered.toNat = n ∧ e.dropped + e.stored.length = n ∧
    (e.isTruncated = true ↔ l < n) ∧
    ∀ (time : Timestamp) (metadata : CaptureMetadata) (skipped : List String)
      (before after : List CheckResult) (check : Descriptor) (outcome : Outcome),
      let result := CheckResult.ofOutcome check outcome e
      let r := Report.ofResults time metadata skipped (before ++ result :: after)
      (∀ (verbose : Bool) (report : Report),
        (report = r ∨ ∃ path w w', (r.save path).run w = (.ok (), w') ∧
          ((Report.load path).run w').1 = .ok report) →
        let k := if verbose then min n l else min (min n l) 3
        ∃ h, k + h = n ∧ report.render verbose =
          joinLines (r.opening ++ before.flatMap (·.lines verbose)) ++
          joinLines (result.headline ::
            (calls.filterMap Examples.Call.error?).getLast?.toList.map
              (fun text => s!"{indent}error: {text}") ++
            (e.stored.take k).map (indent ++ ·) ++
            if 0 < h then [s!"{indent}... {h} more"] else []) ++
          joinLines (after.flatMap (·.lines verbose) ++ r.closing)) ∧
      (r.results.length < 0x10000000000000000 → (∀ c ∈ r.results, c.label = c.outcome.label) →
        (∀ c ∈ r.results, ∀ x ∈ c.check.numbers, Json.ReadsBack x) →
        ∀ path w w', (r.save path).run w = (.ok (), w') →
          ((Report.load path).run w').1 = .ok r) := by
  intro texts n l e
  have hparts : e = ⟨texts.take l, limit, UInt64.ofNat n, (calls.filterMap _).getLast?⟩ :=
    Examples.ofCalls_parts limit calls
  have hoffered : e.offered.toNat = n := by
    rw [hparts]
    exact UInt64.toNat_ofNat_of_lt' hcount
  have hstored : e.stored = texts.take l := congrArg Examples.stored hparts
  have hlength : e.stored.length = min n l := by rw [hstored, List.length_take, Nat.min_comm]
  have hdropped : e.dropped + e.stored.length = n := by
    rw [Examples.dropped, hoffered, hlength]
    omega
  refine ⟨by rw [hstored, Nat.min_comm, ← List.take_take, List.take_length], hoffered, hdropped, ?_,
    fun time metadata skipped before after check outcome => ?_⟩
  · rw [Examples.isTruncated, decide_eq_true_iff]
    omega
  intro result r
  refine ⟨fun verbose report hreport => ?_, fun hcounts hlabels hnumbers path w w' hsave => ?_⟩
  · intro k
    have hrender : report.render verbose = r.render verbose := by
      rcases hreport with rfl | ⟨path, w, w', hsave, hload⟩
      · rfl
      · exact Report.render_of_ofText (Report.tallyAgrees_iff.mpr rfl)
          ((Report.load_of_save hsave).symm.trans hload) verbose
    have hk : k ≤ n := by
      dsimp only [k]
      split <;> omega
    refine ⟨n - k, by omega, ?_⟩
    have hlines : result.lines verbose = _ :=
      CheckResult.lines_of_taken hstored hoffered verbose
    have herror : e.error = (calls.filterMap Examples.Call.error?).getLast? :=
      congrArg Examples.error hparts
    rw [hrender, Report.render_of_block rfl verbose, hlines, herror]
  · rw [Report.load_of_save hsave]
    exact Report.ofText_ofResults hcounts hlabels hnumbers

/-- Four texts where two fit. The error is the one that was set last. -/
theorem evidence_of_calls_beyond_limit :
    let calls : List Examples.Call :=
      [.add "first", .setError "early", .add "second", .add "third", .setError "late",
        .add "fourth"]
    let e := Examples.ofCalls 2 calls
    let r := Report.ofResults Report.epoch {} [] [.ofOutcome (.plain "T" "" "t" "") .fail e]
    (calls.filterMap Examples.Call.offered?).length < 0x10000000000000000 ∧
      e.stored = ["first", "second"] ∧ e.dropped = 2 ∧ e.isTruncated = true ∧
      r.render false = joinLines r.opening ++
        joinLines ["[FAIL] T t", "       error: late", "       first", "       second",
          "       ... 2 more"] ++ joinLines r.closing ∧
      ∀ path w w', (r.save path).run w = (.ok (), w') →
        ((Report.load path).run w').1 = .ok r := by
  intro calls e r
  have hcount : (calls.filterMap Examples.Call.offered?).length < 0x10000000000000000 := by decide
  obtain ⟨hstored, -, hdropped, htruncated, hreport⟩ := evidence_of_calls 2 calls hcount
  obtain ⟨hrender, hload⟩ := hreport Report.epoch {} [] [] [] (.plain "T" "" "t" "") .fail
  obtain ⟨h, hsum, hrender⟩ := hrender false r (.inl rfl)
  obtain rfl : h = 2 := Nat.add_left_cancel (n := 2) hsum
  refine ⟨hcount, hstored, ?_, htruncated.mpr (by decide), hrender.trans ?_, ?_⟩
  · rw [show e.stored = ["first", "second"] from hstored] at hdropped
    exact Nat.add_right_cancel (m := 2) hdropped
  · decide +kernel
  · refine hload (by decide) (by simp [Report.ofResults, CheckResult.ofOutcome]) ?_
    simp [Report.ofResults, CheckResult.ofOutcome, Descriptor.numbers, Descriptor.plain,
      SortedMap.values, SortedMap.empty]

end CaptureAudit
