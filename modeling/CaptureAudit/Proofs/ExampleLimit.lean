import CaptureAudit.Proofs.BuiltInChecks

/-! The limit on examples decides how many of them are stored, and nothing else of a run. The checks
look at their evidence only for how many examples were offered. -/

namespace CaptureAudit

/-- The same examples were offered, but only the first are stored, as far as this limit allows. -/
structure Examples.Narrower (room : UInt64) (e e' : Examples) : Prop where
  limit : e.limit = room
  wider : room ≤ e'.limit
  stored : e.stored = e'.stored.take room.toNat
  offered : e.offered = e'.offered
  error : e.error = e'.error

/-- The runs have left the same behind, but for the examples beyond this limit. -/
structure Trace.Narrower (room : UInt64) (t t' : Trace) : Prop where
  examples : t.examples.Narrower room t'.examples
  events : t.events = t'.events
  cancelled : t.cancelled = t'.cancelled
  polls : t.polls = t'.polls

variable {limit limit' : UInt64}

namespace Examples.Narrower

variable {e e' : Examples}

theorem add (h : e.Narrower limit e') (text : String) :
    (e.add text).Narrower limit (e'.add text) := by
  have hlimit : limit.toNat ≤ e'.limit.toNat := h.wider
  have hlength : e.stored.length = min limit.toNat e'.stored.length := by
    rw [h.stored, List.length_take]
  refine ⟨h.limit, h.wider, ?_, congrArg (· + 1) h.offered, h.error⟩
  change (if e.stored.length < e.limit.toNat then e.stored ++ [text] else e.stored) =
    (if e'.stored.length < e'.limit.toNat then e'.stored ++ [text] else e'.stored).take limit.toNat
  rw [h.limit]
  by_cases hroom : e'.stored.length < limit.toNat
  · -- Until the narrow room is full, both store the same.
    have hall : e.stored = e'.stored := by
      rw [h.stored, List.take_of_length_le (Nat.le_of_lt hroom)]
    have hfits : (e'.stored ++ [text]).length ≤ limit.toNat := by
      rw [List.length_append, List.length_singleton]
      omega
    rw [hall, if_pos hroom, if_pos (by omega), List.take_of_length_le hfits]
  · have hfull : ¬ e.stored.length < limit.toNat := by omega
    rw [if_neg hfull, h.stored]
    split
    · rw [List.take_append_of_le_length (by omega)]
    · rfl

theorem setError (h : e.Narrower limit e') (text : String) :
    (e.setError text).Narrower limit (e'.setError text) :=
  ⟨h.limit, h.wider, h.stored, h.offered, rfl⟩

end Examples.Narrower

theorem Trace.narrower_fresh (h : limit ≤ limit') (cancelled : Bool) :
    (fresh limit cancelled).Narrower limit (fresh limit' cancelled) :=
  ⟨⟨rfl, h, List.take_nil.symm, rfl, rfl⟩, rfl, rfl, rfl⟩

theorem Script.Steady.run_narrower {s : Script Outcome} (hs : s.Steady) (signal : Nat → Bool)
    {t t' : Trace} (h : t.Narrower limit t') :
    (s.run signal t).1 = (s.run signal t').1 ∧
      (s.run signal t).2.Narrower limit (s.run signal t').2 := by
  induction s generalizing t t' with
  | done o | fail chain | panic message => exact ⟨rfl, h⟩
  | add e next ih => exact ih hs ⟨h.examples.add e, h.events, h.cancelled, h.polls⟩
  | setError text next ih => exact ih hs ⟨h.examples.setError text, h.events, h.cancelled, h.polls⟩
  | tell event next ih =>
    exact ih hs ⟨h.examples, congrArg (· ++ [event]) h.events, h.cancelled, h.polls⟩
  | look next ih =>
    -- What follows depends on the number of examples offered, which is the same in both runs.
    obtain ⟨hsame, hnext⟩ := hs
    simp only [run, hsame _ _ h.examples.offered]
    exact ih _ (hnext _) h
  | poll next ih =>
    have hpolled : (t.cancelled || signal t.polls) = (t'.cancelled || signal t'.polls) := by
      rw [h.cancelled, h.polls]
    rw [run, run, hpolled]
    exact ih _ (hs _) ⟨h.examples, h.events, h.cancelled, congrArg (· + 1) h.polls⟩
  | cancel next ih => exact hs.elim

theorem conclude_narrower (code : String) {x x' : Ending × Trace} (hending : x.1 = x'.1)
    (h : x.2.Narrower limit x'.2) :
    (conclude code x).1 = (conclude code x').1 ∧
      (conclude code x).2.Narrower limit (conclude code x').2 := by
  obtain ⟨e, t⟩ := x
  obtain ⟨e', t'⟩ := x'
  obtain rfl : e = e' := hending
  cases e with
  | outcome o => exact ⟨rfl, h⟩
  | error chain =>
    exact ⟨rfl, h.examples.setError _, congrArg (· ++ _) h.events, h.cancelled, h.polls⟩
  | panic message =>
    exact ⟨rfl, h.examples.setError _, congrArg (· ++ _) h.events, h.cancelled, h.polls⟩

/-- A check of the program gives the same outcome and error, counts the same examples and tells of
the same events under any limit on examples, whatever its thresholds are and whenever the analysis
is cancelled. Under the lower of two limits it stores the first of the examples that it stores under
the other. -/
theorem run_any_limit {check : Check} (hcheck : check ∈ builtInChecks) (f : Tunable → Tunable)
    (a : Archive) (signal : Nat → Bool) (cancelled : Bool) (hlimit : limit ≤ limit') :
    let narrow := runCheck signal cancelled limit a (check.mapTunables f)
    let wide := runCheck signal cancelled limit' a (check.mapTunables f)
    narrow.1 = wide.1 ∧ narrow.2.examples.offered = wide.2.examples.offered ∧
      narrow.2.examples.error = wide.2.examples.error ∧ narrow.2.events = wide.2.events ∧
      narrow.2.examples.stored = wide.2.examples.stored.take limit.toNat := by
  have hjudges : (check.mapTunables f).JudgesSnapshots :=
    (check.judgesSnapshots_mapTunables_iff f).mpr (judgesSnapshots_of_builtIn hcheck)
  have hsteady := (check.mapTunables f).steady_script hjudges a
  obtain ⟨hending, hrun⟩ := hsteady.run_narrower signal (Trace.narrower_fresh hlimit cancelled)
  obtain ⟨houtcome, h⟩ := conclude_narrower (check.mapTunables f).code hending hrun
  exact ⟨houtcome, h.examples.offered, h.examples.error, h.events, h.examples.stored⟩

/-- Cancelled at the second of two servers, with room for nothing of the first and with room. -/
theorem run_any_limit_without_room :
    let a : Archive := .ofArtifacts [Specimen.rawSnapshot "C1" "srv1"
        "\x7b\"data\":\x7b\"memory\":2,\"config\":\x7b\"max_memory\":1\x7d\x7d\x7d",
      Specimen.rawSnapshot "C1" "srv2" "\x7b\x7d"]
    let check := Catalog.own ⟨ResourceUsage.descriptor, some ResourceUsage.resourceUsage⟩
    let whole := runCheck quiet false 0 a (check.mapTunables id)
    let cut := runCheck (· = 1) false 0 a (check.mapTunables id)
    whole.1 = .fail ∧ whole.2.examples.stored = [] ∧ cut.1 = .skipped ∧
      cut.2.examples.offered = 1 := by
  intro a check
  dsimp only
  have hcheck : check ∈ builtInChecks := by
    refine List.mem_map_of_mem (List.mem_append_right _ ?_)
    exact List.mem_singleton.mpr rfl
  have hroom : (0 : UInt64) ≤ 1 := by decide
  obtain ⟨houtcome, -, -, -, hstored⟩ := run_any_limit hcheck id a quiet false hroom
  obtain ⟨hskipped, hoffered, -⟩ := run_any_limit hcheck id a (· = 1) false hroom
  have hfail : (runCheck quiet false 1 a (check.mapTunables id)).1 = .fail := by decide +kernel
  have hcut : (runCheck (· = 1) false 1 a (check.mapTunables id)).1 = .skipped ∧
      (runCheck (· = 1) false 1 a (check.mapTunables id)).2.examples.offered = 1 := by
    decide +kernel
  refine ⟨houtcome.trans hfail, ?_, hskipped.trans hcut.1, hoffered.trans hcut.2⟩
  exact hstored.trans List.take_zero

end CaptureAudit
