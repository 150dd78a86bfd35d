import CaptureAudit.Proofs.CheckPolls
import Mathlib.Data.List.TakeWhile

/-! The checks of snapshots when the analysis is cancelled while they run. The first poll to see the
cancellation fixes what has been judged. -/

namespace CaptureAudit

open Script (Unseen)

theorem exists_split_of_flatMap {α β : Type} {f : α → List β} {l : List α} {before after : List β}
    {b : β} (h : l.flatMap f = before ++ b :: after) :
    ∃ former a latter front back, l = former ++ a :: latter ∧ f a = front ++ b :: back ∧
      before = former.flatMap f ++ front := by
  induction l generalizing before with
  | nil => exact absurd h (by simp)
  | cons a l ih =>
    rw [List.flatMap_cons] at h
    rcases List.append_eq_append_iff.mp h with ⟨more, hmore, hrest⟩ | ⟨more, hmore, hrest⟩
    · obtain ⟨former, a', latter, front, back, rfl, hfront, rfl⟩ := ih hrest
      refine ⟨a :: former, a', latter, front, back, rfl, hfront, ?_⟩
      rw [hmore, List.flatMap_cons, List.append_assoc]
    · cases more with
      | nil =>
        obtain ⟨former, a', latter, front, back, rfl, hfront, hbefore⟩ := @ih []
          (by simpa using hrest.symm)
        refine ⟨a :: former, a', latter, front, back, rfl, hfront, ?_⟩
        rw [List.flatMap_cons, List.append_assoc, ← hbefore, List.append_nil, hmore]
        simp
      | cons c more =>
        obtain ⟨rfl, -⟩ := List.cons.inj hrest
        exact ⟨[], a, l, before, more, rfl, hmore, rfl⟩

namespace Archive

/-- The visits that a check of snapshots gets to: up to the first whose snapshot could not be read,
that one included. -/
def reached (a : Archive) : List Visit :=
  a.visits.takeWhile (!·.isUnreadable) ++ (a.visits.find? (·.isUnreadable)).toList

theorem reached_cases (a : Archive) :
    ((∀ v ∈ a.visits, v.isUnreadable = false) ∧ a.reached = a.visits) ∨
      ∃ before v after, a.visits = before ++ v :: after ∧
        (∀ u ∈ before, u.isUnreadable = false) ∧ v.isUnreadable = true ∧
        a.reached = before ++ [v] := by
  rw [reached]
  cases hfind : a.visits.find? (·.isUnreadable) with
  | none =>
    have hall : ∀ v ∈ a.visits, v.isUnreadable = false := by
      simpa using List.find?_eq_none.mp hfind
    refine .inl ⟨hall, ?_⟩
    rw [List.takeWhile_eq_self_iff.mpr (by simpa using hall), Option.toList_none, List.append_nil]
  | some v =>
    obtain ⟨hv, before, after, hvisits, hbefore⟩ := List.find?_eq_some_iff_append.mp hfind
    have hreadable : ∀ u ∈ before, u.isUnreadable = false := by simpa using hbefore
    refine .inr ⟨before, v, after, hvisits, hreadable, hv, ?_⟩
    rw [hvisits, List.takeWhile_append_of_pos (by simpa using hreadable),
      List.takeWhile_cons_of_neg (by simp [hv]), List.append_nil, Option.toList_some]

/-- All visits before one that is reached could be read. -/
theorem exists_split_of_reached {a : Archive} {k : Nat} {v : Visit} (h : a.reached[k]? = some v) :
    ∃ before after, a.visits = before ++ v :: after ∧ before.length = k ∧
      ∀ u ∈ before, u.isUnreadable = false := by
  obtain ⟨hk, hget⟩ := List.getElem?_eq_some_iff.mp h
  have hsplit : a.reached = a.reached.take k ++ v :: a.reached.drop (k + 1) := by
    rw [← hget, List.getElem_cons_drop hk, List.take_append_drop]
  have hlength : (a.reached.take k).length = k := by
    rw [List.length_take]
    omega
  rcases a.reached_cases with ⟨hall, hreached⟩ | ⟨before, u, after, hvisits, hbefore, -, hreached⟩
  · rw [hreached] at hsplit hlength
    exact ⟨_, _, hsplit, hlength, fun u hu => hall u (List.mem_of_mem_take hu)⟩
  · have hle : k ≤ before.length := by
      rw [hreached, List.length_append, List.length_singleton] at hk
      omega
    have htake : a.reached.take k = before.take k := by
      rw [hreached, List.take_append_of_le_length hle]
    have hall : a.visits = a.reached ++ after := by rw [hvisits, hreached]; simp
    rw [htake] at hsplit hlength
    refine ⟨before.take k, a.reached.drop (k + 1) ++ after, ?_, hlength,
      fun w hw => hbefore w (List.mem_of_mem_take hw)⟩
    rw [hall]
    nth_rewrite 1 [hsplit]
    rw [List.append_assoc, List.cons_append]

end Archive

section

variable {signal : Nat → Bool} {limit : UInt64} {a : Archive} {c : Check} {texts : List String}
  {events : List Event} {n : Nat}

theorem polls_conclude (code : String) (x : Ending × Trace) :
    (conclude code x).2.polls = x.2.polls := by
  obtain ⟨ending, t⟩ := x
  cases ending <;> rfl

theorem stored_conclude (code : String) (x : Ending × Trace) :
    (conclude code x).2.examples.stored = x.2.examples.stored := by
  obtain ⟨ending, t⟩ := x
  cases ending <;> rfl

/-- A check stores the first of the examples that it offers. -/
theorem stored_runCheck (signal : Nat → Bool) (limit : UInt64) (a : Archive) (c : Check) :
    (runCheck signal false limit a c).2.examples.stored =
      ((c.script a).offers signal (.fresh limit false)).take limit.toNat := by
  rw [runCheck, stored_conclude]
  exact Script.stored_run (c.script a) (Nat.zero_le _)

theorem runCheck_of_unseen (h : ∀ k < (runCheck quiet false limit a c).2.polls, signal k = false) :
    runCheck signal false limit a c = runCheck quiet false limit a c := by
  have hrun : (c.script a).run signal (.fresh limit false) =
      (c.script a).run quiet (.fresh limit false) := by
    refine Script.run_eq_of_unseen _ _ fun k _ hk => h k ?_
    rw [runCheck, polls_conclude]
    exact hk
  rw [runCheck, runCheck, hrun]

theorem runCheck_of_cut (h : (c.script a).Plays signal (.fresh limit false) texts events n
    (.error (.error [cancelledError]))) :
    let run := runCheck signal false limit a c
    run.1 = .skipped ∧
      run.2.examples = (texts.foldl Examples.add (.empty limit)).setError cancelledError ∧
      run.2.events =
        events ++ [⟨.warn, .runner, s!"Check {c.code} could not complete: {cancelledError}"⟩] ∧
      run.2.polls = n := by
  have hplay : (c.script a).play signal (.fresh limit false) = _ := h
  rw [runCheck, Script.run_eq_play, hplay]
  exact ⟨rfl, rfl, rfl, Nat.zero_add n⟩

end

namespace Judge

variable {signal : Nat → Bool} {a : Archive} {v : Visit} {t : Trace}

/-- What a check tells of at a visit before it polls: of the loading, if that comes first. -/
def lead : Judge → Visit → List Event
  | .offlineReplicas, v => v.events
  | .leaderAgreement, _ => []
  | .resourceUsage, v => v.events

theorem yields_handler (d : Descriptor) (a : Archive) (j : Judge) : (j.handler d a).Yields := by
  cases j with
  | offlineReplicas => exact MetaGroup.yields_offlineReplicas d a
  | leaderAgreement => exact MetaGroup.yields_leaderAgreement d a
  | resourceUsage => exact ResourceUsage.yields_resourceUsage d a

theorem polls_handler (ht : t.cancelled = false) (d : Descriptor) (j : Judge) :
    ((j.handler d a).play quiet t).2.polls = t.polls + a.reached.length := by
  rcases a.reached_cases with ⟨hall, hreached⟩ | ⟨before, v, after, hvisits, hbefore, hv, hreached⟩
  · have hquiet := Unseen.quiet ht a.visits.length
    rw [hreached]
    cases j with
    | offlineReplicas => exact MetaGroup.polls_offlineReplicas hall d hquiet
    | leaderAgreement => exact MetaGroup.polls_leaderAgreement hall d hquiet
    | resourceUsage => exact ResourceUsage.polls_resourceUsage hall d hquiet
  · have hquiet := Unseen.quiet ht before.length
    have hlength : a.reached.length = before.length + 1 := by
      rw [hreached, List.length_append, List.length_singleton]
    obtain ⟨err, hs, hno⟩ : ∃ err, v.snapshot = .error err ∧ err.isNoMatches = false := by
      cases hs : v.snapshot with
      | ok s => simp [Visit.isUnreadable, hs] at hv
      | error err => exact ⟨err, rfl, by simpa [Visit.isUnreadable, hs] using hv⟩
    rw [hlength]
    cases j with
    | offlineReplicas =>
      have hends := MetaGroup.offlineReplicas_ends hvisits hbefore hquiet (fun t' ht' _ =>
        (MetaGroup.pollsAfter_visitReplicas v).plays
          (MetaGroup.visitReplicas_halts hs hno t'.examples) (.quiet ht' 1)) d
      exact hends.polls_play
    | leaderAgreement =>
      obtain ⟨former, cluster, latter, front, back, hclusters, hfront, rfl⟩ :=
        exists_split_of_flatMap hvisits
      have hends := MetaGroup.leaderAgreement_ends hclusters hfront hbefore hquiet
        (fun groups t' ht' _ => (MetaGroup.pollsAfter_addLeader groups v).plays
          (MetaGroup.addLeader_halts hs hno groups t'.examples) (.quiet ht' 1)) d
      exact hends.polls_play
    | resourceUsage =>
      have hends := ResourceUsage.resourceUsage_ends hvisits hbefore hquiet d fun n t' ht' _ =>
        (ResourceUsage.pollsAfter_visitServer (ResourceUsage.threshold d) n v).plays
          (ResourceUsage.visitServer_halts hs hno _ n t'.examples) (.quiet ht' 1)
      exact hends.polls_play

theorem plays_cut {before after : List Visit} (hvisits : a.visits = before ++ v :: after)
    (hbefore : ∀ u ∈ before, u.isUnreadable = false) (ht : Unseen signal t before.length)
    (hseen : signal (t.polls + before.length) = true) (d : Descriptor) (j : Judge) :
    (j.handler d a).Plays signal t
      (j.evidence d a before (a.clusters.takeWhile (· ≠ v.cluster)))
      (before.flatMap j.tells ++ j.lead v) (before.length + 1)
      (.error (.error [cancelledError])) := by
  obtain ⟨former, cluster, latter, front, back, hclusters, hfront, rfl⟩ :=
    exists_split_of_flatMap hvisits
  have hmem : v ∈ a.visitsOf cluster := by simp [hfront]
  obtain ⟨rfl, -⟩ := Archive.cluster_of_mem_visitsOf hmem
  rw [Archive.takeWhile_clusters hclusters]
  cases j with
  | offlineReplicas =>
    exact MetaGroup.offlineReplicas_ends hvisits hbefore ht
      (fun t' _ hpolls => (MetaGroup.pollsAfter_visitReplicas v).halts (hpolls ▸ hseen)) d
  | leaderAgreement =>
    exact MetaGroup.leaderAgreement_ends hclusters hfront hbefore ht
      (fun groups t' _ hpolls => (MetaGroup.pollsAfter_addLeader groups v).halts (hpolls ▸ hseen)) d
  | resourceUsage =>
    exact ResourceUsage.resourceUsage_ends hvisits hbefore ht d
      fun n t' _ hpolls => (ResourceUsage.pollsAfter_visitServer _ n v).halts (hpolls ▸ hseen)

/-- A check of snapshots polls once for every visit it gets to, before it judges the visit. If none
of these polls finds the analysis cancelled, the run is the undisturbed one. Otherwise the first to
do so ends the check: it is skipped, its evidence and its events are those of the visits before, or
of the clusters before where clusters are judged as a whole, and it has offered the first of the
examples that the undisturbed run offers. -/
theorem run_under_any_signal (a : Archive) (limit : UInt64) (d : Judge → Descriptor)
    (signal : Nat → Bool) :
    (MetaGroup.checks ++ ResourceUsage.checks).map Check.handler =
      [offlineReplicas, leaderAgreement, resourceUsage].map (fun j => some j.handler) ∧
    ∀ j : Judge,
      let check : Check := ⟨d j, some j.handler⟩
      let whole := runCheck quiet false limit a check
      let run := runCheck signal false limit a check
      whole.2.polls = a.reached.length ∧
      ((∀ k < a.reached.length, signal k = false) → run = whole) ∧
      (∀ k v, a.reached[k]? = some v → signal k = true → (∀ i < k, signal i = false) →
        run.1 = .skipped ∧
        run.2.examples = ((j.evidence (d j) a (a.visits.take k)
          (a.clusters.takeWhile (· ≠ v.cluster))).foldl Examples.add (.empty limit)).setError
            cancelledError ∧
        run.2.events = (a.visits.take k).flatMap j.tells ++ j.lead v ++
          [⟨.warn, .runner, s!"Check {(d j).code} could not complete: {cancelledError}"⟩] ∧
        run.2.polls = k + 1) ∧
      (check.script a).offers signal (.fresh limit false) <+:
        (check.script a).offers quiet (.fresh limit false) ∧
      ∀ s, (runCheck s false limit a check).2.examples.stored =
        ((check.script a).offers s (.fresh limit false)).take limit.toNat := by
  refine ⟨rfl, fun j => ?_⟩
  intro check whole run
  have hfresh : (Trace.fresh limit false).cancelled = false := rfl
  have hpolls : whole.2.polls = a.reached.length := by
    have hhandler := polls_handler (a := a) hfresh (d j) j
    change (runCheck quiet false limit a check).2.polls = _
    rw [runCheck, polls_conclude, Script.run_eq_play]
    exact hhandler.trans (Nat.zero_add _)
  refine ⟨hpolls, fun hunseen => runCheck_of_unseen (hpolls ▸ hunseen), ?_,
    (j.yields_handler (d j) a).isPrefix_offers signal hfresh,
    fun s => stored_runCheck s limit a check⟩
  intro k v hreached hseen hunseen
  obtain ⟨before, after, hvisits, rfl, hbefore⟩ := Archive.exists_split_of_reached hreached
  have hfirst : Unseen signal (.fresh limit false) before.length :=
    ⟨hfresh, fun i hi => (Nat.zero_add i).symm ▸ hunseen i hi⟩
  have hcut := plays_cut hvisits hbefore hfirst ((Nat.zero_add before.length).symm ▸ hseen) (d j) j
  have htake : a.visits.take before.length = before := by rw [hvisits, List.take_left]
  rw [htake]
  exact runCheck_of_cut hcut

end Judge

end CaptureAudit
