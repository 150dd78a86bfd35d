import CaptureAudit.Proofs.RecordMembers
import CaptureAudit.Proofs.RenderedLines
import CaptureAudit.Proofs.ReportAcceptance
import CaptureAudit.Proofs.SavedReport

/-! What a report that is loaded has in common with the one that was saved, whatever numbers its
checks keep. The tunables alone may be read as others, and they are not shown. -/

namespace CaptureAudit

open Json (Reader Record Value)

namespace Json.Record

variable {σ α : Type} {r : Record σ} {ms : List (Key × Node)} {x y : σ}

/-- Reading the members changes one record to the other. -/
def Leads (r : Record σ) (ms : List (Key × Node)) (x y : σ) : Prop :=
  ∃ ns c, r.Tells ms ns c ∧ y = c x

theorem leads_of_read (h : r.read (.object ms true) = .ok y) : r.Leads ms r.blank y := by
  rw [read] at h
  obtain ⟨⟨seen, z⟩, hm, h⟩ := exists_of_bind_ok h
  obtain ⟨ns, c, htells, -, rfl⟩ := exists_tells hm
  simp only [Bool.not_true, Bool.false_eq_true, if_false] at h
  split at h
  · contradiction
  · exact ⟨ns, c, htells, (Except.ok.inj h).symm⟩

theorem Leads.exists_of_member {name : String} {v : Node} {f : Field σ} {rd : Reader α}
    {set : α → σ → σ} (h : r.Leads ((.name name, v) :: ms) x y) (hf : r.field? name = some f)
    (hread : f.read = fun v => (rd v).map set) : ∃ a, rd v = .ok a ∧ r.Leads ms (set a x) y := by
  obtain ⟨ns, c, htells, rfl⟩ := h
  cases htells with
  | other hs => exact absurd (hs.symm.trans hf) (by simp)
  | @field _ _ _ ns c f' change hs hv hnew rest =>
    obtain rfl : f' = f := Option.some.inj (hs.symm.trans hf)
    simp only [hread] at hv
    cases ha : rd v with
    | error e =>
      rw [ha] at hv
      contradiction
    | ok a =>
      rw [ha] at hv
      obtain rfl : set a = change := Except.ok.inj hv
      exact ⟨a, rfl, ns, c, rest, rfl⟩

theorem Leads.eq_of_nil (h : r.Leads [] x y) : y = x := by
  obtain ⟨ns, c, htells, rfl⟩ := h
  cases htells
  rfl

end Json.Record

theorem Descriptor.names_of_read {d d' : Descriptor} (h : record.read d.toJson.node = .ok d') :
    d'.code = d.code ∧ d'.name = d.name := by
  obtain ⟨code, hcode, h⟩ := (Record.leads_of_read h).exists_of_member rfl rfl
  obtain ⟨suite, -, h⟩ := h.exists_of_member rfl rfl
  obtain ⟨name, hname, h⟩ := h.exists_of_member rfl rfl
  obtain ⟨description, -, h⟩ := h.exists_of_member rfl rfl
  obtain ⟨tunables, -, h⟩ := h.exists_of_member rfl rfl
  obtain rfl := h.eq_of_nil
  exact ⟨(Except.ok.inj hcode).symm, (Except.ok.inj hname).symm⟩

theorem Outcome.eq_of_readCode {o o' : Outcome} (h : readCode (Value.ofNat o.code).node = .ok o') :
    o' = o :=
  Except.ok.inj (h.symm.trans o.readCode_node)

namespace CheckResult

/-- The parts of a result that are shown. -/
def bare (c : CheckResult) : CheckResult :=
  .ofOutcome (.plain c.check.code "" c.check.name "") c.outcome c.examples

theorem flatMap_lines_bare (cs : List CheckResult) (verbose : Bool) :
    (cs.map bare).flatMap (·.lines verbose) = cs.flatMap (·.lines verbose) := by
  rw [List.flatMap_map]
  rfl

theorem bare_of_read {c c' : CheckResult} (h : record.read c.toJson.node = .ok c') :
    c'.bare = c.bare := by
  obtain ⟨check, hcheck, h⟩ := (Record.leads_of_read h).exists_of_member rfl rfl
  obtain ⟨outcome, houtcome, h⟩ := h.exists_of_member rfl rfl
  obtain ⟨label, -, h⟩ := h.exists_of_member rfl rfl
  obtain ⟨examples, hexamples, h⟩ := h.exists_of_member rfl rfl
  obtain rfl := h.eq_of_nil
  obtain ⟨hcode, hname⟩ := Descriptor.names_of_read hcheck
  obtain rfl := Outcome.eq_of_readCode houtcome
  obtain rfl : examples = c.examples :=
    Except.ok.inj (hexamples.symm.trans c.examples.read_toJson)
  simp only [bare, hcode, hname]

theorem bare_of_readList {cs cs' : List CheckResult}
    (h : Reader.list record.read (Value.array (cs.map toJson)).node = .ok cs') :
    cs'.map bare = cs.map bare := by
  rw [Value.node, Json.itemNodes_eq_map, Reader.list] at h
  cases hm : ((cs.map toJson).map Value.node).mapM record.read with
  | error e =>
    rw [hm] at h
    contradiction
  | ok xs =>
    rw [hm] at h
    obtain rfl : xs = cs' := Except.ok.inj h
    rw [mapM_eq_ok_iff, List.map_map, List.map_map] at hm
    have hlength := congrArg List.length hm
    refine List.ext_getElem (by simpa using hlength.symm) fun i hi hi' => ?_
    have hget := congrArg (·[i]?) hm
    simp only [List.length_map] at hi hi'
    simp only [List.getElem?_map, List.getElem?_eq_getElem hi, List.getElem?_eq_getElem hi',
      Option.map_some, Function.comp_apply] at hget
    simpa using bare_of_read (Option.some.inj hget)

end CheckResult

namespace Report

variable {r r' : Report}

theorem tally_eq_of_bare {cs cs' : List CheckResult}
    (h : cs'.map CheckResult.bare = cs.map CheckResult.bare) : tally cs' = tally cs := by
  have houtcomes := congrArg (List.map CheckResult.outcome) h
  rw [List.map_map, List.map_map] at houtcomes
  exact congrArg Tally.ofOutcomes houtcomes

theorem load_of_save {path : String} {w w' : World} (h : (r.save path).run w = (.ok (), w')) :
    ((load path).run w').1 = ofText r.toText := by
  rcases r.run_save_cases path w with ⟨fault, -, hrun⟩ | ⟨disk, hwrite, hrun⟩
  · rw [hrun] at h
    exact absurd (congrArg Prod.fst h) (by simp)
  · rw [hrun] at h
    obtain rfl : { w with disk := disk } = w' := congrArg Prod.snd h
    have hread : (Session.readText path).run { w with disk := disk } = (.ok r.toText, _) :=
      Session.run_readText (Disk.wrote_of_write hwrite).read
    simp only [load, Session.run_bind, hread, Session.run_pure]

/-- A saved report that is loaded at all is shown as it was before. -/
theorem render_of_ofText (ht : r.TallyAgrees) (h : ofText r.toText = .ok r') (verbose : Bool) :
    r'.render verbose = r.render verbose := by
  cases hread : Json.readText record.read r.toText with
  | error fault =>
    rw [ofText_of_fault hread] at h
    contradiction
  | ok x =>
    rw [ofText_of_read hread] at h
    obtain ⟨rfl, -, -, ht'⟩ := verify_eq_ok_iff.mp h
    rw [toText, Json.readText_pretty] at hread
    obtain ⟨type, -, hl⟩ := (Record.leads_of_read hread).exists_of_member rfl rfl
    obtain ⟨time, htime, hl⟩ := hl.exists_of_member rfl rfl
    obtain ⟨metadata, hmetadata, hl⟩ := hl.exists_of_member rfl rfl
    obtain ⟨skipped, hskipped, hl⟩ := hl.exists_of_member rfl rfl
    obtain ⟨results, hresults, hl⟩ := hl.exists_of_member rfl rfl
    obtain ⟨outcomes, -, hl⟩ := hl.exists_of_member rfl rfl
    obtain rfl := hl.eq_of_nil
    obtain rfl : time = r.time := Except.ok.inj (htime.symm.trans r.time.readJson_toJson)
    obtain rfl : metadata = r.metadata :=
      Except.ok.inj (hmetadata.symm.trans r.metadata.read_toJson)
    obtain rfl : skipped = r.skipped :=
      Except.ok.inj (hskipped.symm.trans (Reader.texts_node r.skipped))
    have hbare := CheckResult.bare_of_readList hresults
    have hlength : results.length = r.results.length := by
      simpa using congrArg List.length hbare
    have houtcomes : outcomes = r.outcomes :=
      (tallyAgrees_iff.mp ht').trans ((tally_eq_of_bare hbare).trans (tallyAgrees_iff.mp ht).symm)
    rw [render, render, lines_eq, lines_eq, ← CheckResult.flatMap_lines_bare results, hbare,
      CheckResult.flatMap_lines_bare]
    simp only [opening, closing, count, hlength, houtcomes]

end Report

end CaptureAudit
