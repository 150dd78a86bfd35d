import CaptureAudit.Check.Basic
import CaptureAudit.Proofs.RecordReading
import CaptureAudit.Proofs.Tally
import CaptureAudit.Proofs.TimestampText
import CaptureAudit.Report.Text

/-! A saved report is read back as it was: every part of it is read from its written form, and a
report that was put together from results agrees with itself. -/

namespace CaptureAudit

open Json (Reader Record Spells Value)

namespace Json

/-- A document that holds the number gives it back. -/
def ReadsBack (x : Float) : Prop := readText Reader.real (Value.ofFloat x).pretty = .ok x

theorem readsBack_iff {x : Float} : ReadsBack x ↔ Reader.real (Value.ofFloat x).node = .ok x := by
  rw [ReadsBack, readText_pretty]

/-- Numbers are read by their leading digits, so not every number is read back. -/
example : ¬ ReadsBack 0.10300000000000001 := by
  rw [readsBack_iff]
  decide +kernel

theorem ReadsBack.ne_null {x : Float} (h : ReadsBack x) : (Value.ofFloat x).node ≠ .null := by
  intro hn
  have hr := readsBack_iff.mp h
  rw [hn] at hr
  exact absurd hr (by simp [Reader.real])

end Json

theorem Timestamp.readJson_toJson (t : Timestamp) : readJson t.toJson.node = .ok t := by
  simp [readJson, toJson, Value.node, Reader.refine, read_toText, Except.mapError]

theorem CaptureMetadata.read_toJson (m : CaptureMetadata) : record.read m.toJson.node = .ok m := by
  have htime : ∀ t ∈ m.captured,
      Timestamp.readJson t.toJson.node = .ok t ∧ t.toJson.node ≠ .null := by
    intro t _
    exact ⟨t.readJson_toJson, by simp [Timestamp.toJson, Value.node]⟩
  exact Record.read_object (by decide)
    (.optional htime rfl (.defaulted rfl (.defaulted rfl (.defaulted rfl (.defaulted rfl
      (.defaulted rfl (.nil _)))))))

theorem Examples.read_toJson (e : Examples) : record.read e.toJson.node = .ok e := by
  have hlimit : Reader.size (Value.ofNat e.limit.toNat).node = .ok e.limit.toNat :=
    Reader.size_node e.limit.toNat_lt
  have herror : ∀ s ∈ e.error,
      Reader.text (Value.text s).node = .ok s ∧ (Value.text s).node ≠ .null :=
    fun s _ => ⟨rfl, by simp [Value.node]⟩
  have hoffered := Reader.word64_node e.offered.toNat_lt
  have hspells : Spells record.fields _ record.blank
      { e with limit := UInt64.ofNat e.limit.toNat, offered := UInt64.ofNat e.offered.toNat } :=
    .needed (Reader.texts_node e.stored) (.needed hlimit (.needed hoffered
      (.optionalLast herror rfl)))
  rw [UInt64.ofNat_toNat, UInt64.ofNat_toNat] at hspells
  exact Record.read_object (by decide) hspells

theorem Measure.read_toJson (m : Measure) : read m.toJson.node = .ok m := by
  cases m <;> rfl

/-- The numbers that a tunable keeps. -/
def Tunable.numbers (t : Tunable) : List Float := t.default :: t.override.toList

theorem Tunable.read_toJson {t : Tunable} (h : ∀ x ∈ t.numbers, Json.ReadsBack x) :
    record.read t.toJson.node = .ok t := by
  have hdefault := Json.readsBack_iff.mp (h t.default (by simp [numbers]))
  have hoverride : ∀ x ∈ t.override,
      Reader.real (Value.ofFloat x).node = .ok x ∧ (Value.ofFloat x).node ≠ .null := by
    intro x hx
    have hr := h x (by simp [numbers, Option.mem_def.mp hx])
    exact ⟨Json.readsBack_iff.mp hr, hr.ne_null⟩
  exact Record.read_object (by decide)
    (.needed rfl (.defaulted rfl (.needed rfl (.needed hdefault (.needed t.unit.read_toJson
      (.optionalLast hoverride rfl))))))

/-- The numbers that a descriptor keeps. -/
def Descriptor.numbers (d : Descriptor) : List Float :=
  d.tunables.values.flatMap Tunable.numbers

theorem Descriptor.read_toJson {d : Descriptor} (h : ∀ x ∈ d.numbers, Json.ReadsBack x) :
    record.read d.toJson.node = .ok d := by
  have htunables : Reader.dictionary Tunable.record.read
      (Value.object (d.tunables.entries.map fun e => (e.1, e.2.toJson))).node = .ok d.tunables := by
    refine Reader.dictionary_node fun e he => Tunable.read_toJson fun x hx => h x ?_
    exact List.mem_flatMap.mpr ⟨e.2, List.mem_map_of_mem he, hx⟩
  exact Record.read_object (by decide)
    (.needed rfl (.defaulted rfl (.needed rfl (.needed rfl (.defaulted htunables (.nil _))))))

theorem Outcome.readCode_node (o : Outcome) : readCode (Value.ofNat o.code).node = .ok o := by
  have hcode : o.code < 0x10000000000000000 := by cases o <;> decide
  rw [readCode, Reader.word64_node hcode]
  cases o <;> rfl

theorem Outcome.ofLabel_label (o : Outcome) : ofLabel o.label = .ok o := by
  cases o <;> rfl

theorem CheckResult.read_toJson {r : CheckResult} (h : ∀ x ∈ r.check.numbers, Json.ReadsBack x) :
    record.read r.toJson.node = .ok r :=
  Record.read_object (by decide)
    (.needed (Descriptor.read_toJson h) (.needed (Outcome.readCode_node r.outcome) (.needed rfl
      (.needed r.examples.read_toJson (.nil _)))))

theorem Tally.read_toJson {t : Tally} (h : ∀ e ∈ t.entries, e.2 < 0x10000000000000000) :
    read t.toJson.node = .ok t := by
  refine Reader.map_node (fun o => ?_) fun e he => Reader.size_node (h e he)
  rw [Outcome.ofLabel_label]
  rfl

namespace Report

theorem tally_le_length {results : List CheckResult} : ∀ e ∈ (tally results).entries,
    e.2 ≤ results.length := by
  intro e he
  have hget : (tally results).get? e.1 = some e.2 := SortedMap.get?_eq_some_iff.mpr he
  have hcount : (tally results).count e.1 = (results.map CheckResult.outcome).count e.1 :=
    Tally.count_ofOutcomes _ _
  have hle := List.count_le_length (a := e.1) (l := results.map CheckResult.outcome)
  rw [Tally.count, hget, Option.getD_some] at hcount
  rwa [← hcount, List.length_map] at hle

theorem read_toJson {r : Report}
    (hnumbers : ∀ c ∈ r.results, ∀ x ∈ c.check.numbers, Json.ReadsBack x)
    (hcounts : ∀ e ∈ r.outcomes.entries, e.2 < 0x10000000000000000) :
    record.read r.toJson.node = .ok r :=
  Record.read_object (by decide)
    (.needed rfl (.needed r.time.readJson_toJson (.needed r.metadata.read_toJson
      (.needed (Reader.texts_node r.skipped)
        (.needed (Reader.list_node fun c hc => CheckResult.read_toJson (hnumbers c hc))
          (.needed (Tally.read_toJson hcounts) (.nil _)))))))

theorem verify_ofResults (time : Timestamp) (metadata : CaptureMetadata) (skipped : List String)
    {results : List CheckResult} (h : ∀ c ∈ results, c.label = c.outcome.label) :
    verify (ofResults time metadata skipped results) =
      .ok (ofResults time metadata skipped results) := by
  have hlabels : results.find? (fun c => c.outcome.label ≠ c.label) = none := by
    refine List.find?_eq_none.mpr fun c hc => ?_
    simp [h c hc]
  simp only [verify, ofResults, ne_eq, not_true, if_false, hlabels]

/-- A report whose numbers are read back is read from its saved text as it was, with descriptors in
place of its checks, and it is shown alike before and after. A list in memory has fewer items than
64 bits can count. -/
theorem ofText_toText (time : Timestamp) (metadata : CaptureMetadata) (skipped : List String)
    (parts : List (Check × Outcome × Examples)) (hlength : parts.length < 0x10000000000000000)
    (hfinite : ∀ p ∈ parts, ∀ x ∈ p.1.descriptor.numbers, x.isFinite = true)
    (hnumbers : ∀ p ∈ parts, ∀ x ∈ p.1.descriptor.numbers, x.isFinite = true → Json.ReadsBack x) :
    let r := Report.ofResults time metadata skipped
      (parts.map fun p => .ofOutcome p.1.descriptor p.2.1 p.2.2)
    ofText r.toText = .ok r ∧
      ∀ verbose, (ofText r.toText).map (·.render verbose) = .ok (r.render verbose) := by
  intro r
  have hread : ∀ c ∈ r.results, ∀ x ∈ c.check.numbers, Json.ReadsBack x := by
    intro c hc x hx
    obtain ⟨p, hp, rfl⟩ := List.mem_map.mp hc
    exact hnumbers p hp x hx (hfinite p hp x hx)
  have hcounts : ∀ e ∈ r.outcomes.entries, e.2 < 0x10000000000000000 := by
    intro e he
    refine Nat.lt_of_le_of_lt (tally_le_length e he) ?_
    rwa [List.length_map]
  have hlabels : ∀ c ∈ r.results, c.label = c.outcome.label := by
    intro c hc
    obtain ⟨p, _, rfl⟩ := List.mem_map.mp hc
    rfl
  have hsame : ofText r.toText = .ok r := by
    rw [ofText, toText, Json.readText_pretty, read_toJson hread hcounts]
    exact verify_ofResults time metadata skipped hlabels
  exact ⟨hsame, fun verbose => by rw [hsame]; rfl⟩

/-- A changed threshold, dropped and stored examples, an error, and texts with quotes and controls.
-/
theorem ofText_toText_of_threshold :
    let usage : Check :=
      ⟨⟨"SERVER_001", "server", "Usage \"now\"", "line\nbreak", .ofList [("memory",
        ⟨"memory", "SERVER_001", "Memory", 0.9, .percentage, some 0.8⟩)]⟩,
        some fun _ _ => .done .pass⟩
    let other : Check := ⟨.plain "OTHER" "" "é" "\x01", none⟩
    let parts : List (Check × Outcome × Examples) :=
      [(usage, .fail, ⟨["first"], 1, 2, none⟩), (other, .skipped, ⟨[], 1, 0, some "boom"⟩)]
    let r := Report.ofResults epoch { captured := some epoch } ["meta_001"]
      (parts.map fun p => .ofOutcome p.1.descriptor p.2.1 p.2.2)
    (∀ p ∈ parts, ∀ x ∈ p.1.descriptor.numbers, x.isFinite = true ∧ Json.ReadsBack x) ∧
      ofText r.toText = .ok r := by
  intro usage other parts r
  have hnumbers : ∀ p ∈ parts, ∀ x ∈ p.1.descriptor.numbers, x = 0.9 ∨ x = 0.8 := by
    intro p hp x hx
    simp only [parts, List.mem_cons, List.not_mem_nil, or_false] at hp
    rcases hp with rfl | rfl
    · simpa [usage, Descriptor.numbers, SortedMap.values, SortedMap.ofList, SortedMap.insert,
        SortedMap.empty, putEntry, Tunable.numbers] using hx
    · simp [other, Descriptor.numbers, Descriptor.plain, SortedMap.values, SortedMap.empty] at hx
  have hread : ∀ x : Float, x = 0.9 ∨ x = 0.8 → x.isFinite = true ∧ Json.ReadsBack x := by
    rintro x (rfl | rfl) <;> rw [Json.readsBack_iff] <;> decide +kernel
  refine ⟨fun p hp x hx => hread x (hnumbers p hp x hx), ?_⟩
  exact (ofText_toText epoch { captured := some epoch } ["meta_001"] parts (by decide)
    (fun p hp x hx => (hread x (hnumbers p hp x hx)).1)
    (fun p hp x hx _ => (hread x (hnumbers p hp x hx)).2)).1

end Report

end CaptureAudit
