import CaptureAudit.Archive.Walk
import CaptureAudit.Proofs.EncodedText
import CaptureAudit.Proofs.PostingList
import CaptureAudit.Proofs.ReportText

/-! Snapshots and the metadata of a capture are loaded from an archive as they were added to it: an
artifact is found by its tags and read back from its bytes. -/

namespace CaptureAudit

open Json (Reader Record Spells Value)

namespace Json.Reader

theorem word64_toNat (n : UInt64) : word64 (Value.ofNat n.toNat).node = .ok n := by
  rw [word64_node n.toNat_lt, UInt64.ofNat_toNat]

theorem word32_toNat (n : UInt32) : word32 (Value.ofNat n.toNat).node = .ok n := by
  have hn := n.toNat_lt
  rw [word32, Value.ofNat, whole_node "u32" (by omega) (by omega) (by decide) (by decide)]
  exact congrArg Except.ok (UInt32.ofNat_toNat)

theorem word16_toNat (n : UInt16) : word16 (Value.ofNat n.toNat).node = .ok n := by
  have hn := n.toNat_lt
  rw [word16, Value.ofNat, whole_node "u16" (by omega) (by omega) (by decide) (by decide)]
  exact congrArg Except.ok (UInt16.ofNat_toNat)

theorem signed64_toInt (n : Int64) : signed64 (Value.ofInt n.toInt).node = .ok n := by
  have hle := n.le_toInt
  have hlt := n.toInt_lt
  rw [signed64, Value.ofInt, whole_node "i64" (by omega) (by omega) (by decide) (by decide)]
  exact congrArg Except.ok (Int64.ofInt_toInt n)

/-- A value that is null when there is none. -/
theorem optional_ofOption {α : Type} {r : Reader α} {f : α → Value} {o : Option α}
    (h : ∀ a ∈ o, r (f a).node = .ok a ∧ (f a).node ≠ .null) :
    optional r (Value.ofOption f o).node = .ok o := by
  cases o with
  | none => rfl
  | some a =>
    obtain ⟨hread, hnull⟩ := h a rfl
    exact optional_node hread hnull

theorem optional_text (o : Option String) :
    optional text (Value.ofOption .text o).node = .ok o :=
  optional_ofOption fun s _ => ⟨rfl, by simp [Value.node]⟩

end Json.Reader

theorem Peer.read_toJson (p : Peer) : record.read p.toJson.node = .ok p :=
  Record.read_object (by decide)
    (.defaulted rfl (.defaulted rfl (.defaulted rfl (.defaulted (Reader.word64_toNat p.active)
      (.defaulted (Reader.word64_toNat p.lag) (.nil _))))))

theorem MetaGroup.read_toJson (m : MetaGroup) : record.read m.toJson.node = .ok m := by
  have hreplicas : Reader.list Peer.record.read (Value.array (m.replicas.map Peer.toJson)).node =
      .ok m.replicas := Reader.list_node fun p _ => p.read_toJson
  exact Record.read_object (by decide)
    (.defaulted (Reader.optional_text m.name) (.defaulted rfl
      (.defaulted (Reader.optional_text m.peer) (.defaulted hreplicas
        (.defaulted (Reader.word32_toNat m.clusterSize) (.nil _))))))

theorem Limits.read_toJson (l : Limits) : record.read l.toJson.node = .ok l :=
  Record.read_object (by decide)
    (.defaulted (Reader.signed64_toInt l.maxMemory)
      (.defaulted (Reader.signed64_toInt l.maxStorage) (.defaulted rfl (.nil _))))

theorem JetStream.read_toJson (j : JetStream) : record.read j.toJson.node = .ok j := by
  have hlimits : Reader.optional Limits.record.read (Value.ofOption Limits.toJson j.limits).node =
      .ok j.limits :=
    Reader.optional_ofOption fun l _ => ⟨l.read_toJson, by simp [Limits.toJson, Value.node]⟩
  have hgroup : Reader.optional MetaGroup.record.read
      (Value.ofOption MetaGroup.toJson j.metaGroup).node = .ok j.metaGroup :=
    Reader.optional_ofOption fun m _ => ⟨m.read_toJson, by simp [MetaGroup.toJson, Value.node]⟩
  exact Record.read_object (by decide)
    (.defaulted rfl (.defaulted hlimits (.defaulted (Reader.word64_toNat j.memory)
      (.defaulted (Reader.word64_toNat j.storage) (.defaulted (Reader.word64_toNat j.reservedMemory)
        (.defaulted (Reader.word64_toNat j.reservedStorage) (.defaulted hgroup (.nil _))))))))

theorem ServerIdentity.read_toJson (s : ServerIdentity) : record.read s.toJson.node = .ok s :=
  Record.read_object (by decide)
    (.defaulted rfl (.defaulted rfl (.defaulted rfl (.defaulted (Reader.optional_text s.cluster)
      (.defaulted rfl (.nil _))))))

theorem ApiError.read_toJson (e : ApiError) : record.read e.toJson.node = .ok e :=
  Record.read_object (by decide)
    (.defaulted (Reader.word16_toNat e.code) (.defaulted rfl (.nil _)))

theorem Snapshot.read_toJson (s : Snapshot) : record.read s.toJson.node = .ok s := by
  have hserver : Reader.optional ServerIdentity.record.read
      (Value.ofOption ServerIdentity.toJson s.server).node = .ok s.server :=
    Reader.optional_ofOption fun i _ => ⟨i.read_toJson, by simp [ServerIdentity.toJson, Value.node]⟩
  have hdata : Reader.optional JetStream.record.read
      (Value.ofOption JetStream.toJson s.data).node = .ok s.data :=
    Reader.optional_ofOption fun j _ => ⟨j.read_toJson, by simp [JetStream.toJson, Value.node]⟩
  have herror : Reader.optional ApiError.record.read
      (Value.ofOption ApiError.toJson s.error).node = .ok s.error :=
    Reader.optional_ofOption fun e _ => ⟨e.read_toJson, by simp [ApiError.toJson, Value.node]⟩
  exact Record.read_object (by decide)
    (.defaulted hserver (.defaulted hdata (.defaulted herror (.nil _))))

section

variable {α : Type} {r : Reader α} {v : Value} {x : α} {tags query : List Tag}

theorem Artifact.decode_ofTags (h : r v.node = .ok x) :
    (ofTags tags v.compact.toUTF8).decode r = .ok x := by
  rw [decode, ofTags, Json.readBytes_compact, h]
  rfl

theorem Archive.load_ofArtifacts {before after : List Artifact} {a : Artifact}
    (hbefore : ∀ y ∈ before, y.carries query = false) (ha : a.carries query = true) :
    (ofArtifacts (before ++ a :: after)).load r query = a.decode r := by
  have hfirst : (before ++ a :: after).find? (·.carries query) = some a := by
    have hnone : before.find? (·.carries query) = none :=
      List.find?_eq_none.mpr fun y hy => by simp [hbefore y hy]
    rw [List.find?_append, hnone, Option.none_or, List.find?_cons, ha]
  rw [load_eq]
  simp only [ofArtifacts, hfirst]

/-- A value that is read back from its node is loaded again as it was added. -/
theorem Archive.load_of_encode (h : r v.node = .ok x) {a : Artifact}
    (ha : Artifact.encode tags (.ok v) = .ok a) (hquery : ∀ t ∈ query, t ∈ tags)
    {before after : List Artifact} (hbefore : ∀ y ∈ before, y.carries query = false) :
    (ofArtifacts (before ++ a :: after)).load r query = .ok x := by
  obtain rfl : Artifact.ofTags tags v.compact.toUTF8 = a := Except.ok.inj ha
  rw [load_ofArtifacts hbefore (Artifact.carries_ofTags_iff.mpr hquery), Artifact.decode_ofTags h]

end

/-- Every snapshot can be added to an archive under any tags, and so can all metadata. A query whose
tags are among them, and that no earlier artifact answers, loads what was added. The metadata of an
archive is that of the first artifact that is tagged so. -/
theorem Archive.load_encoded (s : Snapshot) (m : CaptureMetadata) (tags : List Tag) :
    (∃ a, Artifact.encode tags (.ok s.toJson) = .ok a ∧
      ∀ before after query, (∀ t ∈ query, t ∈ tags) → (∀ y ∈ before, y.carries query = false) →
        (ofArtifacts (before ++ a :: after)).load Snapshot.record.read query = .ok s) ∧
    ∃ a, Artifact.encode tags (.ok m.toJson) = .ok a ∧
      ∀ before after, .captureMetadata ∈ tags →
        (∀ y ∈ before, y.tags.contains .captureMetadata = false) →
        (ofArtifacts (before ++ a :: after)).metadata = .ok m := by
  constructor
  · exact ⟨_, rfl, fun _ _ _ hquery hbefore => load_of_encode s.read_toJson rfl hquery hbefore⟩
  · refine ⟨_, rfl, fun before after htag hbefore => ?_⟩
    have hquery : ∀ t ∈ [Tag.captureMetadata], t ∈ tags := by simpa using htag
    refine load_of_encode m.read_toJson rfl hquery fun y hy => ?_
    simpa [Artifact.carries] using hbefore y hy

end CaptureAudit
