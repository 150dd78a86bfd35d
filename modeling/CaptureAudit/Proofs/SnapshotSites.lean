import CaptureAudit.Proofs.DocumentEdits
import CaptureAudit.Proofs.SnapshotParts

/-! The places of a snapshot at which its records stand. A record that is changed at its place
changes the snapshot there and nowhere else. -/

namespace CaptureAudit

open Json (Key Node Record)

/-- Where a part stands in the tree of a snapshot: the members before and after it in the object
that holds it, and where that object stands. -/
inductive Site : Part → Type where
  | response : Site .response
  | server (before after : List (Key × Node)) : Site .server
  | error (before after : List (Key × Node)) : Site .error
  | data (before after : List (Key × Node)) : Site .data
  | limits (outer : Site .data) (before after : List (Key × Node)) : Site .limits
  | metaGroup (outer : Site .data) (before after : List (Key × Node)) : Site .metaGroup
  | peer (outer : Site .metaGroup) (before after : List (Key × Node))
      (earlier later : List Node) : Site .peer

namespace Site

variable {p : Part}

/-- The tree with the node at the site. -/
def plug : {p : Part} → Site p → Node → Node
  | _, .response, n => n
  | _, .server before after, n => .object (before ++ (.name "server", n) :: after) true
  | _, .error before after, n => .object (before ++ (.name "error", n) :: after) true
  | _, .data before after, n => .object (before ++ (.name "data", n) :: after) true
  | _, .limits outer before after, n =>
    outer.plug (.object (before ++ (.name "config", n) :: after) true)
  | _, .metaGroup outer before after, n =>
    outer.plug (.object (before ++ (.name "meta_cluster", n) :: after) true)
  | _, .peer outer before after earlier later, n =>
    outer.plug (.object (before ++ (.name "replicas", .array (earlier ++ n :: later) true) :: after)
      true)

/-- A change of the part as a change of the snapshot. -/
def lift : {p : Part} → Site p → (p.Carrier → p.Carrier) → Snapshot → Snapshot
  | _, .response, f => f
  | _, .server _ _, f => fun s => { s with server := s.server.map f }
  | _, .error _ _, f => fun s => { s with error := s.error.map f }
  | _, .data _ _, f => fun s => { s with data := s.data.map f }
  | _, .limits outer _ _, f => outer.lift fun (j : JetStream) => { j with limits := j.limits.map f }
  | _, .metaGroup outer _ _, f =>
    outer.lift fun (j : JetStream) => { j with metaGroup := j.metaGroup.map f }
  | _, .peer outer _ _ earlier _, f =>
    outer.lift fun (m : MetaGroup) => { m with replicas := m.replicas.modify earlier.length f }

theorem framed_plug (site : Site p) : Json.Framed site.plug := by
  induction site with
  | response => exact .id
  | server before after => exact .member before after _
  | error before after => exact .member before after _
  | data before after => exact .member before after _
  | limits outer before after ih => exact ih.comp (.member before after _)
  | metaGroup outer before after ih => exact ih.comp (.member before after _)
  | peer outer before after earlier later ih =>
    exact ih.comp ((Json.Framed.member before after _).comp (.item earlier later))

theorem lift_id (site : Site p) (s : Snapshot) : site.lift id s = s := by
  induction site with
  | response => rfl
  | server before after => simp [lift]
  | error before after => simp [lift]
  | data before after => simp [lift]
  | limits outer before after ih =>
    have hid : (fun j : JetStream => { j with limits := j.limits.map id }) = id := by
      funext; simp
    exact (congrArg (outer.lift · s) hid).trans ih
  | metaGroup outer before after ih =>
    have hid : (fun j : JetStream => { j with metaGroup := j.metaGroup.map id }) = id := by
      funext; simp
    exact (congrArg (outer.lift · s) hid).trans ih
  | peer outer before after earlier later ih =>
    have hid : (fun m : MetaGroup =>
        { m with replicas := m.replicas.modify earlier.length id }) = id := by
      funext; simp
    exact (congrArg (outer.lift · s) hid).trans ih

/-- What a snapshot is read with at a site is read from the node that stands there. Another object
there that is read as a change of it makes the snapshot change there. -/
theorem read_plug (site : Site p) {ms : List (Key × Node)} {x : Snapshot}
    (h : Snapshot.record.read (site.plug (.object ms true)) = .ok x) :
    ∃ y, p.record.read (.object ms true) = .ok y ∧
      ∀ ms' f, p.record.read (.object ms' true) = .ok (f y) →
        Snapshot.record.read (site.plug (.object ms' true)) = .ok (site.lift f x) := by
  induction site generalizing ms with
  | response => exact ⟨x, h, fun ms' f hf => hf⟩
  | server before after =>
    exact Snapshot.modifies_server.read_optional (Part.lenient_record .response) h
  | error before after =>
    exact Snapshot.modifies_error.read_optional (Part.lenient_record .response) h
  | data before after =>
    exact Snapshot.modifies_data.read_optional (Part.lenient_record .response) h
  | limits outer before after ih =>
    obtain ⟨j, hj, houter⟩ := ih h
    obtain ⟨l, hl, hread⟩ := JetStream.modifies_limits.read_optional (Part.lenient_record .data) hj
    exact ⟨l, hl, fun ms' f hf => houter _ _ (hread ms' f hf)⟩
  | metaGroup outer before after ih =>
    obtain ⟨j, hj, houter⟩ := ih h
    obtain ⟨m, hm, hread⟩ :=
      JetStream.modifies_metaGroup.read_optional (Part.lenient_record .data) hj
    exact ⟨m, hm, fun ms' f hf => houter _ _ (hread ms' f hf)⟩
  | peer outer before after earlier later ih =>
    obtain ⟨m, hm, houter⟩ := ih h
    obtain ⟨y, hy, hread⟩ :=
      MetaGroup.modifies_replicas.read_list (Part.lenient_record .metaGroup) hm
    exact ⟨y, hy, fun ms' f hf => houter _ _ (hread _ f hf)⟩

section

variable {before after : List (Key × Node)} {x : Snapshot}

theorem read_insert (site : Site p) {others : List (Key × Node)} (ho : p.Others others)
    (h : Snapshot.record.read (site.plug (.object (before ++ after) true)) = .ok x) :
    Snapshot.record.read (site.plug (.object (before ++ (others ++ after)) true)) = .ok x := by
  obtain ⟨y, hy, hread⟩ := site.read_plug h
  have hinsert := Record.read_insert_others p.lenient_record (Part.others_record ho) hy
  exact (hread _ id hinsert).trans (congrArg Except.ok (site.lift_id x))

/-- Without a member the snapshot is the same but for the field of that member at the site. -/
theorem read_erase (site : Site p) {name : String} {u : p.Carrier → p.Carrier}
    (hu : (name, u) ∈ p.resets) {v : Node}
    (h : Snapshot.record.read (site.plug (.object (before ++ (.name name, v) :: after) true)) =
      .ok x) :
    Snapshot.record.read (site.plug (.object (before ++ after) true)) = .ok (site.lift u x) := by
  obtain ⟨y, hy, hread⟩ := site.read_plug h
  exact hread _ u (Record.read_erase_member p.lenient_record (Part.resets_record hu) hy)

end

end Site

end CaptureAudit
