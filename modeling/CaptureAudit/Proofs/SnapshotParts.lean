import CaptureAudit.Snapshot
import CaptureAudit.Proofs.RecordMembers

/-! The records of which a snapshot is made. Every member of them has a default and stands in its
own field, so a member that is missing resets that field alone. -/

namespace CaptureAudit

open Json (Key Node Record Field Reader)

namespace Peer

/-- The names of the members, each with what is left without it. -/
def resets : List (String × (Peer → Peer)) := [
  ("name", fun p => { p with name := "" }),
  ("current", fun p => { p with current := false }),
  ("offline", fun p => { p with offline := false }),
  ("active", fun p => { p with active := 0 }),
  ("lag", fun p => { p with lag := 0 })]

theorem resets_record : ∀ e ∈ resets, record.Resets e.1 e.2 := by
  simp [resets, record, Record.Resets]

theorem thorough_record : record.Thorough := by
  simp [record, Record.Thorough]

end Peer

namespace MetaGroup

def resets : List (String × (MetaGroup → MetaGroup)) := [
  ("name", fun m => { m with name := none }),
  ("leader", fun m => { m with leader := "" }),
  ("peer", fun m => { m with peer := none }),
  ("replicas", fun m => { m with replicas := [] }),
  ("cluster_size", fun m => { m with clusterSize := 0 })]

theorem resets_record : ∀ e ∈ resets, record.Resets e.1 e.2 := by
  simp [resets, record, Record.Resets]

theorem thorough_record : record.Thorough := by
  simp [record, Record.Thorough, Peer.thorough_record.read]

theorem modifies_replicas : record.Modifies "replicas" (Reader.list Peer.record.read)
    (fun v m => { m with replicas := v }) fun f m => { m with replicas := f m.replicas } :=
  ⟨rfl, fun f => by simp [record, Record.Apart], fun f v m => rfl⟩

end MetaGroup

namespace Limits

def resets : List (String × (Limits → Limits)) := [
  ("max_memory", fun l => { l with maxMemory := 0 }),
  ("max_storage", fun l => { l with maxStorage := 0 }),
  ("store_dir", fun l => { l with storeDir := "" })]

theorem resets_record : ∀ e ∈ resets, record.Resets e.1 e.2 := by
  simp [resets, record, Record.Resets]

theorem thorough_record : record.Thorough := by
  simp [record, Record.Thorough]

end Limits

namespace JetStream

def resets : List (String × (JetStream → JetStream)) := [
  ("disabled", fun j => { j with disabled := false }),
  ("config", fun j => { j with limits := none }),
  ("memory", fun j => { j with memory := 0 }),
  ("storage", fun j => { j with storage := 0 }),
  ("reserved_memory", fun j => { j with reservedMemory := 0 }),
  ("reserved_storage", fun j => { j with reservedStorage := 0 }),
  ("meta_cluster", fun j => { j with metaGroup := none })]

theorem resets_record : ∀ e ∈ resets, record.Resets e.1 e.2 := by
  simp [resets, record, Record.Resets]

theorem thorough_record : record.Thorough := by
  simp [record, Record.Thorough, Limits.thorough_record.read, MetaGroup.thorough_record.read]

theorem modifies_limits : record.Modifies "config" (Reader.optional Limits.record.read)
    (fun v j => { j with limits := v }) fun f j => { j with limits := f j.limits } :=
  ⟨rfl, fun f => by simp [record, Record.Apart], fun f v j => rfl⟩

theorem modifies_metaGroup : record.Modifies "meta_cluster" (Reader.optional MetaGroup.record.read)
    (fun v j => { j with metaGroup := v }) fun f j => { j with metaGroup := f j.metaGroup } :=
  ⟨rfl, fun f => by simp [record, Record.Apart], fun f v j => rfl⟩

end JetStream

namespace ServerIdentity

def resets : List (String × (ServerIdentity → ServerIdentity)) := [
  ("name", fun s => { s with name := "" }),
  ("host", fun s => { s with host := "" }),
  ("id", fun s => { s with id := "" }),
  ("cluster", fun s => { s with cluster := none }),
  ("ver", fun s => { s with version := "" })]

theorem resets_record : ∀ e ∈ resets, record.Resets e.1 e.2 := by
  simp [resets, record, Record.Resets]

theorem thorough_record : record.Thorough := by
  simp [record, Record.Thorough]

end ServerIdentity

namespace ApiError

def resets : List (String × (ApiError → ApiError)) := [
  ("code", fun e => { e with code := 0 }),
  ("description", fun e => { e with description := "" })]

theorem resets_record : ∀ e ∈ resets, record.Resets e.1 e.2 := by
  simp [resets, record, Record.Resets]

theorem thorough_record : record.Thorough := by
  simp [record, Record.Thorough]

end ApiError

namespace Snapshot

def resets : List (String × (Snapshot → Snapshot)) := [
  ("server", fun s => { s with server := none }),
  ("data", fun s => { s with data := none }),
  ("error", fun s => { s with error := none })]

theorem resets_record : ∀ e ∈ resets, record.Resets e.1 e.2 := by
  simp [resets, record, Record.Resets]

theorem thorough_record : record.Thorough := by
  simp [record, Record.Thorough, ServerIdentity.thorough_record.read,
    JetStream.thorough_record.read, ApiError.thorough_record.read]

theorem modifies_server : record.Modifies "server" (Reader.optional ServerIdentity.record.read)
    (fun v s => { s with server := v }) fun f s => { s with server := f s.server } :=
  ⟨rfl, fun f => by simp [record, Record.Apart], fun f v s => rfl⟩

theorem modifies_data : record.Modifies "data" (Reader.optional JetStream.record.read)
    (fun v s => { s with data := v }) fun f s => { s with data := f s.data } :=
  ⟨rfl, fun f => by simp [record, Record.Apart], fun f v s => rfl⟩

theorem modifies_error : record.Modifies "error" (Reader.optional ApiError.record.read)
    (fun v s => { s with error := v }) fun f s => { s with error := f s.error } :=
  ⟨rfl, fun f => by simp [record, Record.Apart], fun f v s => rfl⟩

end Snapshot

/-- The records of which a snapshot is made. -/
inductive Part where
  | response
  | server
  | error
  | data
  | limits
  | metaGroup
  | peer

namespace Part

abbrev Carrier : Part → Type
  | response => Snapshot
  | server => ServerIdentity
  | error => ApiError
  | data => JetStream
  | limits => Limits
  | metaGroup => MetaGroup
  | peer => Peer

def record : (p : Part) → Record p.Carrier
  | response => Snapshot.record
  | server => ServerIdentity.record
  | error => ApiError.record
  | data => JetStream.record
  | limits => Limits.record
  | metaGroup => MetaGroup.record
  | peer => Peer.record

def resets : (p : Part) → List (String × (p.Carrier → p.Carrier))
  | response => Snapshot.resets
  | server => ServerIdentity.resets
  | error => ApiError.resets
  | data => JetStream.resets
  | limits => Limits.resets
  | metaGroup => MetaGroup.resets
  | peer => Peer.resets

/-- None of the members is named like a field of the part, and no value is broken. -/
def Others (p : Part) (ms : List (Key × Node)) : Prop :=
  ∀ m ∈ ms, ∃ s, m.1 = .name s ∧ s ∉ p.resets.map Prod.fst ∧ m.2.complete = true

theorem Others.completeMembers {p : Part} {ms : List (Key × Node)} (h : p.Others ms) :
    Node.completeMembers ms = true := by
  induction ms with
  | nil => rfl
  | cons m ms ih =>
    obtain ⟨s, hname, -, hv⟩ := h m (by simp)
    obtain ⟨k, v⟩ := m
    obtain rfl : k = .name s := hname
    have hms := ih fun m' hm' => h m' (by simp [hm'])
    simp [Node.completeMembers, hv, hms]

theorem others_record {p : Part} {ms : List (Key × Node)} (h : p.Others ms) :
    p.record.Others ms := by
  have hnames : p.resets.map Prod.fst = p.record.fields.map Field.name := by cases p <;> rfl
  intro m hm
  rw [← hnames]
  exact h m hm

theorem lenient_record (p : Part) : p.record.Lenient := by
  have hall : p.record.fields.all (!·.required) = true := by cases p <;> rfl
  intro f hf
  simpa using List.all_eq_true.mp hall f hf

theorem resets_record {p : Part} {name : String} {u : p.Carrier → p.Carrier}
    (h : (name, u) ∈ p.resets) : p.record.Resets name u :=
  match p with
  | response => Snapshot.resets_record _ h
  | server => ServerIdentity.resets_record _ h
  | error => ApiError.resets_record _ h
  | data => JetStream.resets_record _ h
  | limits => Limits.resets_record _ h
  | metaGroup => MetaGroup.resets_record _ h
  | peer => Peer.resets_record _ h

end Part

end CaptureAudit
