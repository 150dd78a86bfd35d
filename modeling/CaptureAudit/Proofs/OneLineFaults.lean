import CaptureAudit.Proofs.OneLineTexts
import CaptureAudit.Proofs.RecordMembers
import CaptureAudit.Archive.Artifact
import CaptureAudit.Snapshot

/-! The faults of a snapshot that cannot be read are told in one line each. Of the document they
quote numbers, and texts between quotes alone. -/

namespace CaptureAudit

open Text

namespace Json

theorem Found.oneLine_describe (f : Found) : OneLine f.describe := by
  cases f with
  | whole n => exact .append (.append (by decide) (oneLine_int n)) (by decide)
  | real x => exact .append (.append (by decide) (oneLine_write _ x)) (by decide)
  | text s => exact .append (by decide) (oneLine_quoted s)
  | bool b => exact .append (.append (by decide) (oneLine_bool b)) (by decide)
  | null | sequence | map => decide

/-- Whatever is refused, the fault is told in one line. -/
def Reader.OneLineFaults {α : Type} (r : Reader α) : Prop :=
  ∀ v fault, r v = .error fault → OneLine fault.message

theorem Fault.oneLine_malformed : OneLine Fault.malformed.message := by decide

theorem Node.oneLine_unlike (n : Node) {expected : String} (h : OneLine expected) :
    OneLine (n.unlike expected).message := by
  have hfound : ∀ f : Found, OneLine (Fault.mismatch (.wrongType f expected)).message :=
    fun f => .append (.append (.append (by decide) f.oneLine_describe) (by decide)) h
  cases n with
  | null => exact hfound .null
  | bool b => exact hfound (.bool b)
  | number k =>
    cases k with
    | whole k => exact hfound (.whole k)
    | real x => exact hfound (.real x)
  | text s => exact hfound (.text s)
  | array items closed => exact hfound .sequence
  | object ms closed => exact hfound .map
  | flawed | broken => exact Fault.oneLine_malformed

namespace Reader

variable {α β : Type} {r : Reader α}

theorem OneLineFaults.map (h : r.OneLineFaults) (f : α → β) :
    OneLineFaults fun v => (r v).map f := by
  intro v fault hv
  dsimp only at hv
  cases hr : r v with
  | ok a =>
    rw [hr] at hv
    contradiction
  | error e =>
    rw [hr] at hv
    obtain rfl : e = fault := Except.error.inj hv
    exact h v e hr

@[simp] theorem oneLineFaults_text : text.OneLineFaults := by
  intro v fault h
  cases v with
  | text s => contradiction
  | _ =>
    obtain rfl := Except.error.inj h
    exact Node.oneLine_unlike _ (by decide)

@[simp] theorem oneLineFaults_bool : bool.OneLineFaults := by
  intro v fault h
  cases v with
  | bool b => contradiction
  | _ =>
    obtain rfl := Except.error.inj h
    exact Node.oneLine_unlike _ (by decide)

theorem oneLineFaults_whole {least greatest : Int} {expected : String} (h : OneLine expected) :
    (whole least greatest expected).OneLineFaults := by
  intro v fault hv
  unfold whole at hv
  split at hv
  · split at hv
    · contradiction
    · obtain rfl := Except.error.inj hv
      exact .append (.append (.append (by decide) (Found.oneLine_describe _)) (by decide)) h
  · obtain rfl := Except.error.inj hv
    exact Node.oneLine_unlike _ h

@[simp] theorem oneLineFaults_word64 : word64.OneLineFaults :=
  (oneLineFaults_whole (by decide)).map _

@[simp] theorem oneLineFaults_word32 : word32.OneLineFaults :=
  (oneLineFaults_whole (by decide)).map _

@[simp] theorem oneLineFaults_word16 : word16.OneLineFaults :=
  (oneLineFaults_whole (by decide)).map _

@[simp] theorem oneLineFaults_signed64 : signed64.OneLineFaults :=
  (oneLineFaults_whole (by decide)).map _

@[simp] theorem OneLineFaults.optional (h : r.OneLineFaults) : (optional r).OneLineFaults := by
  intro v fault hv
  cases v with
  | null => contradiction
  | _ => exact h.map some _ fault hv

@[simp] theorem OneLineFaults.list (h : r.OneLineFaults) : (list r).OneLineFaults := by
  intro v fault hv
  cases v with
  | array items closed =>
    rw [Reader.list] at hv
    cases hm : items.mapM r with
    | error e =>
      rw [hm] at hv
      obtain rfl : e = fault := Except.error.inj hv
      obtain ⟨_, item, _, _, hitem, _⟩ := mapM_eq_error_iff.mp hm
      exact h item e hitem
    | ok xs =>
      rw [hm] at hv
      cases closed with
      | true => contradiction
      | false =>
        obtain rfl := Except.error.inj hv
        exact Fault.oneLine_malformed
  | _ =>
    obtain rfl := Except.error.inj hv
    exact Node.oneLine_unlike _ (by decide)

end Reader

namespace Record

variable {σ α : Type} {r : Record σ}

/-- The label and the names of the record have no newline, and its fields are refused in one line.
-/
structure OneLineFields (r : Record σ) : Prop where
  label : OneLine r.label
  names : ∀ f ∈ r.fields, OneLine f.name
  reads : ∀ f ∈ r.fields, f.read.OneLineFaults

@[simp] theorem oneLineFaults_defaulted {name : String} {rd : Reader α} {set : α → σ → σ}
    (h : rd.OneLineFaults) : (Field.defaulted name rd set).read.OneLineFaults :=
  h.map set

theorem OneLineFields.readMembers (h : r.OneLineFields) {seen : List String} {x : σ}
    {ms : List (Key × Node)} {fault : Fault} (hm : r.readMembers seen x ms = .error fault) :
    OneLine fault.message := by
  fun_induction Record.readMembers r seen x ms with
  | case1 => contradiction
  | case2 seen x s v rest f hf hseen =>
    obtain rfl := Except.error.inj hm
    have hname : f.name = s := by simpa using List.find?_some hf
    have hs : OneLine s := hname ▸ h.names f (List.mem_of_find?_eq_some hf)
    exact .append (.append (by decide) hs) (by decide)
  | case3 seen x s v rest f hf hseen ih =>
    cases hv : f.read v with
    | error e =>
      rw [hv] at hm
      obtain rfl : e = fault := Except.error.inj hm
      exact h.reads f (List.mem_of_find?_eq_some hf) v e hv
    | ok change =>
      rw [hv] at hm
      exact ih change hm
  | case4 seen x s v rest hf hv ih => exact ih hm
  | case5 | case6 =>
    obtain rfl := Except.error.inj hm
    exact Fault.oneLine_malformed

theorem OneLineFields.readItems (h : r.OneLineFields) {closed : Bool} {fs : List (Field σ)}
    {position : Nat} {x : σ} {items : List Node} {fault : Fault} (hfs : ∀ f ∈ fs, f ∈ r.fields)
    (hm : r.readItems closed fs position x items = .error fault) : OneLine fault.message := by
  fun_induction Record.readItems r closed fs position x items with
  | case1 | case7 => contradiction
  | case2 | case3 | case5 =>
    obtain rfl := Except.error.inj hm
    exact Fault.oneLine_malformed
  | case4 f fs position x v rest ih =>
    cases hv : f.read v with
    | error e =>
      rw [hv] at hm
      obtain rfl : e = fault := Except.error.inj hm
      exact h.reads f (hfs f List.mem_cons_self) v e hv
    | ok change =>
      rw [hv] at hm
      exact ih change (fun g hg => hfs g (List.mem_cons_of_mem f hg)) hm
  | case6 =>
    obtain rfl := Except.error.inj hm
    have hcount : OneLine (if r.fields.length = 1 then "element" else "elements") := by
      split <;> decide
    exact .append (.append (.append (.append (.append (.append (.append (by decide) (oneLine_nat _))
      (by decide)) h.label) (by decide)) (oneLine_nat _)) (by decide)) hcount

theorem OneLineFields.oneLineFaults (h : r.OneLineFields) : r.read.OneLineFaults := by
  intro v fault hv
  unfold Record.read at hv
  split at hv
  · next ms closed =>
    cases hm : r.readMembers [] r.blank ms with
    | error e =>
      rw [hm] at hv
      obtain rfl : e = fault := Except.error.inj hv
      exact h.readMembers hm
    | ok p =>
      simp only [hm, bind, Except.bind] at hv
      split at hv
      · obtain rfl := Except.error.inj hv
        exact Fault.oneLine_malformed
      · split at hv
        · next f hf =>
          obtain rfl := Except.error.inj hv
          have hname : OneLine f.name := h.names f (List.mem_of_find?_eq_some hf)
          exact .append (.append (by decide) hname) (by decide)
        · contradiction
  · exact h.readItems (fun f hf => hf) hv
  · obtain rfl := Except.error.inj hv
    exact Node.oneLine_unlike _ (.append (by decide) h.label)

end Record

end Json

open Json (Reader Record)

@[simp] theorem Peer.oneLineFaults_read : record.read.OneLineFaults :=
  Record.OneLineFields.oneLineFaults ⟨by decide, by decide, by simp [record]⟩

@[simp] theorem MetaGroup.oneLineFaults_read : record.read.OneLineFaults :=
  Record.OneLineFields.oneLineFaults ⟨by decide, by decide, by simp [record]⟩

@[simp] theorem Limits.oneLineFaults_read : record.read.OneLineFaults :=
  Record.OneLineFields.oneLineFaults ⟨by decide, by decide, by simp [record]⟩

@[simp] theorem JetStream.oneLineFaults_read : record.read.OneLineFaults :=
  Record.OneLineFields.oneLineFaults ⟨by decide, by decide, by simp [record]⟩

@[simp] theorem ServerIdentity.oneLineFaults_read : record.read.OneLineFaults :=
  Record.OneLineFields.oneLineFaults ⟨by decide, by decide, by simp [record]⟩

@[simp] theorem ApiError.oneLineFaults_read : record.read.OneLineFaults :=
  Record.OneLineFields.oneLineFaults ⟨by decide, by decide, by simp [record]⟩

theorem Snapshot.oneLineFaults_read : record.read.OneLineFaults :=
  Record.OneLineFields.oneLineFaults ⟨by decide, by decide, by simp [record]⟩

theorem Json.Reader.OneLineFaults.readBytes {α : Type} {r : Reader α} (h : r.OneLineFaults)
    {bytes : ByteArray} {fault : Json.Fault} (hb : Json.readBytes r bytes = .error fault) :
    OneLine fault.message := by
  rw [Json.readBytes, Json.Document.read] at hb
  cases hr : r (Json.Document.ofBytes bytes).root with
  | error e =>
    rw [hr] at hb
    obtain rfl : e = fault := Except.error.inj hb
    exact h _ e hr
  | ok a =>
    simp only [hr, bind, Except.bind] at hb
    split at hb
    · obtain rfl := Except.error.inj hb
      exact Json.Fault.oneLine_malformed
    · contradiction

/-- What is told of an artifact that holds no snapshot that can be read. -/
theorem Artifact.exists_of_decode {x : Artifact} {e : ArchiveError}
    (h : x.decode Snapshot.record.read = .error e) :
    ∃ fault, e = .decode x.tags.toList fault ∧ OneLine fault.message := by
  rw [decode] at h
  cases hb : Json.readBytes Snapshot.record.read x.payload with
  | ok s =>
    rw [hb] at h
    contradiction
  | error fault =>
    rw [hb] at h
    exact ⟨fault, (Except.error.inj h).symm, Snapshot.oneLineFaults_read.readBytes hb⟩

end CaptureAudit
