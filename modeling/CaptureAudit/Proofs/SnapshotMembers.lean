import CaptureAudit.Proofs.EncodedText
import CaptureAudit.Proofs.SnapshotSites

/-! Snapshots of other server versions. In whatever object of a snapshot members of other names are
put, the snapshot is read as before, and a member that is missing leaves its default behind and
nothing else changed. -/

namespace CaptureAudit

open Json (Key Node Document)

namespace Text

theorem ofText_append (s t : String) : ofText (s ++ t) = ofText s ++ ofText t := by
  simp [ofText]

theorem ofText_injective {s t : String} (h : ofText s = ofText t) : s = t :=
  String.toList_inj.mp (List.map_injective_iff.mpr (Option.some_injective _) h)

theorem exists_of_ofText_eq_append {s : String} {p q : Source} (h : ofText s = p ++ q) :
    ∃ head tail, s = head ++ tail ∧ ofText head = p ∧ ofText tail = q := by
  obtain ⟨ps, qs, hs, rfl, rfl⟩ := List.map_eq_append_iff.mp h
  refine ⟨.ofList ps, .ofList qs, ?_, by simp [ofText], by simp [ofText]⟩
  rw [← String.ofList_append, ← hs, String.ofList_toList]

end Text

namespace Snapshot

/-- The text is decoded as the snapshot. -/
def Decodes (text : String) (x : Snapshot) : Prop :=
  Json.readBytes record.read text.toUTF8 = .ok x

/-- The tree is that of the whole text. -/
def IsTree (text : String) (n : Node) : Prop :=
  Document.ofText text = ⟨n, false⟩

theorem decodes_iff {text : String} {x : Snapshot} :
    Decodes text x ↔ ∃ n, IsTree text n ∧ record.read n = .ok x := by
  rw [Decodes, Json.readBytes, Document.ofBytes, Text.ofBytes_toUTF8]
  change (Document.ofText text).read record.read = .ok x ↔ _
  rw [Document.read_eq_ok_iff]
  constructor
  · rintro ⟨hroot, htrailing⟩
    exact ⟨_, congrArg (Document.mk _) htrailing, hroot⟩
  · rintro ⟨n, htree, hn⟩
    rw [htree]
    exact ⟨hn, rfl⟩

/-- Members as they are written between others, with a comma towards those after them or else
towards those before. -/
def jointText (before after : List (Key × Node)) (members : String) : String :=
  match before, after with
  | _, _ :: _ => members ++ ","
  | _ :: _, [] => "," ++ members
  | [], [] => members

theorem ofText_jointText (before after : List (Key × Node)) (members : String) :
    Text.ofText (jointText before after members) =
      Json.joint before after (Text.ofText members) := by
  unfold jointText Json.joint
  split <;> simp [Text.ofText]

theorem exists_of_ofText_eq_joint {before after : List (Key × Node)} {text : String}
    {w : Text.Source} (h : Text.ofText text = Json.joint before after w) :
    ∃ members, text = jointText before after members ∧ Text.ofText members = w := by
  match before, after, h with
  | _, a :: as, h =>
    obtain ⟨members, comma, rfl, hmembers, hcomma⟩ := Text.exists_of_ofText_eq_append h
    obtain rfl : comma = "," := Text.ofText_injective hcomma
    exact ⟨members, rfl, hmembers⟩
  | b :: bs, [], h =>
    have h' : Text.ofText text = [some ','] ++ w := h
    obtain ⟨comma, members, rfl, hcomma, hmembers⟩ := Text.exists_of_ofText_eq_append h'
    obtain rfl : comma = "," := Text.ofText_injective hcomma
    exact ⟨members, rfl, hmembers⟩
  | [], [], h => exact ⟨text, rfl, h⟩

theorem isTree_braces_iff (members : String) (ms : List (Key × Node)) :
    IsTree ("\x7b" ++ members ++ "\x7d") (.object ms true) ↔
      Json.MembersText (Text.ofText members) ms := by
  rw [IsTree, Document.ofText, Text.ofText_append, Text.ofText_append]
  rfl

/-- Whatever snapshot a text is decoded as, and in whatever object of it: members of other names
make no difference, between any two members or at either end, and without one of the members the
snapshot is the same but for the field of that member there. -/
theorem decodes_edited {text : String} {x : Snapshot} (h : Decodes text x) {p : Part}
    (site : Site p) {before after : List (Key × Node)}
    (hroot : (Document.ofText text).root = site.plug (.object (before ++ after) true)) :
    (∀ others, p.Others others → ∀ text',
      IsTree text' (site.plug (.object (before ++ (others ++ after)) true)) → Decodes text' x) ∧
    (∃ head tail, text = head ++ tail ∧ ∀ others members, others ≠ [] → p.Others others →
      IsTree ("\x7b" ++ members ++ "\x7d") (.object others true) →
      IsTree (head ++ jointText before after members ++ tail)
        (site.plug (.object (before ++ (others ++ after)) true))) ∧
    (∀ name u v rest, (name, u) ∈ p.resets → after = (.name name, v) :: rest →
      (∀ text', IsTree text' (site.plug (.object (before ++ rest) true)) →
        Decodes text' (site.lift u x)) ∧
      ∃ head member tail, text = head ++ jointText before rest member ++ tail ∧
        IsTree ("\x7b" ++ member ++ "\x7d") (.object [(.name name, v)] true) ∧
        IsTree (head ++ tail) (site.plug (.object (before ++ rest) true))) := by
  obtain ⟨n, htree, hn⟩ := decodes_iff.mp h
  obtain rfl : n = site.plug (.object (before ++ after) true) :=
    (congrArg Document.root htree).symm.trans hroot
  have hc := thorough_record.read _ _ hn
  refine ⟨fun others ho text' ht => decodes_iff.mpr ⟨_, ht, site.read_insert ho hn⟩, ?_,
    fun name u v rest hu hafter => ?_⟩
  · obtain ⟨head, tail, htext, hinsert⟩ := Json.exists_insertion site.framed_plug htree hc
    obtain ⟨head, tail, rfl, rfl, rfl⟩ := Text.exists_of_ofText_eq_append htext
    refine ⟨head, tail, rfl, fun others members hne ho hm => ?_⟩
    have hmembers := (isTree_braces_iff members others).mp hm
    have hedited := hinsert others _ hne ho.completeMembers hmembers
    rw [IsTree, Document.ofText, Text.ofText_append, Text.ofText_append, ofText_jointText,
      List.append_assoc]
    exact hedited
  · subst hafter
    refine ⟨fun text' ht => decodes_iff.mpr ⟨_, ht, site.read_erase hu hn⟩, ?_⟩
    obtain ⟨head, w, tail, htext, hw, hdelete⟩ := Json.exists_deletion site.framed_plug htree hc
    obtain ⟨head, edited, hsplit, rfl, hedited⟩ := Text.exists_of_ofText_eq_append htext
    obtain ⟨joined, tail, rfl, hjoined, rfl⟩ := Text.exists_of_ofText_eq_append hedited
    obtain ⟨member, rfl, rfl⟩ := exists_of_ofText_eq_joint hjoined
    refine ⟨head, member, tail, by rw [hsplit, String.append_assoc], ?_, ?_⟩
    · exact (isTree_braces_iff member _).mpr hw
    · rw [IsTree, Document.ofText, Text.ofText_append]
      exact hdelete

def twoServers (offline : Bool) : Snapshot :=
  { data := some { metaGroup := some { leader := "a", replicas := [{ name := "b", offline }] } } }

def twoServersValue : Json.Value :=
  .object [("data", .object [("meta_cluster", .object [("leader", .text "a"),
    ("replicas", .array [.object [("name", .text "b"), ("offline", .bool true)]])])])]

theorem decodes_edited_twoServers :
    Decodes twoServersValue.compact (twoServers true) ∧
    ∃ head member tail, twoServersValue.compact = head ++ ("," ++ member) ++ tail ∧
      Decodes (head ++ tail) (twoServers false) := by
  have hdecodes : Decodes twoServersValue.compact (twoServers true) :=
    Json.readBytes_compact record.read twoServersValue
  have hroot : (Document.ofText twoServersValue.compact).root = twoServersValue.node := by
    rw [Json.Document.ofText_compact]
  obtain ⟨-, -, hdelete⟩ := @decodes_edited _ _ hdecodes _
    (.peer (.metaGroup (.data [] []) [] []) [(.name "leader", .text "a")] [] [] [])
    [(.name "name", .text "b")] [(.name "offline", .bool true)] hroot
  have hmem : ("offline", fun p : Peer => { p with offline := false }) ∈ Part.peer.resets := by
    simp [Part.resets, Peer.resets]
  obtain ⟨hread, head, member, tail, htext, -, htree⟩ := hdelete "offline" _ _ [] hmem rfl
  exact ⟨hdecodes, head, member, tail, htext, hread _ htree⟩

end Snapshot

end CaptureAudit
