import CaptureAudit.Proofs.ManifestText
import CaptureAudit.Proofs.SessionRuns

/-! An archive that was written into an empty directory is loaded from there as it was, unless it
has an artifact without tags. -/

namespace CaptureAudit

/-- A path leads to a directory with nothing in it. -/
def Disk.IsEmptyDirectory (d : Disk) (dir : String) : Prop :=
  ∃ l, d.follow (d.start dir) (segments dir) = .ok l ∧ d.entry? l = some .directory ∧
    ∀ name, d.entry? (l ++ [name]) = none

namespace Archive

open Disk (Gained LeadsToFlat)

/-- The payload files of artifacts at their positions. -/
def payloadFiles (es : List (Artifact × Nat)) : List (String × ByteArray) :=
  es.map fun e => (payloadName e.2 e.1, e.1.payload)

theorem names_payloadFiles (es : List (Artifact × Nat)) :
    (payloadFiles es).map Prod.fst = es.map fun e => payloadName e.2 e.1 := by
  rw [payloadFiles, List.map_map]
  rfl

variable {dir : String} {l : Location} {w w' : World}

theorem writePayloads_gained {es : List (Artifact × Nat)} (h : w.disk.LeadsToFlat dir l)
    (hnd : ((payloadFiles es).map Prod.fst).Nodup)
    (hw : (writePayloads dir es).run w = (.ok (), w')) :
    Gained w.disk w'.disk dir l (payloadFiles es) := by
  induction es generalizing w with
  | nil =>
    obtain rfl : w = w' := congrArg Prod.snd hw
    exact .nil h
  | cons e es ih =>
    rw [writePayloads, Session.run_bind] at hw
    cases hfile : (Session.writeFile (joinPath dir (payloadName e.2 e.1)) e.1.payload).run w with
    | mk written w₁ =>
      rw [hfile] at hw
      cases written with
      | error fault => exact absurd (congrArg Prod.fst hw) (by simp)
      | ok =>
        obtain ⟨disk, hwrite, rfl⟩ := Session.run_writeFile hfile
        have hfirst := Gained.write h (plainEnds_payloadName e.2 e.1) hwrite
        obtain ⟨hnew, hnd⟩ := List.nodup_cons.mp hnd
        exact hfirst.append (ih hfirst.leads hnd hw) (by simpa using hnew)

/-- All the files of an archive, the manifest last. -/
def files (a : Archive) : List (String × ByteArray) :=
  payloadFiles a.artifacts.zipIdx ++ [(Manifest.fileName, a.manifest.toJson.pretty.toUTF8)]

theorem writeDirectory_gained {a : Archive} (h : w.disk.LeadsToFlat dir l)
    (hw : (a.writeDirectory dir).run w = (.ok (), w')) :
    Gained w.disk w'.disk dir l a.files := by
  have hnd := a.nodup_paths
  rw [paths_manifest] at hnd
  obtain ⟨hpaths, -, hother⟩ := List.nodup_append.mp hnd
  rw [writeDirectory, Session.run_bind] at hw
  cases hp : (writePayloads dir a.artifacts.zipIdx).run w with
  | mk written w₁ =>
    rw [hp] at hw
    cases written with
    | error fault => exact absurd (congrArg Prod.fst hw) (by simp)
    | ok =>
      have hfirst := writePayloads_gained h (names_payloadFiles _ ▸ hpaths) hp
      obtain ⟨disk, hwrite, rfl⟩ := Session.run_writeFile hw
      refine hfirst.append (Gained.write hfirst.leads plainEnds_manifest hwrite) fun f hf => ?_
      obtain ⟨e, _, rfl⟩ := List.mem_map.mp hf
      simpa using payloadName_ne_manifest e.2 e.1

theorem loadEntry_run {e : Artifact × Nat} (manifestPath : String)
    (hcontained : isContained (payloadName e.2 e.1) = true)
    (hread : w.disk.read (joinPath dir (payloadName e.2 e.1)) = .ok e.1.payload) :
    (loadEntry dir manifestPath (manifestEntry e)).run w =
      (if e.1.tags.toList.isEmpty then
          .error (.manifest manifestPath (.noTags (payloadName e.2 e.1)))
        else .ok e.1, w) := by
  simp only [loadEntry, manifestEntry, hcontained, List.isEmpty_map, WrittenTag.mapM_toTag]
  split
  · rfl
  · simp [Session.run_bind, hread, Artifact.ofTags, SortedSet.ofList_toList]

/-- Entries are loaded until one without tags. -/
theorem loadEntries_run {es : List (Artifact × Nat)} (manifestPath : String)
    (hcontained : ∀ e ∈ es, isContained (payloadName e.2 e.1) = true)
    (hread : ∀ e ∈ es, w.disk.read (joinPath dir (payloadName e.2 e.1)) = .ok e.1.payload) :
    (loadEntries dir manifestPath (es.map manifestEntry)).run w =
      (match es.find? fun e => e.1.tags.toList.isEmpty with
        | none => .ok (es.map Prod.fst)
        | some e => .error (.manifest manifestPath (.noTags (payloadName e.2 e.1))), w) := by
  induction es with
  | nil => rfl
  | cons e es ih =>
    have hrest := ih (fun x hx => hcontained x (by simp [hx])) fun x hx => hread x (by simp [hx])
    have hfirst := loadEntry_run manifestPath (hcontained e (by simp)) (hread e (by simp))
    rw [List.map_cons, loadEntries, Session.run_bind, hfirst]
    by_cases hempty : e.1.tags.toList.isEmpty = true
    · simp [hempty]
    · simp only [hempty, Session.run_bind, hrest, List.find?_cons_of_neg, not_false_eq_true,
        Bool.false_eq_true, if_false]
      cases es.find? fun e => e.1.tags.toList.isEmpty <;> rfl

theorem ofArtifacts_artifacts (a : Archive) : ofArtifacts a.artifacts = a := by
  obtain ⟨artifacts, index, rfl⟩ := a
  rfl

section

variable {a : Archive} {d : Disk} {e : Artifact × Nat} (h : Gained d w.disk dir l a.files)

include h

theorem read_manifest : w.disk.read (joinPath dir Manifest.fileName) =
    .ok a.manifest.toJson.pretty.toUTF8 :=
  h.read (f := (Manifest.fileName, _)) (List.mem_append_right _ (List.mem_singleton_self _))
    plainEnds_manifest

theorem read_payload (he : e ∈ a.artifacts.zipIdx) :
    w.disk.read (joinPath dir (payloadName e.2 e.1)) = .ok e.1.payload :=
  h.read (f := (payloadName e.2 e.1, e.1.payload))
    (List.mem_append_left _ (List.mem_map_of_mem he)) (plainEnds_payloadName e.2 e.1)

theorem isContained_payload (he : e ∈ a.artifacts.zipIdx) :
    isContained (payloadName e.2 e.1) = true := by
  have hfits := h.fits (payloadName e.2 e.1, e.1.payload)
    (List.mem_append_left _ (List.mem_map_of_mem he))
  exact isContained_of_plainEnds (plainEnds_payloadName e.2 e.1) hfits.single

theorem loadDirectory_run :
    ((loadDirectory dir).run w).1 =
      match a.artifacts.zipIdx.find? fun e => e.1.tags.toList.isEmpty with
      | none => .ok a
      | some e =>
        .error (.manifest (joinPath dir Manifest.fileName) (.noTags (payloadName e.2 e.1))) := by
  have hentries := loadEntries_run (w := w) (joinPath dir Manifest.fileName)
    (fun e he => isContained_payload h he) fun e he => read_payload h he
  rw [loadDirectory]
  simp only [Session.run_bind, Session.run_readText (read_manifest h), Json.readText_pretty,
    Manifest.read_toJson, manifest, hentries]
  cases a.artifacts.zipIdx.find? fun e => e.1.tags.toList.isEmpty with
  | none => simp [Session.run_bind, ofArtifacts_artifacts]
  | some e => simp

end

theorem find?_untagged {artifacts : List Artifact} :
    (artifacts.zipIdx.find? fun e => e.1.tags.toList.isEmpty) = none ↔
      ∀ x ∈ artifacts, x.tags.toList ≠ [] := by
  rw [List.find?_eq_none]
  constructor
  · intro h x hx
    obtain ⟨i, hi⟩ := List.mem_iff_getElem?.mp hx
    simpa using h (x, i) (List.mk_mem_zipIdx_iff_getElem?.mpr hi)
  · intro h e he
    simpa using h e.1 (List.fst_mem_of_mem_zipIdx he)

/-- An archive that was written into an empty directory is loaded from there as it was, if all its
artifacts have tags and not otherwise. Its payloads stand in files of their own inside the
directory. -/
theorem loadDirectory_writeDirectory (a : Archive) (dir : String) (w w' : World)
    (hdir : w.disk.IsEmptyDirectory dir) (hw : (a.writeDirectory dir).run w = (.ok (), w')) :
    ((∃ b, ((loadDirectory dir).run w').1 = .ok b) ↔ ∀ x ∈ a.artifacts, x.tags.toList ≠ []) ∧
      (∀ b, ((loadDirectory dir).run w').1 = .ok b → b = a) ∧
      (a.manifest.artifacts.map ManifestEntry.path ++ [Manifest.fileName]).Nodup ∧
      (∀ path ∈ a.manifest.artifacts.map ManifestEntry.path, isContained path = true) ∧
      ∀ e ∈ a.artifacts.zipIdx,
        w'.disk.read (joinPath dir (payloadName e.2 e.1)) = .ok e.1.payload := by
  obtain ⟨l, hfollows, hdirectory, hnone⟩ := hdir
  have hflat : w.disk.LeadsToFlat dir l := ⟨hfollows, hdirectory, by simp [hnone]⟩
  have h := writeDirectory_gained hflat hw
  have hload := loadDirectory_run h
  have hcontained : ∀ path ∈ a.manifest.artifacts.map ManifestEntry.path,
      isContained path = true := by
    rw [paths_manifest]
    intro path hpath
    obtain ⟨e, he, rfl⟩ := List.mem_map.mp hpath
    exact isContained_payload h he
  refine ⟨?_, ?_, a.nodup_paths, hcontained, fun e he => read_payload h he⟩
  · rw [← find?_untagged, hload]
    cases a.artifacts.zipIdx.find? fun e => e.1.tags.toList.isEmpty <;> simp
  · rw [hload]
    cases a.artifacts.zipIdx.find? fun e => e.1.tags.toList.isEmpty with
    | none => exact fun b hb => (Except.ok.inj hb).symm
    | some e => simp

/-- Types of two dots and of none, and a payload that is no text, in a directory named with a slash
at its end. -/
theorem loadDirectory_writeDirectory_of_dots :
    let a : Archive := .ofArtifacts
      [.ofTags [⟨.artifactType, ".."⟩, .cluster "C\n1"] "x".toUTF8, .ofTags [.server "é"] ⟨#[0xff]⟩,
        .ofTags [⟨.special, "manifest"⟩] ⟨#[]⟩]
    let disk := Disk.put ⟨.empty, []⟩ ["out"] .directory
    let w : World := ⟨disk, ⟨⟨2024, 5, 1, 0, 0, 0, 0⟩, by decide⟩, []⟩
    disk.IsEmptyDirectory "out/" ∧ ∃ w', (a.writeDirectory "out/").run w = (.ok (), w') ∧
      ((loadDirectory "out/").run w').1 = .ok a := by
  intro a disk w
  have hdir : disk.IsEmptyDirectory "out/" := by
    refine ⟨["out"], by decide +kernel, by decide +kernel, fun name => ?_⟩
    rw [Disk.entry?_put (by simp), if_neg (by simp)]
    rfl
  have hok : ((a.writeDirectory "out/").run w).1 = .ok () := by decide +kernel
  have htags : ∀ x ∈ a.artifacts, x.tags.toList ≠ [] := by decide +kernel
  cases hw : (a.writeDirectory "out/").run w with
  | mk written w' =>
    rw [hw] at hok
    cases hok
    have hwritten := loadDirectory_writeDirectory a "out/" w w' hdir hw
    obtain ⟨b, hb⟩ := hwritten.1.mpr htags
    exact ⟨hdir, w', rfl, hwritten.2.1 b hb ▸ hb⟩

end Archive

end CaptureAudit
