import CaptureAudit.Archive.Directory
import CaptureAudit.Proofs.Ascending
import CaptureAudit.Proofs.SessionRuns

/-! Which directories are loaded, and as what. Every entry of the manifest becomes an artifact, and
the first entry that cannot be loaded gives the error. -/

namespace CaptureAudit

theorem exists_first_not {α : Type} {p : α → Prop} {l : List α} (h : ¬∀ x ∈ l, p x) :
    ∃ before x after, l = before ++ x :: after ∧ (∀ y ∈ before, p y) ∧ ¬p x := by
  classical
  cases hf : l.find? fun x => ¬p x with
  | none => exact absurd (by simpa using hf) h
  | some x =>
    obtain ⟨hx, before, after, hl, hbefore⟩ := List.find?_eq_some_iff_append.mp hf
    exact ⟨before, x, after, hl, by simpa using hbefore, by simpa using hx⟩

theorem Dimension.ofName?_eq_some_iff {s : String} {d : Dimension} :
    ofName? s = some d ↔ d.name = s := by
  constructor
  · intro h
    simpa using List.find?_some h
  · rintro rfl
    cases d <;> rfl

theorem Dimension.mem_all (d : Dimension) : d ∈ all := by
  cases d <;> decide

namespace WrittenTag

/-- The dimension of the tag is one of the dimensions there are. -/
def Known (t : WrittenTag) : Prop := t.name ∈ Dimension.all.map Dimension.name

theorem toTag_eq_ok_iff {t : WrittenTag} {u : Tag} : t.toTag = .ok u ↔ ofTag u = t := by
  obtain ⟨name, value⟩ := t
  obtain ⟨d, other⟩ := u
  cases hd : Dimension.ofName? name with
  | none =>
    have hne : d.name ≠ name := fun he => by simp [Dimension.ofName?_eq_some_iff.mpr he] at hd
    simp [toTag, hd, ofTag, hne]
  | some e =>
    have he : e.name = name := Dimension.ofName?_eq_some_iff.mp hd
    subst he
    have hinj : d.name = e.name ↔ e = d := by
      rw [← Dimension.ofName?_eq_some_iff, hd, Option.some.injEq]
    simp [toTag, hd, ofTag, hinj, @eq_comm _ value]

theorem toTag_of_known {t : WrittenTag} (h : t.Known) : ∃ u, t.toTag = .ok u := by
  obtain ⟨d, _, hd⟩ := List.mem_map.mp h
  exact ⟨⟨d, t.value⟩, toTag_eq_ok_iff.mpr (by rw [ofTag, hd])⟩

theorem toTag_of_not_known {t : WrittenTag} (h : ¬t.Known) :
    t.toTag = .error (.unknownDimension t.name) := by
  have hnone : Dimension.ofName? t.name = none := by
    refine Option.eq_none_iff_forall_ne_some.mpr fun d hd => h ?_
    exact List.mem_map.mpr ⟨d, d.mem_all, Dimension.ofName?_eq_some_iff.mp hd⟩
  rw [toTag, hnone]

theorem mapM_toTag_of_known {ts : List WrittenTag} (h : ∀ t ∈ ts, t.Known) :
    ∃ us, ts.mapM toTag = .ok us ∧ us.map ofTag = ts := by
  induction ts with
  | nil => exact ⟨[], rfl, rfl⟩
  | cons t ts ih =>
    obtain ⟨u, hu⟩ := toTag_of_known (h t (by simp))
    obtain ⟨us, hus, hmap⟩ := ih fun t ht => h t (by simp [ht])
    refine ⟨u :: us, ?_, by rw [List.map_cons, toTag_eq_ok_iff.mp hu, hmap]⟩
    rw [List.mapM_cons, hu, hus]
    rfl

theorem mapM_toTag_of_unknown {before after : List WrittenTag} {t : WrittenTag}
    (hbefore : ∀ u ∈ before, u.Known) (ht : ¬t.Known) :
    (before ++ t :: after).mapM toTag = .error (.unknownDimension t.name) := by
  induction before with
  | nil =>
    rw [List.nil_append, List.mapM_cons, toTag_of_not_known ht]
    rfl
  | cons b before ih =>
    obtain ⟨u, hu⟩ := toTag_of_known (hbefore b (by simp))
    rw [List.cons_append, List.mapM_cons, hu, ih fun u hu => hbefore u (by simp [hu])]
    rfl

end WrittenTag

/-- The manifest file of the directory holds the text of a manifest. -/
def Disk.HoldsManifest (d : Disk) (dir : String) (m : Manifest) : Prop :=
  ∃ bytes content, d.read (joinPath dir Manifest.fileName) = .ok bytes ∧
    String.fromUTF8? bytes = some content ∧ Json.readText Manifest.record.read content = .ok m

theorem Disk.manifest_cases (d : Disk) (dir : String) :
    (∃ fault, d.read (joinPath dir Manifest.fileName) = .error fault) ∨
      (∃ bytes, d.read (joinPath dir Manifest.fileName) = .ok bytes ∧
        String.fromUTF8? bytes = none) ∨
      (∃ bytes content fault, d.read (joinPath dir Manifest.fileName) = .ok bytes ∧
        String.fromUTF8? bytes = some content ∧
        Json.readText Manifest.record.read content = .error fault) ∨
      ∃ m, d.HoldsManifest dir m := by
  cases hread : d.read (joinPath dir Manifest.fileName) with
  | error fault => exact .inl ⟨fault, rfl⟩
  | ok bytes =>
    cases hutf : String.fromUTF8? bytes with
    | none => exact .inr (.inl ⟨bytes, rfl, hutf⟩)
    | some content =>
      cases hjson : Json.readText Manifest.record.read content with
      | error fault => exact .inr (.inr (.inl ⟨bytes, content, fault, rfl, hutf, hjson⟩))
      | ok m => exact .inr (.inr (.inr ⟨m, bytes, content, hread, hutf, hjson⟩))

namespace ManifestEntry

variable {d : Disk} {dir : String} {e : ManifestEntry}

/-- What it takes for an entry to become an artifact. -/
structure Loadable (d : Disk) (dir : String) (e : ManifestEntry) : Prop where
  tagged : e.tags ≠ []
  contained : isContained e.path = true
  known : ∀ t ∈ e.tags, t.Known
  readable : ∃ payload, d.read (joinPath dir e.path) = .ok payload

/-- Why an entry cannot be loaded. What comes first here hides what comes after it. -/
inductive Fails (d : Disk) (dir : String) (e : ManifestEntry) : ArchiveError → Prop where
  | untagged (htags : e.tags = []) :
    Fails d dir e (.manifest (joinPath dir Manifest.fileName) (.noTags e.path))
  | escapes (htags : e.tags ≠ []) (hpath : isContained e.path = false) :
    Fails d dir e (.manifest (joinPath dir Manifest.fileName) (.leavesDirectory e.path))
  | unknown (hpath : isContained e.path = true) {before after : List WrittenTag} {t : WrittenTag}
      (htags : e.tags = before ++ t :: after) (hbefore : ∀ u ∈ before, u.Known) (ht : ¬t.Known) :
    Fails d dir e (.unknownDimension t.name)
  | unreadable (htags : e.tags ≠ []) (hpath : isContained e.path = true)
      (hknown : ∀ t ∈ e.tags, t.Known) {fault : IoFault}
      (hread : d.read (joinPath dir e.path) = .error fault) :
    Fails d dir e (.io (joinPath dir e.path) fault)

/-- The artifact has the tags of the entry, and the bytes of its file. -/
structure Yields (d : Disk) (dir : String) (e : ManifestEntry) (x : Artifact) : Prop where
  tags : ∀ t, t ∈ x.tags.toList ↔ WrittenTag.ofTag t ∈ e.tags
  payload : d.read (joinPath dir e.path) = .ok x.payload

theorem loadable_or_fails (d : Disk) (dir : String) (e : ManifestEntry) :
    e.Loadable d dir ∨ ∃ err, e.Fails d dir err := by
  by_cases htags : e.tags = []
  · exact .inr ⟨_, .untagged htags⟩
  cases hpath : isContained e.path with
  | false => exact .inr ⟨_, .escapes htags hpath⟩
  | true =>
    by_cases hknown : ∀ t ∈ e.tags, t.Known
    · cases hread : d.read (joinPath dir e.path) with
      | ok payload => exact .inl ⟨htags, hpath, hknown, payload, hread⟩
      | error fault => exact .inr ⟨_, .unreadable htags hpath hknown hread⟩
    · obtain ⟨before, t, after, hsplit, hbefore, ht⟩ := exists_first_not hknown
      exact .inr ⟨_, .unknown hpath hsplit hbefore ht⟩

end ManifestEntry

namespace Archive

variable {dir : String} {w : World} {e : ManifestEntry} {err : ArchiveError}

theorem loadEntry_of_loadable (manifestPath : String) (h : e.Loadable w.disk dir) :
    ∃ x, e.Yields w.disk dir x ∧ (loadEntry dir manifestPath e).run w = (.ok x, w) := by
  obtain ⟨payload, hread⟩ := h.readable
  obtain ⟨tags, htags, hmap⟩ := WrittenTag.mapM_toTag_of_known h.known
  refine ⟨.ofTags tags payload, ⟨fun t => ?_, hread⟩, ?_⟩
  · have hinj : Function.Injective WrittenTag.ofTag := by
      intro t u htu
      have ht := WrittenTag.toTag_eq_ok_iff.mpr (rfl : WrittenTag.ofTag t = _)
      rw [htu, WrittenTag.toTag_eq_ok_iff.mpr rfl] at ht
      exact (Except.ok.inj ht).symm
    rw [Artifact.ofTags, SortedSet.mem_ofList, ← hmap, List.mem_map_of_injective hinj]
  · simp [loadEntry, h.tagged, h.contained, htags, Session.run_bind, hread]

theorem loadEntry_of_fails (h : e.Fails w.disk dir err) :
    (loadEntry dir (joinPath dir Manifest.fileName) e).run w = (.error err, w) := by
  cases h with
  | untagged htags => simp [loadEntry, htags]
  | escapes htags hpath => simp [loadEntry, htags, hpath]
  | @unknown hpath before after t htags hbefore ht =>
    have hmap : (before ++ t :: after).mapM WrittenTag.toTag = _ :=
      WrittenTag.mapM_toTag_of_unknown hbefore ht
    simp [loadEntry, hpath, htags, hmap]
  | unreadable htags hpath hknown hread =>
    obtain ⟨tags, hmap, _⟩ := WrittenTag.mapM_toTag_of_known hknown
    simp [loadEntry, htags, hpath, hmap, Session.run_bind, hread]

theorem loadEntries_of_loadable (manifestPath : String) {es : List ManifestEntry}
    (h : ∀ e ∈ es, e.Loadable w.disk dir) :
    ∃ xs, List.Forall₂ (ManifestEntry.Yields w.disk dir) es xs ∧
      (loadEntries dir manifestPath es).run w = (.ok xs, w) := by
  induction es with
  | nil => exact ⟨[], .nil, rfl⟩
  | cons e es ih =>
    obtain ⟨x, hx, hrun⟩ := loadEntry_of_loadable manifestPath (h e (by simp))
    obtain ⟨xs, hxs, hrest⟩ := ih fun e he => h e (by simp [he])
    refine ⟨x :: xs, .cons hx hxs, ?_⟩
    simp [loadEntries, Session.run_bind, hrun, hrest]

/-- The entries before the first that fails leave no trace in the answer. -/
theorem loadEntries_of_fails {before after : List ManifestEntry}
    (hbefore : ∀ x ∈ before, x.Loadable w.disk dir) (h : e.Fails w.disk dir err) :
    (loadEntries dir (joinPath dir Manifest.fileName) (before ++ e :: after)).run w =
      (.error err, w) := by
  induction before with
  | nil => simp [loadEntries, Session.run_bind, loadEntry_of_fails h]
  | cons b before ih =>
    obtain ⟨x, _, hrun⟩ :=
      loadEntry_of_loadable (joinPath dir Manifest.fileName) (hbefore b (by simp))
    have hrest := ih fun x hx => hbefore x (by simp [hx])
    simp [loadEntries, Session.run_bind, hrun, hrest]

end Archive

namespace ManifestEntry

variable {dir : String} {w : World} {e : ManifestEntry} {err other : ArchiveError}

/-- An entry fails in one way only, since loading it gives one answer. -/
theorem Fails.unique (h : e.Fails w.disk dir err) (h' : e.Fails w.disk dir other) :
    other = err := by
  have hrun := (Archive.loadEntry_of_fails h').symm.trans (Archive.loadEntry_of_fails h)
  simpa using hrun

end ManifestEntry

namespace Archive

variable {dir : String} {w : World} {m : Manifest}

theorem loadDirectory_of_holds (hm : w.disk.HoldsManifest dir m) :
    ((loadDirectory dir).run w).1 =
      (((loadEntries dir (joinPath dir Manifest.fileName) m.artifacts).run w).1).map
        ofArtifacts := by
  obtain ⟨bytes, content, hread, hutf, hjson⟩ := hm
  rw [loadDirectory]
  simp only [Session.readText, Session.run_bind, Session.run_readFile, Session.run_pure, hread,
    hutf, hjson]
  cases ((loadEntries dir (joinPath dir Manifest.fileName) m.artifacts).run w).1 with
  | ok xs => simp [Session.run_bind, Except.map]
  | error err => simp [Except.map]

theorem loadDirectory_of_unread {fault : IoFault}
    (h : w.disk.read (joinPath dir Manifest.fileName) = .error fault) :
    ((loadDirectory dir).run w).1 = .error (.io (joinPath dir Manifest.fileName) fault) := by
  simp [loadDirectory, Session.readText, Session.run_bind, h]

theorem loadDirectory_of_invalidText {bytes : ByteArray}
    (h : w.disk.read (joinPath dir Manifest.fileName) = .ok bytes)
    (hutf : String.fromUTF8? bytes = none) :
    ((loadDirectory dir).run w).1 =
      .error (.io (joinPath dir Manifest.fileName) .invalidText) := by
  simp [loadDirectory, Session.readText, Session.run_bind, h, hutf]

theorem loadDirectory_of_shape {bytes : ByteArray} {content : String} {fault : Json.Fault}
    (h : w.disk.read (joinPath dir Manifest.fileName) = .ok bytes)
    (hutf : String.fromUTF8? bytes = some content)
    (hjson : Json.readText Manifest.record.read content = .error fault) :
    ((loadDirectory dir).run w).1 =
      .error (.manifest (joinPath dir Manifest.fileName) (.shape fault)) := by
  simp [loadDirectory, Session.readText, Session.run_bind, h, hutf, hjson]

theorem exists_holdsManifest {a : Archive} (h : ((loadDirectory dir).run w).1 = .ok a) :
    ∃ m, w.disk.HoldsManifest dir m := by
  rcases w.disk.manifest_cases dir with
    ⟨fault, hread⟩ | ⟨bytes, hread, hutf⟩ | ⟨bytes, content, fault, hread, hutf, hjson⟩ | hm
  · rw [loadDirectory_of_unread hread] at h
    exact absurd h (by simp)
  · rw [loadDirectory_of_invalidText hread hutf] at h
    exact absurd h (by simp)
  · rw [loadDirectory_of_shape hread hutf hjson] at h
    exact absurd h (by simp)
  · exact hm

theorem loadDirectory_of_loadable (hm : w.disk.HoldsManifest dir m)
    (h : ∀ e ∈ m.artifacts, e.Loadable w.disk dir) :
    ∃ xs, List.Forall₂ (ManifestEntry.Yields w.disk dir) m.artifacts xs ∧
      ((loadDirectory dir).run w).1 = .ok (.ofArtifacts xs) := by
  obtain ⟨xs, hxs, hrun⟩ := loadEntries_of_loadable (joinPath dir Manifest.fileName) h
  refine ⟨xs, hxs, ?_⟩
  rw [loadDirectory_of_holds hm, hrun]
  rfl

theorem loadDirectory_of_fails {before after : List ManifestEntry} {e : ManifestEntry}
    {err : ArchiveError} (hm : w.disk.HoldsManifest dir m)
    (hsplit : m.artifacts = before ++ e :: after)
    (hbefore : ∀ x ∈ before, x.Loadable w.disk dir) (he : e.Fails w.disk dir err) :
    ((loadDirectory dir).run w).1 = .error err := by
  rw [loadDirectory_of_holds hm, hsplit, loadEntries_of_fails hbefore he]
  rfl

theorem loadable_of_loadDirectory {a : Archive} (h : ((loadDirectory dir).run w).1 = .ok a)
    (hm : w.disk.HoldsManifest dir m) : ∀ e ∈ m.artifacts, e.Loadable w.disk dir := by
  by_contra hnot
  obtain ⟨before, e, after, hsplit, hbefore, he⟩ := exists_first_not hnot
  obtain ⟨err, herr⟩ := (ManifestEntry.loadable_or_fails w.disk dir e).resolve_left he
  rw [loadDirectory_of_fails hm hsplit hbefore herr] at h
  exact absurd h (by simp)

/-- A directory is loaded exactly when it holds a manifest all of whose entries can be loaded, and
then every entry is an artifact, in the order of the manifest. Otherwise the first entry that cannot
be loaded gives the error. -/
theorem loadDirectory_iff_loadable (dir : String) (w : World) :
    let path := joinPath dir Manifest.fileName
    let result := ((loadDirectory dir).run w).1
    ((∃ a, result = .ok a) ↔
      ∃ m, w.disk.HoldsManifest dir m ∧ ∀ e ∈ m.artifacts, e.Loadable w.disk dir) ∧
    (∀ a m, result = .ok a → w.disk.HoldsManifest dir m →
      List.Forall₂ (fun e x => (∀ t, t ∈ x.tags.toList ↔ WrittenTag.ofTag t ∈ e.tags) ∧
        w.disk.read (joinPath dir e.path) = .ok x.payload) m.artifacts a.artifacts) ∧
    (∀ fault, w.disk.read path = .error fault → result = .error (.io path fault)) ∧
    (∀ bytes, w.disk.read path = .ok bytes →
      (String.fromUTF8? bytes = none → result = .error (.io path .invalidText)) ∧
      ∀ content fault, String.fromUTF8? bytes = some content →
        Json.readText Manifest.record.read content = .error fault →
        result = .error (.manifest path (.shape fault))) ∧
    ∀ m before e after, w.disk.HoldsManifest dir m → m.artifacts = before ++ e :: after →
      (∀ x ∈ before, x.Loadable w.disk dir) → ¬e.Loadable w.disk dir →
      ∃ err, result = .error err ∧ ∀ other, e.Fails w.disk dir other ↔ other = err := by
  intro path result
  refine ⟨⟨?_, ?_⟩, ?_, fun fault => loadDirectory_of_unread, fun bytes hread =>
    ⟨loadDirectory_of_invalidText hread, fun content fault => loadDirectory_of_shape hread⟩, ?_⟩
  · rintro ⟨a, ha⟩
    obtain ⟨m, hm⟩ := exists_holdsManifest ha
    exact ⟨m, hm, loadable_of_loadDirectory ha hm⟩
  · rintro ⟨m, hm, hall⟩
    obtain ⟨xs, _, hxs⟩ := loadDirectory_of_loadable hm hall
    exact ⟨_, hxs⟩
  · intro a m ha hm
    obtain ⟨xs, hxs, hok⟩ := loadDirectory_of_loadable hm (loadable_of_loadDirectory ha hm)
    obtain rfl : a = .ofArtifacts xs := Except.ok.inj (ha.symm.trans hok)
    exact hxs.imp fun e x h => ⟨h.tags, h.payload⟩
  · intro m before e after hm hsplit hbefore he
    obtain ⟨err, herr⟩ := (ManifestEntry.loadable_or_fails w.disk dir e).resolve_left he
    have hresult : result = .error err := loadDirectory_of_fails hm hsplit hbefore herr
    exact ⟨err, hresult, fun other => ⟨herr.unique, fun ho => ho ▸ herr⟩⟩

end Archive

end CaptureAudit
