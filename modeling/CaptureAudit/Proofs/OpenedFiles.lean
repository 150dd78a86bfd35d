import CaptureAudit.Proofs.DirectoryLoading
import CaptureAudit.Proofs.PathComponents

/-! The files that a session opens. Loading a directory opens the manifest and then files below the
directory, and an entry with another path is refused for its path alone. -/

namespace CaptureAudit

namespace Session

variable {α β : Type}

/-- The paths of the files that are opened to read or to write, in order. -/
def opened : Session α → World → List String
  | .done _, _ => []
  | .read path next, w => path :: (next (w.disk.read path)).opened w
  | .write path content next, w =>
    path :: match w.disk.write path content with
      | .ok disk => (next (.ok ())).opened { w with disk := disk }
      | .error fault => (next (.error fault)).opened w
  | .isFile path next, w => (next (w.disk.isFile path)).opened w
  | .home next, w => (next w.disk.homePath).opened w
  | .now next, w => (next w.time).opened w
  | .tell event next, w => next.opened { w with events := w.events ++ [event] }

theorem opened_bind (s : Session α) (f : α → Session β) (w : World) :
    (s >>= f).opened w = s.opened w ++ (f (s.run w).1).opened (s.run w).2 := by
  change (s.bind f).opened w = _
  induction s generalizing w with
  | done a => rfl
  | read path next ih => exact congrArg (path :: ·) (ih _ w)
  | write path content next ih =>
    simp only [bind, opened, run]
    cases w.disk.write path content with
    | ok disk => exact congrArg (path :: ·) (ih _ _)
    | error fault => exact congrArg (path :: ·) (ih _ w)
  | isFile path next ih => exact ih _ w
  | home next ih => exact ih _ w
  | now next ih => exact ih _ w
  | tell event next ih => exact ih _

@[simp] theorem opened_pure (a : α) (w : World) : (pure a : Session α).opened w = [] := rfl

@[simp] theorem opened_readFile (path : String) (w : World) : (readFile path).opened w = [path] :=
  rfl

theorem opened_readText (path : String) (w : World) : (readText path).opened w = [path] := by
  rw [readText, opened_bind, run_readFile, opened_readFile]
  cases w.disk.read path with
  | error fault => rfl
  | ok bytes =>
    simp only
    cases String.fromUTF8? bytes <;> rfl

end Session

namespace Archive

variable {dir : String} {w : World} {e : ManifestEntry} {m : Manifest}

theorem opened_loadEntry_of_loadable (manifestPath : String) (h : e.Loadable w.disk dir) :
    (loadEntry dir manifestPath e).opened w = [joinPath dir e.path] := by
  obtain ⟨payload, hread⟩ := h.readable
  obtain ⟨tags, htags, _⟩ := WrittenTag.mapM_toTag_of_known h.known
  simp [loadEntry, h.tagged, h.contained, htags, Session.opened_bind, hread]

/-- No file is opened for an entry that fails before its file is read. -/
theorem opened_loadEntry_of_fails {err : ArchiveError} (h : e.Fails w.disk dir err) :
    (loadEntry dir (joinPath dir Manifest.fileName) e).opened w = [] ∨
      isContained e.path = true ∧
        (loadEntry dir (joinPath dir Manifest.fileName) e).opened w = [joinPath dir e.path] := by
  cases h with
  | untagged htags => exact .inl (by simp [loadEntry, htags])
  | escapes htags hpath => exact .inl (by simp [loadEntry, htags, hpath])
  | @unknown hpath before after t htags hbefore ht =>
    have hmap : (before ++ t :: after).mapM WrittenTag.toTag = _ :=
      WrittenTag.mapM_toTag_of_unknown hbefore ht
    exact .inl (by simp [loadEntry, hpath, htags, hmap])
  | unreadable htags hpath hknown hread =>
    obtain ⟨tags, hmap, _⟩ := WrittenTag.mapM_toTag_of_known hknown
    exact .inr ⟨hpath, by simp [loadEntry, htags, hpath, hmap, Session.opened_bind, hread]⟩

theorem opened_loadEntries (dir : String) (w : World) (es : List ManifestEntry) :
    ∃ loaded, loaded <+: es ∧ (∀ e ∈ loaded, isContained e.path = true) ∧
      (loadEntries dir (joinPath dir Manifest.fileName) es).opened w =
        loaded.map fun e => joinPath dir e.path := by
  induction es with
  | nil => exact ⟨[], List.prefix_rfl, by simp, rfl⟩
  | cons e es ih =>
    rcases ManifestEntry.loadable_or_fails w.disk dir e with he | ⟨err, he⟩
    · obtain ⟨x, _, hrun⟩ := loadEntry_of_loadable (joinPath dir Manifest.fileName) he
      obtain ⟨loaded, hprefix, hcontained, hopened⟩ := ih
      refine ⟨e :: loaded, List.cons_prefix_cons.mpr ⟨rfl, hprefix⟩,
        List.forall_mem_cons.mpr ⟨he.contained, hcontained⟩, ?_⟩
      rw [loadEntries, Session.opened_bind, hrun, opened_loadEntry_of_loadable _ he]
      simp only [Session.opened_bind, hopened, List.map_cons, List.singleton_append]
      cases ((loadEntries dir (joinPath dir Manifest.fileName) es).run w).1 <;> simp
    · have hstop : (loadEntries dir (joinPath dir Manifest.fileName) (e :: es)).opened w =
          (loadEntry dir (joinPath dir Manifest.fileName) e).opened w := by
        rw [loadEntries, Session.opened_bind, loadEntry_of_fails he]
        simp
      rcases opened_loadEntry_of_fails he with hopened | ⟨hpath, hopened⟩
      · exact ⟨[], List.nil_prefix, by simp, by rw [hstop, hopened]; rfl⟩
      · exact ⟨[e], List.cons_prefix_cons.mpr ⟨rfl, List.nil_prefix⟩, by simpa using hpath,
          by rw [hstop, hopened]; rfl⟩

theorem opened_loadEntries_of_escapes {before after : List ManifestEntry}
    (hbefore : ∀ x ∈ before, x.Loadable w.disk dir) (he : isContained e.path = false) :
    (loadEntries dir (joinPath dir Manifest.fileName) (before ++ e :: after)).opened w =
      before.map fun x => joinPath dir x.path := by
  induction before with
  | nil =>
    rw [List.nil_append, loadEntries, Session.opened_bind]
    by_cases htags : e.tags = [] <;> simp [loadEntry, htags, he]
  | cons b before ih =>
    have hb := hbefore b (by simp)
    obtain ⟨x, _, hrun⟩ := loadEntry_of_loadable (joinPath dir Manifest.fileName) hb
    have hrest := ih fun x hx => hbefore x (by simp [hx])
    rw [List.cons_append, loadEntries, Session.opened_bind, hrun,
      opened_loadEntry_of_loadable _ hb]
    simp only [Session.opened_bind, hrest, List.map_cons, List.singleton_append]
    cases ((loadEntries dir (joinPath dir Manifest.fileName) (before ++ e :: after)).run w).1 <;>
      simp

theorem opened_loadDirectory_of_holds (hm : w.disk.HoldsManifest dir m) :
    (loadDirectory dir).opened w = joinPath dir Manifest.fileName ::
      (loadEntries dir (joinPath dir Manifest.fileName) m.artifacts).opened w := by
  obtain ⟨bytes, content, hread, hutf, hjson⟩ := hm
  have htext : (Session.readText (joinPath dir Manifest.fileName)).run w = (.ok content, w) := by
    simp [Session.readText, Session.run_bind, hread, hutf]
  rw [loadDirectory, Session.opened_bind, Session.opened_readText, htext]
  simp only [hjson, Session.opened_bind, List.singleton_append]
  cases ((loadEntries dir (joinPath dir Manifest.fileName) m.artifacts).run w).1 with
  | ok xs => simp [Session.opened_bind, Session.note, Session.opened]
  | error err => simp

theorem opened_loadDirectory_cases (dir : String) (w : World) :
    (∃ m, w.disk.HoldsManifest dir m) ∨
      (loadDirectory dir).opened w = [joinPath dir Manifest.fileName] := by
  rw [loadDirectory, Session.opened_bind, Session.opened_readText]
  rcases w.disk.manifest_cases dir with
    ⟨fault, hread⟩ | ⟨bytes, hread, hutf⟩ | ⟨bytes, content, fault, hread, hutf, hjson⟩ | hm
  · exact .inr (by simp [Session.readText, Session.run_bind, hread])
  · exact .inr (by simp [Session.readText, Session.run_bind, hread, hutf])
  · exact .inr (by simp [Session.readText, Session.run_bind, hread, hutf, hjson])
  · exact .inl hm

/-- A path is contained when its components stay or go down, that is, when it does not begin with a
slash and no segment of it is two dots. Besides the manifest only the files of contained paths are
opened, which lead to the directory or below it. Another path is refused before its tags are looked
at, and no file is opened for it. -/
theorem opened_loadDirectory (dir : String) (w : World) :
    let manifestPath := joinPath dir Manifest.fileName
    (∀ path, (isContained path = (components path).all Component.staysBelow) ∧
      (isContained path = true ↔ Text.beginsWith '/' path = false ∧ ".." ∉ segments path)) ∧
    (∃ loaded : List ManifestEntry,
      (loadDirectory dir).opened w = manifestPath :: loaded.map (fun e => joinPath dir e.path) ∧
      (loaded = [] ∨ ∃ m, w.disk.HoldsManifest dir m ∧ loaded <+: m.artifacts) ∧
      ∀ e ∈ loaded, isContained e.path = true ∧
        Text.beginsWith '/' (joinPath dir e.path) = Text.beginsWith '/' dir ∧
        ∃ below, (∀ n ∈ below, Descends n) ∧
          lexicalNames (joinPath dir e.path) = lexicalNames dir ++ below) ∧
    ∀ m before e after, w.disk.HoldsManifest dir m → m.artifacts = before ++ e :: after →
      (∀ x ∈ before, x.Loadable w.disk dir) → isContained e.path = false →
      (loadDirectory dir).opened w = manifestPath :: before.map (fun x => joinPath dir x.path) ∧
      ((loadDirectory dir).run w).1 = .error (.manifest manifestPath
        (if e.tags.isEmpty then .noTags e.path else .leavesDirectory e.path)) := by
  intro manifestPath
  refine ⟨fun path => ⟨isContained_eq_all_components path, isContained_iff⟩, ?_, ?_⟩
  · have hbelow : ∀ e : ManifestEntry, isContained e.path = true → isContained e.path = true ∧
        Text.beginsWith '/' (joinPath dir e.path) = Text.beginsWith '/' dir ∧
        ∃ below, (∀ n ∈ below, Descends n) ∧
          lexicalNames (joinPath dir e.path) = lexicalNames dir ++ below := fun e he =>
      ⟨he, beginsWith_joinPath dir (isContained_iff.mp he).1, lexicalNames_joinPath dir he⟩
    rcases opened_loadDirectory_cases dir w with ⟨m, hm⟩ | hnone
    · obtain ⟨loaded, hprefix, hcontained, hopened⟩ := opened_loadEntries dir w m.artifacts
      refine ⟨loaded, ?_, .inr ⟨m, hm, hprefix⟩, fun e he => hbelow e (hcontained e he)⟩
      rw [opened_loadDirectory_of_holds hm, hopened]
    · exact ⟨[], hnone, .inl rfl, by simp⟩
  · intro m before e after hm hsplit hbefore he
    refine ⟨?_, ?_⟩
    · rw [opened_loadDirectory_of_holds hm, hsplit, opened_loadEntries_of_escapes hbefore he]
    · by_cases htags : e.tags = []
      · rw [loadDirectory_of_fails hm hsplit hbefore (.untagged htags), htags]
        rfl
      · rw [loadDirectory_of_fails hm hsplit hbefore (.escapes htags he), if_neg]
        simpa using htags

end Archive

end CaptureAudit
