import CaptureAudit.Archive.Directory
import CaptureAudit.Proofs.SessionRuns

/-! What a session leaves as it was. Without a write all of the disk stays as it is, and events that
were told before make no difference. -/

namespace CaptureAudit

/-- Two worlds with the same disk and clock, whatever was told of in them. -/
structure World.Alike (w w' : World) : Prop where
  disk : w.disk = w'.disk
  time : w.time = w'.time

namespace World.Alike

variable {w w' w'' : World}

theorem refl (w : World) : w.Alike w := ⟨rfl, rfl⟩

theorem trans (h : w.Alike w') (h' : w'.Alike w'') : w.Alike w'' :=
  ⟨h.disk.trans h'.disk, h.time.trans h'.time⟩

end World.Alike

namespace Session

variable {α β : Type} {s : Session α} {f : α → Session β}

theorem run_alike (s : Session α) {w w' : World} (h : w.Alike w') :
    (s.run w).1 = (s.run w').1 ∧ (s.run w).2.Alike (s.run w').2 := by
  induction s generalizing w w' with
  | done a => exact ⟨rfl, h⟩
  | read path next ih =>
    simp only [run, h.disk]
    exact ih _ h
  | write path content next ih =>
    simp only [run, h.disk]
    cases w'.disk.write path content with
    | ok disk => exact ih _ ⟨rfl, h.time⟩
    | error fault => exact ih _ h
  | isFile path next ih =>
    simp only [run, h.disk]
    exact ih _ h
  | home next ih =>
    simp only [run, h.disk]
    exact ih _ h
  | now next ih =>
    simp only [run, h.time]
    exact ih _ h
  | tell event next ih => exact ih ⟨h.disk, h.time⟩

/-- Nothing is written, whatever the answers are. -/
inductive ReadsOnly : Session α → Prop where
  | done (a : α) : ReadsOnly (.done a)
  | read (path : String) {next : Except IoFault ByteArray → Session α}
      (h : ∀ r, ReadsOnly (next r)) : ReadsOnly (.read path next)
  | isFile (path : String) {next : Bool → Session α} (h : ∀ b, ReadsOnly (next b)) :
      ReadsOnly (.isFile path next)
  | home {next : String → Session α} (h : ∀ path, ReadsOnly (next path)) : ReadsOnly (.home next)
  | now {next : Timestamp → Session α} (h : ∀ t, ReadsOnly (next t)) : ReadsOnly (.now next)
  | tell (event : Event) {next : Session α} (h : ReadsOnly next) : ReadsOnly (.tell event next)

theorem ReadsOnly.run (h : s.ReadsOnly) (w : World) : (s.run w).2.Alike w := by
  induction h generalizing w with
  | done a => exact .refl w
  | read path h ih => exact ih _ w
  | isFile path h ih => exact ih _ w
  | home h ih => exact ih _ w
  | now h ih => exact ih _ w
  | tell event h ih => exact (ih _).trans ⟨rfl, rfl⟩

theorem ReadsOnly.bind (hs : s.ReadsOnly) (hf : ∀ a, (f a).ReadsOnly) : (s >>= f).ReadsOnly := by
  change (s.bind f).ReadsOnly
  induction hs with
  | done a => exact hf a
  | read path h ih => exact .read path ih
  | isFile path h ih => exact .isFile path ih
  | home h ih => exact .home ih
  | now h ih => exact .now ih
  | tell event h ih => exact .tell event ih

theorem readsOnly_readFile (path : String) : (readFile path).ReadsOnly := .read path .done

theorem readsOnly_readText (path : String) : (readText path).ReadsOnly := by
  refine (readsOnly_readFile path).bind fun r => ?_
  cases r with
  | error fault => exact .done _
  | ok bytes =>
    dsimp only
    split <;> exact .done _

end Session

namespace Archive

open Session

theorem readsOnly_loadEntry (dir manifestPath : String) (e : ManifestEntry) :
    (loadEntry dir manifestPath e).ReadsOnly := by
  unfold loadEntry
  split
  · exact .done _
  · split
    · exact .done _
    · split
      · exact .done _
      · refine (readsOnly_readFile _).bind fun r => ?_
        cases r <;> exact .done _

theorem readsOnly_loadEntries (dir manifestPath : String) (es : List ManifestEntry) :
    (loadEntries dir manifestPath es).ReadsOnly := by
  induction es with
  | nil => exact .done _
  | cons e rest ih =>
    refine (readsOnly_loadEntry dir manifestPath e).bind fun first => ?_
    cases first with
    | error err => exact .done _
    | ok artifact =>
      refine ih.bind fun others => ?_
      cases others <;> exact .done _

theorem readsOnly_loadDirectory (dir : String) : (loadDirectory dir).ReadsOnly := by
  refine (readsOnly_readText _).bind fun content => ?_
  cases content with
  | error fault => exact .done _
  | ok text =>
    dsimp only
    split
    · exact .done _
    · refine (readsOnly_loadEntries _ _ _).bind fun artifacts => ?_
      cases artifacts with
      | error err => exact .done _
      | ok xs => exact .tell _ (.done _)

end Archive

end CaptureAudit
