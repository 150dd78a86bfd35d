import CaptureAudit.Disk.Session

/-! A session runs as its parts do, one after the other. -/

namespace CaptureAudit

theorem fromUTF8?_toUTF8 (s : String) : String.fromUTF8? s.toUTF8 = some s := by
  have h : s.toUTF8.IsValidUTF8 := s.isValidUTF8
  rw [String.fromUTF8?, dif_pos h]
  rfl

namespace Session

variable {α β : Type}

theorem run_bind (s : Session α) (f : α → Session β) (w : World) :
    (s >>= f).run w = (f (s.run w).1).run (s.run w).2 := by
  change (s.bind f).run w = _
  induction s generalizing w with
  | done a => rfl
  | read path next ih => exact ih _ w
  | write path content next ih =>
    simp only [bind, run]
    cases w.disk.write path content with
    | ok disk => exact ih _ _
    | error fault => exact ih _ w
  | isFile path next ih => exact ih _ w
  | home next ih => exact ih _ w
  | now next ih => exact ih _ w
  | tell event next ih => exact ih _

@[simp] theorem run_pure (a : α) (w : World) : (pure a : Session α).run w = (a, w) := rfl

@[simp] theorem run_readFile (path : String) (w : World) :
    (readFile path).run w = (w.disk.read path, w) := rfl

@[simp] theorem run_time (w : World) : time.run w = (w.time, w) := rfl

@[simp] theorem run_note (event : Event) (w : World) :
    (note event).run w = ((), { w with events := w.events ++ [event] }) := rfl

@[simp] theorem run_notes (events : List Event) (w : World) :
    (notes events).run w = ((), { w with events := w.events ++ events }) := by
  induction events generalizing w with
  | nil => simp [notes, run]
  | cons event rest ih =>
    rw [notes, run, ih]
    simp

theorem run_writeFile {path : String} {content : ByteArray} {w w' : World}
    (h : (writeFile path content).run w = (.ok (), w')) :
    ∃ disk, w.disk.write path content = .ok disk ∧ w' = { w with disk := disk } := by
  simp only [writeFile, run] at h
  split at h
  · next disk hd => exact ⟨disk, hd, (congrArg Prod.snd h).symm⟩
  · exact absurd (congrArg Prod.fst h) (by simp)

theorem run_readText {path s : String} {w : World} (h : w.disk.read path = .ok s.toUTF8) :
    (readText path).run w = (.ok s, w) := by
  simp only [readText, run_bind, run_readFile, h, fromUTF8?_toUTF8, run_pure]

end Session

end CaptureAudit
