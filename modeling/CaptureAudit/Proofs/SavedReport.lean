import CaptureAudit.Proofs.DiskWrites
import CaptureAudit.Proofs.ReportText
import CaptureAudit.Proofs.SessionFrame

/-! A report that was saved is loaded as it was. The write puts one file where its path leads,
whatever slashes and dots the path has, and leaves all other files alone. -/

namespace CaptureAudit

namespace Disk

variable {d d' : Disk} {path : String} {content : ByteArray}

theorem exists_last_of_path (hsound : pathFault? path = none)
    (hslash : Text.finishesWith '/' path = false) :
    ∃ cs c, path.toList = cs ++ [c] ∧ c ≠ '/' := by
  have hne : path.toList ≠ [] := by
    intro hnil
    obtain rfl := String.toList_eq_nil_iff.mp hnil
    simp [pathFault?] at hsound
  refine ⟨path.toList.dropLast, path.toList.getLast hne,
    (List.dropLast_append_getLast hne).symm, ?_⟩
  intro hlast
  simp [Text.finishesWith, List.getLast?_eq_some_getLast hne, hlast] at hslash

/-- A write that succeeds puts a file where its path leads, which is no directory. -/
theorem exists_put_of_write (h : d.write path content = .ok d') :
    ∃ l, d.locate path = .ok l ∧ d.entry? l ≠ some .directory ∧ d' = d.put l (.file content) := by
  rw [write] at h
  split at h
  · exact absurd h (by simp)
  next hsound =>
  cases hslash : Text.finishesWith '/' path with
  | true =>
    simp only [hslash, if_true, bind, Except.bind] at h
    split at h <;> exact absurd h (by simp)
  | false =>
    obtain ⟨cs, c, hchars, hc⟩ := exists_last_of_path hsound hslash
    obtain ⟨lead, name, hsegments, hname⟩ := segments_concat hchars hc
    have hnamed : (segments path).reverse.dropWhile (·.isEmpty) = name :: lead.reverse := by
      simp [hsegments, hname]
    simp only [hnamed, hslash, List.drop_one, List.tail_cons, List.reverse_reverse,
      List.take_succ_cons, List.take_zero, Bool.false_eq_true, if_false] at h
    obtain ⟨directory, hdirectory, h⟩ := exists_of_bind_ok h
    obtain ⟨hlead, _⟩ := follow_concat_stay (.inr rfl) hdirectory
    obtain ⟨l, hl, h⟩ := exists_of_bind_ok h
    split at h
    · exact absurd h (by simp)
    · next hfile =>
      refine ⟨l, ?_, hfile, (Except.ok.inj h).symm⟩
      rw [locate, hsound]
      simp only [hsegments, follow_append, hlead, Except.bind, hl]

theorem locate_put {l m : Location} {e : Entry} (hl : l ≠ [])
    (hfile : d.entry? l ≠ some .directory) (h : d.locate path = .ok m) :
    (d.put l e).locate path = .ok m := by
  rw [locate] at h ⊢
  split at h
  · exact absurd h (by simp)
  · exact follow_put hl hfile h

/-- The file at the path has the content, and nothing else has changed. -/
structure Wrote (d d' : Disk) (path : String) (content : ByteArray) : Prop where
  read : d'.read path = .ok content
  elsewhere : ∀ l, d'.locate path ≠ .ok l → d'.entry? l = d.entry? l
  home : d'.home = d.home

theorem wrote_of_write (h : d.write path content = .ok d') : d.Wrote d' path content := by
  obtain ⟨l, hlocate, hfile, rfl⟩ := exists_put_of_write h
  have hl : l ≠ [] := by
    rintro rfl
    exact hfile rfl
  have hlocate' : (d.put l (.file content)).locate path = .ok l := locate_put hl hfile hlocate
  refine ⟨?_, fun other hother => ?_, rfl⟩
  · simp [read, hlocate', entry?_put hl, bind, Except.bind]
  · have hne : other ≠ l := fun he => hother (he ▸ hlocate')
    rw [entry?_put hl, if_neg hne]

end Disk

namespace Report

variable {r : Report} {path : String} {w : World}

theorem run_save_cases (r : Report) (path : String) (w : World) :
    (∃ fault, w.disk.write path r.toText.toUTF8 = .error fault ∧
        (r.save path).run w = (.error (.io path fault), w)) ∨
      ∃ disk, w.disk.write path r.toText.toUTF8 = .ok disk ∧
        (r.save path).run w = (.ok (), { w with disk := disk }) := by
  cases hwrite : w.disk.write path r.toText.toUTF8 with
  | error fault =>
    refine .inl ⟨fault, rfl, ?_⟩
    simp only [save, Session.run_bind, Session.writeFile, Session.run, hwrite, Session.run_pure]
  | ok disk =>
    refine .inr ⟨disk, rfl, ?_⟩
    simp only [save, Session.run_bind, Session.writeFile, Session.run, hwrite, Session.run_pure]

theorem run_load_of_read (hread : w.disk.read path = .ok r.toText.toUTF8)
    (hsame : ofText r.toText = .ok r) : ((load path).run w).1 = .ok r := by
  simp only [load, Session.run_bind, Session.run_readText hread, Session.run_pure, hsame]

theorem ofText_ofResults {time : Timestamp} {metadata : CaptureMetadata} {skipped : List String}
    {results : List CheckResult} (hlength : results.length < 0x10000000000000000)
    (hlabels : ∀ c ∈ results, c.label = c.outcome.label)
    (hnumbers : ∀ c ∈ results, ∀ x ∈ c.check.numbers, Json.ReadsBack x) :
    ofText (ofResults time metadata skipped results).toText =
      .ok (ofResults time metadata skipped results) := by
  have hcounts : ∀ e ∈ (ofResults time metadata skipped results).outcomes.entries,
      e.2 < 0x10000000000000000 :=
    fun e he => Nat.lt_of_le_of_lt (tally_le_length e he) hlength
  rw [ofText, toText, Json.readText_pretty, read_toJson hnumbers hcounts]
  exact verify_ofResults time metadata skipped hlabels

end Report

end CaptureAudit
