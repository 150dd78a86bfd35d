import CaptureAudit.Disk.Basic

/-! A text is cut at every separator, so the segments of a joined path are those of its directory
followed by those of the name. -/

namespace CaptureAudit

namespace Text

theorem splitChars_of_not_mem {c : Char} {l : List Char} (h : c ∉ l) : splitChars c l = [l] := by
  induction l with
  | nil => rfl
  | cons d l ih =>
    rw [splitChars, if_neg (List.ne_of_not_mem_cons h).symm, ih (List.not_mem_of_not_mem_cons h)]

theorem splitChars_ne_nil (c : Char) (l : List Char) : splitChars c l ≠ [] := by
  cases l with
  | nil => simp [splitChars]
  | cons d l =>
    unfold splitChars
    split
    · simp
    · split <;> simp

theorem splitChars_append_cons (c : Char) (a b : List Char) :
    splitChars c (a ++ c :: b) = splitChars c a ++ splitChars c b := by
  induction a with
  | nil => simp [splitChars]
  | cons d a ih =>
    simp only [List.cons_append, splitChars, ih]
    split
    · rfl
    · cases hs : splitChars c a with
      | nil => exact absurd hs (splitChars_ne_nil c a)
      | cons part parts => rfl

/-- The first part begins as the text does. -/
theorem splitChars_cons {c d : Char} (h : d ≠ c) (l : List Char) :
    ∃ part parts, splitChars c (d :: l) = (d :: part) :: parts := by
  rw [splitChars, if_neg h]
  cases splitChars c l with
  | nil => exact ⟨[], [], rfl⟩
  | cons part parts => exact ⟨part, parts, rfl⟩

/-- The last part ends as the text does. -/
theorem splitChars_concat {c d : Char} (h : d ≠ c) (l : List Char) :
    ∃ parts part, splitChars c (l ++ [d]) = parts ++ [part ++ [d]] := by
  induction l with
  | nil => exact ⟨[], [], by simp [splitChars, h]⟩
  | cons e l ih =>
    obtain ⟨parts, part, hl⟩ := ih
    rw [List.cons_append, splitChars, hl]
    split
    · exact ⟨[] :: parts, part, rfl⟩
    · cases parts with
      | nil => exact ⟨[], e :: part, rfl⟩
      | cons p ps => exact ⟨(e :: p) :: ps, part, rfl⟩

end Text

theorem segments_of_not_mem {name : String} (h : '/' ∉ name.toList) : segments name = [name] := by
  simp [segments, Text.split, Text.splitChars_of_not_mem h]

/-- The last segment of a path that does not end with a slash is not empty. -/
theorem segments_concat {path : String} {cs : List Char} {c : Char} (h : path.toList = cs ++ [c])
    (hc : c ≠ '/') : ∃ rest s, segments path = rest ++ [s] ∧ s.isEmpty = false := by
  obtain ⟨parts, part, hparts⟩ := Text.splitChars_concat hc cs
  refine ⟨parts.map String.ofList, String.ofList (part ++ [c]), ?_, ?_⟩
  · simp [segments, Text.split, h, hparts]
  · exact Bool.eq_false_iff.mpr fun he =>
      by simpa using congrArg String.toList (String.isEmpty_iff.mp he)

theorem segments_append_slash (a b : String) :
    segments (a ++ "/" ++ b) = segments a ++ segments b := by
  have hl : (a ++ "/" ++ b).toList = a.toList ++ '/' :: b.toList := by simp
  rw [segments, Text.split, hl, Text.splitChars_append_cons, List.map_append]
  rfl

theorem exists_of_finishesWith {s : String} (h : Text.finishesWith '/' s = true) :
    ∃ t, s = t ++ "/" := by
  obtain ⟨l, hl⟩ := List.getLast?_eq_some_iff.mp (of_decide_eq_true h)
  exact ⟨String.ofList l, String.toList_inj.mp (by simp [hl])⟩

/-- The segments of a joined path lead to the directory before they name what is in it. -/
theorem segments_joinPath (dir : String) {name : String} (h : Text.beginsWith '/' name = false) :
    ∃ lead, segments (joinPath dir name) = lead ++ segments name ∧
      (segments dir = lead ∨ segments dir = lead ++ [""]) := by
  by_cases hdir : dir.isEmpty = true
  · refine ⟨[], by simp [joinPath, hdir], .inr ?_⟩
    rw [String.isEmpty_iff.mp hdir]
    rfl
  · cases hslash : Text.finishesWith '/' dir with
    | true =>
      obtain ⟨t, rfl⟩ := exists_of_finishesWith hslash
      refine ⟨segments t, ?_, .inr ?_⟩
      · simp only [joinPath, h, hdir, hslash, Bool.or_false, if_true]
        exact segments_append_slash t name
      · have ht := segments_append_slash t ""
        rwa [String.append_empty] at ht
    | false =>
      refine ⟨segments dir, ?_, .inl rfl⟩
      simp only [joinPath, h, hdir, hslash, Bool.or_false]
      exact segments_append_slash dir name

theorem beginsWith_joinPath (dir : String) {name : String}
    (h : Text.beginsWith '/' name = false) :
    Text.beginsWith '/' (joinPath dir name) = Text.beginsWith '/' dir := by
  by_cases hdir : dir = ""
  · rw [hdir, joinPath, h]
    exact h
  · obtain ⟨c, cs, hcs⟩ := List.exists_cons_of_ne_nil (mt String.toList_eq_nil_iff.mp hdir)
    have hhead : ∀ t, Text.beginsWith '/' (dir ++ t) = Text.beginsWith '/' dir := by
      simp [Text.beginsWith, hcs]
    have hne : dir.isEmpty = false :=
      Bool.eq_false_iff.mpr fun he => hdir (String.isEmpty_iff.mp he)
    simp only [joinPath, h, hne, Bool.or_false, Bool.false_eq_true, if_false]
    split
    · exact hhead name
    · rw [String.append_assoc, hhead]

theorem exists_append_joinPath (dir name : String) :
    ∃ lead, (joinPath dir name).toList = lead ++ name.toList := by
  rw [joinPath]
  split
  · exact ⟨[], rfl⟩
  · split
    · exact ⟨dir.toList, by simp⟩
    · exact ⟨dir.toList ++ ['/'], by simp⟩

end CaptureAudit
