import CaptureAudit.Proofs.Ascending
import CaptureAudit.Proofs.ExceptSteps
import CaptureAudit.Proofs.PathSegments

/-! Files written into a directory that holds no other directory. A write that succeeds puts one
file under the given name, whatever slashes or dots the name has, and leaves everything else alone.
-/

namespace CaptureAudit

/-- A segment that leads down, neither staying nor going up. -/
structure Descends (s : String) : Prop where
  ne_empty : s ≠ ""
  ne_dot : s ≠ "."
  ne_dots : s ≠ ".."

theorem Descends.of_first {s : String} {c : Char} {cs : List Char} (h : s.toList = c :: cs)
    (hdot : c ≠ '.') : Descends s where
  ne_empty he := by simp [he] at h
  ne_dot he := by simp [he, hdot.symm] at h
  ne_dots he := by simp [he, hdot.symm] at h

/-- Names that begin with neither a dot nor a slash and end with no slash. -/
structure PlainEnds (name : String) : Prop where
  first : ∃ c cs, name.toList = c :: cs ∧ c ≠ '/' ∧ c ≠ '.'
  last : ∃ cs c, name.toList = cs ++ [c] ∧ c ≠ '/'

namespace PlainEnds

variable {name : String}

theorem beginsWith_slash (h : PlainEnds name) : Text.beginsWith '/' name = false := by
  obtain ⟨c, cs, hname, hslash, _⟩ := h.first
  simp [Text.beginsWith, hname, hslash]

theorem finishesWith_joinPath (h : PlainEnds name) (dir : String) :
    Text.finishesWith '/' (joinPath dir name) = false := by
  obtain ⟨cs, c, hname, hslash⟩ := h.last
  obtain ⟨lead, hlead⟩ := exists_append_joinPath dir name
  simp [Text.finishesWith, hlead, hname, hslash]

theorem descends (h : PlainEnds name) : Descends name := by
  obtain ⟨c, cs, hname, _, hdot⟩ := h.first
  exact .of_first hname hdot

theorem segments_cons (h : PlainEnds name) :
    ∃ s rest, segments name = s :: rest ∧ Descends s := by
  obtain ⟨c, cs, hname, hslash, hdot⟩ := h.first
  obtain ⟨part, parts, hparts⟩ := Text.splitChars_cons hslash cs
  have hs : Descends (String.ofList (c :: part)) := .of_first String.toList_ofList hdot
  exact ⟨_, parts.map String.ofList, by simp [segments, Text.split, hname, hparts], hs⟩

theorem segments_concat (h : PlainEnds name) :
    ∃ rest s, segments name = rest ++ [s] ∧ s.isEmpty = false := by
  obtain ⟨cs, c, hname, hslash⟩ := h.last
  exact CaptureAudit.segments_concat hname hslash

/-- With a slash inside, a name has a first segment, a last one and perhaps some between. -/
theorem segments_of_mem (h : PlainEnds name) (hmem : '/' ∈ name.toList) :
    ∃ s mid t, segments name = s :: (mid ++ [t]) ∧ Descends s ∧ t.isEmpty = false := by
  obtain ⟨s, rest, hcons, hs⟩ := h.segments_cons
  obtain ⟨front, t, hconcat, ht⟩ := h.segments_concat
  obtain ⟨a, b, hab⟩ := List.append_of_mem hmem
  have hlen : 2 ≤ (segments name).length := by
    have ha := List.length_pos_iff.mpr (Text.splitChars_ne_nil '/' a)
    have hb := List.length_pos_iff.mpr (Text.splitChars_ne_nil '/' b)
    rw [segments, Text.split, hab, Text.splitChars_append_cons, List.length_map,
      List.length_append]
    omega
  cases front with
  | nil => simp [hconcat] at hlen
  | cons x mid =>
    rw [hconcat, List.cons_append] at hcons
    obtain ⟨rfl, rfl⟩ := List.cons.inj hcons
    exact ⟨x, mid, t, hconcat, hs, ht⟩

end PlainEnds

namespace Disk

variable {d d' : Disk} {l m x : Location} {e : Entry} {dir name : String} {content : ByteArray}

theorem entry?_put (hx : x ≠ []) :
    Disk.entry? (d.put x e) l = if l = x then some e else d.entry? l := by
  by_cases hl : l = []
  · simp [Disk.entry?, hl, hx.symm]
  · simp only [Disk.entry?, put, hl, if_false, SortedMap.get?_insert]

theorem start_joinPath (h : Text.beginsWith '/' name = false) :
    d.start (joinPath dir name) = d.start dir := by
  rw [start, start, beginsWith_joinPath dir h]

theorem follow_append (l : Location) (a b : List String) :
    d.follow l (a ++ b) = (d.follow l a).bind fun m => d.follow m b := by
  induction a generalizing l with
  | nil => rfl
  | cons s a ih =>
    simp only [List.cons_append, follow, ih]
    split
    · rfl
    · rfl
    · split
      · rfl
      · split
        · rfl
        · split <;> rfl

theorem follow_dot (h : d.entry? l = some .directory) : d.follow l ["."] = .ok l := by
  simp [follow, h]

theorem follow_concat_stay {names : List String} {s : String} (hs : s = "" ∨ s = ".")
    (h : d.follow l (names ++ [s]) = .ok m) :
    d.follow l names = .ok m ∧ d.entry? m = some .directory := by
  rw [follow_append] at h
  obtain ⟨x, hnames, h⟩ := exists_of_bind_ok h
  simp only [follow] at h
  split at h
  · exact absurd h (by simp)
  · exact absurd h (by simp)
  · next hx =>
    rw [if_pos hs] at h
    obtain rfl := Except.ok.inj h
    exact ⟨hnames, hx⟩

theorem follow_name {s : String} {rest : List String} (h : d.entry? l = some .directory)
    (hs : Descends s) :
    d.follow l (s :: rest) =
      if 255 < s.utf8ByteSize then .error .nameTooLong else d.follow (l ++ [s]) rest := by
  rw [follow, h]
  simp [hs.ne_empty, hs.ne_dot, hs.ne_dots]

theorem exists_error_of_follow {rest : List String} (h : d.entry? l ≠ some .directory)
    (hrest : rest ≠ []) : ∃ fault, d.follow l rest = .error fault := by
  cases rest with
  | nil => exact absurd rfl hrest
  | cons s rest =>
    rw [follow]
    split
    · exact ⟨_, rfl⟩
    · exact ⟨_, rfl⟩
    · next hd => exact absurd hd h

/-- A way through the disk meets directories only, so a change elsewhere does not matter. -/
theorem follow_put (hx : x ≠ []) (hput : d.entry? x ≠ some .directory) {names : List String}
    (h : d.follow l names = .ok m) : (d.put x e).follow l names = .ok m := by
  induction names generalizing l with
  | nil => exact h
  | cons s rest ih =>
    rw [follow] at h ⊢
    split at h
    · exact absurd h (by simp)
    · exact absurd h (by simp)
    · next hd =>
      have hne : l ≠ x := fun he => hput (he ▸ hd)
      rw [entry?_put hx, if_neg hne, hd]
      simp only at h ⊢
      split at h
      · next hs => rw [if_pos hs]; exact ih h
      · next hs =>
        rw [if_neg hs]
        split at h
        · next hs => rw [if_pos hs]; exact ih h
        · next hs =>
          rw [if_neg hs]
          split at h
          · exact absurd h (by simp)
          · next hs => rw [if_neg hs]; exact ih h

/-- A path leads to a directory in which no other directory stands. -/
structure LeadsToFlat (d : Disk) (dir : String) (l : Location) : Prop where
  follows : d.follow (d.start dir) (segments dir) = .ok l
  directory : d.entry? l = some .directory
  flat : ∀ name, d.entry? (l ++ [name]) ≠ some .directory

/-- What a name has to be for a file of that name to stand in a directory. -/
structure Fits (dir name : String) : Prop where
  single : '/' ∉ name.toList
  short : name.utf8ByteSize ≤ 255
  sound : pathFault? (joinPath dir name) = none

namespace LeadsToFlat

theorem exists_lead (h : d.LeadsToFlat dir l) (hname : PlainEnds name) :
    ∃ lead, segments (joinPath dir name) = lead ++ segments name ∧
      d.follow (d.start (joinPath dir name)) lead = .ok l := by
  obtain ⟨lead, hsegments, hdir⟩ := segments_joinPath dir hname.beginsWith_slash
  refine ⟨lead, hsegments, ?_⟩
  rw [start_joinPath hname.beginsWith_slash]
  have hfollows := h.follows
  rcases hdir with hdir | hdir
  · rwa [hdir] at hfollows
  · rw [hdir] at hfollows
    exact (follow_concat_stay (.inl rfl) hfollows).1

theorem put (h : d.LeadsToFlat dir l) (name : String) (content : ByteArray) :
    (d.put (l ++ [name]) (.file content)).LeadsToFlat dir l where
  follows := follow_put (by simp) (h.flat name) h.follows
  directory := by
    rw [entry?_put (by simp), if_neg (by simp)]
    exact h.directory
  flat other := by
    rw [entry?_put (by simp)]
    split
    · simp
    · exact h.flat other

theorem read_joinPath (h : d.LeadsToFlat dir l) (hname : PlainEnds name) (hfits : Fits dir name)
    (hfile : d.entry? (l ++ [name]) = some (.file content)) :
    d.read (joinPath dir name) = .ok content := by
  obtain ⟨lead, hsegments, hlead⟩ := h.exists_lead hname
  have hsingle := segments_of_not_mem hfits.single
  have hlocate : d.locate (joinPath dir name) = .ok (l ++ [name]) := by
    rw [locate, hfits.sound]
    simp only [hsegments, hsingle, follow_append, hlead, Except.bind]
    rw [follow_name h.directory hname.descends, if_neg (Nat.not_lt.mpr hfits.short), follow]
  simp [read, hlocate, hfile, bind, Except.bind]

/-- A file cannot be made below a name that stands for no directory. -/
theorem exists_error_of_mem (h : d.LeadsToFlat dir l) (hname : PlainEnds name)
    (hmem : '/' ∈ name.toList) : ∃ fault, d.write (joinPath dir name) content = .error fault := by
  obtain ⟨lead, hsegments, hlead⟩ := h.exists_lead hname
  obtain ⟨s, mid, t, hsplit, hs, ht⟩ := hname.segments_of_mem hmem
  rw [write]
  split
  · exact ⟨_, rfl⟩
  · have hnamed : (segments (joinPath dir name)).reverse.dropWhile (·.isEmpty) =
        t :: (lead ++ s :: mid).reverse := by
      simp [hsegments, hsplit, ht]
    have hdirectory : ∃ fault,
        d.follow (d.start (joinPath dir name)) (lead ++ s :: mid ++ ["."]) = .error fault := by
      rw [List.append_assoc, follow_append, hlead]
      simp only [Except.bind, List.cons_append]
      rw [follow_name h.directory hs]
      split
      · exact ⟨_, rfl⟩
      · exact exists_error_of_follow (h.flat s) (by simp)
    obtain ⟨fault, hfault⟩ := hdirectory
    refine ⟨fault, ?_⟩
    simp only [hnamed, List.drop_one, List.tail_cons, List.reverse_reverse, hfault]
    rfl

theorem write_joinPath (h : d.LeadsToFlat dir l) (hname : PlainEnds name)
    (hw : d.write (joinPath dir name) content = .ok d') :
    Fits dir name ∧ d' = d.put (l ++ [name]) (.file content) := by
  have hsingle : '/' ∉ name.toList := by
    intro hmem
    obtain ⟨fault, hfault⟩ : ∃ fault, d.write (joinPath dir name) content = .error fault :=
      h.exists_error_of_mem hname hmem
    simp [hfault] at hw
  obtain ⟨lead, hsegments, hlead⟩ := h.exists_lead hname
  have hone := segments_of_not_mem hsingle
  have hnamed : (segments (joinPath dir name)).reverse.dropWhile (·.isEmpty) =
      name :: lead.reverse := by
    have hne : name.isEmpty = false :=
      Bool.eq_false_iff.mpr fun he => hname.descends.ne_empty (String.isEmpty_iff.mp he)
    simp [hsegments, hone, hne]
  have hdirectory : d.follow (d.start (joinPath dir name)) (lead ++ ["."]) = .ok l := by
    rw [follow_append, hlead]
    exact follow_dot h.directory
  rw [write] at hw
  split at hw
  · exact absurd hw (by simp)
  · next hsound =>
    simp only [hnamed, List.drop_one, List.tail_cons, List.reverse_reverse, hdirectory,
      hname.finishesWith_joinPath, List.take_succ_cons, List.take_zero, bind, Except.bind,
      Bool.false_eq_true, if_false, follow_name h.directory hname.descends] at hw
    by_cases hlong : 255 < name.utf8ByteSize
    · simp [hlong] at hw
    · simp only [hlong, if_false, follow] at hw
      split at hw
      · exact absurd hw (by simp)
      · exact ⟨⟨hsingle, Nat.not_lt.mp hlong, hsound⟩, (Except.ok.inj hw).symm⟩

end LeadsToFlat

/-- The files stand in the directory, and nothing else in it has changed. -/
structure Gained (d d' : Disk) (dir : String) (l : Location) (files : List (String × ByteArray)) :
    Prop where
  leads : d'.LeadsToFlat dir l
  fits : ∀ f ∈ files, Fits dir f.1
  holds : ∀ f ∈ files, d'.entry? (l ++ [f.1]) = some (.file f.2)
  keeps : ∀ other ∉ files.map Prod.fst, d'.entry? (l ++ [other]) = d.entry? (l ++ [other])

namespace Gained

variable {d'' : Disk} {files more : List (String × ByteArray)}

theorem nil (h : d.LeadsToFlat dir l) : Gained d d dir l [] where
  leads := h
  fits := by simp
  holds := by simp
  keeps _ _ := rfl

theorem write (h : d.LeadsToFlat dir l) (hname : PlainEnds name)
    (hw : d.write (joinPath dir name) content = .ok d') :
    Gained d d' dir l [(name, content)] := by
  obtain ⟨hfits, rfl⟩ := h.write_joinPath hname hw
  refine ⟨h.put name content, by simpa using hfits, ?_, fun other hother => ?_⟩
  · simp [entry?_put]
  · have hne : other ≠ name := by simpa using hother
    rw [entry?_put (by simp), if_neg (by simpa using hne)]

theorem append (h : Gained d d' dir l files) (h' : Gained d' d'' dir l more)
    (hnew : ∀ f ∈ files, f.1 ∉ more.map Prod.fst) : Gained d d'' dir l (files ++ more) where
  leads := h'.leads
  fits f hf := (List.mem_append.mp hf).elim (h.fits f) (h'.fits f)
  holds f hf := by
    rcases List.mem_append.mp hf with hf | hf
    · rw [h'.keeps f.1 (hnew f hf), h.holds f hf]
    · exact h'.holds f hf
  keeps other hother := by
    rw [List.map_append, List.mem_append, not_or] at hother
    rw [h'.keeps other hother.2, h.keeps other hother.1]

theorem read (h : Gained d d' dir l files) {f : String × ByteArray} (hf : f ∈ files)
    (hname : PlainEnds f.1) : d'.read (joinPath dir f.1) = .ok f.2 :=
  h.leads.read_joinPath hname (h.fits f hf) (h.holds f hf)

end Gained

end Disk

end CaptureAudit
