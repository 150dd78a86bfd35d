import CaptureAudit.Archive.Directory
import CaptureAudit.Proofs.DiskWrites

/-! What the text of a path says of the place to which it leads. A contained path has components
that stay or go down, and joined to a directory it leads to the directory or below it. -/

namespace CaptureAudit

/-- The parts of a path: where it starts, and its steps. -/
inductive Component where
  | root
  | current
  | parent
  | normal (name : String)
  deriving DecidableEq

namespace Component

/-- The step that a segment takes, if it takes any. -/
def ofSegment? (s : String) : Option Component :=
  if s = "" ∨ s = "." then none else if s = ".." then some .parent else some (.normal s)

def staysBelow : Component → Bool
  | .current | .normal _ => true
  | .root | .parent => false

theorem all_staysBelow_filterMap (segs : List String) :
    (segs.filterMap ofSegment?).all staysBelow = !segs.contains ".." := by
  induction segs with
  | nil => rfl
  | cons s segs ih =>
    by_cases hstay : s = "" ∨ s = "."
    · have hne : s ≠ ".." := by rcases hstay with rfl | rfl <;> decide
      have hnone : ofSegment? s = none := if_pos hstay
      rw [List.filterMap_cons_none hnone, ih, List.contains_cons, beq_false_of_ne hne.symm,
        Bool.false_or]
    · by_cases hup : s = ".."
      · subst hup
        have hsome : ofSegment? ".." = some .parent := by decide
        rw [List.filterMap_cons_some hsome]
        simp [staysBelow]
      · have hsome : ofSegment? s = some (.normal s) := by rw [ofSegment?, if_neg hstay, if_neg hup]
        rw [List.filterMap_cons_some hsome, List.all_cons, ih, List.contains_cons,
          beq_false_of_ne (Ne.symm hup), Bool.false_or]
        rfl

end Component

/-- A slash at the beginning is the root. A single dot counts at the beginning of a relative path
and nowhere else. -/
def components (path : String) : List Component :=
  if Text.beginsWith '/' path then .root :: (segments path).filterMap Component.ofSegment?
  else
    match segments path with
    | [] => []
    | s :: rest =>
      if s = "." then .current :: rest.filterMap Component.ofSegment?
      else (s :: rest).filterMap Component.ofSegment?

theorem isContained_eq_all_components (path : String) :
    isContained path = (components path).all Component.staysBelow := by
  rw [isContained, components]
  cases hroot : Text.beginsWith '/' path with
  | true => rfl
  | false =>
    cases hsegs : segments path with
    | nil => rfl
    | cons s rest =>
      by_cases hdot : s = "."
      · subst hdot
        simp only [Bool.false_eq_true, if_false, if_true, List.all_cons,
          Component.all_staysBelow_filterMap]
        rfl
      · simp only [hdot, Bool.false_eq_true, if_false, Component.all_staysBelow_filterMap]
        rfl

theorem isContained_iff {path : String} :
    isContained path = true ↔ Text.beginsWith '/' path = false ∧ ".." ∉ segments path := by
  simp [isContained]

/-- Two dots take back the name before them. Where there is none they stay, except at the root. -/
def lexicalStep (rooted : Bool) (names : List String) (s : String) : List String :=
  if s = "" ∨ s = "." then names
  else if s = ".." then
    match names.getLast? with
    | none => if rooted then [] else [".."]
    | some last => if last = ".." then names ++ [".."] else names.dropLast
  else names ++ [s]

/-- The names to which a path leads by its text. -/
def lexicalNames (path : String) : List String :=
  (segments path).foldl (lexicalStep (Text.beginsWith '/' path)) []

/-- Without two dots no step takes back a name, so every beginning of the way stays below. -/
theorem foldl_lexicalStep {rooted : Bool} {segs : List String} (h : ".." ∉ segs)
    (names : List String) :
    ∃ more, (∀ n ∈ more, Descends n) ∧ segs.foldl (lexicalStep rooted) names = names ++ more := by
  induction segs generalizing names with
  | nil => exact ⟨[], by simp, by simp⟩
  | cons s segs ih =>
    have hs : s ≠ ".." := fun he => h (by simp [he])
    have hsegs : ".." ∉ segs := fun hmem => h (List.mem_cons_of_mem s hmem)
    rw [List.foldl_cons]
    by_cases hstay : s = "" ∨ s = "."
    · rw [lexicalStep, if_pos hstay]
      exact ih hsegs names
    · rw [lexicalStep, if_neg hstay, if_neg hs]
      obtain ⟨more, hmore, hfold⟩ := ih hsegs (names ++ [s])
      have hdown : Descends s := ⟨fun he => hstay (.inl he), fun he => hstay (.inr he), hs⟩
      exact ⟨s :: more, List.forall_mem_cons.mpr ⟨hdown, hmore⟩, by rw [hfold]; simp⟩

theorem lexicalNames_joinPath (dir : String) {name : String} (h : isContained name = true) :
    ∃ more, (∀ n ∈ more, Descends n) ∧
      lexicalNames (joinPath dir name) = lexicalNames dir ++ more := by
  obtain ⟨hrelative, hdots⟩ := isContained_iff.mp h
  obtain ⟨lead, hjoined, hdir⟩ := segments_joinPath dir hrelative
  have hlead : lexicalNames dir = lead.foldl (lexicalStep (Text.beginsWith '/' dir)) [] := by
    rcases hdir with hdir | hdir
    · rw [lexicalNames, hdir]
    · -- The empty segment after a slash at the end takes no step.
      rw [lexicalNames, hdir, List.foldl_append]
      rfl
  rw [hlead, lexicalNames, beginsWith_joinPath dir hrelative, hjoined, List.foldl_append]
  exact foldl_lexicalStep hdots _

end CaptureAudit
