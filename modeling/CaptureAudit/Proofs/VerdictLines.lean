import CaptureAudit.Proofs.PathSegments
import CaptureAudit.Proofs.RenderedLines
import Mathlib.Data.List.Chain

/-! The lines of a text that start like a verdict, with an opening bracket. A text that stands
inside a line gives rise to such lines where it has a bracket right after a newline, and nowhere
else. -/

namespace CaptureAudit

namespace Text

/-- The text has no newline. -/
def OneLine (s : String) : Prop := '\n' ∉ s.toList

instance (s : String) : Decidable (OneLine s) := inferInstanceAs (Decidable (¬_))

/-- No opening bracket stands right after a newline, so the text forges no verdict inside a line. -/
def Sound (s : String) : Prop := ¬['\n', '['] <:+: s.toList

/-- The lines after the first that start with an opening bracket. -/
def strayHeads (s : String) : List String :=
  (split '\n' s).tail.filter (beginsWith '[')

variable {s t u : String}

theorem oneLine_append : OneLine (s ++ t) ↔ OneLine s ∧ OneLine t := by
  simp [OneLine, not_or]

theorem OneLine.append (hs : OneLine s) (ht : OneLine t) : OneLine (s ++ t) :=
  oneLine_append.mpr ⟨hs, ht⟩

theorem sound_iff : Sound s ↔ s.toList.IsChain fun c d => c = '\n' → d ≠ '[' := by
  rw [List.isChain_iff_forall_rel_of_append_cons_cons]
  constructor
  · rintro h c d front back hs rfl rfl
    exact h ⟨front, back, by simp [hs]⟩
  · rintro h ⟨front, back, hs⟩
    have hs' : s.toList = front ++ '\n' :: '[' :: back := by simp [← hs]
    exact h hs' rfl rfl

instance (s : String) : Decidable (Sound s) := decidable_of_iff _ sound_iff.symm

theorem OneLine.sound (h : OneLine s) : Sound s := fun hf => h (hf.subset List.mem_cons_self)

/-- A newline and a bracket that stand in the two parts of a text do not come together. -/
theorem sound_append (h : s.toList.getLast? = some '\n' → t.toList.head? ≠ some '[') :
    Sound (s ++ t) ↔ Sound s ∧ Sound t := by
  rw [sound_iff, sound_iff, sound_iff, String.toList_append, List.isChain_append]
  refine and_congr_right fun _ => and_iff_left ?_
  rintro c hc d hd rfl rfl
  exact h hc hd

/-- Whatever is written after the text, it does not forge a verdict. -/
structure Closed (s : String) : Prop where
  sound : Sound s
  ends : s.toList.getLast? ≠ some '\n'

/-- A text that closes any other when it is written after it. -/
structure Joint (s : String) : Prop where
  oneLine : OneLine s
  nonempty : s.toList ≠ []
  begins : s.toList.head? ≠ some '['

instance (s : String) : Decidable (Joint s) :=
  decidable_of_iff (OneLine s ∧ s.toList ≠ [] ∧ s.toList.head? ≠ some '[')
    ⟨fun h => ⟨h.1, h.2.1, h.2.2⟩, fun h => ⟨h.oneLine, h.nonempty, h.begins⟩⟩

theorem OneLine.closed (h : OneLine s) : Closed s :=
  ⟨h.sound, fun hlast => h (List.mem_of_getLast? hlast)⟩

theorem Sound.append_joint (hs : Sound s) (ht : Joint t) : Closed (s ++ t) := by
  refine ⟨(sound_append fun _ => ht.begins).mpr ⟨hs, ht.oneLine.sound⟩, ?_⟩
  rw [String.toList_append, List.getLast?_append_of_ne_nil _ ht.nonempty]
  exact ht.oneLine.closed.ends

theorem Closed.append (hs : Closed s) (ht : Sound t) : Sound (s ++ t) :=
  (sound_append fun hlast => absurd hlast hs.ends).mpr ⟨hs.sound, ht⟩

theorem Closed.append_oneLine (hs : Closed s) (ht : OneLine t) : Closed (s ++ t) := by
  refine ⟨hs.append ht.sound, fun h => ?_⟩
  rw [String.toList_append, List.getLast?_append] at h
  cases hlast : t.toList.getLast? with
  | none => exact hs.ends (by simpa [hlast] using h)
  | some c => exact ht.closed.ends (by simpa [hlast] using h)

/-- A text that may be written after any other that forges no verdict. -/
structure Tail (s : String) : Prop where
  sound : Sound s
  begins : s.toList.head? ≠ some '['

instance (s : String) : Decidable (Tail s) :=
  decidable_of_iff (Sound s ∧ s.toList.head? ≠ some '[') ⟨fun h => ⟨h.1, h.2⟩, fun h => ⟨h.1, h.2⟩⟩

theorem Sound.append_tail (hs : Sound s) (ht : Tail t) : Sound (s ++ t) :=
  (sound_append fun _ => ht.begins).mpr ⟨hs, ht.sound⟩

theorem Tail.append (hs : Tail s) (ht : Tail t) : Tail (s ++ t) := by
  refine ⟨hs.sound.append_tail ht, ?_⟩
  rw [String.toList_append, List.head?_append]
  cases hhead : s.toList.head? with
  | none => simpa using ht.begins
  | some c => simpa [hhead] using hs.begins

theorem Joint.append (hs : Joint s) (ht : Sound t) : Tail (s ++ t) := by
  refine ⟨hs.oneLine.closed.append ht, ?_⟩
  rw [String.toList_append, List.head?_append_of_ne_nil _ hs.nonempty]
  exact hs.begins

theorem sound_intercalate (hu : Joint u) (texts : List String) :
    Sound (String.intercalate u texts) ↔ ∀ t ∈ texts, Sound t := by
  induction texts with
  | nil => simpa using (show OneLine "" by decide).sound
  | cons t rest ih =>
    cases rest with
    | nil => simp
    | cons t' rest =>
      have hlast : (t ++ u).toList.getLast? ≠ some '\n' := by
        rw [String.toList_append, List.getLast?_append_of_ne_nil _ hu.nonempty]
        exact hu.oneLine.closed.ends
      rw [String.intercalate_cons_cons, sound_append fun h => absurd h hlast,
        sound_append fun _ => hu.begins, ih, and_iff_left hu.oneLine.sound]
      exact List.forall_mem_cons.symm

theorem joint_comma : Joint ", " := by decide

theorem joint_colon : Joint ": " := by decide

theorem oneLine_intercalate (hu : OneLine u) {texts : List String} (h : ∀ t ∈ texts, OneLine t) :
    OneLine (String.intercalate u texts) := by
  induction texts with
  | nil =>
    rw [String.intercalate_nil]
    decide
  | cons t rest ih =>
    cases rest with
    | nil => simpa using h t
    | cons t' rest =>
      rw [String.intercalate_cons_cons]
      exact ((h t (by simp)).append hu).append (ih fun t ht => h t (List.mem_cons_of_mem _ ht))

theorem head?_splitChars (separator : Char) (cs : List Char) :
    (splitChars separator cs).head? = some (cs.takeWhile (· ≠ separator)) := by
  induction cs with
  | nil => rfl
  | cons c cs ih =>
    rw [splitChars]
    by_cases hc : c = separator
    · simp [hc]
    · obtain ⟨parts, hparts⟩ := List.head?_eq_some_iff.mp ih
      simp [hc, hparts]

theorem tail_splitChars_append {separator : Char} {front : List Char} (h : separator ∉ front)
    (cs : List Char) :
    (splitChars separator (front ++ cs)).tail = (splitChars separator cs).tail := by
  induction front with
  | nil => rfl
  | cons c front ih =>
    have hc : c ≠ separator := (List.ne_of_not_mem_cons h).symm
    rw [← ih (List.not_mem_of_not_mem_cons h), List.cons_append, splitChars, if_neg hc]
    cases hs : splitChars separator (front ++ cs) with
    | nil => exact absurd hs (splitChars_ne_nil _ _)
    | cons part parts => rfl

/-- A oneLine text before it changes nothing. -/
theorem strayHeads_append (hs : OneLine s) : strayHeads (s ++ t) = strayHeads t := by
  rw [strayHeads, strayHeads, split, split, ← List.map_tail, ← List.map_tail, String.toList_append,
    tail_splitChars_append hs]

theorem heads_tail_splitChars (cs : List Char) :
    (∀ part ∈ (splitChars '\n' cs).tail, part.head? ≠ some '[') ↔
      cs.IsChain fun c d => c = '\n' → d ≠ '[' := by
  induction cs with
  | nil => simp [splitChars]
  | cons c cs ih =>
    obtain ⟨parts, hparts⟩ := List.head?_eq_some_iff.mp (head?_splitChars '\n' cs)
    rw [hparts, List.tail_cons] at ih
    rw [List.isChain_cons, ← ih, splitChars, hparts]
    by_cases hc : c = '\n'
    · -- The part after this newline starts with the next character.
      have hfirst : (cs.takeWhile (· ≠ '\n')).head? ≠ some '[' ↔ ∀ d ∈ cs.head?, d ≠ '[' := by
        cases cs with
        | nil => simp
        | cons d cs => by_cases hd : d = '\n' <;> simp [hd]
      simp only [hc, if_true, List.tail_cons, List.forall_mem_cons, hfirst, true_imp_iff]
    · simp [hc]

theorem strayHeads_eq_nil_iff : strayHeads s = [] ↔ Sound s := by
  rw [sound_iff, ← heads_tail_splitChars, strayHeads, split, ← List.map_tail,
    List.filter_eq_nil_iff, List.forall_mem_map]
  simp only [beginsWith, String.toList_ofList, decide_eq_true_eq, ne_eq]

end Text

/-- The lines of a text that start with an opening bracket. -/
def verdictLines (text : String) : List String :=
  (Text.split '\n' text).filter (Text.beginsWith '[')

open Text

variable {s t : String}

theorem verdictLines_of_head (h : beginsWith '[' s = false) : verdictLines s = strayHeads s := by
  obtain ⟨parts, hparts⟩ := List.head?_eq_some_iff.mp (head?_splitChars '\n' s.toList)
  have hfirst : beginsWith '[' (String.ofList (s.toList.takeWhile (· ≠ '\n'))) = false := by
    have hhead : s.toList.head? ≠ some '[' := by simpa [beginsWith] using h
    cases hs : s.toList with
    | nil => simp [beginsWith]
    | cons c cs =>
      rw [hs] at hhead
      by_cases hc : c = '\n'
      · simp [beginsWith, hc]
      · simpa [beginsWith, hc] using hhead
  rw [verdictLines, strayHeads, split, hparts, List.map_cons, List.tail_cons,
    List.filter_cons_of_neg (by rw [hfirst]; exact Bool.false_ne_true)]

theorem verdictLines_of_oneLine (h : OneLine s) :
    verdictLines s = if beginsWith '[' s then [s] else [] := by
  rw [verdictLines, split, splitChars_of_not_mem h, List.map_singleton, String.ofList_toList,
    List.filter_singleton]
  cases beginsWith '[' s <;> rfl

/-- The text stands inside of a line that starts otherwise. -/
theorem verdictLines_append (hs : OneLine s) (hne : s.toList ≠ [])
    (hhead : beginsWith '[' s = false) : verdictLines (s ++ t) = strayHeads t := by
  rw [verdictLines_of_head, strayHeads_append hs]
  rw [beginsWith, String.toList_append, List.head?_append_of_ne_nil _ hne]
  exact hhead

theorem verdictLines_joinLines (lines : List String) :
    verdictLines (joinLines lines) = lines.flatMap verdictLines := by
  induction lines with
  | nil => decide
  | cons line lines ih =>
    have hjoin : joinLines (line :: lines) = line ++ "\n" ++ joinLines lines := by
      simp [joinLines, String.join_cons]
    have hsplit : split '\n' (joinLines (line :: lines)) =
        split '\n' line ++ split '\n' (joinLines lines) := by
      rw [hjoin, split, split, split, ← List.map_append, ← splitChars_append_cons]
      simp [String.toList_append]
    rw [List.flatMap_cons, ← ih, verdictLines, hsplit, List.filter_append]
    rfl

end CaptureAudit
