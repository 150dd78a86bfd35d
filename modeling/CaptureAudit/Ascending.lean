/-! Finite sets and maps as strictly ascending lists, so that equal contents are equal values. -/

namespace CaptureAudit

/-- Put `a` at its place in an ascending list, where it stands once. -/
def insertSorted {α : Type} [Ord α] (a : α) : List α → List α
  | [] => [a]
  | b :: rest =>
    match compare a b with
    | .lt => a :: b :: rest
    | .eq => a :: rest
    | .gt => b :: insertSorted a rest

/-- Put the value of `k` at its place, in place of an earlier value. -/
def putEntry {κ α : Type} [Ord κ] (k : κ) (v : α) : List (κ × α) → List (κ × α)
  | [] => [(k, v)]
  | e :: rest =>
    match compare k e.1 with
    | .lt => (k, v) :: e :: rest
    | .eq => (k, v) :: rest
    | .gt => e :: putEntry k v rest

theorem mem_of_mem_insertSorted {α : Type} [Ord α] {a x : α} {l : List α}
    (h : x ∈ insertSorted a l) : x = a ∨ x ∈ l := by
  induction l with
  | nil => simpa [insertSorted] using h
  | cons b rest ih =>
    unfold insertSorted at h
    split at h
    · simpa using h
    · rcases List.mem_cons.mp h with h | h
      · exact .inl h
      · exact .inr (List.mem_cons_of_mem _ h)
    · rcases List.mem_cons.mp h with h | h
      · exact .inr (by simp [h])
      · exact (ih h).imp_right (List.mem_cons_of_mem _)

theorem key_of_mem_putEntry {κ α : Type} [Ord κ] {k : κ} {v : α} {x : κ × α}
    {l : List (κ × α)} (h : x ∈ putEntry k v l) : x = (k, v) ∨ x ∈ l := by
  induction l with
  | nil => simpa [putEntry] using h
  | cons b rest ih =>
    unfold putEntry at h
    split at h
    · simpa using h
    · rcases List.mem_cons.mp h with h | h
      · exact .inl h
      · exact .inr (List.mem_cons_of_mem _ h)
    · rcases List.mem_cons.mp h with h | h
      · exact .inr (by simp [h])
      · exact (ih h).imp_right (List.mem_cons_of_mem _)

section

variable {α κ : Type} [Ord α] [Std.TransOrd α] [Std.LawfulEqOrd α]
  [Ord κ] [Std.TransOrd κ] [Std.LawfulEqOrd κ]

theorem pairwise_insertSorted {a : α} {l : List α}
    (h : l.Pairwise fun x y => compare x y = .lt) :
    (insertSorted a l).Pairwise fun x y => compare x y = .lt := by
  induction l with
  | nil => simp [insertSorted]
  | cons b rest ih =>
    obtain ⟨hb, hrest⟩ := List.pairwise_cons.mp h
    unfold insertSorted
    split
    · next hc =>
      refine List.pairwise_cons.mpr ⟨fun y hy => ?_, h⟩
      rcases List.mem_cons.mp hy with rfl | hy
      · exact hc
      · exact Std.TransCmp.lt_trans hc (hb y hy)
    · next hc =>
      rw [Std.LawfulEqOrd.eq_of_compare hc]
      exact h
    · next hc =>
      refine List.pairwise_cons.mpr ⟨fun y hy => ?_, ih hrest⟩
      rcases mem_of_mem_insertSorted hy with rfl | hy
      · exact Std.OrientedCmp.lt_of_gt hc
      · exact hb y hy

theorem pairwise_putEntry {β : Type} {k : κ} {v : β} {l : List (κ × β)}
    (h : l.Pairwise fun x y => compare x.1 y.1 = .lt) :
    (putEntry k v l).Pairwise fun x y => compare x.1 y.1 = .lt := by
  induction l with
  | nil => simp [putEntry]
  | cons b rest ih =>
    obtain ⟨hb, hrest⟩ := List.pairwise_cons.mp h
    unfold putEntry
    split
    · next hc =>
      refine List.pairwise_cons.mpr ⟨fun y hy => ?_, h⟩
      rcases List.mem_cons.mp hy with rfl | hy
      · exact hc
      · exact Std.TransCmp.lt_trans hc (hb y hy)
    · next hc =>
      have he := Std.LawfulEqOrd.eq_of_compare hc
      refine List.pairwise_cons.mpr ⟨fun y hy => ?_, hrest⟩
      simpa [he] using hb y hy
    · next hc =>
      refine List.pairwise_cons.mpr ⟨fun y hy => ?_, ih hrest⟩
      rcases key_of_mem_putEntry hy with rfl | hy
      · exact Std.OrientedCmp.lt_of_gt hc
      · exact hb y hy

end

structure SortedSet (α : Type) [Ord α] where
  toList : List α
  ascending : toList.Pairwise fun x y => compare x y = .lt
  deriving DecidableEq

namespace SortedSet

variable {α : Type} [Ord α]

def empty : SortedSet α := ⟨[], .nil⟩

instance : Inhabited (SortedSet α) := ⟨empty⟩

def contains (s : SortedSet α) (a : α) : Bool :=
  s.toList.any fun b => compare a b == .eq

variable [Std.TransOrd α] [Std.LawfulEqOrd α]

def insert (s : SortedSet α) (a : α) : SortedSet α :=
  ⟨insertSorted a s.toList, pairwise_insertSorted s.ascending⟩

def ofList (l : List α) : SortedSet α :=
  l.foldl insert empty

end SortedSet

structure SortedMap (κ α : Type) [Ord κ] where
  entries : List (κ × α)
  ascending : entries.Pairwise fun x y => compare x.1 y.1 = .lt
  deriving DecidableEq

namespace SortedMap

variable {κ α : Type} [Ord κ]

def empty : SortedMap κ α := ⟨[], .nil⟩

instance : Inhabited (SortedMap κ α) := ⟨empty⟩

def keys (m : SortedMap κ α) : List κ :=
  m.entries.map Prod.fst

def values (m : SortedMap κ α) : List α :=
  m.entries.map Prod.snd

def get? (m : SortedMap κ α) (k : κ) : Option α :=
  (m.entries.find? fun e => compare k e.1 == .eq).map Prod.snd

def contains (m : SortedMap κ α) (k : κ) : Bool :=
  m.entries.any fun e => compare k e.1 == .eq

def mapValues (m : SortedMap κ α) (f : α → α) : SortedMap κ α :=
  ⟨m.entries.map fun e => (e.1, f e.2), by
    rw [List.pairwise_map]
    exact m.ascending⟩

variable [Std.TransOrd κ] [Std.LawfulEqOrd κ]

def insert (m : SortedMap κ α) (k : κ) (v : α) : SortedMap κ α :=
  ⟨putEntry k v m.entries, pairwise_putEntry m.ascending⟩

/-- Change the value of `k`, which starts as `fresh`. -/
def alter (m : SortedMap κ α) (k : κ) (fresh : α) (f : α → α) : SortedMap κ α :=
  m.insert k (f ((m.get? k).getD fresh))

/-- The last value of a repeated key stays. -/
def ofList (l : List (κ × α)) : SortedMap κ α :=
  l.foldl (fun m e => m.insert e.1 e.2) empty

end SortedMap

end CaptureAudit
