import CaptureAudit.Proofs.RecordReading

/-! What the members of an object tell of a record: the fields they name, each once, and how they
change it. Members of other names tell nothing. So a record is read alike with and without them,
and without one of its own members it keeps all fields but that one. Whatever is read of a node,
nothing is missing in it. -/

namespace CaptureAudit.Json

variable {σ α : Type}

theorem modify_length_append (as bs : List α) (a : α) (f : α → α) :
    (as ++ a :: bs).modify as.length f = as ++ f a :: bs := by
  induction as with
  | nil => rfl
  | cons a' as ih => simpa using ih

theorem Field.exists_of_read_defaulted {name : String} {r : Reader α} {set : α → σ → σ} {v : Node}
    {change : σ → σ} (h : (Field.defaulted name r set).read v = .ok change) :
    ∃ a, r v = .ok a ∧ change = set a := by
  simp only [Field.defaulted] at h
  cases hv : r v with
  | error e => rw [hv] at h; contradiction
  | ok a => rw [hv] at h; exact ⟨a, rfl, (Except.ok.inj h).symm⟩

/-- The change commutes with whatever the field may hold. -/
def Field.Spares (f : Field σ) (u : σ → σ) : Prop :=
  ∀ v change, f.read v = .ok change → ∀ x, u (change x) = change (u x)

/-- After the change it does not matter what the field held. -/
def Field.Forgets (f : Field σ) (u : σ → σ) : Prop :=
  ∀ v change, f.read v = .ok change → ∀ x, u (change x) = u x

section

variable {name : String} {r : Reader α} {set : α → σ → σ} {u : σ → σ}

@[simp] theorem Field.name_defaulted : (Field.defaulted name r set).name = name := rfl

@[simp] theorem Field.spares_defaulted (h : ∀ a x, u (set a x) = set a (u x)) :
    (Field.defaulted name r set).Spares u := by
  intro v change hv x
  obtain ⟨a, -, rfl⟩ := exists_of_read_defaulted hv
  exact h a x

@[simp] theorem Field.forgets_defaulted (h : ∀ a x, u (set a x) = u x) :
    (Field.defaulted name r set).Forgets u := by
  intro v change hv x
  obtain ⟨a, -, rfl⟩ := exists_of_read_defaulted hv
  exact h a x

end

namespace Record

variable {r : Record σ} {ms ms' : List (Key × Node)} {ns : List String} {c : σ → σ}

theorem exists_tells {seen seen' : List String} {x y : σ}
    (h : r.readMembers seen x ms = .ok (seen', y)) :
    ∃ ns c, r.Tells ms ns c ∧ (∀ s ∈ ns, s ∉ seen) ∧ y = c x := by
  induction ms generalizing seen x with
  | nil =>
    obtain ⟨-, rfl⟩ := Prod.mk.inj (Except.ok.inj h)
    exact ⟨[], id, .nil, by simp, rfl⟩
  | cons m ms ih =>
    match m, h with
    | (.name s, v), h =>
      rw [Record.readMembers] at h
      split at h
      · next f hs =>
        split at h
        · contradiction
        · next hnew =>
          cases hv : f.read v with
          | error e => rw [hv] at h; contradiction
          | ok change =>
            rw [hv] at h
            obtain ⟨ns, c, htells, hns, rfl⟩ := ih h
            have hs' : s ∉ ns := fun hmem => hns s hmem (by simp)
            refine ⟨s :: ns, c ∘ change, .field hs hv hs' htells, ?_, rfl⟩
            intro s' hs'
            rcases List.mem_cons.mp hs' with rfl | hs'
            · simpa using hnew
            · exact fun hmem => hns s' hs' (by simp [hmem])
      · next hs =>
        split at h
        · next hv =>
          obtain ⟨ns, c, htells, hns, rfl⟩ := ih h
          exact ⟨ns, c, .other hs hv htells, hns, rfl⟩
        · contradiction

theorem Tells.append (h : r.Tells ms ns c) {ns' : List String} {c' : σ → σ}
    (h' : r.Tells ms' ns' c') (hd : ns.Disjoint ns') :
    r.Tells (ms ++ ms') (ns ++ ns') (c' ∘ c) := by
  induction h with
  | nil => exact h'
  | other hs hv rest ih => exact .other hs hv (ih hd)
  | @field s v ms ns c f change hs hv hnew rest ih =>
    obtain ⟨hns', hd⟩ := List.disjoint_cons_left.mp hd
    exact Tells.field (c := c' ∘ c) hs hv (by simp [hnew, hns']) (ih hd)

theorem Tells.exists_split (h : r.Tells (ms ++ ms') ns c) :
    ∃ ns₁ c₁ ns₂ c₂, r.Tells ms ns₁ c₁ ∧ r.Tells ms' ns₂ c₂ ∧ ns₁.Disjoint ns₂ ∧
      ns = ns₁ ++ ns₂ ∧ c = c₂ ∘ c₁ := by
  induction ms generalizing ns c with
  | nil => exact ⟨[], id, ns, c, .nil, h, by simp, rfl, rfl⟩
  | cons m ms ih =>
    cases h with
    | other hs hv rest =>
      obtain ⟨ns₁, c₁, ns₂, c₂, h₁, h₂, hd, hns, hc⟩ := ih rest
      exact ⟨ns₁, c₁, ns₂, c₂, .other hs hv h₁, h₂, hd, hns, hc⟩
    | @field s v _ ns c f change hs hv hnew rest =>
      obtain ⟨ns₁, c₁, ns₂, c₂, h₁, h₂, hd, rfl, rfl⟩ := ih rest
      obtain ⟨hnew₁, hnew₂⟩ : s ∉ ns₁ ∧ s ∉ ns₂ := by simpa using hnew
      exact ⟨s :: ns₁, c₁ ∘ change, ns₂, c₂, .field hs hv hnew₁ h₁, h₂,
        List.disjoint_cons_left.mpr ⟨hnew₂, hd⟩, rfl, rfl⟩

/-- None of the members is named like a field, and none is broken. -/
def Others (r : Record σ) (ms : List (Key × Node)) : Prop :=
  ∀ m ∈ ms, ∃ s, m.1 = .name s ∧ s ∉ r.fields.map Field.name ∧ m.2.complete = true

theorem Others.tells (h : r.Others ms) : r.Tells ms [] id := by
  induction ms with
  | nil => exact .nil
  | cons m ms ih =>
    obtain ⟨s, hname, hs, hv⟩ := h m (by simp)
    have hnone : r.field? s = none := by
      refine List.find?_eq_none.mpr fun f hf he => hs ?_
      exact List.mem_map.mpr ⟨f, hf, by simpa using he⟩
    obtain ⟨k, v⟩ := m
    obtain rfl : k = .name s := hname
    exact .other hnone hv (ih fun m' hm' => h m' (by simp [hm']))

/-- All members of the record may be left out. -/
def Lenient (r : Record σ) : Prop := ∀ f ∈ r.fields, f.required = false

theorem read_object_iff (hr : r.Lenient) {x : σ} :
    r.read (.object ms true) = .ok x ↔ ∃ ns c, r.Tells ms ns c ∧ x = c r.blank := by
  have hread : ∀ {ns c}, r.Tells ms ns c → r.read (.object ms true) = .ok (c r.blank) :=
    fun h => h.read fun f hf hreq => absurd hreq (by simp [hr f hf])
  constructor
  · intro h
    cases hm : r.readMembers [] r.blank ms with
    | error e =>
      rw [read, hm] at h
      contradiction
    | ok p =>
      obtain ⟨seen, y⟩ := p
      obtain ⟨ns, c, htells, -, rfl⟩ := exists_tells hm
      rw [hread htells] at h
      exact ⟨ns, c, htells, (Except.ok.inj h).symm⟩
  · rintro ⟨ns, c, htells, rfl⟩
    exact hread htells

/-- Wherever they are put in, members of other names change nothing. -/
theorem read_insert_others (hr : r.Lenient) {before others after : List (Key × Node)} {x : σ}
    (ho : r.Others others) (h : r.read (.object (before ++ after) true) = .ok x) :
    r.read (.object (before ++ (others ++ after)) true) = .ok x := by
  obtain ⟨ns, c, htells, rfl⟩ := (read_object_iff hr).mp h
  obtain ⟨ns₁, c₁, ns₂, c₂, h₁, h₂, hd, rfl, rfl⟩ := htells.exists_split
  have hafter : r.Tells (others ++ after) ns₂ c₂ := ho.tells.append h₂ (by simp)
  exact (read_object_iff hr).mpr ⟨_, _, h₁.append hafter hd, rfl⟩

/-- The change does not touch what the fields of other names hold. -/
def Apart (r : Record σ) (name : String) (u : σ → σ) : Prop :=
  ∀ f ∈ r.fields, f.name ≠ name → f.Spares u

theorem Tells.apart (h : r.Tells ms ns c) {name : String} {u : σ → σ} (hu : r.Apart name u)
    (hname : name ∉ ns) (x : σ) : u (c x) = c (u x) := by
  induction h generalizing x with
  | nil => rfl
  | other hs hv rest ih => exact ih hname x
  | @field s v ms ns c f change hs hv hnew rest ih =>
    obtain ⟨hne, hname⟩ : name ≠ s ∧ name ∉ ns := by simpa using hname
    have hs' : f.name = s := by simpa using List.find?_some hs
    have hchange := hu f (List.mem_of_find?_eq_some hs) (by simpa [hs'] using hne.symm) v change hv
    exact (ih hname (change x)).trans (congrArg c (hchange x))

theorem exists_of_read_member (hr : r.Lenient) {before after : List (Key × Node)} {name : String}
    {v : Node} {f : Field σ} (hf : r.field? name = some f) {x : σ}
    (h : r.read (.object (before ++ (.name name, v) :: after) true) = .ok x) :
    ∃ ns₁ c₁ ns₂ c₂ change, r.Tells before ns₁ c₁ ∧ r.Tells after ns₂ c₂ ∧
      ns₁.Disjoint (name :: ns₂) ∧ name ∉ ns₂ ∧ f.read v = .ok change ∧
      x = c₂ (change (c₁ r.blank)) := by
  obtain ⟨ns, c, htells, rfl⟩ := (read_object_iff hr).mp h
  obtain ⟨ns₁, c₁, ns₂, c₂, h₁, h₂, hd, rfl, rfl⟩ := htells.exists_split
  cases h₂ with
  | other hs => exact absurd (hs.symm.trans hf) (by simp)
  | @field _ _ _ ns₂ c₂ f' change hs hv hnew rest =>
    obtain rfl : f' = f := Option.some.inj (hs.symm.trans hf)
    exact ⟨ns₁, c₁, ns₂, c₂, change, h₁, rest, hd, hnew, hv, rfl⟩

/-- The record is modified in the field that is read as a value, and nowhere else. -/
structure Modifies (r : Record σ) (name : String) (rd : Reader α) (set : α → σ → σ)
    (modify : (α → α) → σ → σ) : Prop where
  field : r.field? name = some (.defaulted name rd set)
  apart (g : α → α) : r.Apart name (modify g)
  set (g : α → α) (a : α) (x : σ) : modify g (set a x) = set (g a) x

/-- Another value for a field, and the record is modified as the value is. -/
theorem Modifies.read {name : String} {rd : Reader α} {set : α → σ → σ}
    {modify : (α → α) → σ → σ} (hm : r.Modifies name rd set modify) (hr : r.Lenient)
    {before after : List (Key × Node)} {v : Node} {x : σ}
    (h : r.read (.object (before ++ (.name name, v) :: after) true) = .ok x) :
    ∃ a, rd v = .ok a ∧ ∀ v' g, rd v' = .ok (g a) →
      r.read (.object (before ++ (.name name, v') :: after) true) = .ok (modify g x) := by
  obtain ⟨ns₁, c₁, ns₂, c₂, change, h₁, h₂, hd, hnew, hv, rfl⟩ :=
    exists_of_read_member hr hm.field h
  obtain ⟨a, ha, rfl⟩ := Field.exists_of_read_defaulted hv
  refine ⟨a, ha, fun v' g hg => ?_⟩
  have hv' : (Field.defaulted name rd set).read v' = .ok (set (g a)) := by
    simp [Field.defaulted, hg, Except.map]
  refine (read_object_iff hr).mpr ⟨_, _, h₁.append (.field hm.field hv' hnew h₂) hd, ?_⟩
  rw [h₂.apart (hm.apart g) hnew, hm.set]
  rfl

theorem Modifies.read_optional {τ : Type} {name : String} {rd : Reader τ}
    {set : Option τ → σ → σ} {modify : (Option τ → Option τ) → σ → σ}
    (hm : r.Modifies name (Reader.optional rd) set modify) (hr : r.Lenient)
    {before after ms : List (Key × Node)} {x : σ}
    (h : r.read (.object (before ++ (.name name, .object ms true) :: after) true) = .ok x) :
    ∃ y, rd (.object ms true) = .ok y ∧ ∀ ms' f, rd (.object ms' true) = .ok (f y) →
      r.read (.object (before ++ (.name name, .object ms' true) :: after) true) =
        .ok (modify (Option.map f) x) := by
  obtain ⟨o, ho, hread⟩ := hm.read hr h
  rw [Reader.optional] at ho
  · cases hy : rd (.object ms true) with
    | error e => rw [hy] at ho; contradiction
    | ok y =>
      rw [hy] at ho
      obtain rfl : some y = o := Except.ok.inj ho
      refine ⟨y, rfl, fun ms' f hf => hread _ _ ?_⟩
      simp [Reader.optional, hf, Except.map]
  · simp

theorem Modifies.read_list {τ : Type} {name : String} {rd : Reader τ} {set : List τ → σ → σ}
    {modify : (List τ → List τ) → σ → σ} (hm : r.Modifies name (Reader.list rd) set modify)
    (hr : r.Lenient) {before after : List (Key × Node)} {earlier later : List Node} {v : Node}
    {x : σ} (h : r.read (.object
      (before ++ (.name name, .array (earlier ++ v :: later) true) :: after) true) = .ok x) :
    ∃ y, rd v = .ok y ∧ ∀ v' f, rd v' = .ok (f y) →
      r.read
        (.object (before ++ (.name name, .array (earlier ++ v' :: later) true) :: after) true) =
        .ok (modify (·.modify earlier.length f) x) := by
  obtain ⟨ys, hys, hread⟩ := hm.read hr h
  rw [Reader.list] at hys
  cases hxs : (earlier ++ v :: later).mapM rd with
  | error e => rw [hxs] at hys; contradiction
  | ok xs =>
    rw [hxs] at hys
    obtain rfl : xs = ys := Except.ok.inj hys
    rw [mapM_eq_ok_iff, List.map_append, List.map_cons] at hxs
    obtain ⟨as, bs, rfl, has, hbs⟩ := List.map_eq_append_iff.mp hxs.symm
    obtain ⟨y, cs, rfl, hy, hcs⟩ := List.map_eq_cons_iff.mp hbs
    refine ⟨y, hy.symm, fun v' f hf => hread _ _ ?_⟩
    have hlength : as.length = earlier.length := by simpa using congrArg List.length has
    have hmodify : (as ++ y :: cs).modify earlier.length f = as ++ f y :: cs :=
      hlength ▸ modify_length_append as cs y f
    have hmap : (earlier ++ v' :: later).mapM rd = .ok (as ++ f y :: cs) := by
      rw [mapM_eq_ok_iff]
      simp [has, hcs, hf]
    rw [Reader.list, hmap, hmodify]
    rfl

/-- The change puts back what the field of the name holds when there is no member for it, and
touches no other field. -/
def Resets (r : Record σ) (name : String) (u : σ → σ) : Prop :=
  name ∈ r.fields.map Field.name ∧
    (∀ f ∈ r.fields, if f.name = name then f.Forgets u else f.Spares u) ∧ u r.blank = r.blank

/-- Without the member of a field the record is the same but for that field. -/
theorem read_erase_member (hr : r.Lenient) {before after : List (Key × Node)} {name : String}
    {v : Node} {u : σ → σ} (hu : r.Resets name u) {x : σ}
    (h : r.read (.object (before ++ (.name name, v) :: after) true) = .ok x) :
    r.read (.object (before ++ after) true) = .ok (u x) := by
  obtain ⟨hmem, hfields, hblank⟩ := hu
  obtain ⟨f, hf⟩ : ∃ f, r.field? name = some f := by
    obtain ⟨f, hf, hname⟩ := List.mem_map.mp hmem
    exact Option.isSome_iff_exists.mp (List.find?_isSome.mpr ⟨f, hf, by simpa using hname⟩)
  have hapart : r.Apart name u := fun g hg hne => by simpa [hne] using hfields g hg
  have hforgets : f.Forgets u := by
    have hname : f.name = name := by simpa using List.find?_some hf
    simpa [hname] using hfields f (List.mem_of_find?_eq_some hf)
  obtain ⟨ns₁, c₁, ns₂, c₂, change, h₁, h₂, hd, hnew, hv, rfl⟩ := exists_of_read_member hr hf h
  obtain ⟨hnew', hd⟩ := List.disjoint_cons_right.mp hd
  refine (read_object_iff hr).mpr ⟨_, _, h₁.append h₂ hd, ?_⟩
  calc u (c₂ (change (c₁ r.blank)))
      = c₂ (u (change (c₁ r.blank))) := h₂.apart hapart hnew _
    _ = c₂ (u (c₁ r.blank)) := congrArg c₂ (hforgets v change hv _)
    _ = c₂ (c₁ (u r.blank)) := congrArg c₂ (h₁.apart hapart hnew' _)
    _ = c₂ (c₁ r.blank) := by rw [hblank]

end Record

/-- What is read is complete, also in the parts that are passed over. -/
def Reader.Thorough (r : Reader α) : Prop :=
  ∀ v x, r v = .ok x → v.complete = true

namespace Reader

variable {r : Reader α}

theorem Thorough.map {β : Type} (h : r.Thorough) (f : α → β) :
    Thorough fun v => (r v).map f := by
  intro v x hx
  dsimp only at hx
  cases hv : r v with
  | error e => rw [hv] at hx; contradiction
  | ok a => exact h v a hv

@[simp] theorem thorough_text : text.Thorough := by
  intro v x h
  cases v <;> first | rfl | exact absurd h (by simp [text])

@[simp] theorem thorough_bool : bool.Thorough := by
  intro v x h
  cases v <;> first | rfl | exact absurd h (by simp [bool])

theorem thorough_whole (least greatest : Int) (expected : String) :
    (whole least greatest expected).Thorough := by
  intro v x h
  cases v <;> first | rfl | exact absurd h (by simp [whole])

@[simp] theorem thorough_word64 : word64.Thorough := (thorough_whole _ _ _).map _

@[simp] theorem thorough_word32 : word32.Thorough := (thorough_whole _ _ _).map _

@[simp] theorem thorough_word16 : word16.Thorough := (thorough_whole _ _ _).map _

@[simp] theorem thorough_signed64 : signed64.Thorough := (thorough_whole _ _ _).map _

@[simp] theorem Thorough.optional (h : r.Thorough) : (optional r).Thorough := by
  intro v x hx
  cases hv : v with
  | null => rfl
  | _ =>
    rw [hv, Reader.optional] at hx
    · exact h.map some _ x hx
    · simp

theorem completeItems_of_mapM (h : r.Thorough) {items : List Node} {xs : List α}
    (hx : items.mapM r = .ok xs) : Node.completeItems items = true := by
  rw [mapM_eq_ok_iff] at hx
  induction items generalizing xs with
  | nil => rfl
  | cons v vs ih =>
    cases xs with
    | nil => contradiction
    | cons x xs =>
      obtain ⟨hv, hvs⟩ := List.cons.inj hx
      rw [Node.completeItems, h v x hv, ih hvs]
      rfl

@[simp] theorem Thorough.list (h : r.Thorough) : (list r).Thorough := by
  intro v x hx
  match v, hx with
  | .array items closed, hx =>
    rw [Reader.list] at hx
    cases hm : items.mapM r with
    | error e => rw [hm] at hx; contradiction
    | ok xs =>
      rw [hm] at hx
      cases closed with
      | false => contradiction
      | true => rw [Node.complete, completeItems_of_mapM h hm]; rfl

end Reader

namespace Record

variable {r : Record σ}

@[simp] theorem thorough_defaulted {name : String} {rd : Reader α} {set : α → σ → σ}
    (h : rd.Thorough) : (Field.defaulted name rd set).read.Thorough :=
  h.map set

/-- The record reads its fields from complete nodes only. -/
def Thorough (r : Record σ) : Prop :=
  ∀ f ∈ r.fields, f.read.Thorough

theorem Tells.completeMembers {ms : List (Key × Node)} {ns : List String} {c : σ → σ}
    (hr : r.Thorough) (h : r.Tells ms ns c) : Node.completeMembers ms = true := by
  induction h with
  | nil => rfl
  | other hs hv rest ih => simp [Node.completeMembers, hv, ih]
  | field hs hv hnew rest ih =>
    have hcomplete := hr _ (List.mem_of_find?_eq_some hs) _ _ hv
    simp [Node.completeMembers, hcomplete, ih]

theorem complete_of_readItems {closed : Bool} {fs : List (Field σ)} {position : Nat} {x y : σ}
    {items : List Node} (hfs : ∀ f ∈ fs, f.read.Thorough)
    (h : r.readItems closed fs position x items = .ok y) :
    Node.completeItems items = true ∧ closed = true := by
  fun_induction readItems r closed fs position x items with
  | case1 position x hclosed => exact ⟨rfl, hclosed⟩
  | case4 f fs position x v rest ih =>
    cases hv : f.read v with
    | error e => rw [hv] at h; contradiction
    | ok change =>
      rw [hv] at h
      obtain ⟨hrest, hclosed⟩ := ih change (fun g hg => hfs g (by simp [hg])) h
      have hcomplete := hfs f (by simp) v change hv
      exact ⟨by rw [Node.completeItems, hcomplete, hrest]; rfl, hclosed⟩
  | case7 f fs position x hclosed => exact ⟨rfl, by simpa using hclosed⟩
  | case2 | case3 | case5 | case6 => contradiction

theorem Thorough.read (hr : r.Thorough) : r.read.Thorough := by
  intro v x h
  match v, h with
  | .object ms closed, h =>
    rw [Record.read] at h
    cases hm : r.readMembers [] r.blank ms with
    | error e => rw [hm] at h; contradiction
    | ok p =>
      rw [hm] at h
      obtain ⟨ns, c, htells, -, -⟩ := exists_tells hm
      cases closed with
      | false => contradiction
      | true => rw [Node.complete, htells.completeMembers hr]; rfl
  | .array items closed, h =>
    obtain ⟨hitems, hclosed⟩ := complete_of_readItems hr h
    rw [Node.complete, hitems, hclosed]
    rfl

end Record

end CaptureAudit.Json
