import CaptureAudit.Proofs.Ascending
import CaptureAudit.Proofs.ExceptSteps
import CaptureAudit.Proofs.WrittenDocument

/-! Lists, dictionaries and records are read back from their written form when their parts are. The
members of a record stand in the order of its fields, and only members that have a default are left
out. -/

namespace CaptureAudit

theorem SortedMap.ofList_entries {κ α : Type} [Ord κ] [Std.TransOrd κ] [Std.LawfulEqOrd κ]
    [DecidableEq κ] (m : SortedMap κ α) : SortedMap.ofList m.entries = m := by
  refine SortedMap.ext fun k => Option.ext fun v => ?_
  have hnone : ¬(k ∉ m.entries.map Prod.fst ∧ (none : Option α) = some v) := by simp
  rw [SortedMap.ofList, SortedMap.get?_foldl_insert m.nodup_keys, SortedMap.get?_empty,
    SortedMap.get?_eq_some_iff, or_iff_left hnone]

namespace Json

namespace Reader

variable {α κ : Type}

theorem list_node {r : Reader α} {f : α → Value} {xs : List α}
    (h : ∀ x ∈ xs, r (f x).node = .ok x) : list r (Value.array (xs.map f)).node = .ok xs := by
  have hm : ((xs.map f).map Value.node).mapM r = .ok xs := by
    rw [List.map_map]
    exact mapM_ok h
  rw [Value.node, itemNodes_eq_map, list, hm]
  rfl

theorem texts_node (xs : List String) : list text (Value.array (xs.map .text)).node = .ok xs :=
  list_node fun _ _ => rfl

theorem map_node [Ord κ] [Std.TransOrd κ] [Std.LawfulEqOrd κ] [DecidableEq κ]
    {key : String → Except Fault κ} {name : κ → String} {r : Reader α} {f : α → Value}
    (hk : ∀ k, key (name k) = .ok k) {m : SortedMap κ α}
    (h : ∀ e ∈ m.entries, r (f e.2).node = .ok e.2) :
    map key r (Value.object (m.entries.map fun e => (name e.1, f e.2))).node = .ok m := by
  have hm : (memberNodes (m.entries.map fun e => (name e.1, f e.2))).mapM (entry key r) =
      .ok m.entries := by
    rw [memberNodes_eq_map, List.map_map]
    refine mapM_ok fun e he => ?_
    simp [entry, hk, h e he, bind, Except.bind]
  rw [Value.node, map, hm]
  simp [bind, Except.bind, SortedMap.ofList_entries]

theorem dictionary_node {r : Reader α} {f : α → Value} {m : SortedMap String α}
    (h : ∀ e ∈ m.entries, r (f e.2).node = .ok e.2) :
    dictionary r (Value.object (m.entries.map fun e => (e.1, f e.2))).node = .ok m :=
  map_node (fun _ => rfl) h

theorem optional_node {r : Reader α} {v : Value} {a : α} (hv : r v.node = .ok a)
    (hn : v.node ≠ .null) : optional r v.node = .ok (some a) := by
  cases hc : v.node with
  | null => exact absurd hc hn
  | _ => simp [optional, ← hc, hv, Except.map]

theorem whole_node {least greatest k : Int} (expected : String) (hl : least ≤ k)
    (hg : k ≤ greatest) (hmin : -0x8000000000000000 ≤ least)
    (hmax : greatest < 0x10000000000000000) :
    whole least greatest expected (Value.number (.whole k)).node = .ok k := by
  have hv : (Number.whole k).numeral.value = some (.whole k) :=
    value_whole (Int.le_trans hmin hl) (Int.lt_of_le_of_lt hg hmax)
  simp [Value.node, Number.node, Number.isFinite, hv, whole, hl, hg]

theorem size_node {n : Nat} (h : n < 0x10000000000000000) : size (Value.ofNat n).node = .ok n := by
  rw [size, Value.ofNat, whole_node "usize" (by omega) (by omega) (by decide) (by decide)]
  rfl

theorem word64_node {n : Nat} (h : n < 0x10000000000000000) :
    word64 (Value.ofNat n).node = .ok (UInt64.ofNat n) := by
  rw [word64, Value.ofNat, whole_node "u64" (by omega) (by omega) (by decide) (by decide)]
  rfl

end Reader

/-- The members tell of the fields in their order, and reading them changes a record `x` to `y`. -/
inductive Spells {σ : Type} : List (Field σ) → List (String × Value) → σ → σ → Prop where
  | nil (x : σ) : Spells [] [] x x
  | member {f : Field σ} {fs : List (Field σ)} {v : Value} {ms : List (String × Value)}
      {change : σ → σ} {x y : σ} (hv : f.read v.node = .ok change)
      (rest : Spells fs ms (change x) y) : Spells (f :: fs) ((f.name, v) :: ms) x y
  | leftOut {f : Field σ} {fs : List (Field σ)} {ms : List (String × Value)} {x y : σ}
      (hf : f.required = false) (rest : Spells fs ms x y) : Spells (f :: fs) ms x y

namespace Spells

variable {σ α : Type} {fs : List (Field σ)} {ms : List (String × Value)} {x y : σ}
  {name : String} {r : Reader α} {set : α → σ → σ} {a : α} {v : Value}

theorem needed (hv : r v.node = .ok a) (rest : Spells fs ms (set a x) y) :
    Spells (.needed name r set :: fs) ((name, v) :: ms) x y :=
  .member (f := .needed name r set) (by simp [Field.needed, hv, Except.map]) rest

theorem defaulted (hv : r v.node = .ok a) (rest : Spells fs ms (set a x) y) :
    Spells (.defaulted name r set :: fs) ((name, v) :: ms) x y :=
  .member (f := .defaulted name r set) (by simp [Field.defaulted, hv, Except.map]) rest

/-- A member that is left out when there is no value. -/
theorem optional {set : Option α → σ → σ} {f : α → Value} {o : Option α}
    (hv : ∀ a ∈ o, r (f a).node = .ok a ∧ (f a).node ≠ .null) (hx : set none x = x)
    (rest : Spells fs ms (set o x) y) :
    Spells (.defaulted name (Reader.optional r) set :: fs)
      (Value.optionalMember name f o ++ ms) x y := by
  cases o with
  | none => exact .leftOut rfl (by rwa [hx] at rest)
  | some a =>
    obtain ⟨hr, hn⟩ := hv a rfl
    exact .defaulted (Reader.optional_node hr hn) rest

theorem optionalLast {set : Option α → σ → σ} {f : α → Value} {o : Option α}
    (hv : ∀ a ∈ o, r (f a).node = .ok a ∧ (f a).node ≠ .null) (hx : set none x = x) :
    Spells [.defaulted name (Reader.optional r) set] (Value.optionalMember name f o) x
      (set o x) := by
  have h : Spells [.defaulted name (Reader.optional r) set]
      (Value.optionalMember name f o ++ []) x (set o x) := optional hv hx (.nil _)
  rwa [List.append_nil] at h

end Spells

namespace Record

variable {σ : Type} {r : Record σ}

theorem field?_name (hnd : (r.fields.map Field.name).Nodup) {f : Field σ} (hf : f ∈ r.fields) :
    r.field? f.name = some f := by
  have hs : (r.fields.find? (·.name == f.name)).isSome = true :=
    List.find?_isSome.mpr ⟨f, hf, by simp⟩
  obtain ⟨g, hg⟩ := Option.isSome_iff_exists.mp hs
  have hname : g.name = f.name := by simpa using List.find?_some hg
  rw [field?, hg, List.inj_on_of_nodup_map hnd (List.mem_of_find?_eq_some hg) hf hname]

/-- The members name the fields, and together they change a record as the function does. -/
inductive Tells (r : Record σ) : List (Key × Node) → List String → (σ → σ) → Prop where
  | nil : Tells r [] [] id
  | other {s : String} {v : Node} {ms : List (Key × Node)} {ns : List String} {c : σ → σ}
      (hs : r.field? s = none) (hv : v.complete = true) (rest : Tells r ms ns c) :
      Tells r ((.name s, v) :: ms) ns c
  | field {s : String} {v : Node} {ms : List (Key × Node)} {ns : List String} {c : σ → σ}
      {f : Field σ} {change : σ → σ} (hs : r.field? s = some f) (hv : f.read v = .ok change)
      (hnew : s ∉ ns) (rest : Tells r ms ns c) : Tells r ((.name s, v) :: ms) (s :: ns) (c ∘ change)

theorem Tells.readMembers {ms : List (Key × Node)} {ns seen : List String} {c : σ → σ}
    (h : r.Tells ms ns c) (hseen : ∀ s ∈ ns, s ∉ seen) (x : σ) :
    r.readMembers seen x ms = .ok (ns.reverse ++ seen, c x) := by
  induction h generalizing seen x with
  | nil => rfl
  | other hs hv rest ih => simp [Record.readMembers, hs, hv, ih hseen]
  | @field s v ms ns c f change hs hv hnew rest ih =>
    have hrest : ∀ s' ∈ ns, s' ∉ s :: seen := by
      intro s' hs'
      have hne : s' ≠ s := fun he => hnew (he ▸ hs')
      simpa [hne] using hseen s' (by simp [hs'])
    simp [Record.readMembers, hs, hv, hseen s (by simp), ih hrest, bind, Except.bind]

/-- A record is read if no field that has to be there is missing. -/
theorem Tells.read {ms : List (Key × Node)} {ns : List String} {c : σ → σ} (h : r.Tells ms ns c)
    (hall : ∀ f ∈ r.fields, f.required = true → f.name ∈ ns) :
    r.read (.object ms true) = .ok (c r.blank) := by
  have hm : r.readMembers [] r.blank ms = .ok (ns.reverse ++ [], c r.blank) :=
    h.readMembers (by simp) r.blank
  have hnone : r.fields.find? (fun f => f.required && !(ns.reverse ++ []).contains f.name) =
      none := by
    refine List.find?_eq_none.mpr fun f hf => ?_
    simpa using hall f hf
  simp only [Record.read, hm, bind, Except.bind, hnone]
  rfl

/-- What spells fields of a record tells of those that were not left out. -/
theorem exists_tells_of_spells (hnd : (r.fields.map Field.name).Nodup) {fs : List (Field σ)}
    {ms : List (String × Value)} {x y : σ} (h : Spells fs ms x y) (hsub : ∀ f ∈ fs, f ∈ r.fields)
    (hfs : (fs.map Field.name).Nodup) :
    ∃ ns c, r.Tells (memberNodes ms) ns c ∧ y = c x ∧ (∀ s ∈ ns, s ∈ fs.map Field.name) ∧
      ∀ f ∈ fs, f.required = true → f.name ∈ ns := by
  induction h with
  | nil x => exact ⟨[], id, .nil, rfl, by simp, by simp⟩
  | @member f fs v ms change x y hv rest ih =>
    obtain ⟨hother, hfs'⟩ := List.nodup_cons.mp hfs
    obtain ⟨ns, c, htells, rfl, hns, hall⟩ := ih (fun g hg => hsub g (by simp [hg])) hfs'
    have hf : r.field? f.name = some f := field?_name hnd (hsub f (by simp))
    refine ⟨f.name :: ns, c ∘ change, .field hf hv (fun hmem => hother (hns _ hmem)) htells, rfl,
      fun s hs => ?_, fun g hg hreq => ?_⟩
    · rcases List.mem_cons.mp hs with rfl | hs
      · simp
      · exact List.mem_cons_of_mem _ (hns s hs)
    · rcases List.mem_cons.mp hg with rfl | hg
      · simp
      · exact List.mem_cons_of_mem _ (hall g hg hreq)
  | @leftOut f fs ms x y hopt rest ih =>
    obtain ⟨ns, c, htells, rfl, hns, hall⟩ :=
      ih (fun g hg => hsub g (by simp [hg])) (List.nodup_cons.mp hfs).2
    refine ⟨ns, c, htells, rfl, fun s hs => List.mem_cons_of_mem _ (hns s hs), fun g hg hreq => ?_⟩
    rcases List.mem_cons.mp hg with rfl | hg
    · exact absurd hreq (by simp [hopt])
    · exact hall g hg hreq

theorem read_object (hnd : (r.fields.map Field.name).Nodup) {ms : List (String × Value)} {y : σ}
    (h : Spells r.fields ms r.blank y) : r.read (Value.object ms).node = .ok y := by
  obtain ⟨ns, c, htells, rfl, -, hall⟩ := exists_tells_of_spells hnd h (fun f hf => hf) hnd
  exact htells.read hall

end Record

end Json

end CaptureAudit
