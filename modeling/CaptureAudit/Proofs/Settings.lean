import CaptureAudit.Proofs.BatchOrder

/-! What a list of settings makes of a catalog. Every setting is accepted, and each tunable has what
the last setting of its item gave it, or the first that is refused ends them. -/

namespace CaptureAudit

namespace SortedMap

variable {κ α : Type} [Ord κ] {m : SortedMap κ α} {f g : α → α}

theorem mapValues_congr (h : ∀ v ∈ m.values, f v = g v) : m.mapValues f = m.mapValues g := by
  have hentries : (m.entries.map fun e => (e.1, f e.2)) = m.entries.map fun e => (e.1, g e.2) :=
    List.map_congr_left fun e he => by rw [h e.2 (List.mem_map_of_mem he)]
  simp only [mapValues, hentries]

theorem mapValues_mapValues : (m.mapValues f).mapValues g = m.mapValues fun v => g (f v) := by
  simp [mapValues]

theorem mapValues_id : (m.mapValues fun v => v) = m := by
  simp [mapValues]

end SortedMap

/-- A text for the item of a name. -/
abbrev TextSetting := String × String

/-- The text of the last setting of an item. -/
def lastText? (settings : List TextSetting) (item : String) : Option String :=
  (settings.reverse.find? fun s => s.1 == item).map Prod.snd

theorem lastText?_append (a b : List TextSetting) (item : String) :
    lastText? (a ++ b) item = (lastText? b item).or (lastText? a item) := by
  simp [lastText?, List.find?_append, Option.map_or]

namespace Tunable

/-- A change of what tunables were set to and of nothing else. -/
def SetsOnly (f : Tunable → Tunable) : Prop := ∀ t, ∃ o, f t = { t with override := o }

/-- The tunable once settings were made. -/
def withSettings (settings : List TextSetting) (t : Tunable) : Tunable :=
  match lastText? settings t.item with
  | none => t
  | some text => { t with override := (accept t.unit t.key text).toOption }

theorem setsOnly_withSettings (settings : List TextSetting) : SetsOnly (withSettings settings) := by
  intro t
  unfold withSettings
  split
  · exact ⟨t.override, rfl⟩
  · exact ⟨_, rfl⟩

theorem withSettings_append (a b : List TextSetting) (t : Tunable) :
    withSettings (a ++ b) t = withSettings b (withSettings a t) := by
  have hitem : (withSettings a t).item = t.item := by
    obtain ⟨o, ho⟩ := setsOnly_withSettings a t
    rw [ho]
    rfl
  rw [withSettings, lastText?_append, withSettings.eq_def b, hitem]
  cases lastText? b t.item with
  | none => rfl
  | some text =>
    obtain ⟨o, ho⟩ := setsOnly_withSettings a t
    simp [ho]

def Accepts (ts : List Tunable) (s : TextSetting) : Prop :=
  ∃ t ∈ ts, t.item = s.1 ∧ ∃ x, accept t.unit t.key s.2 = .ok x

inductive Refuses (ts : List Tunable) (s : TextSetting) : ConfigurationError → Prop where
  | unknown (free : ∀ t ∈ ts, t.item ≠ s.1) : Refuses ts s (.unknownItem s.1)
  | text {t : Tunable} {e : ConfigurationError} (mem : t ∈ ts) (item : t.item = s.1)
      (refused : accept t.unit t.key s.2 = .error e) : Refuses ts s e

variable {ts : List Tunable} {s : TextSetting} {f : Tunable → Tunable}

theorem SetsOnly.accepts_map_iff (h : SetsOnly f) : Accepts (ts.map f) s ↔ Accepts ts s := by
  simp only [Accepts, List.mem_map, exists_exists_and_eq_and]
  refine exists_congr fun t => and_congr_right fun _ => ?_
  obtain ⟨o, ho⟩ := h t
  rw [ho]
  rfl

theorem SetsOnly.refuses_of_map (h : SetsOnly f) {e : ConfigurationError}
    (hr : Refuses (ts.map f) s e) : Refuses ts s e := by
  cases hr with
  | unknown free =>
    refine .unknown fun t ht hitem => ?_
    obtain ⟨o, ho⟩ := h t
    exact free (f t) (List.mem_map_of_mem ht) (by rw [ho]; exact hitem)
  | text mem item refused =>
    obtain ⟨t, ht, rfl⟩ := List.mem_map.mp mem
    obtain ⟨o, ho⟩ := h t
    rw [ho] at item refused
    exact .text ht item refused

/-- The first setting that is refused, and why. -/
def StopAt (ts : List Tunable) (settings : List TextSetting) (s : TextSetting)
    (e : ConfigurationError) : Prop :=
  ∃ before rest, settings = before ++ s :: rest ∧ (∀ b ∈ before, Accepts ts b) ∧ Refuses ts s e

end Tunable

open Tunable

def tunablesOf (checks : List Check) : List Tunable :=
  checks.flatMap fun check => check.descriptor.tunables.values

theorem tunablesOf_map_mapTunables (checks : List Check) (f : Tunable → Tunable) :
    tunablesOf (checks.map (Check.mapTunables f)) = (tunablesOf checks).map f := by
  simp only [tunablesOf, List.flatMap_map, List.map_flatMap]
  exact List.flatMap_congr fun check _ => SortedMap.values_mapValues check.descriptor.tunables f

namespace Catalog

variable {c : Catalog} {f g : Tunable → Tunable}

theorem mem_tunables_iff_tunablesOf {t : Tunable} :
    t ∈ c.tunables ↔ t ∈ tunablesOf c.checkList := by
  simp [tunables, tunablesOf, checkList]

theorem checkList_mapTunables (c : Catalog) (f : Tunable → Tunable) :
    (c.mapTunables f).checkList = c.checkList.map (Check.mapTunables f) := by
  have hmap := List.map_mergeSort (f := Check.mapTunables f) (l := c.checks.values)
    (r := fun a b => compare a.code b.code != .gt) (s := fun a b => compare a.code b.code != .gt)
    fun _ _ _ _ => rfl
  rw [checkList, checkList, mapTunables, SortedMap.values_mapValues]
  exact hmap.symm

theorem tunablesOf_checkList_mapTunables (c : Catalog) (f : Tunable → Tunable) :
    tunablesOf (c.mapTunables f).checkList = (tunablesOf c.checkList).map f := by
  rw [checkList_mapTunables, tunablesOf_map_mapTunables]

theorem mapTunables_congr (h : ∀ t ∈ tunablesOf c.checkList, f t = g t) :
    c.mapTunables f = c.mapTunables g := by
  have hchecks : c.checks.mapValues (Check.mapTunables f) =
      c.checks.mapValues (Check.mapTunables g) := by
    refine SortedMap.mapValues_congr fun check hcheck => ?_
    have hsame : check.descriptor.tunables.mapValues f = check.descriptor.tunables.mapValues g := by
      refine SortedMap.mapValues_congr fun t ht => h t ?_
      exact List.mem_flatMap.mpr ⟨check, List.mem_mergeSort.mpr hcheck, ht⟩
    rw [Check.mapTunables, Check.mapTunables, hsame]
  rw [mapTunables, mapTunables, hchecks]

theorem mapTunables_mapTunables (c : Catalog) (f g : Tunable → Tunable) :
    (c.mapTunables f).mapTunables g = c.mapTunables fun t => g (f t) := by
  have hcheck : ∀ check : Check, (check.mapTunables f).mapTunables g =
      check.mapTunables fun t => g (f t) := fun check => by
    simp only [Check.mapTunables, SortedMap.mapValues_mapValues]
  simp only [mapTunables, SortedMap.mapValues_mapValues, hcheck]

theorem mapTunables_id (c : Catalog) : (c.mapTunables fun t => t) = c := by
  have hcheck : (Check.mapTunables fun t => t) = fun check => check := funext fun check => by
    simp only [Check.mapTunables, SortedMap.mapValues_id]
  rw [mapTunables, hcheck, SortedMap.mapValues_id]

theorem setAll_cons {d : Catalog} {s : TextSetting} (h : c.set s.1 s.2 = .ok d)
    (rest : List TextSetting) : (c.setAll (s :: rest)).catalog = (d.setAll rest).catalog ∧
      (c.setAll (s :: rest)).refused = (d.setAll rest).refused := by
  rw [setAll, h]
  exact ⟨rfl, rfl⟩

theorem setAll_append (h : (c.setAll before).refused = none) (rest : List TextSetting) :
    (c.setAll (before ++ rest)).catalog = ((c.setAll before).catalog.setAll rest).catalog ∧
      (c.setAll (before ++ rest)).refused = ((c.setAll before).catalog.setAll rest).refused := by
  induction before generalizing c with
  | nil => exact ⟨rfl, rfl⟩
  | cons s before ih =>
    cases hset : c.set s.1 s.2 with
    | error e =>
      rw [setAll, hset] at h
      exact absurd h (by simp)
    | ok d =>
      obtain ⟨hcatalog, hrefused⟩ := setAll_cons hset before
      obtain ⟨hcatalog', hrefused'⟩ := setAll_cons hset (before ++ rest)
      have hrest := ih (hrefused.symm.trans h)
      rw [List.cons_append, hcatalog', hrefused', hcatalog]
      exact hrest

namespace WellFormed

theorem setsOnly (h : c.WellFormed) (hf : SetsOnly f) : (c.mapTunables f).WellFormed := by
  refine h.mapTunables ?_ ?_ ?_ <;>
  · intro t
    obtain ⟨o, ho⟩ := hf t
    rw [ho]

theorem eq_of_item (h : c.WellFormed) {t u : Tunable} (ht : t ∈ c.tunables) (hu : u ∈ c.tunables)
    (hitem : t.item = u.item) : t = u :=
  List.inj_on_of_nodup_map h.nodup_item ht hu hitem

theorem not_refuses (h : c.WellFormed) (haccepts : Accepts (tunablesOf c.checkList) s) :
    ¬ Refuses (tunablesOf c.checkList) s e := by
  obtain ⟨t, ht, hitem, x, haccept⟩ := haccepts
  intro hrefuses
  cases hrefuses with
  | unknown free => exact free t ht hitem
  | @text u _ mem item refused =>
    obtain rfl : t = u := h.eq_of_item (mem_tunables_iff_tunablesOf.mpr ht)
      (mem_tunables_iff_tunablesOf.mpr mem) (hitem.trans item.symm)
    rw [haccept] at refused
    exact absurd refused (by simp)

theorem set_accepts_or_refuses (h : c.WellFormed) (s : TextSetting) :
    Accepts (tunablesOf c.checkList) s ∧ c.set s.1 s.2 = .ok (c.mapTunables (withSettings [s])) ∨
      ∃ e, Refuses (tunablesOf c.checkList) s e ∧ c.set s.1 s.2 = .error e := by
  rcases h.set_cases s.1 s.2 with ⟨t, ht, hitem, hset⟩ | ⟨hfree, hset⟩
  · have hmem := mem_tunables_iff_tunablesOf.mp ht
    cases haccept : accept t.unit t.key s.2 with
    | error e => exact .inr ⟨e, .text hmem hitem haccept, by rw [hset, haccept]; rfl⟩
    | ok x =>
      refine .inl ⟨⟨t, hmem, hitem, x, haccept⟩, ?_⟩
      rw [hset, haccept]
      refine congrArg Except.ok (mapTunables_congr fun u hu => ?_)
      by_cases hu' : u.item = s.1
      · obtain rfl : t = u :=
          h.eq_of_item ht (mem_tunables_iff_tunablesOf.mpr hu) (hitem.trans hu'.symm)
        simp [withSettings, lastText?, hitem, haccept, Except.toOption]
      · simp [withSettings, lastText?, hu', Ne.symm hu']
  · exact .inr ⟨_, .unknown fun t ht => hfree t (mem_tunables_iff_tunablesOf.mpr ht), hset⟩

/-- All settings are accepted, or those before the first that is refused take effect. -/
theorem setAll_course (h : c.WellFormed) (settings : List TextSetting) :
    (∀ s ∈ settings, Accepts (tunablesOf c.checkList) s) ∧ (c.setAll settings).refused = none ∧
        (c.setAll settings).catalog = c.mapTunables (withSettings settings) ∨
      ∃ before s rest e, settings = before ++ s :: rest ∧
        (∀ b ∈ before, Accepts (tunablesOf c.checkList) b) ∧
        Refuses (tunablesOf c.checkList) s e ∧ (c.setAll settings).refused = some (s.1, s.2, e) ∧
        (c.setAll settings).catalog = c.mapTunables (withSettings before) := by
  -- Settings change the catalog on the way, but neither items nor which texts they accept.
  induction settings generalizing c with
  | nil => exact .inl ⟨by simp, rfl, c.mapTunables_id.symm⟩
  | cons s rest ih =>
    rcases h.set_accepts_or_refuses s with ⟨haccepts, hset⟩ | ⟨e, hrefuses, hset⟩
    · obtain ⟨hcatalog, hrefused⟩ := setAll_cons hset rest
      have hlist := c.tunablesOf_checkList_mapTunables (withSettings [s])
      have hkeeps := setsOnly_withSettings [s]
      have hcons : ∀ later, (c.mapTunables (withSettings [s])).mapTunables (withSettings later) =
          c.mapTunables (withSettings (s :: later)) := fun later => by
        rw [mapTunables_mapTunables]
        exact mapTunables_congr fun t _ => (withSettings_append [s] later t).symm
      have haccepted : ∀ later : List TextSetting,
          (∀ b ∈ later, Accepts (tunablesOf (c.mapTunables (withSettings [s])).checkList) b) →
            ∀ b ∈ s :: later, Accepts (tunablesOf c.checkList) b := fun later hlater =>
        List.forall_mem_cons.mpr
          ⟨haccepts, fun b hb => hkeeps.accepts_map_iff.mp (hlist ▸ hlater b hb)⟩
      rcases ih (h.setsOnly hkeeps) with ⟨hrest, hnone, hcatalog'⟩ |
        ⟨before, s', after, e, rfl, hbefore, hrefuses, hrefused', hcatalog'⟩
      · exact .inl ⟨haccepted rest hrest, hrefused.trans hnone,
          hcatalog.trans (hcatalog'.trans (hcons rest))⟩
      · exact .inr ⟨s :: before, s', after, e, rfl, haccepted before hbefore,
          hkeeps.refuses_of_map (hlist ▸ hrefuses), hrefused.trans hrefused',
          hcatalog.trans (hcatalog'.trans (hcons before))⟩
    · refine .inr ⟨[], s, rest, e, rfl, by simp, hrefuses, ?_, ?_⟩
      · rw [Catalog.setAll, hset]
      · rw [Catalog.setAll, hset]
        exact c.mapTunables_id.symm

end WellFormed

end Catalog

namespace Configuration

def itemTable (c : Configuration) : List (String × Setting) := (c.table? checksKey).getD []

theorem apply_of_error {c : Configuration} (catalog : Catalog) {e : ConfigurationError}
    (h : itemTexts c.itemTable = .error e) : c.apply catalog = ⟨catalog, [], some e⟩ := by
  rw [apply, applyTable, ← itemTable, h]

theorem apply_of_texts {c : Configuration} (catalog : Catalog) {settings : List TextSetting}
    (h : itemTexts c.itemTable = .ok settings) : c.apply catalog =
      ⟨(catalog.setAll settings).catalog, (catalog.setAll settings).events,
        (catalog.setAll settings).refused.map fun r => r.2.2⟩ := by
  rw [apply, applyTable, ← itemTable, h]

/-- Why a configuration or the overrides after it are refused. -/
inductive Refused (ts : List Tunable) (c : Configuration) (overrides : List TextSetting) :
    List String → Prop where
  | notText {e : ConfigurationError} (texts : itemTexts c.itemTable = .error e) :
      Refused ts c overrides ["invalid check configuration", e.message]
  | setting {settings : List TextSetting} {s : TextSetting} {e : ConfigurationError}
      (texts : itemTexts c.itemTable = .ok settings) (stop : StopAt ts settings s e) :
      Refused ts c overrides ["invalid check configuration", e.message]
  | override {settings : List TextSetting} {s : TextSetting} {e : ConfigurationError}
      (texts : itemTexts c.itemTable = .ok settings) (accepted : ∀ s ∈ settings, Accepts ts s)
      (stop : StopAt ts overrides s e) :
      Refused ts c overrides [s!"invalid override {s.1}={s.2}", e.message]

/-- The settings of the configuration, which are accepted as the overrides are. -/
structure Accepted (ts : List Tunable) (c : Configuration) (overrides settings : List TextSetting) :
    Prop where
  texts : itemTexts c.itemTable = .ok settings
  settings : ∀ s ∈ settings, Accepts ts s
  overrides : ∀ s ∈ overrides, Accepts ts s

variable {catalog : Catalog} {c : Configuration} {settings : List TextSetting}

/-- The texts of an error at a setting, which stands in the table or after it. -/
def refusalTexts (inTable : Bool) (s : TextSetting) (e : ConfigurationError) : List String :=
  [if inTable then "invalid check configuration" else s!"invalid override {s.1}={s.2}", e.message]

theorem configure_course (h : catalog.WellFormed) (htexts : itemTexts c.itemTable = .ok settings)
    (overrides : List TextSetting) :
    (∀ s ∈ settings ++ overrides, Accepts (tunablesOf catalog.checkList) s) ∧
        (c.configure catalog overrides).error = none ∧
        (c.configure catalog overrides).catalog =
          catalog.mapTunables (withSettings (settings ++ overrides)) ∨
      ∃ before s rest e, settings ++ overrides = before ++ s :: rest ∧
        (∀ b ∈ before, Accepts (tunablesOf catalog.checkList) b) ∧
        Refuses (tunablesOf catalog.checkList) s e ∧
        (c.configure catalog overrides).error =
          some (refusalTexts (before.length < settings.length) s e) ∧
        (c.configure catalog overrides).catalog = catalog.mapTunables (withSettings before) := by
  have happly := apply_of_texts catalog htexts
  rcases h.setAll_course settings with ⟨hall, hnone, -⟩ |
    ⟨before, s, rest, e, rfl, hbefore, hrefuses, hrefused, hcatalog⟩
  · obtain ⟨hcatalog, hrefused⟩ := Catalog.setAll_append hnone overrides
    simp only [configure, happly, hnone, Option.map_none, ← hcatalog, ← hrefused]
    rcases h.setAll_course (settings ++ overrides) with ⟨hboth, hnone', hcatalog'⟩ |
      ⟨before, s, rest, e, hsplit, hbefore, hrefuses, hrefused', hcatalog'⟩
    · exact .inl ⟨hboth, by rw [hnone']; rfl, hcatalog'⟩
    · refine .inr ⟨before, s, rest, e, hsplit, hbefore, hrefuses, ?_, hcatalog'⟩
      -- All settings of the table are accepted, so the refused one stands after them.
      have hlength : ¬ before.length < settings.length := by
        intro hlt
        refine h.not_refuses (hall s ?_) hrefuses
        have hget : (settings ++ overrides)[before.length]? = some s := by
          rw [hsplit, List.getElem?_append_right (Nat.le_refl _), Nat.sub_self]
          rfl
        rw [List.getElem?_append_left hlt] at hget
        exact List.mem_of_getElem? hget
      rw [hrefused']
      simp [refusalTexts, hlength]
  · refine .inr ⟨before, s, rest ++ overrides, e, by simp, hbefore, hrefuses, ?_, ?_⟩
    · simp [configure, happly, hrefused, refusalTexts]
    · simp only [configure, happly, hrefused, Option.map_some]
      exact hcatalog

theorem configure_cases (h : catalog.WellFormed) (c : Configuration)
    (overrides : List TextSetting) :
    (∃ settings, c.Accepted (tunablesOf catalog.checkList) overrides settings ∧
        (c.configure catalog overrides).error = none ∧
        (c.configure catalog overrides).catalog =
          catalog.mapTunables (withSettings (settings ++ overrides))) ∨
      ∃ failure, c.Refused (tunablesOf catalog.checkList) overrides failure ∧
        (c.configure catalog overrides).error = some failure := by
  cases htexts : itemTexts c.itemTable with
  | error e =>
    refine .inr ⟨_, .notText htexts, ?_⟩
    simp only [configure, apply_of_error catalog htexts]
  | ok settings =>
    rcases configure_course h htexts overrides with ⟨hall, hnone, hcatalog⟩ |
      ⟨before, s, rest, e, hsplit, hbefore, hrefuses, herror, -⟩
    · exact .inl ⟨settings, ⟨htexts, fun s hs => hall s (List.mem_append_left _ hs),
        fun s hs => hall s (List.mem_append_right _ hs)⟩, hnone, hcatalog⟩
    · have hoverride : ∀ later, before = settings ++ later → overrides = later ++ s :: rest →
          ∃ failure, c.Refused (tunablesOf catalog.checkList) overrides failure ∧
            (c.configure catalog overrides).error = some failure := by
        rintro later rfl hoverrides
        rw [refusalTexts, if_neg (by simp)] at herror
        refine ⟨_, .override htexts (fun b hb => hbefore b (List.mem_append_left _ hb)) ?_, herror⟩
        exact ⟨later, rest, hoverrides, fun b hb => hbefore b (List.mem_append_right _ hb),
          hrefuses⟩
      refine .inr ?_
      rcases List.append_eq_append_iff.mp hsplit with ⟨later, hlater, hrest⟩ | ⟨after, rfl, hrest⟩
      · exact hoverride later hlater hrest
      · cases after with
        | nil => exact hoverride [] (by simp) hrest.symm
        | cons first after =>
          obtain ⟨rfl, -⟩ := List.cons.inj hrest
          rw [refusalTexts, if_pos (by simp)] at herror
          exact ⟨_, .setting htexts ⟨before, after, rfl, hbefore, hrefuses⟩, herror⟩

end Configuration

end CaptureAudit
