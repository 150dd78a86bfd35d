import CaptureAudit.Checks.ResourceUsage
import CaptureAudit.Proofs.Settings

/-! Items set by a table of a configuration and then by overrides. All of them are accepted, or they
take effect up to the first that is refused; the table counts in the order of its keys, so the order
in which it is walked is of no account. -/

namespace CaptureAudit

namespace Tunable

variable {ts us : List Tunable} {settings : List TextSetting} {s : TextSetting} {item text : String}

theorem accepts_congr (h : ∀ t, t ∈ ts ↔ t ∈ us) : Accepts ts s ↔ Accepts us s :=
  exists_congr fun t => and_congr_left fun _ => h t

theorem refuses_congr (h : ∀ t, t ∈ ts ↔ t ∈ us) {e : ConfigurationError}
    (hr : Refuses ts s e) : Refuses us s e := by
  cases hr with
  | unknown free => exact .unknown fun t ht => free t ((h t).mpr ht)
  | text mem item refused => exact .text ((h _).mp mem) item refused

theorem exists_of_accept_isSome {t : Tunable}
    (h : (accept t.unit t.key text).toOption.isSome = true) :
    ∃ x, accept t.unit t.key text = .ok x := by
  cases hx : accept t.unit t.key text with
  | ok x => exact ⟨x, rfl⟩
  | error e => simp [hx, Except.toOption] at h

theorem mem_of_lastText? (h : lastText? settings item = some text) : (item, text) ∈ settings := by
  obtain ⟨s, hfind, rfl⟩ := Option.map_eq_some_iff.mp h
  have hitem : s.1 = item := by simpa using List.find?_some hfind
  have hmem : s ∈ settings := List.mem_reverse.mp (List.mem_of_find?_eq_some hfind)
  rwa [← hitem]

theorem fst_ne_of_lastText? (h : lastText? settings item = none) (hs : s ∈ settings) :
    s.1 ≠ item := by
  have hnone := List.find?_eq_none.mp (Option.map_eq_none_iff.mp h) s (List.mem_reverse.mpr hs)
  simpa using hnone

end Tunable

open Tunable

namespace Configuration

variable {table table' : List (String × Setting)} {settings settings' : List TextSetting}

/-- The entries of a table as texts, by ascending key. -/
structure InOrder (table : List (String × Setting)) (settings : List TextSetting) : Prop where
  texts : (table.map fun e => (e.1, e.2.toText)).Perm (settings.map fun s => (s.1, .ok s.2))
  ascending : settings.Pairwise fun a b => compare a.1 b.1 = .lt

theorem InOrder.unique (h : InOrder table settings) (h' : InOrder table settings') :
    settings = settings' := by
  have hinjective : Function.Injective fun s : TextSetting =>
      (s.1, (Except.ok s.2 : Except String String)) := by
    rintro ⟨item, text⟩ ⟨item', text'⟩ heq
    simpa using heq
  have hsame := (List.map_perm_map_iff hinjective).mp (h.texts.symm.trans h'.texts)
  refine hsame.eq_of_pairwise ?_ h.ascending h'.ascending
  intro a b _ _ hab hba
  exact absurd hab (by rw [Std.OrientedCmp.gt_of_lt hba]; decide)

theorem InOrder.perm (h : InOrder table settings) (hperm : table.Perm table') :
    InOrder table' settings :=
  ⟨(hperm.map _).symm.trans h.texts, h.ascending⟩

theorem InOrder.mem (h : InOrder table settings) {s : TextSetting} (hs : s ∈ settings) :
    ∃ v, (s.1, v) ∈ table ∧ v.toText = .ok s.2 := by
  have hmem := h.texts.mem_iff.mpr (List.mem_map_of_mem hs)
  obtain ⟨entry, hentry, heq⟩ := List.mem_map.mp hmem
  obtain ⟨hkey, htext⟩ := Prod.mk.inj heq
  exact ⟨entry.2, hkey ▸ hentry, htext⟩

theorem InOrder.exists_of_mem (h : InOrder table settings) {entry : String × Setting}
    (hentry : entry ∈ table) : ∃ text, (entry.1, text) ∈ settings ∧ entry.2.toText = .ok text := by
  have hmem := h.texts.mem_iff.mp (List.mem_map_of_mem hentry)
  obtain ⟨s, hs, heq⟩ := List.mem_map.mp hmem
  obtain ⟨hkey, htext⟩ := Prod.mk.inj heq
  exact ⟨s.2, hkey ▸ hs, htext.symm⟩

theorem mapM_itemText_cases (table : List (String × Setting)) :
    (∃ texts, table.mapM itemText = .ok texts ∧
        (table.map fun e => (e.1, e.2.toText)) = texts.map fun s => (s.1, .ok s.2)) ∨
      ∃ entry ∈ table, ∃ reason, entry.2.toText = .error reason ∧
        table.mapM itemText = .error (.parse entry.1 "" reason) := by
  induction table with
  | nil => exact .inl ⟨[], rfl, rfl⟩
  | cons entry rest ih =>
    cases htext : entry.2.toText with
    | error reason =>
      have hitem : itemText entry = .error (.parse entry.1 "" reason) := by rw [itemText, htext]
      refine .inr ⟨entry, List.mem_cons_self, reason, htext, ?_⟩
      rw [List.mapM_cons, hitem]
      rfl
    | ok text =>
      have hitem : itemText entry = .ok (entry.1, text) := by rw [itemText, htext]
      rcases ih with ⟨texts, hrest, hmap⟩ | ⟨entry', hentry', reason, htext', hrest⟩
      · refine .inl ⟨(entry.1, text) :: texts, ?_, ?_⟩
        · rw [List.mapM_cons, hitem, hrest]
          rfl
        · rw [List.map_cons, List.map_cons, hmap, htext]
      · refine .inr ⟨entry', List.mem_cons_of_mem _ hentry', reason, htext', ?_⟩
        rw [List.mapM_cons, hitem, hrest]
        rfl

theorem itemTexts_cases (hkeys : (table.map Prod.fst).Nodup) :
    (∃ settings, itemTexts table = .ok settings ∧ InOrder table settings) ∨
      ∃ entry ∈ table, ∃ reason, entry.2.toText = .error reason ∧
        itemTexts table = .error (.parse entry.1 "" reason) := by
  rcases mapM_itemText_cases table with ⟨texts, htexts, hmap⟩ | ⟨entry, hentry, reason, htext, herr⟩
  · refine .inl ⟨_, by rw [itemTexts, htexts]; rfl, ?_⟩
    have hperm := List.mergeSort_perm texts fun a b =>
      (compare a.1 b.1).then (compare a.2 b.2) != .gt
    have hfst : texts.map Prod.fst = table.map Prod.fst := by
      have h := congrArg (List.map Prod.fst) hmap
      simpa [List.map_map, Function.comp_def] using h.symm
    have hdistinct : texts.Pairwise fun a b => a.1 ≠ b.1 :=
      List.pairwise_map.mp (hfst ▸ hkeys)
    have : Std.TransCmp fun a b : TextSetting => (compare a.1 b.1).then (compare a.2 b.2) :=
      inferInstanceAs (Std.TransCmp (compareLex (compareOn Prod.fst) (compareOn Prod.snd)))
    have hlt := ascending_mergeSort (f := fun a b : TextSetting =>
      (compare a.1 b.1).then (compare a.2 b.2)) (hdistinct.imp fun hne heq =>
        hne (Std.LawfulEqCmp.eq_of_compare (Ordering.then_eq_eq.mp heq).1))
    refine ⟨hmap ▸ (hperm.map _).symm, ?_⟩
    have hne := hdistinct.perm hperm.symm fun hab => Ne.symm hab
    refine (hlt.and hne).imp fun {a b} hab => ?_
    rcases Ordering.then_eq_lt.mp hab.1 with hfirst | ⟨heq, -⟩
    · exact hfirst
    · exact absurd (Std.LawfulEqCmp.eq_of_compare heq) hab.2
  · exact .inr ⟨entry, hentry, reason, htext, by rw [itemTexts, herr]; rfl⟩

theorem InOrder.itemTexts_eq (h : InOrder table settings) (hkeys : (table.map Prod.fst).Nodup) :
    itemTexts table = .ok settings := by
  rcases itemTexts_cases hkeys with ⟨settings', htexts, h'⟩ | ⟨entry, hentry, reason, htext, -⟩
  · rw [htexts, h.unique h']
  · obtain ⟨text, -, hok⟩ := h.exists_of_mem hentry
    rw [htext] at hok
    exact absurd hok (by simp)

/-- What a tunable becomes: its last override counts first, then its entry of the table. -/
inductive FromLayers (table : List (String × Setting)) (overrides : List TextSetting)
    (t : Tunable) : Tunable → Prop where
  | override {text : String} {x : Float} (last : lastText? overrides t.item = some text)
      (accepted : accept t.unit t.key text = .ok x) :
      FromLayers table overrides t { t with override := some x }
  | table {v : Setting} {text : String} {x : Float} (free : ∀ s ∈ overrides, s.1 ≠ t.item)
      (entry : (t.item, v) ∈ table) (isText : v.toText = .ok text)
      (accepted : accept t.unit t.key text = .ok x) :
      FromLayers table overrides t { t with override := some x }
  | kept (free : ∀ s ∈ overrides, s.1 ≠ t.item) (absent : ∀ entry ∈ table, entry.1 ≠ t.item) :
      FromLayers table overrides t t

variable {catalog : Catalog} {overrides : List TextSetting} {c : Configuration}

theorem fromLayers_withSettings (h : catalog.WellFormed) (horder : InOrder table settings)
    (haccepts : ∀ s ∈ settings ++ overrides, Accepts catalog.tunables s) {t : Tunable}
    (ht : t ∈ catalog.tunables) :
    FromLayers table overrides t (withSettings (settings ++ overrides) t) := by
  have haccept : ∀ {text : String}, (t.item, text) ∈ settings ++ overrides →
      ∃ x, accept t.unit t.key text = .ok x := by
    intro text hmem
    obtain ⟨u, hu, hitem, x, hx⟩ := haccepts _ hmem
    obtain rfl : t = u := h.eq_of_item ht hu hitem.symm
    exact ⟨x, hx⟩
  rw [withSettings, lastText?_append]
  cases hlast : lastText? overrides t.item with
  | some text =>
    obtain ⟨x, hx⟩ := haccept (List.mem_append_right _ (mem_of_lastText? hlast))
    simp only [Option.some_or, hx, Except.toOption]
    exact .override hlast hx
  | none =>
    have hfree : ∀ s ∈ overrides, s.1 ≠ t.item := fun s hs => fst_ne_of_lastText? hlast hs
    cases htable : lastText? settings t.item with
    | some text =>
      have hmem := mem_of_lastText? htable
      obtain ⟨x, hx⟩ := haccept (List.mem_append_left _ hmem)
      obtain ⟨v, hentry, htext⟩ := horder.mem hmem
      simp only [Option.none_or, hx, Except.toOption]
      exact .table hfree hentry htext hx
    | none =>
      refine .kept hfree fun entry hentry => ?_
      obtain ⟨text, hmem, -⟩ := horder.exists_of_mem hentry
      exact fst_ne_of_lastText? htable hmem

theorem configure_congr {c' : Configuration} (h : itemTexts c.itemTable = itemTexts c'.itemTable) :
    c.configure catalog overrides = c'.configure catalog overrides := by
  have happly : c.apply catalog = c'.apply catalog := by
    rw [apply, apply, applyTable, applyTable, ← itemTable, ← itemTable, h]
  simp only [configure, happly]

theorem configure_of_perm {c' : Configuration} (hkeys : (c.itemTable.map Prod.fst).Nodup)
    (horder : InOrder c.itemTable settings) (hperm : c.itemTable.Perm c'.itemTable) :
    c'.configure catalog overrides = c.configure catalog overrides := by
  have hkeys' := (hperm.map Prod.fst).nodup_iff.mp hkeys
  exact configure_congr
    ((horder.perm hperm).itemTexts_eq hkeys' |>.trans (horder.itemTexts_eq hkeys).symm)

theorem configure_notText (catalog : Catalog) (overrides : List TextSetting)
    {e : ConfigurationError} (herr : itemTexts c.itemTable = .error e) :
    (c.configure catalog overrides).catalog = catalog ∧
      (c.configure catalog overrides).error = some ["invalid check configuration", e.message] := by
  simp only [configure, apply_of_error catalog herr, and_self]

/-- A table of items, of which no key stands twice, and overrides after it. If a value of the table
is no text, this fails and nothing is set. Otherwise it succeeds exactly when all items are known
and their texts accepted, and then each tunable has what its layers give it. At the first setting
that is refused, in the order of the keys and then of the overrides, what stands before it has taken
effect, whatever the order of the table. -/
theorem configure_in_layers (calls : List Catalog.Call) (c : Configuration)
    (overrides : List TextSetting) (hkeys : (c.itemTable.map Prod.fst).Nodup) :
    let catalog := Catalog.ofCalls calls
    let result := c.configure catalog overrides
    (∃ entry ∈ c.itemTable, ∃ reason, entry.2.toText = .error reason ∧
        result.error = some ["invalid check configuration",
          (ConfigurationError.parse entry.1 "" reason).message] ∧
        result.catalog = catalog ∧
        ∀ c' : Configuration, c.itemTable.Perm c'.itemTable →
          (c'.configure catalog overrides).error.isSome = true ∧
            (c'.configure catalog overrides).catalog = catalog) ∨
      ∃ settings, InOrder c.itemTable settings ∧
        (result.error = none ↔ ∀ s ∈ settings ++ overrides, Accepts catalog.tunables s) ∧
        (result.error = none → ∃ f, result.catalog = catalog.mapTunables f ∧
          ∀ t ∈ catalog.tunables, FromLayers c.itemTable overrides t (f t)) ∧
        (∀ failure, result.error = some failure → ∃ before s rest e,
          settings ++ overrides = before ++ s :: rest ∧
          (∀ b ∈ before, Accepts catalog.tunables b) ∧ Refuses catalog.tunables s e ∧
          failure = refusalTexts (before.length < settings.length) s e ∧
          result.catalog = catalog.mapTunables (withSettings before)) ∧
        ∀ c' : Configuration, c.itemTable.Perm c'.itemTable →
          c'.configure catalog overrides = result := by
  intro catalog result
  have h : catalog.WellFormed := Catalog.wellFormed_ofCalls calls
  have hmem : ∀ t, t ∈ tunablesOf catalog.checkList ↔ t ∈ catalog.tunables :=
    fun t => Catalog.mem_tunables_iff_tunablesOf.symm
  rcases itemTexts_cases hkeys with ⟨settings, htexts, horder⟩ |
    ⟨entry, hentry, reason, htext, herr⟩
  · refine .inr ⟨settings, horder, ?_⟩
    have hperm : ∀ c' : Configuration, c.itemTable.Perm c'.itemTable →
        c'.configure catalog overrides = result :=
      fun c' hperm => configure_of_perm hkeys horder hperm
    rcases configure_course h htexts overrides with ⟨hall, hnone, hcatalog⟩ |
      ⟨before, s, rest, e, hsplit, hbefore, hrefuses, herror, hcatalog⟩
    · have hall' : ∀ s ∈ settings ++ overrides, Accepts catalog.tunables s :=
        fun s hs => (accepts_congr hmem).mp (hall s hs)
      refine ⟨iff_of_true hnone hall', fun _ => ⟨_, hcatalog, fun t ht => ?_⟩, ?_, hperm⟩
      · exact fromLayers_withSettings h horder hall' ht
      · intro failure hfailure
        exact absurd (hnone.symm.trans hfailure) (by simp)
    · have hfails : result.error ≠ none := by
        change (c.configure catalog overrides).error ≠ none
        rw [herror]
        simp
      have hrefused : ¬ ∀ s ∈ settings ++ overrides, Accepts catalog.tunables s := fun hall => by
        have hs : s ∈ settings ++ overrides := by simp [hsplit]
        exact h.not_refuses ((accepts_congr hmem).mpr (hall s hs)) hrefuses
      refine ⟨iff_of_false hfails hrefused, fun hnone => absurd hnone hfails, ?_, hperm⟩
      intro failure hfailure
      exact ⟨before, s, rest, e, hsplit, fun b hb => (accepts_congr hmem).mp (hbefore b hb),
        refuses_congr hmem hrefuses, Option.some.inj (hfailure.symm.trans herror), hcatalog⟩
  · obtain ⟨hcatalog, herror⟩ := configure_notText catalog overrides herr
    refine .inl ⟨entry, hentry, reason, htext, herror, hcatalog, fun c' hperm => ?_⟩
    rcases itemTexts_cases ((hperm.map Prod.fst).nodup_iff.mp hkeys) with ⟨_, _, horder⟩ |
      ⟨_, _, _, _, herr'⟩
    · obtain ⟨text, -, hok⟩ := horder.exists_of_mem (hperm.mem_iff.mp hentry)
      rw [htext] at hok
      exact absurd hok (by simp)
    · obtain ⟨hcatalog', herror'⟩ := configure_notText catalog overrides herr'
      exact ⟨by rw [herror']; rfl, hcatalog'⟩

/-- A threshold of the table and an override that comes over it. -/
theorem configure_in_layers_over_table :
    let catalog := Catalog.ofCalls [.register ResourceUsage.checks]
    let c : Configuration :=
      ⟨.table [(checksKey, .table [("server_001_memory", .text "80%")])]⟩
    let overrides := [("server_001_memory", "90%")]
    (c.configure catalog overrides).error = none ∧
      ∃ f, (c.configure catalog overrides).catalog = catalog.mapTunables f ∧
        ∀ t ∈ catalog.tunables, FromLayers c.itemTable overrides t (f t) := by
  intro catalog c overrides
  have htable : c.itemTable = [("server_001_memory", .text "80%")] := rfl
  have haccepts : ∀ text ∈ ["80%", "90%"],
      Accepts catalog.tunables ("server_001_memory", text) := by
    have hfound : ∃ t ∈ catalog.checks.values.flatMap fun check => check.descriptor.tunables.values,
        t.item = "server_001_memory" ∧ ∀ text ∈ ["80%", "90%"],
          (accept t.unit t.key text).toOption.isSome = true := by
      decide +kernel
    obtain ⟨t, ht, hitem, hsome⟩ := hfound
    intro text htext
    exact ⟨t, List.mem_mergeSort.mpr ht, hitem, exists_of_accept_isSome (hsome text htext)⟩
  rcases configure_in_layers _ c overrides (by rw [htable]; decide) with
    ⟨entry, hentry, reason, herror, -⟩ | ⟨settings, horder, hiff, hsets, -⟩
  · obtain rfl : entry = _ := List.mem_singleton.mp (htable ▸ hentry)
    exact absurd herror (by simp [Setting.toText])
  · have hnone : (c.configure catalog overrides).error = none := by
      refine hiff.mpr fun s hs => ?_
      rcases List.mem_append.mp hs with hs | hs
      · obtain ⟨v, hv, htext⟩ := horder.mem hs
        obtain ⟨hkey, rfl⟩ := Prod.mk.inj (List.mem_singleton.mp (htable ▸ hv))
        obtain rfl : s = ("server_001_memory", "80%") :=
          Prod.ext hkey (Except.ok.inj htext).symm
        exact haccepts _ (by simp)
      · obtain rfl : s = _ := List.mem_singleton.mp hs
        exact haccepts _ (by simp)
    exact ⟨hnone, hsets hnone⟩

end Configuration

end CaptureAudit
