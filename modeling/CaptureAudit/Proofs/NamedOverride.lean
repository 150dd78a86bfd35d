import CaptureAudit.CommandLine.Basic
import CaptureAudit.Proofs.BuiltInChecks
import CaptureAudit.Proofs.ConfigurationLayers

/-! Overrides on the command line, by the names under which items are listed. A name is cut at its
first equals sign, trimmed and lower-cased as a whole; of an item's name only the code is in lower
case, so a key with capitals, an equals sign or blanks at its end is listed but cannot be set. -/

namespace CaptureAudit

namespace Text

theorem lowerChar_ne_equals {c : Char} (hc : c ≠ '=') : lowerChar c ≠ '=' := by
  -- No row leads down to the code of an equals sign.
  have hrows : ∀ row ∈ caseRows, 61 < (row.first : Int) + row.shift := by decide +kernel
  unfold lowerChar
  cases hfind : caseRows.find? (·.covers c.toNat) with
  | none => exact hc
  | some row =>
    have habove := hrows row (List.mem_of_find?_eq_some hfind)
    have hcovers : row.covers c.toNat = true :=
      List.find?_some (p := fun row : CaseRow => row.covers c.toNat) hfind
    have hfirst : row.first ≤ c.toNat := by
      simp only [CaseRow.covers, Bool.and_eq_true, decide_eq_true_eq] at hcovers
      exact hcovers.1.1
    intro heq
    have hnat := (Char.toNat_ofNat _).symm.trans (congrArg Char.toNat heq)
    have hequals : '='.toNat = 61 := rfl
    split at hnat <;> omega

theorem equals_not_mem_lowerFrom {cs : List Char} (h : '=' ∉ cs) (before : List Char) :
    '=' ∉ lowerFrom before cs := by
  induction cs generalizing before with
  | nil => exact h
  | cons c rest ih =>
    have hc : c ≠ '=' := fun heq => h (heq ▸ List.mem_cons_self)
    have hrest : '=' ∉ rest := fun hmem => h (List.mem_cons_of_mem c hmem)
    rw [lowerFrom, List.mem_append]
    rintro (hlower | hlater)
    · split at hlower
      · split at hlower <;> exact absurd hlower (by decide)
      · split at hlower
        · exact absurd hlower (by decide)
        · exact lowerChar_ne_equals hc (List.mem_singleton.mp hlower).symm
    · exact ih hrest _ hlater

theorem mem_of_mem_trim {c : Char} {s : String} (h : c ∈ (trim s).toList) : c ∈ s.toList := by
  have hright : c ∈ trimRight (trimLeft s.toList) := by simpa [trim] using h
  have hleft : c ∈ (trimLeft s.toList).reverse :=
    (List.dropWhile_sublist _).mem (List.mem_reverse.mp hright)
  exact (List.dropWhile_sublist _).mem (List.mem_reverse.mp hleft)

theorem equals_not_mem_lowercase_trim {s : String} (h : '=' ∉ s.toList) :
    '=' ∉ (lowercase (trim s)).toList := by
  have htrim : '=' ∉ (trim s).toList := fun hmem => h (mem_of_mem_trim hmem)
  simpa [lowercase] using equals_not_mem_lowerFrom htrim []

variable {separator : Char} {s t u v : String}

theorem splitFirst?_append (h : separator ∉ s.toList) :
    splitFirst? separator (s ++ String.singleton separator ++ t) = some (s, t) := by
  have htake : ∀ c ∈ s.toList, decide (c ≠ separator) = true := by
    intro c hc
    exact decide_eq_true fun heq => h (heq ▸ hc)
  have hchars : (s ++ String.singleton separator ++ t).toList =
      s.toList ++ separator :: t.toList := by
    simp
  rw [splitFirst?, hchars, List.takeWhile_append_of_pos htake, List.dropWhile_append_of_pos htake]
  simp

theorem separator_not_mem_splitFirst? (h : splitFirst? separator s = some (u, v)) :
    separator ∉ u.toList := by
  have hu : String.ofList (s.toList.takeWhile (· ≠ separator)) = u := by
    unfold splitFirst? at h
    split at h
    · exact (Prod.mk.inj (Option.some.inj h)).1
    · exact absurd h (by simp)
  rw [← hu, String.toList_ofList]
  intro hmem
  have hne := List.mem_takeWhile_imp hmem
  simp at hne

end Text

namespace Tunable

/-- The name is what is read of it on the command line. -/
def ReadsAsListed (t : Tunable) : Prop :=
  '=' ∉ t.item.toList ∧ Text.lowercase (Text.trim t.item) = t.item

instance (t : Tunable) : Decidable t.ReadsAsListed :=
  inferInstanceAs (Decidable (_ ∧ _))

theorem underscore_mem_item (t : Tunable) : '_' ∈ t.item.toList := by
  have hchars : t.item.toList = (Text.lowercase t.check).toList ++ '_' :: t.key.toList := by
    rw [item, itemName]
    simp [toString]
  rw [hchars]
  exact List.mem_append_right _ List.mem_cons_self

theorem ReadsAsListed.readOverride {t : Tunable} (h : t.ReadsAsListed) {text : String}
    (htext : Text.trim text = text) :
    CommandLine.readOverride (t.item ++ "=" ++ text) = .ok (t.item, text) := by
  have hsplit := Text.splitFirst?_append (t := text) h.1
  have hnonempty : (Text.trim t.item).isEmpty = false := by
    refine Bool.eq_false_iff.mpr fun hempty => ?_
    have hblank : Text.trim t.item = "" := by simpa using hempty
    have hitem := h.2
    rw [hblank] at hitem
    have hmem := t.underscore_mem_item
    rw [← hitem] at hmem
    exact absurd hmem (by decide)
  rw [CommandLine.readOverride]
  have hequals : String.singleton '=' = "=" := rfl
  rw [hequals] at hsplit
  simp only [hsplit, hnonempty, h.2, htext]
  rfl

theorem readsAsListed_of_readOverride {t : Tunable} {text read : String}
    (h : CommandLine.readOverride (t.item ++ "=" ++ text) = .ok (t.item, read)) :
    t.ReadsAsListed := by
  have hequals : String.singleton '=' = "=" := rfl
  unfold CommandLine.readOverride at h
  by_cases hmem : '=' ∈ t.item.toList
  · cases hsplit : Text.splitFirst? '=' (t.item ++ "=" ++ text) with
    | none => simp [hsplit] at h
    | some parts =>
      have hfree := Text.equals_not_mem_lowercase_trim (Text.separator_not_mem_splitFirst? hsplit)
      rw [hsplit] at h
      simp only at h
      split at h
      · exact absurd h (by simp)
      · have hitem := (Prod.mk.inj (Except.ok.inj h)).1
        rw [hitem] at hfree
        exact absurd hmem hfree
  · have hsplit := Text.splitFirst?_append (t := text) hmem
    rw [hequals] at hsplit
    rw [hsplit] at h
    simp only at h
    split at h
    · exact absurd h (by simp)
    · exact ⟨hmem, (Prod.mk.inj (Except.ok.inj h)).1⟩

/-- The items of the checks of the program can all be set. -/
theorem readsAsListed_of_builtIn : ∀ t ∈ tunablesOf builtInChecks, t.ReadsAsListed := by
  decide +kernel

end Tunable

namespace Configuration

open Tunable

variable {catalog : Catalog}

theorem apply_setsOnly (h : catalog.WellFormed) (c : Configuration)
    (hnone : (c.apply catalog).error = none) :
    ∃ f, SetsOnly f ∧ (c.apply catalog).catalog = catalog.mapTunables f := by
  cases htexts : itemTexts c.itemTable with
  | error e =>
    rw [apply_of_error catalog htexts] at hnone
    exact absurd hnone (by simp)
  | ok settings =>
    have happly := apply_of_texts catalog htexts
    rcases h.setAll_course settings with ⟨-, -, hcatalog⟩ | ⟨_, s, _, e, -, -, -, hrefused, -⟩
    · exact ⟨_, setsOnly_withSettings settings, by rw [happly]; exact hcatalog⟩
    · rw [happly, hrefused] at hnone
      exact absurd hnone (by simp)

theorem configure_single (c : Configuration) (hnone : (c.apply catalog).error = none)
    (item text : String) :
    c.configure catalog [(item, text)] =
      match (c.apply catalog).catalog.set item text with
      | .ok d => ⟨d, (c.apply catalog).events ++ d.setEvents item, none⟩
      | .error e => ⟨(c.apply catalog).catalog, (c.apply catalog).events,
          some [s!"invalid override {item}={text}", e.message]⟩ := by
  simp only [configure, hnone, Catalog.setAll]
  cases (c.apply catalog).catalog.set item text <;> simp

/-- An override by the name under which an item is listed, after a configuration that is applied. It
sets that item alone to the text where the name is read as it is listed. Where it is not, the item
stays as it is, whatever else is read and set. -/
theorem configure_listed_item (calls : List Catalog.Call) (c : Configuration) {t : Tunable}
    {text : String} {x : Float} (ht : t ∈ (Catalog.ofCalls calls).tunables)
    (htext : Text.trim text = text) (hx : accept t.unit t.key text = .ok x)
    (hnone : (c.apply (Catalog.ofCalls calls)).error = none) :
    let catalog := Catalog.ofCalls calls
    let argument := t.item ++ "=" ++ text
    (t.ReadsAsListed → CommandLine.readOverride argument = .ok (t.item, text) ∧
      (c.configure catalog [(t.item, text)]).error = none ∧
      (c.configure catalog [(t.item, text)]).catalog =
        (c.apply catalog).catalog.setOverride t.item x) ∧
    (¬ t.ReadsAsListed → ∀ item read, CommandLine.readOverride argument = .ok (item, read) →
      item ≠ t.item ∧ ∃ f, (∀ u : Tunable, u.item = t.item → f u = u) ∧
        (c.configure catalog [(item, read)]).catalog =
          (c.apply catalog).catalog.mapTunables f) := by
  intro catalog argument
  have h : catalog.WellFormed := Catalog.wellFormed_ofCalls calls
  have happlied : (c.apply catalog).catalog.WellFormed := h.apply c
  refine ⟨fun hreads => ⟨hreads.readOverride htext, ?_⟩, fun hreads item read hread => ?_⟩
  · obtain ⟨f, hf, hcatalog⟩ := apply_setsOnly h c hnone
    have hset : (c.apply catalog).catalog.set t.item text =
        .ok ((c.apply catalog).catalog.setOverride t.item x) := by
      have hmem : f t ∈ (c.apply catalog).catalog.tunables := by
        rw [hcatalog, Catalog.mem_tunables_iff_tunablesOf,
          Catalog.tunablesOf_checkList_mapTunables]
        exact List.mem_map_of_mem (Catalog.mem_tunables_iff_tunablesOf.mp ht)
      obtain ⟨o, ho⟩ := hf t
      have hitem : (f t).item = t.item := by rw [ho]; rfl
      rcases happlied.set_cases t.item text with ⟨u, hu, hitem', hset⟩ | ⟨hfree, -⟩
      · obtain rfl : f t = u := happlied.eq_of_item hmem hu (hitem.trans hitem'.symm)
        rw [ho] at hset
        rw [hset]
        exact congrArg _ hx
      · exact absurd hitem (hfree _ hmem)
    rw [configure_single c hnone, hset]
    exact ⟨rfl, rfl⟩
  · have hne : item ≠ t.item := by
      rintro rfl
      exact hreads (readsAsListed_of_readOverride hread)
    refine ⟨hne, ?_⟩
    rw [configure_single c hnone]
    rcases happlied.set_cases item read with ⟨u, -, -, hset⟩ | ⟨-, hset⟩
    · cases haccept : accept u.unit u.key read with
      | ok y =>
        refine ⟨_, fun w hw => if_neg ?_, by rw [hset, haccept]; rfl⟩
        rw [hw]
        exact Ne.symm hne
      | error e =>
        exact ⟨fun w => w, fun w _ => rfl, by
          rw [hset, haccept]; exact (Catalog.mapTunables_id _).symm⟩
    · exact ⟨fun w => w, fun w _ => rfl, by rw [hset]; exact (Catalog.mapTunables_id _).symm⟩

theorem apply_empty (catalog : Catalog) : empty.apply catalog = ⟨catalog, [], none⟩ := by
  have htable : empty.itemTable = [] := rfl
  have htexts : itemTexts [] = .ok [] := by simp [itemTexts, Except.map, pure, Except.pure]
  rw [apply_of_texts catalog (htable ▸ htexts)]
  rfl

/-- A threshold of the program itself. -/
theorem configure_listed_item_memory :
    let catalog := Catalog.ofCalls [.register ResourceUsage.checks]
    CommandLine.readOverride "server_001_memory=80%" = .ok ("server_001_memory", "80%") ∧
      (empty.configure catalog [("server_001_memory", "80%")]).error = none := by
  intro catalog
  have hfound : ∃ t ∈ catalog.checks.values.flatMap fun check => check.descriptor.tunables.values,
      t.item = "server_001_memory" ∧ (accept t.unit t.key "80%").toOption.isSome = true := by
    decide +kernel
  obtain ⟨t, ht, hitem, hsome⟩ := hfound
  obtain ⟨x, hx⟩ := exists_of_accept_isSome hsome
  have hreads : t.ReadsAsListed := by
    rw [ReadsAsListed, hitem]
    decide +kernel
  obtain ⟨hset, -⟩ := configure_listed_item [.register ResourceUsage.checks] empty
    (List.mem_mergeSort.mpr ht) (by decide +kernel) hx (by rw [apply_empty])
  obtain ⟨hread, hnone, -⟩ := hset hreads
  rw [hitem] at hread hnone
  exact ⟨hread, hnone⟩

theorem configure_unknown {catalog : Catalog} {item : String} (h : catalog.find? item = none)
    (text : String) : empty.configure catalog [(item, text)] =
      ⟨catalog, [], some [s!"invalid override {item}={text}",
        (ConfigurationError.unknownItem item).message]⟩ := by
  have hunknown : catalog.set item text = .error (.unknownItem item) := by rw [Catalog.set, h]
  rw [configure_single empty (by rw [apply_empty]), apply_empty, hunknown]

/-- A check of which one item has a capital in its key. -/
def capitalKeyed : Check :=
  ⟨(Descriptor.plain "SRV" "server" "Usage" "Usage is low").withTunable "Memory" "Threshold" 0.8
    .percentage, some fun _ _ => pure .pass⟩

/-- That item is listed under a name that cannot be set. -/
theorem not_configured_as_listed :
    let catalog := Catalog.ofCalls [.register [capitalKeyed]]
    (∃ t ∈ catalog.tunables, t.item = "srv_Memory" ∧
        (accept t.unit t.key "80%").toOption.isSome = true) ∧
      CommandLine.readOverride "srv_Memory=80%" = .ok ("srv_memory", "80%") ∧
      (empty.configure catalog [("srv_memory", "80%")]).error =
        some ["invalid override srv_memory=80%", "unknown configuration item 'srv_memory'"] ∧
      (empty.configure catalog [("srv_memory", "80%")]).catalog = catalog := by
  have hitem : ∃ t ∈ (Catalog.ofCalls [.register [capitalKeyed]]).tunables, t.item = "srv_Memory" ∧
      (accept t.unit t.key "80%").toOption.isSome = true := by
    simp only [Catalog.tunables, List.mem_mergeSort]
    decide +kernel
  have hfind : ((Catalog.ofCalls [.register [capitalKeyed]]).find? "srv_memory").isNone = true := by
    decide +kernel
  have hconfigured := configure_unknown (Option.isNone_iff_eq_none.mp hfind) "80%"
  refine ⟨hitem, by decide +kernel, ?_, ?_⟩
  · rw [hconfigured]
    exact congrArg some (by decide +kernel)
  · rw [hconfigured]

end Configuration

end CaptureAudit
