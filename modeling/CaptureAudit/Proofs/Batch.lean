import CaptureAudit.Proofs.Registration

/-! Registration of a batch. The pass over the batch, which compares each check with what the
catalog and the checks before it took, ends well when no name, lower-cased code or item name stands
twice in the catalog and the batch together. -/

namespace CaptureAudit

namespace Catalog

/-- No name, lower-cased code or item name stands twice. -/
structure Distinct (checks : List Check) : Prop where
  names : (checks.map fun c => c.descriptor.name).Nodup
  codes : (checks.map fun c => Text.lowercase c.code).Nodup
  items : (checks.flatMap Check.itemNames).Nodup

namespace Distinct

variable {l l' : List Check} {c : Check}

theorem perm (h : Distinct l) (hp : l.Perm l') : Distinct l' :=
  ⟨(hp.map _).nodup_iff.mp h.names, (hp.map _).nodup_iff.mp h.codes,
    (hp.flatMap_right _).nodup_iff.mp h.items⟩

theorem left (h : Distinct (l ++ l')) : Distinct l := by
  obtain ⟨hn, hc, hi⟩ := h
  rw [List.map_append] at hn hc
  rw [List.flatMap_append] at hi
  exact ⟨hn.of_append_left, hc.of_append_left, hi.of_append_left⟩

theorem own_iff : Distinct (own c :: l) ↔ Distinct (c :: l) := by
  constructor <;>
  · rintro ⟨hn, hc, hi⟩
    simp only [List.map_cons, List.flatMap_cons, name_own, code_own, itemNames_own] at hn hc hi
    exact ⟨by simpa using hn, by simpa using hc, by simpa using hi⟩

theorem concat_iff (h : Distinct l) (hc : c.Complete) : Distinct (l ++ [c]) ↔ c.Fits l := by
  have hp : (l ++ [c]).Perm (c :: l) := List.perm_append_singleton c l
  constructor
  · intro hd
    obtain ⟨hn, hcode, hi⟩ := hd.perm hp
    obtain ⟨hown, _, hdis⟩ := List.nodup_append.mp hi
    exact ⟨hc, (List.nodup_cons.mp hn).1, (List.nodup_cons.mp hcode).1, hown,
      fun item hitem hin => hdis item hitem item hin rfl⟩
  · intro hf
    have hitems : ((c :: l).flatMap Check.itemNames).Nodup := by
      rw [List.flatMap_cons, List.nodup_append]
      refine ⟨hf.nodup_items, h.items, ?_⟩
      rintro item hitem _ hin rfl
      exact hf.items item hitem hin
    have hcons : Distinct (c :: l) := ⟨List.nodup_cons.mpr ⟨hf.name, h.names⟩,
      List.nodup_cons.mpr ⟨hf.code, h.codes⟩, hitems⟩
    exact hcons.perm hp.symm

end Distinct

theorem WellFormed.distinct {c : Catalog} (h : c.WellFormed) : Distinct c.checks.values :=
  ⟨h.keys_checks ▸ c.checks.nodup_keys, h.nodup_codes, h.nodup_items⟩

/-- The checks of the batch are complete, and distinct together with those there are. -/
structure Admits (others batch : List Check) : Prop where
  complete : ∀ c ∈ batch, c.Complete
  distinct : Distinct (others ++ batch)

namespace Admits

variable {others a b : List Check} {c : Check}

theorem append_iff : Admits others (a ++ b) ↔ (∀ c ∈ a, c.Complete) ∧ Admits (others ++ a) b := by
  constructor
  · rintro ⟨hc, hd⟩
    rw [← List.append_assoc] at hd
    exact ⟨fun c hm => hc c (List.mem_append_left _ hm),
      fun c hm => hc c (List.mem_append_right _ hm), hd⟩
  · rintro ⟨ha, hb, hd⟩
    rw [List.append_assoc] at hd
    exact ⟨fun c hm => (List.mem_append.mp hm).elim (ha c) (hb c), hd⟩

theorem left (h : Admits others (a ++ b)) : Admits others a := by
  obtain ⟨ha, hb⟩ := append_iff.mp h
  exact ⟨ha, hb.distinct.left⟩

theorem perm (h : Admits others a) (hp : a.Perm b) : Admits others b :=
  ⟨fun c hm => h.complete c (hp.mem_iff.mpr hm), h.distinct.perm (hp.append_left others)⟩

theorem singleton_iff (h : Distinct others) : Admits others [c] ↔ c.Fits others := by
  constructor
  · intro ha
    exact (h.concat_iff (ha.complete c (by simp))).mp ha.distinct
  · intro hf
    exact ⟨by simpa using hf.complete, (h.concat_iff hf.complete).mpr hf⟩

end Admits

/-- The pass over a batch ends well when the batch is admitted, and otherwise at the first check
with which it is not. -/
theorem foldlM_claim_cases {t : Taken} {others : List Check} (ht : t.Covers others)
    (hd : Distinct others) (batch : List Check) :
    batch.foldlM claim t = .ok (batch.foldl Taken.add t) ∧ Admits others batch ∨
      ∃ pre c post e, batch = pre ++ c :: post ∧ batch.foldlM claim t = .error e ∧
        Admits others pre ∧ ¬Admits others (pre ++ [c]) ∧ e.Blames (others ++ pre) c := by
  -- What is taken grows with every check let in, so the induction is over all that may be taken.
  induction batch generalizing t others with
  | nil => exact .inl ⟨rfl, by simp, by simpa using hd⟩
  | cons c rest ih =>
    rw [List.foldlM_cons]
    rcases claim_cases ht c with ⟨hok, hf⟩ | ⟨e, herr, hnot, hblames⟩
    · have hone := (Admits.singleton_iff hd).mpr hf
      rw [hok]
      rcases ih (ht.add c) hone.distinct with ⟨hrest, ha⟩ |
        ⟨pre, d, post, e, rfl, herr, hpre, hnot, hb⟩
      · exact .inl ⟨hrest, Admits.append_iff.mpr ⟨hone.complete, ha⟩⟩
      · refine .inr ⟨c :: pre, d, post, e, rfl, herr, Admits.append_iff.mpr ⟨hone.complete, hpre⟩,
          fun h => hnot (Admits.append_iff (a := [c]).mp h).2, ?_⟩
        simpa using hb
    · refine .inr ⟨[], c, rest, e, rfl, by rw [herr]; rfl, ⟨by simp, by simpa using hd⟩, ?_, ?_⟩
      · exact fun h => hnot ((Admits.singleton_iff hd).mp h)
      · simpa using hblames

theorem foldlM_claim_congr {t t' : Taken} {others : List Check} (ht : t.Covers others)
    (ht' : t'.Covers others) {batch : List Check} {e : RegistrationError}
    (h : batch.foldlM claim t = .error e) : batch.foldlM claim t' = .error e := by
  induction batch generalizing t t' others with
  | nil => exact absurd h (by simp [pure, Except.pure])
  | cons c rest ih =>
    rw [List.foldlM_cons] at h ⊢
    rcases claim_cases ht c with ⟨hok, hf⟩ | ⟨e', herr, _, _⟩
    · rcases claim_cases ht' c with ⟨hok', _⟩ | ⟨_, _, hnot, _⟩
      · rw [hok] at h
        rw [hok']
        exact ih (ht.add c) (ht'.add c) h
      · exact absurd hf hnot
    · rw [herr] at h
      rw [claim_congr ht ht' herr]
      exact h

variable {c d : Catalog} {a b batch : List Check}

theorem register_of_claims {t : Taken} (h : batch.foldlM claim c.taken = .ok t) :
    c.register batch = .ok (batch.foldl addCheck c) := by
  rw [register, h]
  rfl

theorem register_of_claims_error {e : RegistrationError}
    (h : batch.foldlM claim c.taken = .error e) : c.register batch = .error e := by
  rw [register, h]
  rfl

namespace WellFormed

theorem register_cases (h : c.WellFormed) (batch : List Check) :
    c.register batch = .ok (batch.foldl Catalog.addCheck c) ∧ Admits c.checks.values batch ∨
      ∃ pre check post e, batch = pre ++ check :: post ∧ c.register batch = .error e ∧
        Admits c.checks.values pre ∧ ¬Admits c.checks.values (pre ++ [check]) ∧
        e.Blames (c.checks.values ++ pre) check := by
  rcases foldlM_claim_cases h.covers h.distinct batch with ⟨hok, ha⟩ |
    ⟨pre, check, post, e, hsplit, herr, hrest⟩
  · exact .inl ⟨register_of_claims hok, ha⟩
  · exact .inr ⟨pre, check, post, e, hsplit, register_of_claims_error herr, hrest⟩

theorem register_ok_iff (h : c.WellFormed) :
    c.register batch = .ok d ↔
      Admits c.checks.values batch ∧ d = batch.foldl Catalog.addCheck c := by
  rcases h.register_cases batch with ⟨hok, ha⟩ | ⟨pre, check, post, e, rfl, herr, _, hnot, _⟩
  · rw [hok]
    exact ⟨fun hd => ⟨ha, (Except.ok.inj hd).symm⟩, fun hd => by rw [hd.2]⟩
  · rw [herr]
    refine iff_of_false (by simp) fun hd => hnot ?_
    exact Admits.left (b := post) (by simpa using hd.1)

theorem admits_addCheck (h : c.WellFormed) {check : Check} (hf : check.Fits c.checks.values)
    (ha : Admits (c.checks.values ++ [check]) batch) :
    Admits (c.addCheck check).checks.values batch := by
  refine ⟨ha.complete, ?_⟩
  have hswap : ((c.addCheck check).checks.values ++ batch).Perm
      (own check :: (c.checks.values ++ batch)) := (h.values_addCheck_perm hf).append_right batch
  have hcons : Distinct (check :: (c.checks.values ++ batch)) :=
    ha.distinct.perm (by simp [List.perm_middle])
  exact (Distinct.own_iff.mpr hcons).perm hswap.symm

theorem foldl_addCheck (h : c.WellFormed) (ha : Admits c.checks.values batch) :
    (batch.foldl Catalog.addCheck c).WellFormed ∧
      (batch.foldl Catalog.addCheck c).checks.entries.Perm
        (c.checks.entries ++ batch.map fun check => (check.descriptor.name, own check)) := by
  induction batch generalizing c with
  | nil => exact ⟨h, by simp⟩
  | cons check rest ih =>
    obtain ⟨hcomplete, hrest⟩ := (Admits.append_iff (a := [check])).mp ha
    have hf := (Admits.singleton_iff h.distinct).mp ⟨hcomplete, hrest.distinct.left⟩
    obtain ⟨hd, hp⟩ := ih (h.addCheck hf) (h.admits_addCheck hf hrest)
    refine ⟨hd, hp.trans ?_⟩
    refine ((h.checks_addCheck_perm hf).append_right _).trans ?_
    exact List.perm_middle.symm

theorem register (h : c.WellFormed) (hr : c.register batch = .ok d) : d.WellFormed := by
  obtain ⟨ha, rfl⟩ := h.register_ok_iff.mp hr
  exact (h.foldl_addCheck ha).1

end WellFormed

end Catalog

end CaptureAudit
