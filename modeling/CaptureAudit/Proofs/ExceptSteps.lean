/-! Steps that can fail: what is known when two in a row succeed, and when one after the other is
tried on a list. -/

namespace CaptureAudit

variable {α β ε : Type}

theorem exists_of_bind_ok {r : Except ε α} {f : α → Except ε β} {b : β}
    (h : (r >>= f) = .ok b) : ∃ a, r = .ok a ∧ f a = .ok b := by
  cases r with
  | error e => exact absurd h (by simp [bind, Except.bind])
  | ok a => exact ⟨a, rfl, h⟩

variable {f : α → Except ε β} {l : List α}

theorem mapM_eq_ok_iff {bs : List β} : l.mapM f = .ok bs ↔ l.map f = bs.map .ok := by
  induction l generalizing bs with
  | nil =>
    rw [List.mapM_nil, List.map_nil, eq_comm, eq_comm (a := []), List.map_eq_nil_iff]
    exact ⟨fun h => Except.ok.inj h, fun h => congrArg Except.ok h⟩
  | cons a l ih =>
    rw [List.mapM_cons, List.map_cons]
    cases ha : f a with
    | error e => cases bs <;> simp [bind, Except.bind]
    | ok b =>
      cases bs with
      | nil => cases hl : l.mapM f <;> simp [bind, Except.bind, pure, Except.pure]
      | cons c cs =>
        rw [List.map_cons, List.cons.injEq, Except.ok.injEq, ← ih]
        cases hl : l.mapM f <;> simp [bind, Except.bind, pure, Except.pure]

/-- The first that fails decides. -/
theorem mapM_eq_error_iff {e : ε} :
    l.mapM f = .error e ↔ ∃ before a after, l = before ++ a :: after ∧ f a = .error e ∧
      ∀ x ∈ before, ∃ b, f x = .ok b := by
  induction l with
  | nil => simp [pure, Except.pure]
  | cons x l ih =>
    rw [List.mapM_cons]
    cases hx : f x with
    | error e' =>
      constructor
      · intro h
        obtain rfl : e' = e := Except.error.inj h
        exact ⟨[], x, l, rfl, hx, by simp⟩
      · rintro ⟨before, a, after, hl, ha, hbefore⟩
        cases before with
        | nil =>
          obtain ⟨rfl, rfl⟩ := List.cons.inj hl
          obtain rfl : e' = e := Except.error.inj (hx.symm.trans ha)
          rfl
        | cons y before =>
          obtain ⟨rfl, -⟩ := List.cons.inj hl
          obtain ⟨b, hb⟩ := hbefore x (by simp)
          exact absurd (hx.symm.trans hb) (by simp)
    | ok b =>
      have hrest : ((do let c ← (Except.ok b : Except ε β); let cs ← l.mapM f; pure (c :: cs)) =
          (.error e : Except ε (List β))) ↔ l.mapM f = .error e := by
        cases l.mapM f <;> simp [bind, Except.bind, pure, Except.pure]
      rw [hrest, ih]
      constructor
      · rintro ⟨before, a, after, rfl, ha, hbefore⟩
        exact ⟨x :: before, a, after, rfl, ha, by simpa using ⟨⟨b, hx⟩, hbefore⟩⟩
      · rintro ⟨before, a, after, hl, ha, hbefore⟩
        cases before with
        | nil =>
          obtain ⟨rfl, rfl⟩ := List.cons.inj hl
          exact absurd (hx.symm.trans ha) (by simp)
        | cons y before =>
          obtain ⟨rfl, rfl⟩ := List.cons.inj hl
          exact ⟨before, a, after, rfl, ha, fun z hz => hbefore z (by simp [hz])⟩

theorem mapM_ok {g : β → α} {bs : List β} (h : ∀ b ∈ bs, f (g b) = .ok b) :
    (bs.map g).mapM f = .ok bs := by
  rw [mapM_eq_ok_iff, List.map_map]
  exact List.map_congr_left h

end CaptureAudit
