import CaptureAudit.Proofs.TokenExtent

/-! Where a text can be cut between two tokens. A text is put together from parts with their own
tokens as long as no number stands before something that would go on with it. -/

namespace CaptureAudit.Json

open Text (Source)

theorem tokens_broken {c : Char} (hc : c = '.' ∨ c = 'e' ∨ c = 'E') (r : Source) :
    tokens (some c :: r) = [.broken] := by
  have hnone : tokenAt c r = none := by
    rcases hc with rfl | rfl | rfl <;> rfl
  have hblank : isBlank c = false := by
    rcases hc with rfl | rfl | rfl <;> decide
  rw [tokens, hblank, if_neg Bool.false_ne_true]
  split
  · next h => exact absurd (hnone.symm.trans h) (by simp)
  · rfl

/-- Where another token begins, a number ends before it. -/
theorem endsNumber_of_endsDigits {s : Source} (hs : EndsDigits s)
    (h : (tokens s).head? ≠ some .broken) : EndsNumber s := by
  match s, hs with
  | [], _ => trivial
  | none :: _, _ => trivial
  | some c :: r, hs =>
    have hc : ¬(c = '.' ∨ c = 'e' ∨ c = 'E') := fun hc => h (by rw [tokens_broken hc]; rfl)
    simp only [not_or] at hc
    exact ⟨hs, hc⟩

theorem exists_first {s : Source} {t : Token} {ts : List Token} (h : tokens s = t :: ts)
    (ht : t ≠ .broken) :
    ∃ l rest, s = l ++ rest ∧ l ≠ [] ∧ tokens rest = ts ∧ (t.IsNumber → EndsDigits rest) ∧
      ∀ z, (t.IsNumber → EndsNumber z) → tokens (l ++ z) = t :: tokens z := by
  fun_induction tokens s with
  | case1 => contradiction
  | case2 r => exact absurd (List.cons.inj h).1.symm ht
  | case3 c r hblank ih =>
    obtain ⟨l, rest, rfl, hne, hrest, hends, hl⟩ := ih h
    refine ⟨some c :: l, rest, rfl, by simp, hrest, hends, fun z hz => ?_⟩
    rw [List.cons_append, tokens, if_pos hblank, hl z hz]
  | case4 c r hblank u rest hat ih =>
    obtain ⟨rfl, hrest⟩ := List.cons.inj h
    obtain ⟨hends, l, rfl, hl⟩ := exists_of_tokenAt hat
    refine ⟨some c :: l, rest, rfl, by simp, hrest, hends, fun z hz => ?_⟩
    exact tokens_of_tokenAt (by simpa using hblank) (hl z hz)
  | case5 c r hblank hat => exact absurd (List.cons.inj h).1.symm ht

/-- Nothing is read after the place where no token begins. -/
theorem eq_nil_of_tokens_broken {s : Source} {ts : List Token} (h : tokens s = .broken :: ts) :
    ts = [] := by
  fun_induction tokens s with
  | case1 => contradiction
  | case2 r => exact (List.cons.inj h).2.symm
  | case3 c r hblank ih => exact ih h
  | case4 c r hblank t rest hat ih =>
    obtain ⟨rfl, -⟩ := List.cons.inj h
    rcases mark_of_tokenAt hat with ⟨hmark, -⟩ | ⟨-, ht⟩ <;> contradiction
  | case5 c r hblank hat => exact (List.cons.inj h).2.symm

/-- A number stands last among the tokens. -/
def EndsWithNumber (ts : List Token) : Prop := ∃ t ∈ ts.getLast?, t.IsNumber

theorem endsNumber_of_ne_nil {p q z : Source} (hp : p ≠ []) (h : EndsNumber (p ++ q)) :
    EndsNumber (p ++ z) := by
  cases p with
  | nil => exact absurd rfl hp
  | cons c p => cases c <;> exact h

/-- Between any two of its tokens a text can be cut, and something else can follow instead. -/
theorem exists_cut {s : Source} {before after : List Token} (h : tokens s = before ++ after)
    (hafter : after ≠ []) :
    ∃ p q, s = p ++ q ∧ (before ≠ [] → p ≠ []) ∧ tokens q = after ∧
      ∀ z, (EndsWithNumber before → EndsNumber z) → tokens (p ++ z) = before ++ tokens z := by
  induction before generalizing s with
  | nil =>
    exact ⟨[], s, rfl, fun hne => absurd rfl hne, h, fun z _ => rfl⟩
  | cons t before ih =>
    have ht : t ≠ .broken := by
      rintro rfl
      exact absurd (eq_nil_of_tokens_broken h) (by simp [hafter])
    obtain ⟨l, rest, rfl, hne, hrest, hends, hl⟩ := exists_first h ht
    -- If `t` is a number, what follows has to end it: the new text where `t` is the last token, and
    -- the next token where it is not.
    cases before with
    | nil =>
      have hlast : EndsWithNumber [t] ↔ t.IsNumber := by simp [EndsWithNumber]
      exact ⟨l, rest, rfl, fun _ => hne, hrest, fun z hz => hl z fun hn => hz (hlast.mpr hn)⟩
    | cons u before =>
      have hlast : EndsWithNumber (t :: u :: before) ↔ EndsWithNumber (u :: before) := by
        simp [EndsWithNumber]
      obtain ⟨p, q, rfl, hp, hq, hcut⟩ := ih hrest
      have hu : (tokens (p ++ q)).head? ≠ some .broken := by
        rw [hrest]
        intro he
        obtain rfl := Option.some.inj he
        exact absurd (eq_nil_of_tokens_broken hrest) (by simp [hafter])
      refine ⟨l ++ p, q, (List.append_assoc ..).symm, by simp [hne], hq, fun z hz => ?_⟩
      rw [List.append_assoc, hl, hcut z fun hn => hz (hlast.mpr hn)]
      · rfl
      · exact fun hn => endsNumber_of_ne_nil (hp (by simp)) (endsNumber_of_endsDigits (hends hn) hu)

theorem blanks_of_tokens_nil {s : Source} (h : tokens s = []) :
    ∃ bs : List Char, s = bs.map some ∧ ∀ b ∈ bs, isBlank b = true := by
  fun_induction tokens s with
  | case1 => exact ⟨[], rfl, by simp⟩
  | case3 c r hblank ih =>
    obtain ⟨bs, rfl, hbs⟩ := ih h
    exact ⟨c :: bs, rfl, by simpa [hblank] using hbs⟩
  | case2 | case4 | case5 => contradiction

theorem exists_of_tokens_mark {s : Source} {t : Token} {ts : List Token} {c : Char}
    (h : tokens s = t :: ts) (hc : t.mark? = some c) :
    ∃ (bs : List Char) (r : Source), s = bs.map some ++ some c :: r ∧
      (∀ b ∈ bs, isBlank b = true) ∧ tokens r = ts := by
  fun_induction tokens s with
  | case1 => contradiction
  | case3 d r hblank ih =>
    obtain ⟨bs, r', rfl, hbs, hr⟩ := ih h
    exact ⟨d :: bs, r', rfl, by simpa [hblank] using hbs, hr⟩
  | case4 d r hblank u rest hat ih =>
    obtain ⟨rfl, hrest⟩ := List.cons.inj h
    rcases mark_of_tokenAt hat with ⟨hd, rfl⟩ | ⟨hd, -⟩
    · obtain rfl := Option.some.inj (hd.symm.trans hc)
      exact ⟨[], rest, rfl, by simp, hrest⟩
    · exact absurd (hd.symm.trans hc) (by simp)
  | case2 | case5 =>
    obtain ⟨rfl, -⟩ := List.cons.inj h
    contradiction

theorem endsNumber_blanks {bs : List Char} (hbs : ∀ b ∈ bs, isBlank b = true) {r : Source}
    (hr : EndsNumber r) : EndsNumber (bs.map some ++ r) := by
  cases bs with
  | nil => exact hr
  | cons b bs =>
    have hb : b = ' ' ∨ b = '\n' ∨ b = '\t' ∨ b = '\r' := by
      simpa [isBlank, or_assoc] using hbs b (by simp)
    rcases hb with rfl | rfl | rfl | rfl <;> exact ⟨by decide, by decide, by decide, by decide⟩

theorem endsNumber_mark {t : Token} {c : Char} (hc : t.mark? = some c) (r : Source) :
    EndsNumber (some c :: r) := by
  cases t with
  | null | bool | number | text | broken => contradiction
  | _ =>
    obtain rfl := Option.some.inj hc
    exact ⟨by decide, by decide, by decide, by decide⟩

theorem endsNumber_of_tokens_mark {s : Source} {t : Token} {ts : List Token} {c : Char}
    (h : tokens s = t :: ts) (hc : t.mark? = some c) : EndsNumber s := by
  obtain ⟨bs, r, rfl, hbs, -⟩ := exists_of_tokens_mark h hc
  exact endsNumber_blanks hbs (endsNumber_mark hc r)

end CaptureAudit.Json
