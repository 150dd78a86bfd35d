import CaptureAudit.Proofs.NumberExtent

/-! How far a token goes in a text. What follows has no part in it, but for a number, which goes on
as far as it can. -/

namespace CaptureAudit.Json

open Text (Source)

section

variable {r rest : Source} {ps : List Piece}

/-- A part of a text that is read as one piece, whatever follows it. -/
theorem exists_of_pieces_part (part : Source) (piece : Piece)
    (hpart : ∀ z, pieces (part ++ z) = (pieces z).map fun p => (piece :: p.1, p.2))
    (ih : ∀ {ps rest}, pieces r = some (ps, rest) →
      ∃ l, r = l ++ rest ∧ ∀ z, pieces (l ++ z) = some (ps, z))
    (h : pieces (part ++ r) = some (ps, rest)) :
    ∃ l, part ++ r = l ++ rest ∧ ∀ z, pieces (l ++ z) = some (ps, z) := by
  rw [hpart] at h
  obtain ⟨⟨qs, rest'⟩, hq, he⟩ := Option.map_eq_some_iff.mp h
  obtain ⟨rfl, rfl⟩ := Prod.mk.inj he
  obtain ⟨l, rfl, hl⟩ := ih hq
  refine ⟨part ++ l, (List.append_assoc ..).symm, fun z => ?_⟩
  rw [List.append_assoc, hpart, hl]
  rfl

theorem exists_of_pieces (h : pieces r = some (ps, rest)) :
    ∃ l, r = l ++ rest ∧ ∀ z, pieces (l ++ z) = some (ps, z) := by
  fun_induction pieces r generalizing ps rest with
  | case1 => contradiction
  | case2 r ih => exact exists_of_pieces_part [none] _ (fun z => rfl) ih h
  | case3 r =>
    obtain ⟨rfl, rfl⟩ := Prod.mk.inj (Option.some.inj h)
    exact ⟨[some '"'], rfl, fun z => rfl⟩
  | case4 a b c d r u hu ih =>
    refine exists_of_pieces_part [some '\\', some 'u', some a, some b, some c, some d] (.unit u)
      (fun z => ?_) ih ?_
    · simp only [List.cons_append, List.nil_append, pieces, hu]
    · simpa only [List.cons_append, List.nil_append, pieces, hu] using h
  | case5 a b c d r hu => contradiction
  | case6 e r hunit c hc ih =>
    have he : e ≠ 'u' := by
      rintro rfl
      have hnone : simpleEscape? 'u' = none := by decide
      exact absurd (hnone.symm.trans hc) (by simp)
    refine exists_of_pieces_part [some '\\', some e] (.char c) (fun z => ?_) ih ?_
    · simp [pieces, hc, he]
    · simpa [pieces, hc, he] using h
  | case7 e r hunit hc => contradiction
  | case8 c r hquote hunit hescape hc => contradiction
  | case9 c r hquote hunit hescape hc ih =>
    have hslash : c ≠ '\\' := fun he => hc (.inr he)
    have hplain : ¬ c.toNat < 0x20 := fun hlt => hc (.inl hlt)
    refine exists_of_pieces_part [some c] (.char c) (fun z => ?_) ih ?_
    · simp [pieces, hslash, hplain]
    · simpa [pieces, hslash, hplain] using h

end

theorem exists_of_dropLiteral {cs : List Char} {r rest : Source}
    (h : dropLiteral cs r = some rest) :
    ∃ l, r = l ++ rest ∧ ∀ z, dropLiteral cs (l ++ z) = some z := by
  induction cs generalizing r with
  | nil =>
    obtain rfl := Option.some.inj h
    exact ⟨[], rfl, fun z => rfl⟩
  | cons c cs ih =>
    match r, h with
    | some d :: r, h =>
      simp only [dropLiteral] at h
      split at h
      · next hc =>
        obtain ⟨l, rfl, hl⟩ := ih h
        refine ⟨some d :: l, rfl, fun z => ?_⟩
        rw [List.cons_append, dropLiteral, if_pos hc, hl]
      · contradiction

/-- The character that alone is the token. -/
def Token.mark? : Token → Option Char
  | .openBrace => some '\x7b'
  | .closeBrace => some '\x7d'
  | .openBracket => some '['
  | .closeBracket => some ']'
  | .colon => some ':'
  | .comma => some ','
  | _ => none

theorem Token.not_isNumber_of_mark? {t : Token} {c : Char} (h : t.mark? = some c) :
    ¬ t.IsNumber := by
  rintro ⟨n, rfl⟩
  contradiction

def Token.IsLiteral (t : Token) : Prop := t = .null ∨ ∃ b, t = .bool b

theorem tokenAt_cases (c : Char) :
    (∃ t : Token, t.mark? = some c ∧ ∀ r, tokenAt c r = some (t, r)) ∨
      (∀ r, tokenAt c r = textToken r) ∨
      (∃ (t : Token) (cs : List Char), t.IsLiteral ∧
        ∀ r, tokenAt c r = (dropLiteral cs r).map (t, ·)) ∨
      ∀ r, tokenAt c r = numberToken (some c :: r) := by
  by_cases h₁ : c = '\x7b'
  · exact h₁ ▸ .inl ⟨.openBrace, rfl, fun r => rfl⟩
  by_cases h₂ : c = '\x7d'
  · exact h₂ ▸ .inl ⟨.closeBrace, rfl, fun r => rfl⟩
  by_cases h₃ : c = '['
  · exact h₃ ▸ .inl ⟨.openBracket, rfl, fun r => rfl⟩
  by_cases h₄ : c = ']'
  · exact h₄ ▸ .inl ⟨.closeBracket, rfl, fun r => rfl⟩
  by_cases h₅ : c = ':'
  · exact h₅ ▸ .inl ⟨.colon, rfl, fun r => rfl⟩
  by_cases h₆ : c = ','
  · exact h₆ ▸ .inl ⟨.comma, rfl, fun r => rfl⟩
  by_cases h₇ : c = '"'
  · exact h₇ ▸ .inr (.inl fun r => rfl)
  by_cases h₈ : c = 'n'
  · exact h₈ ▸ .inr (.inr (.inl ⟨.null, _, .inl rfl, fun r => rfl⟩))
  by_cases h₉ : c = 't'
  · exact h₉ ▸ .inr (.inr (.inl ⟨.bool true, _, .inr ⟨true, rfl⟩, fun r => rfl⟩))
  by_cases h₁₀ : c = 'f'
  · exact h₁₀ ▸ .inr (.inr (.inl ⟨.bool false, _, .inr ⟨false, rfl⟩, fun r => rfl⟩))
  exact .inr (.inr (.inr fun r => by simp [tokenAt, *]))

/-- A token is the same whatever follows it, and a number before whatever ends it. -/
theorem exists_of_tokenAt {c : Char} {r rest : Source} {t : Token}
    (h : tokenAt c r = some (t, rest)) :
    (t.IsNumber → EndsDigits rest) ∧
      ∃ l, r = l ++ rest ∧ ∀ z, (t.IsNumber → EndsNumber z) → tokenAt c (l ++ z) = some (t, z) := by
  rcases tokenAt_cases c with ⟨u, hu, hat⟩ | hat | ⟨u, cs, hu, hat⟩ | hat
  · rw [hat] at h
    obtain ⟨rfl, rfl⟩ := Prod.mk.inj (Option.some.inj h)
    exact ⟨fun ht => absurd ht (Token.not_isNumber_of_mark? hu), [], rfl, fun z _ => hat z⟩
  · rw [hat] at h
    obtain ⟨⟨ps, rest'⟩, hpieces, he⟩ := Option.map_eq_some_iff.mp h
    obtain ⟨rfl, rfl⟩ := Prod.mk.inj he
    obtain ⟨l, rfl, hl⟩ := exists_of_pieces hpieces
    refine ⟨fun ⟨n, hn⟩ => absurd hn (by simp), l, rfl, fun z _ => ?_⟩
    rw [hat, textToken, hl]
    rfl
  · rw [hat] at h
    obtain ⟨rest', hdrop, he⟩ := Option.map_eq_some_iff.mp h
    obtain ⟨rfl, rfl⟩ := Prod.mk.inj he
    obtain ⟨l, rfl, hl⟩ := exists_of_dropLiteral hdrop
    have hu' : ¬ u.IsNumber := by
      rintro ⟨n, rfl⟩
      rcases hu with hn | ⟨b, hb⟩ <;> contradiction
    refine ⟨fun hn => absurd hn hu', l, rfl, fun z _ => ?_⟩
    rw [hat, hl]
    rfl
  · rw [hat] at h
    obtain ⟨ht, hends, l, hl, hnumber⟩ := exists_of_numberToken h
    have hshort : rest.length < (some c :: r).length := length_numberToken h
    cases l with
    | nil => exact absurd (congrArg List.length hl) (by simpa using Nat.ne_of_gt hshort)
    | cons d l =>
      obtain ⟨rfl, rfl⟩ := List.cons.inj hl
      exact ⟨fun _ => hends, l, rfl, fun z hz => (hat _).trans (hnumber z (hz ht))⟩

/-- A mark is found where its character stands, and only there. -/
theorem mark_of_tokenAt {c : Char} {r rest : Source} {t : Token}
    (h : tokenAt c r = some (t, rest)) :
    (t.mark? = some c ∧ rest = r) ∨ (t.mark? = none ∧ t ≠ .broken) := by
  rcases tokenAt_cases c with ⟨u, hu, hat⟩ | hat | ⟨u, cs, hu, hat⟩ | hat
  · rw [hat] at h
    obtain ⟨rfl, rfl⟩ := Prod.mk.inj (Option.some.inj h)
    exact .inl ⟨hu, rfl⟩
  · rw [hat] at h
    obtain ⟨p, -, he⟩ := Option.map_eq_some_iff.mp h
    obtain ⟨rfl, -⟩ := Prod.mk.inj he
    exact .inr ⟨rfl, by simp⟩
  · rw [hat] at h
    obtain ⟨p, -, he⟩ := Option.map_eq_some_iff.mp h
    obtain ⟨rfl, -⟩ := Prod.mk.inj he
    rcases hu with rfl | ⟨b, rfl⟩ <;> exact .inr ⟨rfl, by simp⟩
  · rw [hat] at h
    obtain ⟨⟨n, rfl⟩, -⟩ := exists_of_numberToken h
    exact .inr ⟨rfl, by simp⟩

end CaptureAudit.Json
