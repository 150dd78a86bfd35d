import CaptureAudit.Proofs.TokenSplit

/-! Members are put into an object of a text and taken out of it. The text is cut where they are to
stand or where they stand, and one comma comes or goes with them. -/

namespace CaptureAudit.Json

open Text (Source)

/-- Whatever node stands in the frame, the same tokens stand around those of the node. -/
def Framed (frame : Node → Node) : Prop :=
  ∀ v ts, (frame v).Spelled ts → ∃ left mid right, ts = left ++ (mid ++ right) ∧ v.Spelled mid ∧
    ∀ v' mid', v'.Spelled mid' → (frame v').Spelled (left ++ (mid' ++ right))

theorem Framed.id : Framed fun v => v :=
  fun v ts h => ⟨[], ts, [], by simp, h, fun v' mid' h' => by simpa using h'⟩

theorem Framed.comp {outer inner : Node → Node} (ho : Framed outer) (hi : Framed inner) :
    Framed fun v => outer (inner v) := by
  intro v ts h
  obtain ⟨left, mid, right, rfl, hmid, houter⟩ := ho _ ts h
  obtain ⟨left', mid', right', rfl, hv, hinner⟩ := hi v mid hmid
  refine ⟨left ++ left', mid', right' ++ right, by simp, hv, fun v' ts' h' => ?_⟩
  simpa using houter _ _ (hinner v' ts' h')

def opening (parts : List (List Token)) : List Token :=
  parts.flatMap (· ++ [.comma])

theorem separated_eq_opening (ps : List (List Token)) {qs : List (List Token)} (hq : qs ≠ []) :
    separated (ps ++ qs) = opening ps ++ separated qs := by
  induction ps with
  | nil => rfl
  | cons p ps ih => simp [separated_cons, hq, ih, opening]

/-- The parts, each with a comma before it. -/
def closing (parts : List (List Token)) : List Token :=
  parts.flatMap (.comma :: ·)

theorem separated_eq_closing (p : List Token) (ps : List (List Token)) :
    separated (p :: ps) = p ++ closing ps := by
  induction ps generalizing p with
  | nil => simp [closing]
  | cons q qs ih => simp [separated_cons, ih, closing]

theorem separated_around (ps : List (List Token)) (p : List Token) (qs : List (List Token)) :
    separated (ps ++ p :: qs) = opening ps ++ (p ++ closing qs) := by
  rw [separated_eq_opening ps (by simp), separated_eq_closing]

section

variable {α β : Type} {R : α → β → Prop} {as as' : List α} {a : α} {bs : List β}

theorem exists_of_forall₂_append (h : List.Forall₂ R (as ++ as') bs) :
    ∃ cs cs', bs = cs ++ cs' ∧ List.Forall₂ R as cs ∧ List.Forall₂ R as' cs' :=
  ⟨bs.take as.length, bs.drop as.length, (List.take_append_drop ..).symm,
    by simpa using List.forall₂_take as.length h, by simpa using List.forall₂_drop as.length h⟩

theorem exists_of_forall₂_append_cons (h : List.Forall₂ R (as ++ a :: as') bs) :
    ∃ cs b cs', bs = cs ++ b :: cs' ∧ List.Forall₂ R as cs ∧ R a b ∧ List.Forall₂ R as' cs' := by
  obtain ⟨cs, _, rfl, hcs, hrest⟩ := exists_of_forall₂_append h
  obtain ⟨b, cs', hb, hcs', rfl⟩ := List.forall₂_cons_left_iff.mp hrest
  exact ⟨cs, b, cs', rfl, hcs, hb, hcs'⟩

end

theorem Framed.item (before after : List Node) :
    Framed fun v => .array (before ++ v :: after) true := by
  rintro v ts ⟨-, parts, hparts, rfl⟩
  obtain ⟨ps, p, qs, rfl, hps, hp, hqs⟩ :=
    exists_of_forall₂_append_cons (Node.itemsSpelled_iff.mp hparts)
  refine ⟨.openBracket :: opening ps, p, closing qs ++ [.closeBracket], ?_, hp,
    fun v' p' hp' => ⟨rfl, ps ++ p' :: qs, ?_, ?_⟩⟩
  · simp [separated_around]
  · exact Node.itemsSpelled_iff.mpr (List.rel_append hps (.cons hp' hqs))
  · simp [separated_around]

theorem Framed.member (before after : List (Key × Node)) (k : Key) :
    Framed fun v => .object (before ++ (k, v) :: after) true := by
  rintro v ts ⟨-, parts, hparts, rfl⟩
  obtain ⟨ps, _, qs, rfl, hps, ⟨t, p, rfl, hp, rfl⟩, hqs⟩ :=
    exists_of_forall₂_append_cons (Node.membersSpelled_iff.mp hparts)
  refine ⟨.openBrace :: (opening ps ++ [.text t, .colon]), p, closing qs ++ [.closeBrace], ?_, hp,
    fun v' p' hp' => ⟨rfl, ps ++ (.text t :: .colon :: p') :: qs, ?_, ?_⟩⟩
  · simp [separated_around]
  · exact Node.membersSpelled_iff.mpr (List.rel_append hps (.cons ⟨t, p', rfl, hp', rfl⟩ hqs))
  · simp [separated_around]

/-- The text stands between the braces of an object with the members. -/
def MembersText (w : Source) (ms : List (Key × Node)) : Prop :=
  Document.ofSource (some '\x7b' :: (w ++ [some '\x7d'])) = ⟨.object ms true, false⟩

theorem tokens_openBrace (r : Source) : tokens (some '\x7b' :: r) = .openBrace :: tokens r :=
  tokens_of_tokenAt (by decide) rfl

theorem tokens_closeBrace (r : Source) : tokens (some '\x7d' :: r) = .closeBrace :: tokens r :=
  tokens_of_tokenAt (by decide) rfl

theorem tokens_comma (r : Source) : tokens (some ',' :: r) = .comma :: tokens r :=
  tokens_of_tokenAt (by decide) rfl

theorem membersText_of_tokens {w : Source} {ms : List (Key × Node)} {parts : List (List Token)}
    (hparts : List.Forall₂ Node.MemberSpelled ms parts)
    (h : tokens (w ++ [some '\x7d']) = separated parts ++ [.closeBrace]) : MembersText w ms := by
  rw [MembersText, Document.ofSource, tokens_openBrace, h]
  exact Document.ofTokens_spelled ⟨rfl, parts, Node.membersSpelled_iff.mpr hparts, rfl⟩

/-- The text has these tokens before whatever ends a number. -/
def Gives (w : Source) (ts : List Token) : Prop :=
  ∀ z, EndsNumber z → tokens (w ++ z) = ts ++ tokens z

theorem Gives.append_blanks {w : Source} {ts : List Token} {bs : List Char} (h : Gives w ts)
    (hbs : ∀ b ∈ bs, isBlank b = true) : Gives (w ++ bs.map some) ts := by
  intro z hz
  rw [List.append_assoc, h _ (endsNumber_blanks hbs hz), tokens_blanks hbs]

theorem membersText_of_gives {w : Source} {m : Key × Node} {t : List Token}
    (ht : Node.MemberSpelled m t) (h : Gives w t) : MembersText w [m] := by
  refine membersText_of_tokens (.cons ht .nil) ?_
  rw [h _ (endsNumber_mark (t := .closeBrace) rfl []), tokens_closeBrace, tokens,
    separated_singleton]

theorem MembersText.exists_tokens {w : Source} {ms : List (Key × Node)} (h : MembersText w ms)
    (hc : Node.completeMembers ms = true) :
    ∃ parts, List.Forall₂ Node.MemberSpelled ms parts ∧ Gives w (separated parts) := by
  have hcomplete : (Node.object ms true).complete = true := by simp [Node.complete, hc]
  obtain ⟨-, parts, hparts, htokens⟩ := Document.spelled_of_ofTokens h hcomplete
  rw [tokens_openBrace] at htokens
  refine ⟨parts, Node.membersSpelled_iff.mp hparts, fun z hz => ?_⟩
  obtain ⟨p, q, hw, -, hq, hcut⟩ := exists_cut (List.cons.inj htokens).2 (by simp)
  obtain ⟨bs, r, rfl, hbs, hr⟩ := exists_of_tokens_mark hq rfl
  -- Nothing can stand after the brace, with which the text ends.
  obtain ⟨bs', rfl, hbs'⟩ := blanks_of_tokens_nil hr
  rcases List.eq_nil_or_concat bs' with rfl | ⟨bs', b, rfl⟩
  · have hw' : w = p ++ bs.map some := by
      refine (List.append_left_inj [some '\x7d']).mp ?_
      rw [hw, List.append_assoc]
      rfl
    rw [hw', List.append_assoc, hcut _ fun _ => endsNumber_blanks hbs hz, tokens_blanks hbs]
  · have hw' : w ++ [some '\x7d'] =
        (p ++ (bs.map some ++ some '\x7d' :: bs'.map some)) ++ [some b] := by simpa using hw
    have hlast : '\x7d' = b := by simpa using (List.append_inj' hw' rfl).2
    exact absurd (hbs' b (by simp)) (by simp [← hlast, isBlank])

/-- The members of an object with what stands around them. -/
def around (left right : List Token) (parts : List (List Token)) : List Token :=
  left ++ .openBrace :: (separated parts ++ .closeBrace :: right)

/-- The tokens of a text around the members of an object in it, and what other members there make
of the document. -/
theorem exists_tokens_around {frame : Node → Node} (hframe : Framed frame) {s : Source}
    {ms : List (Key × Node)} (hd : Document.ofSource s = ⟨frame (.object ms true), false⟩)
    (hc : (frame (.object ms true)).complete = true) :
    ∃ left parts right, List.Forall₂ Node.MemberSpelled ms parts ∧
      tokens s = around left right parts ∧
      ∀ ms' parts' s', List.Forall₂ Node.MemberSpelled ms' parts' →
        tokens s' = around left right parts' →
        Document.ofSource s' = ⟨frame (.object ms' true), false⟩ := by
  obtain ⟨left, mid, right, hs, ⟨-, parts, hparts, rfl⟩, hplug⟩ :=
    hframe _ _ (Document.spelled_of_ofTokens hd hc)
  refine ⟨left, parts, right, Node.membersSpelled_iff.mp hparts, by simpa [around] using hs,
    fun ms' parts' s' hparts' hs' => ?_⟩
  have hspelled := hplug (.object ms' true) _
    ⟨rfl, parts', Node.membersSpelled_iff.mpr hparts', rfl⟩
  rw [Document.ofSource, hs']
  refine Document.ofTokens_spelled ?_
  simpa [around] using hspelled

theorem not_endsWithNumber_opening (left : List Token) (ps : List (List Token)) :
    ¬ EndsWithNumber (left ++ .openBrace :: opening ps) := by
  rcases List.eq_nil_or_concat ps with rfl | ⟨ps, p, rfl⟩
  · simp [EndsWithNumber, opening, Token.IsNumber]
  · have hlast : left ++ .openBrace :: opening (ps ++ [p]) =
        (left ++ .openBrace :: (opening ps ++ p)) ++ [.comma] := by simp [opening]
    rw [List.concat_eq_append, EndsWithNumber, hlast, List.getLast?_concat]
    simp [Token.IsNumber]

section

variable {s : Source} {left right t : List Token} {ps qs : List (List Token)}

/-- Before a member there is a place for others with a comma. -/
theorem exists_place_before (h : tokens s = around left right (ps ++ qs)) (hqs : qs ≠ []) :
    ∃ p q, s = p ++ q ∧ ∀ w os, os ≠ [] → Gives w (separated os) →
      tokens (p ++ ((w ++ [some ',']) ++ q)) = around left right (ps ++ (os ++ qs)) := by
  have hs : tokens s = (left ++ .openBrace :: opening ps) ++
      (separated qs ++ .closeBrace :: right) := by
    simpa [around, separated_eq_opening ps hqs] using h
  obtain ⟨p, q, rfl, -, hq, hcut⟩ := exists_cut hs (by simp)
  refine ⟨p, q, rfl, fun w os hos hw => ?_⟩
  calc tokens (p ++ ((w ++ [some ',']) ++ q))
      = (left ++ .openBrace :: opening ps) ++ tokens (w ++ some ',' :: q) := by
        rw [hcut _ fun h => absurd h (not_endsWithNumber_opening left ps), List.append_assoc w]
        rfl
    _ = (left ++ .openBrace :: opening ps) ++ (separated os ++ .comma :: tokens q) := by
        rw [hw _ (endsNumber_comma _), tokens_comma]
    _ = around left right (ps ++ (os ++ qs)) := by
        rw [hq, around, separated_eq_opening ps (by simp [hqs]), separated_append hos hqs]
        simp

theorem exists_place_after (h : tokens s = around left right ps) (hps : ps ≠ []) :
    ∃ p q, s = p ++ q ∧ ∀ w os, os ≠ [] → Gives w (separated os) →
      tokens (p ++ ((some ',' :: w) ++ q)) = around left right (ps ++ os) := by
  have hs : tokens s = (left ++ .openBrace :: separated ps) ++ .closeBrace :: right := by
    simpa [around] using h
  obtain ⟨p, q, rfl, -, hq, hcut⟩ := exists_cut hs (by simp)
  refine ⟨p, q, rfl, fun w os hos hw => ?_⟩
  calc tokens (p ++ ((some ',' :: w) ++ q))
      = (left ++ .openBrace :: separated ps) ++ tokens (some ',' :: (w ++ q)) :=
        hcut _ fun _ => endsNumber_comma _
    _ = (left ++ .openBrace :: separated ps) ++ .comma :: (separated os ++ tokens q) := by
        rw [tokens_comma, hw q (endsNumber_of_tokens_mark hq rfl)]
    _ = around left right (ps ++ os) := by
        rw [hq, around, separated_append hps hos]
        simp

theorem exists_place_alone (h : tokens s = around left right []) :
    ∃ p q, s = p ++ q ∧ ∀ w os, Gives w (separated os) →
      tokens (p ++ (w ++ q)) = around left right os := by
  have hopen : ¬ EndsWithNumber (left ++ [.openBrace]) := not_endsWithNumber_opening left []
  have hs : tokens s = (left ++ [.openBrace]) ++ .closeBrace :: right := by
    simpa [around] using h
  obtain ⟨p, q, rfl, -, hq, hcut⟩ := exists_cut hs (by simp)
  refine ⟨p, q, rfl, fun w os hw => ?_⟩
  calc tokens (p ++ (w ++ q))
      = (left ++ [.openBrace]) ++ tokens (w ++ q) := hcut _ fun h => absurd h hopen
    _ = (left ++ [.openBrace]) ++ (separated os ++ tokens q) := by
        rw [hw q (endsNumber_of_tokens_mark hq rfl)]
    _ = around left right os := by
        rw [hq, around]
        simp

/-- A member before others is taken out with the comma after it. -/
theorem exists_member_before (h : tokens s = around left right (ps ++ t :: qs)) (hqs : qs ≠ []) :
    ∃ p w q, s = p ++ ((w ++ [some ',']) ++ q) ∧ Gives w t ∧
      tokens (p ++ q) = around left right (ps ++ qs) := by
  have hs : tokens s = (left ++ .openBrace :: opening ps) ++
      (t ++ .comma :: (separated qs ++ .closeBrace :: right)) := by
    simpa [around, separated_eq_opening ps, separated_cons hqs] using h
  obtain ⟨p, r, rfl, -, hr, hcut⟩ := exists_cut hs (by simp)
  obtain ⟨w, r', rfl, -, hr', hcut'⟩ := exists_cut hr (by simp)
  obtain ⟨bs, q, rfl, hbs, hq⟩ := exists_of_tokens_mark hr' rfl
  have hw : Gives w t := fun z hz => hcut' z fun _ => hz
  refine ⟨p, w ++ bs.map some, q, by simp, hw.append_blanks hbs, ?_⟩
  rw [hcut _ fun h => absurd h (not_endsWithNumber_opening left ps), hq, around,
    separated_eq_opening ps hqs]
  simp

theorem exists_member_after (h : tokens s = around left right (ps ++ [t])) (hps : ps ≠ []) :
    ∃ p w q, s = p ++ ((some ',' :: w) ++ q) ∧ Gives w t ∧
      tokens (p ++ q) = around left right ps := by
  have hs : tokens s = (left ++ .openBrace :: separated ps) ++
      .comma :: (t ++ .closeBrace :: right) := by
    simpa [around, separated_append hps] using h
  obtain ⟨p, r, rfl, -, hr, hcut⟩ := exists_cut hs (by simp)
  obtain ⟨bs, r', rfl, hbs, hr'⟩ := exists_of_tokens_mark hr rfl
  obtain ⟨w, q, rfl, -, hq, hcut'⟩ := exists_cut hr' (by simp)
  have hends : EndsNumber q := endsNumber_of_tokens_mark hq rfl
  refine ⟨p ++ bs.map some, w, q, by simp, fun z hz => hcut' z fun _ => hz, ?_⟩
  rw [List.append_assoc, hcut _ fun _ => endsNumber_blanks hbs hends, tokens_blanks hbs, hq, around]
  simp

theorem exists_member_alone (h : tokens s = around left right [t]) :
    ∃ p w q, s = p ++ (w ++ q) ∧ Gives w t ∧ tokens (p ++ q) = around left right [] := by
  have hopen : ¬ EndsWithNumber (left ++ [.openBrace]) := not_endsWithNumber_opening left []
  have hs : tokens s = (left ++ [.openBrace]) ++ (t ++ .closeBrace :: right) := by
    simpa [around] using h
  obtain ⟨p, r, rfl, -, hr, hcut⟩ := exists_cut hs (by simp)
  obtain ⟨w, q, rfl, -, hq, hcut'⟩ := exists_cut hr (by simp)
  refine ⟨p, w, q, rfl, fun z hz => hcut' z fun _ => hz, ?_⟩
  rw [hcut _ fun h => absurd h hopen, hq, around]
  simp

end

/-- Members as they are put between others, with a comma towards those after them or else towards
those before. -/
def joint (before after : List (Key × Node)) (w : Source) : Source :=
  match before, after with
  | _, _ :: _ => w ++ [some ',']
  | _ :: _, [] => some ',' :: w
  | [], [] => w

theorem ne_nil_of_forall₂ {α β : Type} {R : α → β → Prop} {as : List α} {bs : List β}
    (h : List.Forall₂ R as bs) (ha : as ≠ []) : bs ≠ [] := by
  cases h with
  | nil => exact absurd rfl ha
  | cons => simp

section

variable {frame : Node → Node} {s : Source} {before after : List (Key × Node)}

theorem exists_joint_place {left right : List Token} {ps qs : List (List Token)}
    (hps : List.Forall₂ Node.MemberSpelled before ps)
    (hqs : List.Forall₂ Node.MemberSpelled after qs)
    (h : tokens s = around left right (ps ++ qs)) :
    ∃ head tail, s = head ++ tail ∧ ∀ w os, os ≠ [] → Gives w (separated os) →
      tokens (head ++ (joint before after w ++ tail)) =
        around left right (ps ++ (os ++ qs)) := by
  cases hqs with
  | cons => exact exists_place_before h (by simp)
  | nil =>
    rw [List.append_nil] at h
    simp only [List.append_nil]
    cases hps with
    | cons => exact exists_place_after h (by simp)
    | nil =>
      obtain ⟨head, tail, rfl, hplace⟩ := exists_place_alone h
      exact ⟨head, tail, rfl, fun w os _ hw => hplace w os hw⟩

theorem exists_joint_member {left right t : List Token} {ps qs : List (List Token)}
    (hps : List.Forall₂ Node.MemberSpelled before ps)
    (hqs : List.Forall₂ Node.MemberSpelled after qs)
    (h : tokens s = around left right (ps ++ t :: qs)) :
    ∃ head w tail, s = head ++ (joint before after w ++ tail) ∧ Gives w t ∧
      tokens (head ++ tail) = around left right (ps ++ qs) := by
  cases hqs with
  | cons => exact exists_member_before h (by simp)
  | nil =>
    rw [List.append_nil]
    cases hps with
    | cons => exact exists_member_after h (by simp)
    | nil => exact exists_member_alone h

/-- In every object of a text there is a place between any two members, and at either end, where
others can be put. -/
theorem exists_insertion (hframe : Framed frame)
    (hd : Document.ofSource s = ⟨frame (.object (before ++ after) true), false⟩)
    (hc : (frame (.object (before ++ after) true)).complete = true) :
    ∃ head tail, s = head ++ tail ∧ ∀ others w, others ≠ [] →
      Node.completeMembers others = true → MembersText w others →
      Document.ofSource (head ++ (joint before after w ++ tail)) =
        ⟨frame (.object (before ++ (others ++ after)) true), false⟩ := by
  obtain ⟨left, parts, right, hparts, hs, hdoc⟩ := exists_tokens_around hframe hd hc
  obtain ⟨ps, qs, rfl, hps, hqs⟩ := exists_of_forall₂_append hparts
  obtain ⟨head, tail, rfl, hplace⟩ := exists_joint_place hps hqs hs
  refine ⟨head, tail, rfl, fun others w hothers hcothers hw => ?_⟩
  obtain ⟨os, hos, hgives⟩ := hw.exists_tokens hcothers
  exact hdoc _ _ _ (List.rel_append hps (List.rel_append hos hqs))
    (hplace w os (ne_nil_of_forall₂ hos hothers) hgives)

/-- Every member of an object in a text can be taken out of it, with the comma after it or else
with the one before. -/
theorem exists_deletion (hframe : Framed frame) {m : Key × Node}
    (hd : Document.ofSource s = ⟨frame (.object (before ++ m :: after) true), false⟩)
    (hc : (frame (.object (before ++ m :: after) true)).complete = true) :
    ∃ head w tail, s = head ++ (joint before after w ++ tail) ∧ MembersText w [m] ∧
      Document.ofSource (head ++ tail) = ⟨frame (.object (before ++ after) true), false⟩ := by
  obtain ⟨left, parts, right, hparts, hs, hdoc⟩ := exists_tokens_around hframe hd hc
  obtain ⟨ps, t, qs, rfl, hps, ht, hqs⟩ := exists_of_forall₂_append_cons hparts
  obtain ⟨head, w, tail, rfl, hw, htokens⟩ := exists_joint_member hps hqs hs
  exact ⟨head, w, tail, rfl, membersText_of_gives ht hw,
    hdoc _ _ _ (List.rel_append hps hqs) htokens⟩

end

end CaptureAudit.Json
