import CaptureAudit.Json.Reader
import CaptureAudit.Proofs.NodeGrammar
import CaptureAudit.Proofs.TextToken
import CaptureAudit.Proofs.WrittenNumber

/-! The written form of a value, on one line or on many, is read as a whole document: its tree has
the shape of the value, and nothing follows it. Only numbers may come back as other numbers. -/

namespace CaptureAudit.Json

open Text (Source)

theorem tokens_of_tokenAt {c : Char} {r rest : Source} {t : Token} (hb : isBlank c = false)
    (h : tokenAt c r = some (t, rest)) : tokens (some c :: r) = t :: tokens rest := by
  rw [tokens]
  simp only [hb, Bool.false_eq_true, if_false]
  split
  · next t' rest' h' =>
    obtain ⟨rfl, rfl⟩ : t = t' ∧ rest = rest' := by simpa [h'] using h.symm
    rfl
  · next h' => simp [h'] at h

theorem tokens_blanks {bs : List Char} (hb : ∀ b ∈ bs, isBlank b = true) (r : Source) :
    tokens (bs.map some ++ r) = tokens r := by
  induction bs with
  | nil => rfl
  | cons b bs ih =>
    rw [List.map_cons, List.cons_append, tokens, if_pos (hb b (by simp))]
    exact ih fun x hx => hb x (by simp [hx])

theorem isBlank_of_mem_lead {l : Layout} {level : Nat} : ∀ c ∈ l.lead level, isBlank c = true := by
  intro c h
  cases l with
  | compact => simp [Layout.lead] at h
  | pretty =>
    rcases List.mem_cons.mp h with rfl | h
    · rfl
    · rw [List.eq_of_mem_replicate h]
      rfl

theorem endsNumber_lead (l : Layout) (level : Nat) {c : Char} {r : Source}
    (h : EndsNumber (some c :: r)) : EndsNumber ((l.lead level).map some ++ some c :: r) := by
  cases l with
  | compact => exact h
  | pretty => exact ⟨by decide, by decide, by decide, by decide⟩

theorem tokens_colon (l : Layout) (r : Source) :
    tokens (l.colon.map some ++ r) = .colon :: tokens r := by
  cases l with
  | compact => exact tokens_of_tokenAt (by decide) (by rfl)
  | pretty =>
    refine (tokens_of_tokenAt (by decide) (by rfl)).trans ?_
    exact congrArg _ (tokens_blanks (by simp [isBlank]) r)

theorem tokens_text (s : String) (r : Source) :
    tokens ((textChars s).map some ++ r) = .text (some s) :: tokens r := by
  have ht := textToken_append s r
  refine tokens_of_tokenAt (by decide) ?_
  simpa [tokenAt] using ht

/-- A character with which a number begins begins nothing else. -/
theorem tokenAt_number {c : Char} (h : c = '-' ∨ c.isDigit = true) :
    isBlank c = false ∧ ∀ r, tokenAt c r = numberToken (some c :: r) := by
  have hne : ∀ d, (d = '-' ∨ d.isDigit = true) = False → c ≠ d := by
    rintro d hd rfl
    exact hd ▸ h
  constructor
  · simp [isBlank, hne ' ' (by decide), hne '\n' (by decide), hne '\t' (by decide),
      hne '\r' (by decide)]
  · intro r
    simp [tokenAt, hne '\x7b' (by decide), hne '\x7d' (by decide), hne '[' (by decide),
      hne ']' (by decide), hne ':' (by decide), hne ',' (by decide), hne '"' (by decide),
      hne 'n' (by decide), hne 't' (by decide), hne 'f' (by decide)]

theorem Numeral.exists_chars {n : Numeral} (hn : n.Valid) :
    ∃ c cs, n.chars = c :: cs ∧ (c = '-' ∨ c.isDigit = true) := by
  cases hneg : n.negative with
  | true => exact ⟨'-', _, by simp [chars, hneg]; rfl, .inl rfl⟩
  | false =>
    cases hw : n.whole with
    | nil => exact absurd hw hn.whole_ne_nil
    | cons d ds =>
      exact ⟨d, _, by simp [chars, hneg, hw]; rfl, .inr (hn.digits_whole d (by simp [hw]))⟩

theorem tokens_numeral {n : Numeral} (hn : n.Valid) {r : Source} (hr : EndsNumber r) :
    tokens (n.chars.map some ++ r) = .number n.value :: tokens r := by
  obtain ⟨c, cs, hc, hstart⟩ := Numeral.exists_chars hn
  obtain ⟨hb, hat⟩ := tokenAt_number hstart
  have ht := Numeral.numberToken_append hn hr
  rw [hc] at ht ⊢
  exact tokens_of_tokenAt hb ((hat _).trans ht)

/-- What a number is read as once it is written. -/
def Number.token (n : Number) : Token :=
  if n.isFinite then .number n.numeral.value else .null

theorem tokens_number (n : Number) {r : Source} (hr : EndsNumber r) :
    tokens ((numberChars n).map some ++ r) = n.token :: tokens r := by
  rw [numberChars_eq, Number.token]
  split
  · exact tokens_numeral (valid_numeral n) hr
  · exact tokens_of_tokenAt (by decide) (by rfl)

mutual

def Value.tokens : Value → List Token
  | .null => [.null]
  | .bool b => [.bool b]
  | .number n => [n.token]
  | .text s => [.text (some s)]
  | .array [] => [.openBracket, .closeBracket]
  | .array (v :: vs) => .openBracket :: v.tokens ++ itemsTokens vs ++ [.closeBracket]
  | .object [] => [.openBrace, .closeBrace]
  | .object ((k, v) :: ms) =>
    .openBrace :: .text (some k) :: .colon :: v.tokens ++ membersTokens ms ++ [.closeBrace]

def itemsTokens : List Value → List Token
  | [] => []
  | v :: vs => .comma :: v.tokens ++ itemsTokens vs

def membersTokens : List (String × Value) → List Token
  | [] => []
  | (k, v) :: ms => .comma :: .text (some k) :: .colon :: v.tokens ++ membersTokens ms

end

theorem endsNumber_comma (r : Source) : EndsNumber (some ',' :: r) :=
  ⟨by decide, by decide, by decide, by decide⟩

theorem endsNumber_items (l : Layout) (level : Nat) (vs : List Value) {r : Source}
    (hr : EndsNumber r) : EndsNumber ((itemsChars l level vs).map some ++ r) := by
  cases vs with
  | nil => exact hr
  | cons v vs => exact endsNumber_comma _

theorem endsNumber_members (l : Layout) (level : Nat) (ms : List (String × Value)) {r : Source}
    (hr : EndsNumber r) : EndsNumber ((membersChars l level ms).map some ++ r) := by
  cases ms with
  | nil => exact hr
  | cons m ms => exact endsNumber_comma _

/-- The end of an array or object, on a line of its own or not. -/
theorem tokens_close (l : Layout) (level : Nat) {c : Char} {t : Token} {r : Source}
    (hb : isBlank c = false) (h : tokenAt c r = some (t, r)) :
    tokens ((l.lead level).map some ++ some c :: r) = t :: Json.tokens r := by
  rw [tokens_blanks isBlank_of_mem_lead]
  exact tokens_of_tokenAt hb h

/-- An item or member starts on a line of its own or not. -/
theorem tokens_lead (l : Layout) (level : Nat) (r : Source) :
    tokens ((l.lead level).map some ++ r) = tokens r :=
  tokens_blanks isBlank_of_mem_lead r

theorem tokens_name (l : Layout) (k : String) (r : Source) :
    tokens ((textChars k).map some ++ (l.colon.map some ++ r)) =
      .text (some k) :: .colon :: tokens r := by
  rw [tokens_text, tokens_colon]

mutual

theorem Value.tokens_chars (l : Layout) (level : Nat) (v : Value) {r : Source}
    (hr : EndsNumber r) :
    Json.tokens ((v.chars l level).map some ++ r) = v.tokens ++ Json.tokens r :=
  match v with
  | .null => tokens_of_tokenAt (by decide) (by rfl)
  | .bool true => tokens_of_tokenAt (by decide) (by rfl)
  | .bool false => tokens_of_tokenAt (by decide) (by rfl)
  | .number n => tokens_number n hr
  | .text s => tokens_text s r
  | .array [] =>
    (tokens_of_tokenAt (by decide) (by rfl)).trans
      (congrArg _ (tokens_of_tokenAt (by decide) (by rfl)))
  | .array (v :: vs) => by
    have hclose : EndsNumber ((l.lead level).map some ++ some ']' :: r) :=
      endsNumber_lead l level ⟨by decide, by decide, by decide, by decide⟩
    simp only [Value.chars, Value.tokens, List.map_append, List.map_cons, List.map_nil,
      List.append_assoc, List.cons_append, List.nil_append]
    rw [tokens_of_tokenAt (t := .openBracket) (by decide) (by rfl), tokens_lead,
      v.tokens_chars l (level + 1) (endsNumber_items l (level + 1) vs hclose),
      tokens_itemsChars l (level + 1) vs hclose,
      tokens_close l level (t := .closeBracket) (by decide) (by rfl)]
  | .object [] =>
    (tokens_of_tokenAt (by decide) (by rfl)).trans
      (congrArg _ (tokens_of_tokenAt (by decide) (by rfl)))
  | .object ((k, v) :: ms) => by
    have hclose : EndsNumber ((l.lead level).map some ++ some '\x7d' :: r) :=
      endsNumber_lead l level ⟨by decide, by decide, by decide, by decide⟩
    simp only [Value.chars, Value.tokens, List.map_append, List.map_cons, List.map_nil,
      List.append_assoc, List.cons_append, List.nil_append]
    rw [tokens_of_tokenAt (t := .openBrace) (by decide) (by rfl), tokens_lead, tokens_name,
      v.tokens_chars l (level + 1) (endsNumber_members l (level + 1) ms hclose),
      tokens_membersChars l (level + 1) ms hclose,
      tokens_close l level (t := .closeBrace) (by decide) (by rfl)]

theorem tokens_itemsChars (l : Layout) (level : Nat) (vs : List Value) {r : Source}
    (hr : EndsNumber r) :
    tokens ((itemsChars l level vs).map some ++ r) = itemsTokens vs ++ tokens r :=
  match vs with
  | [] => by rfl
  | v :: vs => by
    simp only [itemsChars, itemsTokens, List.map_append, List.map_cons, List.append_assoc,
      List.cons_append]
    rw [tokens_of_tokenAt (t := .comma) (by decide) (by rfl), tokens_lead,
      v.tokens_chars l level (endsNumber_items l level vs hr), tokens_itemsChars l level vs hr]

theorem tokens_membersChars (l : Layout) (level : Nat) (ms : List (String × Value)) {r : Source}
    (hr : EndsNumber r) :
    tokens ((membersChars l level ms).map some ++ r) = membersTokens ms ++ tokens r :=
  match ms with
  | [] => by rfl
  | (k, v) :: ms => by
    simp only [membersChars, membersTokens, List.map_append, List.map_cons, List.append_assoc,
      List.cons_append]
    rw [tokens_of_tokenAt (t := .comma) (by decide) (by rfl), tokens_lead, tokens_name,
      v.tokens_chars l level (endsNumber_members l level ms hr), tokens_membersChars l level ms hr]

end

/-- The node that a number becomes when it is written and read. -/
def Number.node (n : Number) : Node :=
  if n.isFinite then
    match n.numeral.value with
    | some k => .number k
    | none => .flawed
  else .null

mutual

/-- The tree that a value becomes when it is written and read. -/
def Value.node : Value → Node
  | .null => .null
  | .bool b => .bool b
  | .number n => n.node
  | .text s => .text s
  | .array vs => .array (itemNodes vs) true
  | .object ms => .object (memberNodes ms) true

def itemNodes : List Value → List Node
  | [] => []
  | v :: vs => v.node :: itemNodes vs

def memberNodes : List (String × Value) → List (Key × Node)
  | [] => []
  | (k, v) :: ms => (.name k, v.node) :: memberNodes ms

end

theorem itemNodes_eq_map (vs : List Value) : itemNodes vs = vs.map Value.node := by
  induction vs with
  | nil => rfl
  | cons v vs ih => rw [itemNodes, ih, List.map_cons]

theorem memberNodes_eq_map (ms : List (String × Value)) :
    memberNodes ms = ms.map fun m => (.name m.1, m.2.node) := by
  induction ms with
  | nil => rfl
  | cons m ms ih => rw [memberNodes, ih, List.map_cons]

theorem itemsTokens_eq (v : Value) (vs : List Value) :
    v.tokens ++ itemsTokens vs = separated ((v :: vs).map Value.tokens) := by
  induction vs generalizing v with
  | nil => simp [itemsTokens]
  | cons w ws ih =>
    rw [List.map_cons, separated_cons (by simp), ← ih w]
    rfl

/-- The tokens of a member: its name, a colon and its value. -/
def memberTokens (m : String × Value) : List Token :=
  .text (some m.1) :: .colon :: m.2.tokens

theorem membersTokens_eq (m : String × Value) (ms : List (String × Value)) :
    memberTokens m ++ membersTokens ms = separated ((m :: ms).map memberTokens) := by
  induction ms generalizing m with
  | nil => simp [membersTokens]
  | cons m' ms ih =>
    rw [List.map_cons, separated_cons (by simp), ← ih m']
    rfl

theorem Number.spelled_node (n : Number) : n.node.Spelled [n.token] := by
  simp only [Number.token, Number.node]
  split
  · cases n.numeral.value with
    | some k => rfl
    | none => exact .inl rfl
  · rfl

mutual

/-- A value is spelled by the tokens of its written form. -/
theorem Value.spelled_node (v : Value) : v.node.Spelled v.tokens :=
  match v with
  | .null => rfl
  | .bool _ => rfl
  | .number n => n.spelled_node
  | .text _ => rfl
  | .array [] => ⟨rfl, [], rfl, rfl⟩
  | .object [] => ⟨rfl, [], rfl, rfl⟩
  | .array (v :: vs) => by
    refine ⟨rfl, _, itemNodes_spelled (v :: vs), ?_⟩
    rw [← itemsTokens_eq]
    simp [Value.tokens]
  | .object ((k, v) :: ms) => by
    refine ⟨rfl, _, memberNodes_spelled ((k, v) :: ms), ?_⟩
    rw [← membersTokens_eq]
    simp [Value.tokens, memberTokens]

theorem itemNodes_spelled (vs : List Value) :
    Node.ItemsSpelled (itemNodes vs) (vs.map Value.tokens) :=
  match vs with
  | [] => rfl
  | v :: vs => ⟨_, _, v.spelled_node, itemNodes_spelled vs, rfl⟩

theorem memberNodes_spelled (ms : List (String × Value)) :
    Node.MembersSpelled (memberNodes ms) (ms.map memberTokens) :=
  match ms with
  | [] => rfl
  | (k, v) :: ms => ⟨some k, _, _, rfl, v.spelled_node, memberNodes_spelled ms, rfl⟩

end

theorem Document.ofSource_chars (l : Layout) (v : Value) :
    Document.ofSource ((v.chars l 0).map some) = ⟨v.node, false⟩ := by
  have ht := v.tokens_chars l 0 (r := []) trivial
  rw [List.append_nil] at ht
  rw [Document.ofSource, ht, Json.tokens, List.append_nil]
  exact Document.ofTokens_spelled v.spelled_node

theorem Document.read_node {α : Type} (r : Reader α) (n : Node) :
    Document.read r ⟨n, false⟩ = r n := by
  cases hn : r n <;> simp [Document.read, hn, bind, Except.bind]

/-- Reading a written value is reading its tree. -/
theorem readText_pretty {α : Type} (r : Reader α) (v : Value) : readText r v.pretty = r v.node := by
  have hd : Document.ofText v.pretty = ⟨v.node, false⟩ := by
    rw [← Document.ofSource_chars .pretty]
    simp [Document.ofText, Text.ofText, Value.pretty]
  rw [readText, hd, Document.read_node]

end CaptureAudit.Json
