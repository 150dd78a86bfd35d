import Mathlib.Data.List.Forall2
import CaptureAudit.Json.Node

/-! Which tokens spell a node. The parser finds a node wherever its tokens stand, and a complete
node that it finds is spelled by the tokens it was found in. -/

namespace CaptureAudit.Json

/-- The parts of an array or object, with commas between them. -/
def separated (parts : List (List Token)) : List Token :=
  [Token.comma].intercalate parts

@[simp] theorem separated_nil : separated [] = [] := List.intercalate_nil

@[simp] theorem separated_singleton (p : List Token) : separated [p] = p :=
  List.intercalate_singleton

theorem separated_cons {p : List Token} {ps : List (List Token)} (h : ps ≠ []) :
    separated (p :: ps) = p ++ .comma :: separated ps := by
  rw [separated, List.intercalate_cons_of_ne_nil h, List.append_assoc]
  rfl

theorem separated_append {ps qs : List (List Token)} (hp : ps ≠ []) (hq : qs ≠ []) :
    separated (ps ++ qs) = separated ps ++ .comma :: separated qs := by
  induction ps with
  | nil => exact absurd rfl hp
  | cons p ps ih =>
    rw [List.cons_append, separated_cons (by simp [hq])]
    cases ps with
    | nil => simp
    | cons p' ps => simpa [separated_cons (List.cons_ne_nil p' ps)] using ih (by simp)

theorem exists_separated_cons (p : List Token) (ps : List (List Token)) :
    ∃ z, separated (p :: ps) = p ++ z := by
  cases ps with
  | nil => exact ⟨[], by rw [separated_singleton, List.append_nil]⟩
  | cons q qs => exact ⟨_, separated_cons (List.cons_ne_nil q qs)⟩

mutual

def Node.Spelled : Node → List Token → Prop
  | .null, ts => ts = [.null]
  | .bool b, ts => ts = [.bool b]
  | .number n, ts => ts = [.number (some n)]
  | .text s, ts => ts = [.text (some s)]
  | .flawed, ts => ts = [.number none] ∨ ts = [.text none]
  | .array items closed, ts =>
    closed = true ∧ ∃ parts, Node.ItemsSpelled items parts ∧
      ts = .openBracket :: (separated parts ++ [.closeBracket])
  | .object members closed, ts =>
    closed = true ∧ ∃ parts, Node.MembersSpelled members parts ∧
      ts = .openBrace :: (separated parts ++ [.closeBrace])
  | .broken, _ => False

def Node.ItemsSpelled : List Node → List (List Token) → Prop
  | [], parts => parts = []
  | v :: vs, parts => ∃ p ps, v.Spelled p ∧ Node.ItemsSpelled vs ps ∧ parts = p :: ps

def Node.MembersSpelled : List (Key × Node) → List (List Token) → Prop
  | [], parts => parts = []
  | (k, v) :: ms, parts =>
    ∃ t p ps, k = .ofText t ∧ v.Spelled p ∧ Node.MembersSpelled ms ps ∧
      parts = (.text t :: .colon :: p) :: ps

end

/-- The tokens spell a name, a colon and a value. -/
def Node.MemberSpelled (m : Key × Node) (ts : List Token) : Prop :=
  ∃ t p, m.1 = .ofText t ∧ m.2.Spelled p ∧ ts = .text t :: .colon :: p

theorem Node.itemsSpelled_iff {items : List Node} {parts : List (List Token)} :
    Node.ItemsSpelled items parts ↔ List.Forall₂ Node.Spelled items parts := by
  induction items generalizing parts with
  | nil => simp [Node.ItemsSpelled]
  | cons v vs ih => simp [Node.ItemsSpelled, List.forall₂_cons_left_iff, ih]

theorem Node.membersSpelled_iff {members : List (Key × Node)} {parts : List (List Token)} :
    Node.MembersSpelled members parts ↔ List.Forall₂ Node.MemberSpelled members parts := by
  induction members generalizing parts with
  | nil => simp [Node.MembersSpelled]
  | cons m ms ih =>
    simp only [Node.MembersSpelled, List.forall₂_cons_left_iff, ih, Node.MemberSpelled]
    constructor
    · rintro ⟨t, p, ps, hk, hv, hms, rfl⟩
      exact ⟨_, ps, ⟨t, p, hk, hv, rfl⟩, hms, rfl⟩
    · rintro ⟨_, ps, ⟨t, p, hk, hv, rfl⟩, hms, rfl⟩
      exact ⟨t, p, ps, hk, hv, hms, rfl⟩

theorem Node.Spelled.exists_cons {v : Node} {ts : List Token} (h : v.Spelled ts) :
    ∃ t r, ts = t :: r ∧ t ≠ .closeBracket ∧ t ≠ .closeBrace := by
  cases v with
  | array items closed =>
    obtain ⟨-, parts, -, rfl⟩ := h
    exact ⟨.openBracket, _, rfl, by simp, by simp⟩
  | object members closed =>
    obtain ⟨-, parts, -, rfl⟩ := h
    exact ⟨.openBrace, _, rfl, by simp, by simp⟩
  | flawed => rcases h with rfl | rfl <;> exact ⟨_, _, rfl, by simp, by simp⟩
  | broken => exact h.elim
  | _ => exact ⟨_, _, h, by simp, by simp⟩

/-- An array that is not empty begins with an item. -/
theorem Node.parse_openBracket {v : Node} {ts : List Token} (hv : v.Spelled ts) (fuel : Nat)
    (r : List Token) :
    Node.parse (fuel + 1) (.openBracket :: (ts ++ r)) =
      (.array (Node.parseItems fuel (ts ++ r)).1 (Node.parseItems fuel (ts ++ r)).2.1,
        (Node.parseItems fuel (ts ++ r)).2.2) := by
  obtain ⟨t, ts, rfl, hne, -⟩ := hv.exists_cons
  cases t <;> first | rfl | exact absurd rfl hne

theorem Node.parse_openBrace (fuel : Nat) (k : Option String) (r : List Token) :
    Node.parse (fuel + 1) (.openBrace :: .text k :: r) =
      (.object (Node.parseMembers fuel (.text k :: r)).1
          (Node.parseMembers fuel (.text k :: r)).2.1,
        (Node.parseMembers fuel (.text k :: r)).2.2) := rfl

mutual

theorem Node.parse_spelled (v : Node) {ts : List Token} (h : v.Spelled ts) {n : Nat}
    (r : List Token) (hn : 2 * ts.length ≤ n) : Node.parse n (ts ++ r) = (v, r) := by
  obtain ⟨n, rfl⟩ : ∃ k, n = k + 1 := by
    obtain ⟨t, ts, rfl, -⟩ := h.exists_cons
    simp only [List.length_cons] at hn
    exact ⟨n - 1, by omega⟩
  match v, h with
  | .null, h => rw [h]; rfl
  | .bool b, h => rw [h]; rfl
  | .number k, h => rw [h]; rfl
  | .text s, h => rw [h]; rfl
  | .flawed, h => rcases h with rfl | rfl <;> rfl
  | .array [] _, h =>
    obtain ⟨rfl, _, rfl, rfl⟩ := h
    rfl
  | .object [] _, h =>
    obtain ⟨rfl, _, rfl, rfl⟩ := h
    rfl
  | .array (v :: vs) _, h =>
    obtain ⟨rfl, _, ⟨p, ps, hv, hvs, rfl⟩, rfl⟩ := h
    simp only [List.length_cons, List.length_append, List.length_nil] at hn
    have hitems := Node.parse_items v vs hv hvs (n := n) r (by omega)
    obtain ⟨z, hz⟩ := exists_separated_cons p ps
    simp only [hz, List.cons_append, List.append_assoc, List.nil_append] at hitems ⊢
    rw [Node.parse_openBracket hv, hitems]
  | .object ((k, v) :: ms) _, h =>
    obtain ⟨rfl, _, ⟨t, p, ps, rfl, hv, hms, rfl⟩, rfl⟩ := h
    simp only [List.length_cons, List.length_append, List.length_nil] at hn
    have hmembers := Node.parse_members t v ms hv hms (n := n) r (by omega)
    obtain ⟨z, hz⟩ := exists_separated_cons (.text t :: .colon :: p) ps
    simp only [hz, List.cons_append, List.append_assoc, List.nil_append] at hmembers ⊢
    rw [Node.parse_openBrace, hmembers]
  termination_by n

theorem Node.parse_items (v : Node) (vs : List Node) {p : List Token} {ps : List (List Token)}
    (hv : v.Spelled p) (hvs : Node.ItemsSpelled vs ps) {n : Nat} (r : List Token)
    (hn : 2 * (separated (p :: ps)).length + 1 ≤ n) :
    Node.parseItems n (separated (p :: ps) ++ .closeBracket :: r) = (v :: vs, true, r) := by
  obtain ⟨n, rfl⟩ : ∃ k, n = k + 1 := ⟨n - 1, by omega⟩
  match vs, hvs with
  | [], hvs =>
    obtain rfl := hvs
    rw [separated_singleton] at hn ⊢
    rw [Node.parseItems, Node.parse_spelled v hv _ (by omega)]
  | w :: ws, hvs =>
    obtain ⟨q, qs, hw, hws, rfl⟩ := hvs
    rw [separated_cons (by simp)] at hn ⊢
    simp only [List.length_append, List.length_cons] at hn
    have hrest := Node.parse_items w ws hw hws (n := n) r (by omega)
    rw [List.append_assoc, List.cons_append, Node.parseItems, Node.parse_spelled v hv _ (by omega)]
    simp only [hrest]
  termination_by n

theorem Node.parse_members (t : Option String) (v : Node) (ms : List (Key × Node))
    {p : List Token} {ps : List (List Token)} (hv : v.Spelled p)
    (hms : Node.MembersSpelled ms ps) {n : Nat} (r : List Token)
    (hn : 2 * (separated ((.text t :: .colon :: p) :: ps)).length + 1 ≤ n) :
    Node.parseMembers n (separated ((.text t :: .colon :: p) :: ps) ++ .closeBrace :: r) =
      ((.ofText t, v) :: ms, true, r) := by
  obtain ⟨n, rfl⟩ : ∃ k, n = k + 1 := ⟨n - 1, by omega⟩
  match ms, hms with
  | [], hms =>
    obtain rfl := hms
    rw [separated_singleton] at hn ⊢
    simp only [List.length_cons] at hn
    simp only [List.cons_append]
    rw [Node.parseMembers, Node.parse_spelled v hv _ (by omega)]
  | (_, w) :: ws, hms =>
    obtain ⟨u, q, qs, rfl, hw, hws, rfl⟩ := hms
    rw [separated_cons (by simp)] at hn ⊢
    simp only [List.length_append, List.length_cons] at hn
    have hrest := Node.parse_members u w ws hw hws (n := n) r (by omega)
    simp only [List.append_assoc, List.cons_append]
    rw [Node.parseMembers, Node.parse_spelled v hv _ (by omega)]
    simp only [hrest]
  termination_by n

end

/-- With so much fuel, what is found complete is spelled by the tokens it was found in. -/
structure FoundSpelled (n : Nat) : Prop where
  node {ts r : List Token} {v : Node} : Node.parse n ts = (v, r) → v.complete = true →
    ∃ p, ts = p ++ r ∧ v.Spelled p
  items {t r : List Token} {vs : List Node} : Node.parseItems n t = (vs, true, r) →
    Node.completeItems vs = true →
    ∃ parts, t = separated parts ++ .closeBracket :: r ∧ parts ≠ [] ∧ Node.ItemsSpelled vs parts
  members {t r : List Token} {ms : List (Key × Node)} :
    Node.parseMembers n t = (ms, true, r) → Node.completeMembers ms = true →
    ∃ parts, t = separated parts ++ .closeBrace :: r ∧ parts ≠ [] ∧ Node.MembersSpelled ms parts

theorem FoundSpelled.node_succ {n : Nat} (ih : FoundSpelled n) {ts r : List Token} {v : Node}
    (h : Node.parse (n + 1) ts = (v, r)) (hc : v.complete = true) :
    ∃ p, ts = p ++ r ∧ v.Spelled p := by
  unfold Node.parse at h
  split at h <;> obtain ⟨rfl, rfl⟩ := Prod.mk.inj h
  · exact ⟨_, rfl, rfl⟩
  · exact ⟨_, rfl, rfl⟩
  · exact ⟨_, rfl, rfl⟩
  · exact ⟨[_], rfl, .inl rfl⟩
  · exact ⟨_, rfl, rfl⟩
  · exact ⟨[_], rfl, .inr rfl⟩
  · exact ⟨[.openBracket, .closeBracket], rfl, rfl, [], rfl, rfl⟩
  · next tail _ he =>
    obtain rfl := Nat.succ.inj he
    obtain ⟨hitems, hclosed⟩ := Bool.and_eq_true_iff.mp hc
    have hfound := ih.items (t := tail) (Prod.ext rfl (Prod.ext hclosed rfl)) hitems
    obtain ⟨parts, htail, -, hparts⟩ := hfound
    refine ⟨.openBracket :: (separated parts ++ [.closeBracket]), ?_, hclosed, parts, hparts, rfl⟩
    simpa using htail
  · exact ⟨[.openBrace, .closeBrace], rfl, rfl, [], rfl, rfl⟩
  · next tail _ he =>
    obtain rfl := Nat.succ.inj he
    obtain ⟨hmembers, hclosed⟩ := Bool.and_eq_true_iff.mp hc
    have hfound := ih.members (t := tail) (Prod.ext rfl (Prod.ext hclosed rfl)) hmembers
    obtain ⟨parts, htail, -, hparts⟩ := hfound
    refine ⟨.openBrace :: (separated parts ++ [.closeBrace]), ?_, hclosed, parts, hparts, rfl⟩
    simpa using htail
  · exact absurd hc (by simp [Node.complete])

theorem FoundSpelled.items_succ {n : Nat} (ih : FoundSpelled n) {ts r : List Token}
    {vs : List Node} (h : Node.parseItems (n + 1) ts = (vs, true, r))
    (hc : Node.completeItems vs = true) :
    ∃ parts, ts = separated parts ++ .closeBracket :: r ∧ parts ≠ [] ∧
      Node.ItemsSpelled vs parts := by
  unfold Node.parseItems at h
  split at h
  · next v tail hv =>
    obtain ⟨rfl, hrest⟩ := Prod.mk.inj h
    obtain ⟨hcv, hcvs⟩ := Bool.and_eq_true_iff.mp hc
    obtain ⟨p, rfl, hp⟩ := ih.node hv hcv
    obtain ⟨parts, rfl, hne, hparts⟩ := ih.items (t := tail) (Prod.ext rfl hrest) hcvs
    refine ⟨p :: parts, ?_, by simp, p, parts, hp, hparts, rfl⟩
    rw [separated_cons hne, List.append_assoc, List.cons_append]
  · next v tail hv =>
    obtain ⟨rfl, rfl⟩ : [v] = vs ∧ tail = r := by simpa using h
    obtain ⟨p, rfl, hp⟩ := ih.node hv (by simpa [Node.completeItems] using hc)
    exact ⟨[p], by rw [separated_singleton], by simp, p, [], hp, rfl, rfl⟩
  · exact absurd h (by simp)

theorem FoundSpelled.members_succ {n : Nat} (ih : FoundSpelled n) {ts r : List Token}
    {ms : List (Key × Node)} (h : Node.parseMembers (n + 1) ts = (ms, true, r))
    (hc : Node.completeMembers ms = true) :
    ∃ parts, ts = separated parts ++ .closeBrace :: r ∧ parts ≠ [] ∧
      Node.MembersSpelled ms parts := by
  unfold Node.parseMembers at h
  split at h
  · exact absurd h (by simp)
  · next n' k tail he =>
    obtain rfl := Nat.succ.inj he
    split at h
    · next v rest hv =>
      obtain ⟨rfl, hrest⟩ := Prod.mk.inj h
      simp only [Node.completeMembers, Bool.and_eq_true] at hc
      obtain ⟨p, rfl, hp⟩ := ih.node hv hc.1.2
      obtain ⟨parts, rfl, hne, hparts⟩ := ih.members (t := rest) (Prod.ext rfl hrest) hc.2
      refine ⟨(.text k :: .colon :: p) :: parts, ?_, by simp, k, p, parts, rfl, hp, hparts, rfl⟩
      simp [separated_cons hne]
    · next v rest hv =>
      obtain ⟨rfl, rfl⟩ : [(Key.ofText k, v)] = ms ∧ rest = r := by simpa using h
      simp only [Node.completeMembers, Bool.and_eq_true] at hc
      obtain ⟨p, rfl, hp⟩ := ih.node hv hc.1.2
      exact ⟨[.text k :: .colon :: p], by simp, by simp, k, p, [], rfl, hp, rfl, rfl⟩
    · exact absurd h (by simp)
  · exact absurd h (by simp)
  · exact absurd h (by simp)

theorem foundSpelled (n : Nat) : FoundSpelled n := by
  induction n with
  | zero =>
    refine ⟨fun h hc => ?_, fun h hc => ?_, fun h hc => ?_⟩
    · obtain ⟨rfl, -⟩ := Prod.mk.inj h
      exact absurd hc (by simp [Node.complete])
    · exact absurd h (by simp [Node.parseItems])
    · exact absurd h (by simp [Node.parseMembers])
  | succ n ih => exact ⟨ih.node_succ, ih.items_succ, ih.members_succ⟩

theorem Document.ofTokens_spelled {ts : List Token} {v : Node} (h : v.Spelled ts) :
    Document.ofTokens ts = ⟨v, false⟩ := by
  have hparse := Node.parse_spelled v h [] (n := 2 * ts.length + 2) (by omega)
  rw [List.append_nil] at hparse
  simp [Document.ofTokens, hparse]

theorem Document.spelled_of_ofTokens {ts : List Token} {v : Node}
    (h : Document.ofTokens ts = ⟨v, false⟩) (hc : v.complete = true) : v.Spelled ts := by
  obtain ⟨hroot, htrailing⟩ := Document.mk.inj h
  have hnone : (Node.parse (2 * ts.length + 2) ts).2 = [] := by simpa using htrailing
  obtain ⟨p, rfl, hv⟩ := (foundSpelled _).node (Prod.ext hroot hnone) hc
  rwa [List.append_nil]

end CaptureAudit.Json
