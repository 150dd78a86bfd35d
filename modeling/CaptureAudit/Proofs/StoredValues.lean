import CaptureAudit.Proofs.FiniteNumbers

/-! What a tunable holds after any calls that set it. A call is accepted by its unit and its text
alone, and what it stores lies in the range of that unit. -/

namespace CaptureAudit

/-- The numbers that an item of this unit may store. -/
def Measure.Admits (unit : Measure) (x : Float) : Prop :=
  x.isFinite = true ∧
    match unit with
    | .percentage => 0 ≤ x ∧ x ≤ 1
    | .uint => 0 ≤ x
    | .int => True

namespace Tunable

open Decimal

variable {unit : Measure} {key text : String} {x : Float}

/-- What a text stores in an item of this unit. -/
def stored? (unit : Measure) (text : String) : Option Float := (accept unit "" text).toOption

/-- What the last accepted text stores. -/
def lastStored? (unit : Measure) (texts : List String) : Option Float :=
  texts.reverse.findSome? (stored? unit)

/-- An item after a call that sets it, which a refusal leaves as it was. -/
def afterSet (t : Tunable) (text : String) : Tunable := (t.set text).toOption.getD t

theorem toOption_readNumber (key key' whole whole' text : String) :
    (readNumber key whole text).toOption = (readNumber key' whole' text).toOption := by
  unfold readNumber
  cases Decimal.read text with
  | error refusal => rfl
  | ok x => by_cases hx : x.isFinite <;> simp only [hx] <;> rfl

theorem toOption_bind {ε ε' : Type} {r : Except ε Float} {r' : Except ε' Float}
    (h : r.toOption = r'.toOption) {f : Float → Except ε Float} {f' : Float → Except ε' Float}
    (hf : ∀ x, (f x).toOption = (f' x).toOption) : (r >>= f).toOption = (r' >>= f').toOption := by
  cases r with
  | error e => cases r' with
    | error e' => rfl
    | ok x => exact absurd h (by simp [Except.toOption])
  | ok x => cases r' with
    | error e' => exact absurd h (by simp [Except.toOption])
    | ok x' =>
      obtain rfl : x = x' := Option.some.inj h
      exact hf x

/-- The key is for the messages of refusals. -/
theorem toOption_accept (unit : Measure) (key text : String) :
    (accept unit key text).toOption = stored? unit text := by
  unfold stored? accept
  have hread := toOption_readNumber key "" text text
  cases unit with
  | int => exact hread _
  | uint =>
    refine toOption_bind (hread _) fun x => ?_
    by_cases hneg : x < 0
    · rw [if_pos hneg, if_pos hneg]
      rfl
    · rw [if_neg hneg, if_neg hneg]
  | percentage =>
    refine toOption_bind (hread _) fun x => ?_
    by_cases hneg : x < 0
    · rw [if_pos hneg, if_pos hneg]
      rfl
    by_cases hlarge : 100 < x
    · rw [if_neg hneg, if_neg hneg, if_pos hlarge, if_pos hlarge]
      rfl
    · rw [if_neg hneg, if_neg hneg, if_neg hlarge, if_neg hlarge]

theorem admits_of_accept (h : accept unit key text = .ok x) : unit.Admits x := by
  refine ⟨isFinite_of_accept h, ?_⟩
  cases unit with
  | int => trivial
  | uint =>
    obtain ⟨y, hread, h⟩ := exists_of_bind_ok h
    by_cases hneg : y < 0
    · exact absurd h (by simp [hneg])
    · obtain rfl : y = x := by simpa [hneg] using h
      obtain ⟨w, hy⟩ := exists_weighs (isFinite_of_readNumber hread) hneg
      exact (weighs_zero.le_iff hy).mpr (Nat.zero_le w)
  | percentage =>
    obtain ⟨w, hone, hx⟩ := exists_weighs_of_accept h
    exact ⟨(weighs_zero.le_iff hx).mpr (Nat.zero_le w), (hx.le_iff weighs_one).mpr hone⟩

theorem admits_of_stored? (h : stored? unit text = some x) : unit.Admits x := by
  cases haccept : accept unit "" text with
  | error e =>
    rw [stored?, haccept] at h
    exact absurd h (by simp [Except.toOption])
  | ok y =>
    rw [stored?, haccept] at h
    obtain rfl : y = x := Option.some.inj h
    exact admits_of_accept haccept

theorem set_cases (t : Tunable) (text : String) :
    (stored? t.unit text = none ∧ (∃ e, t.set text = .error e) ∧ t.afterSet text = t) ∨
      ∃ x, stored? t.unit text = some x ∧ t.set text = .ok { t with override := some x } ∧
        t.afterSet text = { t with override := some x } := by
  have hstored := toOption_accept t.unit t.key text
  cases haccept : accept t.unit t.key text with
  | error e =>
    have hset : t.set text = .error e := by rw [set, haccept]; rfl
    rw [haccept] at hstored
    exact .inl ⟨hstored.symm, ⟨e, hset⟩, by rw [afterSet, hset]; rfl⟩
  | ok x =>
    have hset : t.set text = .ok { t with override := some x } := by rw [set, haccept]; rfl
    rw [haccept] at hstored
    exact .inr ⟨x, hstored.symm, hset, by rw [afterSet, hset]; rfl⟩

theorem afterSet_eq (t : Tunable) (text : String) :
    t.afterSet text = { t with override := (stored? t.unit text).or t.override } := by
  rcases t.set_cases text with ⟨hnone, -, hafter⟩ | ⟨x, hsome, -, hafter⟩
  · rw [hafter, hnone, Option.none_or]
  · rw [hafter, hsome, Option.some_or]

theorem foldl_afterSet (t : Tunable) (texts : List String) :
    texts.foldl afterSet t =
      { t with override := (lastStored? t.unit texts).or t.override } := by
  induction texts generalizing t with
  | nil => rw [lastStored?, List.reverse_nil, List.findSome?_nil, Option.none_or, List.foldl_nil]
  | cons text rest ih =>
    have hlast : lastStored? t.unit (text :: rest) =
        (lastStored? t.unit rest).or (stored? t.unit text) := by
      rw [lastStored?, List.reverse_cons, List.findSome?_append, List.findSome?_singleton]
      rfl
    rw [List.foldl_cons, ih, afterSet_eq, hlast, Option.or_assoc]

end Tunable

/-- Calls that set an item, whatever was set before. Each is refused, which leaves the item, or is
accepted and changes only what is stored, by the unit and the text alone. After all of them the
value is what the last accepted call stored, or else the value there was, which is the default where
nothing had been set. All that is stored lies in the range of the unit. -/
theorem Tunable.value_after_calls (t : Tunable) (texts : List String) :
    (∀ (earlier : List String) (text : String), let u := earlier.foldl afterSet t
      (stored? t.unit text = none ∧ (∃ e, u.set text = .error e) ∧ u.afterSet text = u) ∨
        ∃ x, stored? t.unit text = some x ∧ u.set text = .ok { u with override := some x } ∧
          u.afterSet text = { u with override := some x }) ∧
    texts.foldl afterSet t = { t with override := (lastStored? t.unit texts).or t.override } ∧
    (texts.foldl afterSet t).value = (lastStored? t.unit texts).getD t.value ∧
    (texts.foldl afterSet { t with override := none }).value =
      (lastStored? t.unit texts).getD t.default ∧
    ∀ text x, stored? t.unit text = some x → t.unit.Admits x := by
  refine ⟨fun earlier text => ?_, foldl_afterSet t texts, ?_, ?_, fun text x => admits_of_stored?⟩
  · have hstored : stored? (earlier.foldl afterSet t).unit text = stored? t.unit text := by
      rw [foldl_afterSet]
    rw [← hstored]
    exact set_cases _ text
  · rw [foldl_afterSet]
    cases h : lastStored? t.unit texts <;> simp [value]
  · rw [foldl_afterSet]
    cases h : lastStored? t.unit texts <;> simp [value]

end CaptureAudit
