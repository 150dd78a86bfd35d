import CaptureAudit.Json.Reader

/-! Evidence of one check: the first examples up to a limit, and a count of all that were offered.
-/

namespace CaptureAudit

structure Examples where
  stored : List String
  limit : UInt64
  offered : UInt64
  error : Option String
  deriving DecidableEq

namespace Examples

def empty (limit : UInt64) : Examples := ⟨[], limit, 0, none⟩

def add (e : Examples) (text : String) : Examples :=
  { e with
    offered := e.offered + 1
    stored := if e.stored.length < e.limit.toNat then e.stored ++ [text] else e.stored }

def setError (e : Examples) (text : String) : Examples :=
  { e with error := some text }

def isEmpty (e : Examples) : Bool := e.offered = 0

/-- As many texts are stored as there is room left for, and all that are offered are counted. -/
theorem foldl_add (texts : List String) (e : Examples) :
    texts.foldl add e =
      { e with
        stored := e.stored ++ texts.take (e.limit.toNat - e.stored.length)
        offered := e.offered + UInt64.ofNat texts.length } := by
  induction texts generalizing e with
  | nil => simp
  | cons t texts ih =>
    have hoffered : e.offered + 1 + UInt64.ofNat texts.length =
        e.offered + UInt64.ofNat (t :: texts).length := by
      rw [List.length_cons, Nat.add_comm, UInt64.ofNat_add, UInt64.add_assoc]
      rfl
    rw [List.foldl_cons, ih, add]
    by_cases h : e.stored.length < e.limit.toNat
    · have hroom : e.limit.toNat - e.stored.length =
          e.limit.toNat - (e.stored ++ [t]).length + 1 := by
        simp only [List.length_append, List.length_singleton]
        omega
      simp only [if_pos h, hoffered, hroom, List.take_succ_cons, List.append_assoc,
        List.singleton_append]
    · have hfull : e.limit.toNat - e.stored.length = 0 := by omega
      simp only [if_neg h, hoffered, hfull, List.take_zero]

theorem foldl_add_empty (texts : List String) (limit : UInt64) :
    texts.foldl add (empty limit) =
      ⟨texts.take limit.toNat, limit, UInt64.ofNat texts.length, none⟩ := by
  simp [foldl_add, empty]

/-- Examples offered and not stored. -/
def dropped (e : Examples) : Nat := e.offered.toNat - e.stored.length

def isTruncated (e : Examples) : Bool := 0 < e.dropped

def toJson (e : Examples) : Json.Value :=
  .object ([("examples", .array (e.stored.map .text)), ("limit", .ofNat e.limit.toNat),
    ("offered", .ofNat e.offered.toNat)] ++ Json.Value.optionalMember "error" .text e.error)

def record : Json.Record Examples where
  label := "ExamplesCollection"
  blank := empty 0
  fields := [
    .needed "examples" (Json.Reader.list Json.Reader.text) fun v e => { e with stored := v },
    .needed "limit" Json.Reader.size fun v e => { e with limit := UInt64.ofNat v },
    .needed "offered" Json.Reader.word64 fun v e => { e with offered := v },
    .defaulted "error" (Json.Reader.optional Json.Reader.text) fun v e => { e with error := v }]

end Examples

end CaptureAudit
