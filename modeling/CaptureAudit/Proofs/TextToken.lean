import CaptureAudit.Json.Printer
import CaptureAudit.Json.Token

/-! A written text is one token with that text as its value: every escape is read as the character
for which it stands. -/

namespace CaptureAudit.Json

/-- What a character is read as: control characters without an escape of their own are units. -/
def writtenPiece (c : Char) : Piece :=
  if c.toNat < 0x20 ∧ ['\x08', '\t', '\n', '\x0c', '\r'].contains c = false then .unit c.toNat
  else .char c

/-- Two zeros and two digits stand for a control character. -/
theorem hexValue?_control : ∀ n < 0x20, ∃ a b,
    List.replicate (4 - (Text.hex n).length) '0' ++ Text.hex n = ['0', '0', a, b] ∧
      hexValue? '0' '0' a b = some n := by
  intro n hn
  refine ⟨(n / 16).digitChar, (n % 16).digitChar, ?_⟩
  revert n
  decide

theorem pieces_escape (c : Char) (r : Text.Source) :
    pieces ((escape c).map some ++ r) =
      (pieces r).map fun p => (writtenPiece c :: p.1, p.2) := by
  simp only [escape]
  split
  · next h => subst h; rfl
  split
  · next h => subst h; rfl
  split
  · next h => subst h; rfl
  split
  · next h => subst h; rfl
  split
  · next h => subst h; rfl
  split
  · next h => subst h; rfl
  split
  · next h => subst h; rfl
  next hq hb h8 ht hn hf hr =>
    split
    · next hlt =>
      obtain ⟨a, b, hab, hv⟩ := hexValue?_control c.toNat hlt
      have hp : writtenPiece c = .unit c.toNat := by simp [writtenPiece, hlt, h8, ht, hn, hf, hr]
      simp [hab, pieces, hv, hp]
    · next hge =>
      have hp : writtenPiece c = .char c := by simp [writtenPiece, hge]
      simp [pieces, hge, hb, hp]

theorem pieces_flatMap_escape (cs : List Char) (rest : Text.Source) :
    pieces ((cs.flatMap escape).map some ++ some '"' :: rest) =
      some (cs.map writtenPiece, rest) := by
  induction cs with
  | nil => rfl
  | cons c cs ih =>
    rw [List.flatMap_cons, List.map_append, List.append_assoc, pieces_escape, ih]
    rfl

/-- A unit that is no surrogate is a character by itself, whatever follows it. -/
theorem joinPieces_unit {u : Nat} (hh : isHigh u = false) (hl : isLow u = false) (r : List Piece) :
    joinPieces (.unit u :: r) = (joinPieces r).map (Char.ofNat u :: ·) := by
  cases r with
  | nil => simp [joinPieces, hh, hl]
  | cons p r => cases p <;> simp [joinPieces, hh, hl]

theorem joinPieces_written (c : Char) (r : List Piece) :
    joinPieces (writtenPiece c :: r) = (joinPieces r).map (c :: ·) := by
  simp only [writtenPiece]
  split
  · next h =>
    have hlt : c.toNat < 0xd800 := Nat.lt_trans h.1 (by decide)
    rw [joinPieces_unit (by simp [isHigh]; omega) (by simp [isLow]; omega), Char.ofNat_toNat]
  · rfl

theorem joinPieces_map_writtenPiece (cs : List Char) :
    joinPieces (cs.map writtenPiece) = some cs := by
  induction cs with
  | nil => rfl
  | cons c cs ih =>
    rw [List.map_cons, joinPieces_written, ih]
    rfl

theorem textToken_append (s : String) (rest : Text.Source) :
    textToken ((s.toList.flatMap escape).map some ++ some '"' :: rest) =
      some (.text (some s), rest) := by
  simp [textToken, pieces_flatMap_escape, joinPieces_map_writtenPiece]

end CaptureAudit.Json
