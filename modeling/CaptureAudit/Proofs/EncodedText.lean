import CaptureAudit.Proofs.WrittenDocument

/-! The bytes of a text are read as its characters, so that a value is read back from the bytes of
its written form. -/

namespace CaptureAudit

namespace Text

theorem firstChar?_encoded (c : Char) (rest : List UInt8) :
    firstChar? (String.utf8EncodeChar c ++ rest) = some c := by
  have hlength : (String.utf8EncodeChar c).length ≤ 4 := by
    rw [String.length_utf8EncodeChar]
    exact c.utf8Size_le_four
  rw [firstChar?, List.take_append, List.take_of_length_le hlength, List.toByteArray_append]
  exact ByteArray.utf8DecodeChar?_utf8EncodeChar_append

theorem charsFrom_encoded (c : Char) (rest : List UInt8) :
    charsFrom (String.utf8EncodeChar c ++ rest) = some c :: charsFrom rest := by
  have hfirst := firstChar?_encoded c rest
  cases hbytes : String.utf8EncodeChar c with
  | nil => exact absurd hbytes String.utf8EncodeChar_ne_nil
  | cons b tail =>
    have hlength : tail.length + 1 = c.utf8Size := by
      rw [← String.length_utf8EncodeChar, hbytes, List.length_cons]
    have hdrop : (tail ++ rest).drop (c.utf8Size - 1) = rest := by
      rw [← hlength, Nat.add_sub_cancel, List.drop_left]
    rw [hbytes, List.cons_append] at hfirst
    rw [List.cons_append, charsFrom, hfirst]
    exact congrArg (some c :: charsFrom ·) hdrop

theorem charsFrom_flatMap_encoded (cs : List Char) :
    charsFrom (cs.flatMap String.utf8EncodeChar) = cs.map some := by
  induction cs with
  | nil => rw [List.flatMap_nil, charsFrom, List.map_nil]
  | cons c cs ih => rw [List.flatMap_cons, charsFrom_encoded, ih, List.map_cons]

theorem ofBytes_toUTF8 (s : String) : ofBytes s.toUTF8 = ofText s := by
  have hbytes : s.toUTF8.data.toList = s.toList.flatMap String.utf8EncodeChar := by
    have hs : s.toUTF8 = (s.toList.flatMap String.utf8EncodeChar).toByteArray := by
      rw [String.toUTF8_eq_toByteArray, ← String.ofList_toList (s := s), String.toByteArray_ofList,
        String.toList_ofList, List.utf8Encode]
    rw [hs, List.data_toByteArray]
  rw [ofBytes, hbytes, charsFrom_flatMap_encoded, ofText]

end Text

namespace Json

theorem Document.read_eq_ok_iff {α : Type} {r : Reader α} {d : Document} {x : α} :
    d.read r = .ok x ↔ r d.root = .ok x ∧ d.trailing = false := by
  rw [Document.read]
  cases hroot : r d.root with
  | error e => simp [bind, Except.bind]
  | ok y => cases d.trailing <;> simp [bind, Except.bind]

theorem Document.ofText_compact (v : Value) : Document.ofText v.compact = ⟨v.node, false⟩ := by
  rw [← Document.ofSource_chars .compact]
  simp [Document.ofText, Text.ofText, Value.compact]

theorem readBytes_compact {α : Type} (r : Reader α) (v : Value) :
    readBytes r v.compact.toUTF8 = r v.node := by
  have hd : Document.ofBytes v.compact.toUTF8 = ⟨v.node, false⟩ := by
    rw [← Document.ofText_compact, Document.ofBytes, Text.ofBytes_toUTF8]
    rfl
  rw [readBytes, hd, Document.read_node]

end Json

end CaptureAudit
