import CaptureAudit.Archive.Directory
import CaptureAudit.Proofs.DigitText
import CaptureAudit.Proofs.DiskWrites
import CaptureAudit.Proofs.RecordReading

/-! The manifest of an archive is read back as it was written. The names in it are told apart by the
positions with which they begin. -/

namespace CaptureAudit

open Json (Reader Record Value)

theorem SortedSet.ofList_toList {α : Type} [Ord α] [Std.TransOrd α] [Std.LawfulEqOrd α]
    (s : SortedSet α) : SortedSet.ofList s.toList = s :=
  SortedSet.ext fun _ => mem_ofList

namespace WrittenTag

theorem toTag_ofTag (t : Tag) : (ofTag t).toTag = .ok t := by
  obtain ⟨d, value⟩ := t
  cases d <;> rfl

theorem mapM_toTag (tags : List Tag) : (tags.map ofTag).mapM toTag = .ok tags :=
  mapM_ok fun t _ => toTag_ofTag t

theorem read_toJson (t : WrittenTag) : record.read t.toJson.node = .ok t :=
  Record.read_object (by decide) (.needed rfl (.needed rfl (.nil _)))

end WrittenTag

theorem ManifestEntry.read_toJson (e : ManifestEntry) : record.read e.toJson.node = .ok e :=
  Record.read_object (by decide)
    (.needed rfl (.needed (Reader.list_node fun t _ => t.read_toJson) (.nil _)))

theorem Manifest.read_toJson (m : Manifest) : record.read m.toJson.node = .ok m :=
  Record.read_object (by decide)
    (.needed (Reader.list_node fun e _ => e.read_toJson) (.nil _))

theorem plainEnds_manifest : PlainEnds Manifest.fileName where
  first := ⟨'m', "anifest.json".toList, by decide, by decide, by decide⟩
  last := ⟨"manifest.jso".toList, 'n', by decide, by decide⟩

theorem isContained_of_plainEnds {name : String} (h : PlainEnds name) (hslash : '/' ∉ name.toList) :
    isContained name = true := by
  simp [isContained, h.beginsWith_slash, segments_of_not_mem hslash, h.descends.ne_dots.symm]

namespace Archive

theorem toList_payloadName (position : Nat) (a : Artifact) :
    ∃ kind, (payloadName position a).toList =
      padNat 4 position ++ '_' :: (kind ++ ".json".toList) := by
  refine ⟨(((a.tagValue? .artifactType).or (a.tagValue? .special)).getD "artifact").toList, ?_⟩
  simp [payloadName]

theorem exists_digit (position : Nat) (a : Artifact) :
    ∃ c cs, (payloadName position a).toList = c :: cs ∧ c.isDigit = true := by
  obtain ⟨kind, hkind⟩ := toList_payloadName position a
  obtain ⟨c, cs, hc⟩ := List.exists_cons_of_ne_nil (padNat_ne_nil 4 position)
  have hdigit : c.isDigit = true := isDigit_of_mem_padNat c (hc ▸ List.mem_cons_self)
  exact ⟨c, _, by rw [hkind, hc, List.cons_append], hdigit⟩

theorem plainEnds_payloadName (position : Nat) (a : Artifact) :
    PlainEnds (payloadName position a) where
  first := by
    obtain ⟨c, cs, hc, hdigit⟩ := exists_digit position a
    refine ⟨c, cs, hc, ?_, ?_⟩ <;> rintro rfl <;> exact absurd hdigit (by decide)
  last := by
    obtain ⟨kind, hkind⟩ := toList_payloadName position a
    exact ⟨padNat 4 position ++ '_' :: (kind ++ ".jso".toList), 'n', by simp [hkind], by decide⟩

theorem payloadName_ne_manifest (position : Nat) (a : Artifact) :
    payloadName position a ≠ Manifest.fileName := by
  obtain ⟨c, cs, hc, hdigit⟩ := exists_digit position a
  intro he
  have hm : c = 'm' := by
    rw [he] at hc
    exact (List.cons.inj (hc.symm.trans (by decide : _ = 'm' :: "anifest.json".toList))).1
  exact absurd hdigit (by simp [hm])

/-- The digits of a name end at its first underscore. -/
theorem takeWhile_payloadName (position : Nat) (a : Artifact) :
    (payloadName position a).toList.takeWhile Char.isDigit = padNat 4 position := by
  obtain ⟨kind, hkind⟩ := toList_payloadName position a
  rw [hkind, List.takeWhile_append_of_pos isDigit_of_mem_padNat]
  simp

theorem position_eq_of_payloadName {i j : Nat} {a b : Artifact}
    (h : payloadName i a = payloadName j b) : i = j := by
  have hp : padNat 4 i = padNat 4 j := by
    rw [← takeWhile_payloadName i a, h, takeWhile_payloadName]
  rw [← digitsValue_padNat 4 i, hp, digitsValue_padNat]

theorem paths_manifest (a : Archive) :
    a.manifest.artifacts.map ManifestEntry.path =
      a.artifacts.zipIdx.map fun e => payloadName e.2 e.1 := by
  simp [manifest, manifestEntry, Function.comp_def]

/-- No two payloads have one name, and none has the name of the manifest. -/
theorem nodup_paths (a : Archive) :
    (a.manifest.artifacts.map ManifestEntry.path ++ [Manifest.fileName]).Nodup := by
  rw [paths_manifest]
  refine List.nodup_append.mpr ⟨?_, by simp, ?_⟩
  · have hpositions : (a.artifacts.zipIdx.map Prod.snd).Nodup := by
      simp [List.nodup_range']
    exact (List.pairwise_map.mp hpositions).map _ fun x y hxy he =>
      hxy (position_eq_of_payloadName he)
  · intro x hx y hy
    obtain ⟨e, _, rfl⟩ := List.mem_map.mp hx
    rw [List.mem_singleton.mp hy]
    exact payloadName_ne_manifest e.2 e.1

end Archive

end CaptureAudit
