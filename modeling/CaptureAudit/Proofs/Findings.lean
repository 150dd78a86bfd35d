import CaptureAudit.Proofs.Walk

/-! What checks of snapshots find at the servers that they visit, and in which order. -/

namespace CaptureAudit

/-- Something found at a server of a cluster. -/
structure Finding (α : Type) where
  cluster : String
  server : String
  item : α
  deriving DecidableEq

variable {α : Type} {items : Visit → List α} {r : α → α → Prop} {a : Archive} {f : Finding α}

/-- By cluster, then by server, then as `r` orders what is found at one server. -/
def Finding.Precedes (r : α → α → Prop) (f g : Finding α) : Prop :=
  compare f.cluster g.cluster = .lt ∨ f.cluster = g.cluster ∧
    (compare f.server g.server = .lt ∨ f.server = g.server ∧ r f.item g.item)

namespace Archive

def findings (a : Archive) (items : Visit → List α) : List (Finding α) :=
  a.visits.flatMap fun v => (items v).map (Finding.mk v.cluster v.server)

theorem mem_findings : f ∈ a.findings items ↔
    ∃ v ∈ a.visits, v.cluster = f.cluster ∧ v.server = f.server ∧ f.item ∈ items v := by
  simp only [findings, List.mem_flatMap, List.mem_map]
  constructor
  · rintro ⟨v, hv, item, hitem, rfl⟩
    exact ⟨v, hv, rfl, rfl, hitem⟩
  · rintro ⟨v, hv, hcluster, hserver, hitem⟩
    exact ⟨v, hv, f.item, hitem, by rw [hcluster, hserver]⟩

theorem pairwise_findings (h : ∀ v, (items v).Pairwise r) :
    (a.findings items).Pairwise (Finding.Precedes r) := by
  refine List.pairwise_flatMap.mpr ⟨fun v _ => ?_, ?_⟩
  · exact List.pairwise_map.mpr ((h v).imp fun hr => .inr ⟨rfl, .inr ⟨rfl, hr⟩⟩)
  · refine a.ascending_visits.imp fun huv f hf g hg => ?_
    obtain ⟨x, -, rfl⟩ := List.mem_map.mp hf
    obtain ⟨y, -, rfl⟩ := List.mem_map.mp hg
    rcases huv with hlt | ⟨heq, hlt⟩
    · exact .inl hlt
    · exact .inr ⟨heq, .inl hlt⟩

theorem map_findings (text : Finding α → String) :
    (a.findings items).map text =
      a.visits.flatMap fun v => (items v).map fun x => text ⟨v.cluster, v.server, x⟩ := by
  simp only [findings, List.map_flatMap, List.map_map, Function.comp_def]

end Archive

/-- A count of 64 bits is right as long as there are fewer to count than it can tell apart. -/
theorem count_eq {n : Nat} (h : n < 0x10000000000000000) :
    (UInt64.ofNat n).toNat = n ∧ (UInt64.ofNat n = 0 ↔ n = 0) := by
  have hcount : (UInt64.ofNat n).toNat = n := UInt64.toNat_ofNat_of_lt' h
  refine ⟨hcount, ?_⟩
  rw [← UInt64.toNat_inj, hcount, UInt64.toNat_zero]

end CaptureAudit
