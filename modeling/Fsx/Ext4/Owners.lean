import Fsx.Ext4.LiveScan

/-!
# 移動の元の持ち主

`scan_extent_owners` が集める extent と tree block は、どれも live な inode の木のものである。
したがって整った filesystem では、計画の移動の元は印のある block だけからなり、
空きの block だけからなる行き先とは重ならない。
-/

namespace Fsx.Ext4

namespace Volume

variable {V : Volume}

/-! ## 走査が集めるもの -/

/-- 集めたものは、どれも live な inode の木のものである。 -/
structure Collected (V : Volume) (out : OwnerScan) : Prop where
  extents : ∀ e ∈ out.extents, ∃ ino, V.Live ino ∧ e ∈ V.extentsOf ino
  treeBlocks : ∀ t ∈ out.treeBlocks, ∃ ino, V.Live ino ∧ t ∈ V.treesOf ino

/-- **走査が集めるものは、どれも live な inode の木のものである。** -/
theorem collected_scanExtentOwners
    (hi : V.sb.inodesCount = V.sb.groupsCount * V.sb.inodesPerGroup) {srt : StdSort}
    {cancel : Nat → Bool} {retain : Nat} {out : OwnerScan}
    (h : scanExtentOwners srt cancel V.disk retain = .ok out) : V.Collected out := by
  have hall := scanned_scanExtentOwners h
  have hfits : V.sb.groupsCount * V.sb.inodesPerGroup < 2 ^ 64 := by
    have := V.inodesCount_lt
    omega
  constructor
  · intro e he
    obtain ⟨s, hs, he⟩ := List.mem_flatMap.mp (hall.extents.mem_iff.mp he)
    obtain ⟨ino, hlive, rfl⟩ := live_of_mem_liveSlots hfits hs
    exact ⟨ino, hlive, hlive.slotExtents ▸ List.mem_of_mem_filter he⟩
  · intro t ht
    rw [hall.trees] at ht
    obtain ⟨s, hs, ht⟩ := List.mem_flatMap.mp ht
    obtain ⟨ino, hlive, rfl⟩ := live_of_mem_liveSlots hfits hs
    exact ⟨ino, hlive, hlive.slotTrees ▸ List.mem_of_mem_filter ht⟩

/-! ## 計画の元と行き先 -/

/-- 移動の元は、live な inode の extent か tree block である。 -/
def SourceOf (V : Volume) (m : OwnerMove) : Prop :=
  (m.kind = .dataExtent ∧ ∃ ino e, V.Live ino ∧ e ∈ V.extentsOf ino ∧ m.sourceBlock = e.physicalBlock ∧
      m.blockCount = e.length ∧ m.inode = e.inode ∧ m.logicalBlock = e.logicalBlock ∧
      m.unwritten = e.unwritten) ∨
    (m.kind = .extentTreeBlock ∧ ∃ ino t, V.Live ino ∧ t ∈ V.treesOf ino ∧
      m.sourceBlock = t.physicalBlock ∧ m.blockCount = 1 ∧ m.inode = t.inode ∧
      m.unwritten = false ∧ m.treeDepth = t.depth)

/-- bitmap が空きとする block。 -/
def Vacant (V : Volume) (b : Nat) : Prop :=
  V.sb.firstDataBlock ≤ b ∧ b < V.sb.blocksCount ∧ ¬ V.Marked V.data b

/-- filesystem から作った計画。 -/
structure Plans (V : Volume) (plan : OwnerRelocationPlan) : Prop where
  blockSize : plan.blockSize = V.bs
  shape : plan.WellFormed
  sources : ∀ m ∈ plan.moves, V.SourceOf m
  placed : PlacedMoves (fun b => V.Vacant b ∧ b < plan.targetBlocks) plan.moves

/-- **計画の行き先は、target より下の空きの block だけからなり、互いに重ならない。** -/
theorem placed_of_build {host : Host} {targetBytes : Nat} {plan : OwnerRelocationPlan}
    (h : buildOwnerRelocationPlan host V.disk targetBytes = .ok plan) :
    PlacedMoves (fun b => V.Vacant b ∧ b < plan.targetBlocks) plan.moves := by
  unfold buildOwnerRelocationPlan at h
  rw [readSuperblock_of_loadMetadataContext V.load, Result.ok_bind] at h
  simp only [Result.guard_bind_eq_ok_iff] at h
  obtain ⟨-, -, h⟩ := h
  obtain ⟨graph, hgraph, h⟩ := Result.bind_eq_ok h
  obtain ⟨owners, _, h⟩ := Result.bind_eq_ok h
  obtain ⟨_, _, h⟩ := Result.bind_eq_ok h
  obtain ⟨fixed, _, h⟩ := Result.bind_eq_ok h
  cases h
  obtain ⟨hmarks, hsorted⟩ := side_buildAllocationGraph hgraph false
  obtain ⟨hslots, hapart⟩ := @freeSlots_spec _ (targetBytes / V.sb.blockSize) hsorted
  refine placed_placeAll _ _ (fun s hs b h1 h2 => ?_) ?_
  · have hs' := (host.srt.perm _ _).mem_iff.mp hs
    obtain ⟨e, he, h3, h4⟩ := hslots s hs'
    obtain ⟨h5, h6, h7⟩ := hmarks e he b (by omega) (by omega)
    have := freeSlots_le hs'
    refine ⟨⟨h5, h6, fun hm => ?_⟩, by dsimp only; omega⟩
    cases h7.mp hm
  · exact (host.srt.perm _ _).symm.pairwise hapart Apart.symm

/-- **計画の元は live な木のもので、行き先は target より下の空きだけからなり、互いに重ならない。** -/
theorem plans_of_build (hi : V.sb.inodesCount = V.sb.groupsCount * V.sb.inodesPerGroup)
    {host : Host} {targetBytes : Nat} {plan : OwnerRelocationPlan}
    (h : buildOwnerRelocationPlan host V.disk targetBytes = .ok plan) : V.Plans plan := by
  have hshape := wellFormed_buildOwnerRelocationPlan h
  have hplaced := placed_of_build h
  unfold buildOwnerRelocationPlan at h
  rw [readSuperblock_of_loadMetadataContext V.load, Result.ok_bind] at h
  simp only [Result.guard_bind_eq_ok_iff] at h
  obtain ⟨-, -, h⟩ := h
  obtain ⟨graph, hgraph, h⟩ := Result.bind_eq_ok h
  obtain ⟨owners, howners, h⟩ := Result.bind_eq_ok h
  obtain ⟨_, _, h⟩ := Result.bind_eq_ok h
  obtain ⟨fixed, _, h⟩ := Result.bind_eq_ok h
  cases h
  have hc := collected_scanExtentOwners hi howners
  refine ⟨rfl, hshape, placeAll_forall (fun e he txn dest => Or.inl ?_)
    (fun t ht txn dest => Or.inr ?_), hplaced⟩
  · obtain ⟨ino, hlive, hmem⟩ :=
      hc.extents e (List.mem_of_mem_filter ((host.srt.perm _ _).mem_iff.mp he))
    exact ⟨rfl, ino, e, hlive, hmem, rfl, rfl, rfl, rfl, rfl⟩
  · obtain ⟨ino, hlive, hmem⟩ := hc.treeBlocks t (List.mem_of_mem_filter ht)
    exact ⟨rfl, ino, t, hlive, hmem, rfl, rfl, rfl, rfl, rfl⟩

/-- **整った filesystem では、移動の元はすべて印のある block である。** -/
theorem Consistent.source_marked (hc : V.Consistent) {m : OwnerMove} (hm : V.SourceOf m) {b : Nat}
    (h1 : m.sourceBlock ≤ b) (h2 : b < m.sourceBlock + m.blockCount)
    (h3 : V.sb.firstDataBlock ≤ b) : V.Marked V.data b := by
  rcases hm with ⟨-, ino, e, hlive, he, hs, hn, -⟩ | ⟨-, ino, t, hlive, ht, hs, hn, -⟩
  · refine hc.marked (.extent e) b ⟨⟨ino, hlive, he⟩, by omega, ?_⟩ h3
    unfold OwnedExtent.endBlock
    omega
  · exact hc.marked (.tree t) b ⟨⟨ino, hlive, ht⟩, by omega⟩ h3

/-- **整った filesystem では、移動の元はどの行き先とも重ならない。** -/
theorem Consistent.source_apart (hc : V.Consistent) {plan : OwnerRelocationPlan}
    (hp : V.Plans plan) {m n : OwnerMove} (hm : m ∈ plan.moves) (hn : n ∈ plan.moves) :
    Apart m.sourceBlock m.blockCount n.destinationBlock n.blockCount := by
  by_contra hov
  unfold Apart at hov
  -- 両方に入る block は、空きであり、かつ印がある
  have hb1 : m.sourceBlock ≤ max m.sourceBlock n.destinationBlock := Nat.le_max_left _ _
  obtain ⟨hvac, -⟩ := hp.placed.free n hn (max m.sourceBlock n.destinationBlock)
    (Nat.le_max_right _ _) (by have := (hp.shape.moves n hn).count_pos; omega)
  refine hvac.2.2 (hc.source_marked (hp.sources m hm) hb1 ?_ hvac.1)
  have := (hp.shape.moves m hm).count_pos
  omega

end Volume

end Fsx.Ext4
