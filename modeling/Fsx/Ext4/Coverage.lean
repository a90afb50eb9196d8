import Fsx.Ext4.DeepVerify
import Fsx.Ext4.PlanSound
import Fsx.Ext4.Verify

/-!
# 持ち主の被覆

`build_owner_relocation_plan` は、target 以上の使用中の block に持ち主がそろうことを、
block の個数だけを比べて判定する。

個数は、数えた範囲が互いに重ならず、どれも使用中であるときに限り、集合を決める。
-/

namespace Fsx.Ext4

/-! ## 走査は印を落とさない -/

/-- `b` はどれかの区間に入る。 -/
def InRuns (es : List BlockExtent) (b : Nat) : Prop := ∃ e ∈ es, e.start ≤ b ∧ b < e.endBlock

theorem InRuns.append_left {es es' : List BlockExtent} {b : Nat} (h : InRuns es b) :
    InRuns (es ++ es') b := by
  obtain ⟨e, he, hb⟩ := h
  exact ⟨e, List.mem_append_left _ he, hb⟩

theorem inRuns_concat {es : List BlockExtent} {start len b : Nat} (h1 : start ≤ b)
    (h2 : b < start + len) : InRuns (es ++ [⟨start, len⟩]) b :=
  ⟨⟨start, len⟩, List.mem_append_right _ (List.mem_singleton.mpr rfl), h1, h2⟩

/-- `append_run` は、それまでの区間も新しい区間も覆う。 -/
theorem inRuns_appendRun {es : List BlockExtent} {start len b : Nat}
    (h : InRuns es b ∨ start ≤ b ∧ b < start + len) : InRuns (appendRun es start len) b := by
  have hconcat : InRuns (es ++ [⟨start, len⟩]) b := by
    rcases h with h | ⟨h1, h2⟩
    · exact h.append_left
    · exact inRuns_concat h1 h2
  unfold appendRun
  split
  · next h0 =>
    rcases h with h | ⟨h1, h2⟩
    · exact h
    · omega
  · cases hl : es.getLast? with
    | none => exact hconcat
    | some e =>
      dsimp only
      split
      · next hend =>
        obtain ⟨init, rfl⟩ := List.getLast?_eq_some_iff.mp hl
        rw [List.dropLast_concat]
        unfold BlockExtent.endBlock at hend
        rcases h with ⟨e', he', h1, h2⟩ | ⟨h1, h2⟩
        · rcases List.mem_append.mp he' with he' | he'
          · exact InRuns.append_left ⟨e', he', h1, h2⟩
          · -- 最後の区間は伸びただけである
            rw [List.mem_singleton.mp he'] at h1 h2
            unfold BlockExtent.endBlock at h2
            exact inRuns_concat h1 (by omega)
        · exact inRuns_concat (by omega) (by omega)
      · exact hconcat

/-- 走査の途中で、`b` は閉じた区間か開いた区間に入る。 -/
def Kept (used : Bool) (b : Nat) (p : AllocationGraph × Option OpenRun) : Prop :=
  InRuns (p.1.side used) b ∨
    ∃ r, p.2 = some r ∧ r.used = used ∧ r.start ≤ b ∧ b < r.start + r.length

section Kept

variable {used : Bool} {b : Nat} {p : AllocationGraph × Option OpenRun}

/-- 閉じた区間と、`b` を含む開いた区間は、`flush_run` の後も残る。 -/
theorem Kept.flushRun (h : Kept used b p) : InRuns ((flushRun p.1 p.2).side used) b := by
  obtain ⟨g, run⟩ := p
  cases run with
  | none =>
    rcases h with h | ⟨r, hr, -⟩
    · exact h
    · cases hr
  | some r =>
    have hgrow : r.used = used → InRuns (appendRun (g.side used) r.start r.length) b := by
      intro hu
      rcases h with h | ⟨r', hr', -, h1, h2⟩
      · exact inRuns_appendRun (.inl h)
      · cases hr'
        exact inRuns_appendRun (.inr ⟨h1, h2⟩)
    have hstay : r.used ≠ used → InRuns (g.side used) b := by
      intro hu
      rcases h with h | ⟨r', hr', hu', -⟩
      · exact h
      · cases hr'
        exact absurd hu' hu
    dsimp only
    rw [Ext4.flushRun]
    cases hr : r.used <;> cases used
    · exact hgrow hr
    · exact hstay (by rw [hr]; exact Bool.false_ne_true)
    · exact hstay (by rw [hr]; exact Bool.false_ne_true.symm)
    · exact hgrow hr

theorem Kept.step (h : Kept used b p) (x : Nat × Bool) : Kept used b (graphStep p x) := by
  obtain ⟨g, run⟩ := p
  obtain ⟨block, u⟩ := x
  cases run with
  | none =>
    rcases h with h | ⟨r, hr, -⟩
    · exact .inl h
    · cases hr
  | some r =>
    rw [graphStep]
    split
    · rcases h with h | ⟨r', hr', hu, h1, h2⟩
      · exact .inl h
      · cases hr'
        exact .inr ⟨_, rfl, hu, h1, by dsimp only; omega⟩
    · exact .inl h.flushRun

/-- 通った block は覆われる。 -/
theorem kept_step {block : Nat} : Kept used block (graphStep p (block, used)) := by
  obtain ⟨g, run⟩ := p
  cases run with
  | none => exact .inr ⟨_, rfl, rfl, Nat.le_refl _, Nat.lt_succ_self _⟩
  | some r =>
    rw [graphStep]
    split
    · next hsame => exact .inr ⟨_, rfl, hsame.1.symm, by dsimp only; omega, by dsimp only; omega⟩
    · exact .inr ⟨_, rfl, rfl, Nat.le_refl _, Nat.lt_succ_self _⟩

theorem kept_foldl : ∀ {states : List (Nat × Bool)} {p : AllocationGraph × Option OpenRun},
    Kept used b p ∨ (b, used) ∈ states → Kept used b (states.foldl graphStep p)
  | [], p, h => by
    rcases h with h | h
    · exact h
    · cases h
  | x :: states, p, h => by
    rw [List.foldl_cons]
    refine kept_foldl ?_
    rcases h with h | h
    · exact .inl (h.step x)
    · rcases List.mem_cons.mp h with rfl | h
      · exact .inl kept_step
      · exact .inr h

end Kept

namespace Volume

variable {V : Volume}

/-- 読んだ印の列には、filesystem のどの block もある。 -/
theorem exists_of_readBlockStates {cancel : Nat → Bool} {n g : Nat} {ss : List (Nat × Bool)}
    (hn : g + n = V.sb.groupsCount)
    (h : readBlockStates cancel V.disk V.sb g ((List.range n).map fun i => V.desc (g + i)) = .ok ss)
    {b : Nat} (h1 : V.sb.firstDataBlock + g * V.sb.blocksPerGroup ≤ b)
    (h2 : b < V.sb.blocksCount) : ∃ used, (b, used) ∈ ss := by
  induction n generalizing g ss with
  | zero =>
    -- 残りの group がないので、`b` は filesystem の外にある
    have hlt : ¬ g < V.sb.groupsCount := by omega
    rw [V.accepted.lt_groupsCount_iff] at hlt
    omega
  | succ n ih =>
    rw [map_range_from_succ, readBlockStates, Result.guard_bind_eq_ok_iff,
      Result.guard_bind_eq_ok_iff] at h
    obtain ⟨bm, hbm, h⟩ := Result.bind_eq_ok h.2.2
    obtain ⟨rest, hrest, h⟩ := Result.bind_eq_ok h
    cases h
    rcases Nat.lt_or_ge b (V.sb.firstDataBlock + (g + 1) * V.sb.blocksPerGroup) with hb | hb
    · refine ⟨bitSet bm (b - (V.sb.firstDataBlock + g * V.sb.blocksPerGroup)),
        List.mem_append_left _ (List.mem_map.mpr
          ⟨b - (V.sb.firstDataBlock + g * V.sb.blocksPerGroup), ?_, ?_⟩)⟩
      · rw [List.mem_range, V.accepted.groupBlockCount_eq V.disk.size_lt (by omega)]
        rw [Nat.add_one_mul] at hb
        omega
      · rw [V.accepted.groupStartBlock_eq V.disk.size_lt (by omega)]
        refine Prod.ext ?_ rfl
        dsimp only
        omega
    · obtain ⟨used, hmem⟩ := ih (by omega) hrest hb
      exact ⟨used, List.mem_append_right _ hmem⟩

/-- **filesystem のどの block も、その印の側の区間に入る。** -/
theorem inRuns_buildAllocationGraph {host : Host} {graph : AllocationGraph}
    (h : buildAllocationGraph host V.disk = .ok graph) {b : Nat} (h1 : V.sb.firstDataBlock ≤ b)
    (h2 : b < V.sb.blocksCount) {used : Bool} (hm : V.Marked V.data b ↔ used = true) :
    InRuns (graph.side used) b := by
  unfold buildAllocationGraph at h
  rw [readSuperblock_of_loadMetadataContext V.load, Result.ok_bind] at h
  simp only [Result.guard_bind_eq_ok_iff] at h
  obtain ⟨_, _, h⟩ := Result.bind_eq_ok h.2.2
  obtain ⟨descs, hdescs, h⟩ := Result.bind_eq_ok h
  obtain ⟨states, hstates, h⟩ := Result.bind_eq_ok h
  cases h
  rw [readDescs_eq (Nat.zero_add _).le hdescs] at hstates
  obtain ⟨u, hmem⟩ := exists_of_readBlockStates (Nat.zero_add _) hstates (by omega) h2
  obtain ⟨-, hmarks⟩ := readBlockStates_spec (Nat.zero_add _).le hstates
  obtain ⟨-, -, hu⟩ := hmarks _ hmem
  obtain rfl : u = used := by
    cases u <;> cases used <;> grind
  exact (kept_foldl (.inr hmem)).flushRun

end Volume

/-! ## 個数による判定 -/

namespace Volume

variable (V : Volume)

/-- 使われている枠の extent と tree block のうち、target より上にかかるものの範囲。 -/
def spansAbove (target : Nat) : List (Nat × Nat) :=
  (V.liveSlots.flatMap (V.keptExtents target)).map extentSpan ++
    (V.liveSlots.flatMap (V.keptTrees target)).map treeSpan

/-- group `g` の固定の metadata の範囲。 -/
def groupFixedSpans (g : Nat) : List (Nat × Nat) :=
  [((V.desc g).blockBitmap, 1), ((V.desc g).inodeBitmap, 1),
    ((V.desc g).inodeTable, V.sb.inodeTableBlocks)]

/-- すべての group の固定の metadata の範囲。 -/
def fixedSpans : List (Nat × Nat) := (List.range V.sb.groupsCount).flatMap V.groupFixedSpans

instance (b : Nat) : Decidable (V.Allocated b) :=
  decidable_of_iff (V.sb.firstDataBlock ≤ b ∧ b < V.sb.blocksCount ∧
    bitSet (V.blockAt V.data (V.desc (V.sb.groupOf b)).blockBitmap) (V.sb.indexOf b) = true)
    ⟨fun ⟨h1, h2, h3⟩ => ⟨h1, h2, h3⟩, fun h => ⟨h.first, h.within, h.marked⟩⟩

/-- target 以上の、使用中の block。 -/
def allocatedAbove (target : Nat) : Finset Nat :=
  (Finset.Ico target V.sb.blocksCount).filter fun b => V.Allocated b

/-- target 以上の、inode の範囲の block。 -/
def ownedAbove (target : Nat) : Finset Nat := Interval.covered target (V.spansAbove target)

/-- target 以上の、固定の metadata の block。 -/
def fixedAbove (target : Nat) : Finset Nat := Interval.covered target V.fixedSpans

/--
被覆が完全である。

target 以上の使用中の block は、ちょうど一つの移動の元にあるか、固定の metadata である。
移動の元の block は使用中であり、固定の metadata でない。
-/
structure CoverageExact (plan : OwnerRelocationPlan) : Prop where
  covered : ∀ b, plan.targetBlocks ≤ b → V.Allocated b →
    (∃! m, m ∈ plan.moves ∧ m.sourceBlock ≤ b ∧ b < m.sourceBlock + m.blockCount) ∨
      ∃ g < V.sb.groupsCount, V.Fixed g b
  sources : ∀ m ∈ plan.moves, ∀ b, m.sourceBlock ≤ b → b < m.sourceBlock + m.blockCount →
    V.Allocated b ∧ ∀ g < V.sb.groupsCount, ¬ V.Fixed g b

/--
個数が集合を決めるための条件。

target より上にかかる inode の範囲が、固定の metadata を避けて使用中の block だけからなる。
さらに、descriptor が挙げる target 以上の block に重複がないか、
あっても、重複を除いた個数で足りている。
-/
structure CountedOnce (target : Nat) : Prop where
  owned : ∀ r ∈ V.spansAbove target, ∀ b, r.1 ≤ b → b < r.1 + r.2 →
    V.Allocated b ∧ ∀ g < V.sb.groupsCount, ¬ V.Fixed g b
  fixed : Interval.coveredCount target V.fixedSpans = (V.fixedAbove target).card ∨
    (V.allocatedAbove target).card ≤ (V.ownedAbove target).card + (V.fixedAbove target).card

variable {V} {target b : Nat}

theorem mem_allocatedAbove : b ∈ V.allocatedAbove target ↔ target ≤ b ∧ V.Allocated b := by
  unfold allocatedAbove
  rw [Finset.mem_filter, Finset.mem_Ico]
  exact ⟨fun h => ⟨h.1.1, h.2⟩, fun h => ⟨⟨h.1, h.2.within⟩, h.2⟩⟩

theorem exists_groupFixedSpans {g : Nat} :
    (∃ r ∈ V.groupFixedSpans g, r.1 ≤ b ∧ b < r.1 + r.2) ↔ V.Fixed g b := by
  unfold groupFixedSpans Fixed
  simp only [List.mem_cons, List.not_mem_nil, or_false, exists_eq_or_imp, exists_eq_left]
  omega

theorem mem_fixedAbove :
    b ∈ V.fixedAbove target ↔ target ≤ b ∧ ∃ g < V.sb.groupsCount, V.Fixed g b := by
  unfold fixedAbove fixedSpans
  rw [Interval.mem_covered]
  simp only [List.mem_flatMap, List.mem_range, ← exists_groupFixedSpans]
  constructor
  · rintro ⟨ht, r, ⟨g, hg, hr⟩, hb⟩
    exact ⟨ht, g, hg, r, hr, hb⟩
  · rintro ⟨ht, g, hg, r, hr, hb⟩
    exact ⟨ht, r, ⟨g, hg, hr⟩, hb⟩

end Volume

/-! ## 数えたもの -/

/-- `sum_tail_overlap` は、範囲ごとに数えた個数である。 -/
theorem sumTailOverlap_eq (es : List OwnedExtent) (target : Nat) :
    sumTailOverlap es target = Interval.coveredCount target (es.map extentSpan) := by
  unfold sumTailOverlap Interval.coveredCount
  rw [List.map_map]
  refine congrArg _ (List.map_congr_left fun e _ => ?_)
  unfold extentSpan OwnedExtent.endBlock
  dsimp only [Function.comp_apply]
  split <;> omega

/-- target 以上の tree block は、一つずつ数えられる。 -/
theorem length_eq_coveredCount {ts : List ExtentTreeBlock} {target : Nat}
    (h : ∀ t ∈ ts, target ≤ t.physicalBlock) :
    ts.length = Interval.coveredCount target (ts.map treeSpan) := by
  induction ts with
  | nil => rfl
  | cons t ts ih =>
    obtain ⟨ht, hts⟩ := List.forall_mem_cons.mp h
    unfold Interval.coveredCount at ih ⊢
    rw [List.map_cons, List.map_cons, List.sum_cons, ← ih hts, List.length_cons]
    unfold treeSpan
    dsimp only
    omega

theorem coveredCount_append (target : Nat) (rs rs' : List (Nat × Nat)) :
    Interval.coveredCount target (rs ++ rs') =
      Interval.coveredCount target rs + Interval.coveredCount target rs' := by
  unfold Interval.coveredCount
  rw [List.map_append, List.sum_append]

namespace Volume

variable {V : Volume} {host : Host} {graph : AllocationGraph} {target : Nat}

theorem coveredCount_groupFixedSpans (g : Nat) :
    Interval.coveredCount target (V.groupFixedSpans g) =
      (if (V.desc g).blockBitmap ≥ target then 1 else 0)
        + (if (V.desc g).inodeBitmap ≥ target then 1 else 0)
        + (if (V.desc g).inodeTable ≥ target then V.sb.inodeTableBlocks
            else if (V.desc g).inodeTable + V.sb.inodeTableBlocks > target then
              (V.desc g).inodeTable + V.sb.inodeTableBlocks - target
            else 0) := by
  have hone : ∀ a : Nat, a + 1 - max a target = if a ≥ target then 1 else 0 := by
    intro a
    split <;> omega
  have htable : ∀ a n : Nat, a + n - max a target =
      if a ≥ target then n else if a + n > target then a + n - target else 0 := by
    intro a n
    split
    · omega
    · split <;> omega
  unfold Interval.coveredCount groupFixedSpans
  simp only [List.map_cons, List.map_nil, List.sum_cons, List.sum_nil]
  rw [hone, hone, htable]
  omega

/-- **固定の metadata の走査は、どれも使用中であることを確かめ、範囲ごとに数える。** -/
theorem countFixedMetadata_spec (hg : buildAllocationGraph host V.disk = .ok graph) :
    ∀ {n g count fixed : Nat}, g + n ≤ V.sb.groupsCount →
      countFixedMetadata V.disk V.sb graph target n g count = .ok fixed →
      (∀ i, g ≤ i → i < g + n → ∀ b, V.Fixed i b → V.Allocated b) ∧
        fixed = count + Interval.coveredCount target
          ((List.range' g n).flatMap V.groupFixedSpans)
  | 0, g, count, fixed, _, h => by
    cases h
    exact ⟨fun i h1 h2 => absurd h2 (by omega), rfl⟩
  | n + 1, g, count, fixed, hn, h => by
    rw [countFixedMetadata, V.descs g (show g < V.sb.groupsCount by omega), Result.ok_bind,
      Result.guard_bind_eq_ok_iff] at h
    obtain ⟨hall, h⟩ := h
    simp only [not_or, Bool.not_eq_false] at hall
    obtain ⟨hbb, hib, hit⟩ := hall
    obtain ⟨hrest, rfl⟩ := countFixedMetadata_spec hg (by omega) h
    constructor
    · intro i h1 h2 b hb
      rcases Nat.eq_or_lt_of_le h1 with rfl | hlt
      · rcases hb with rfl | rfl | ⟨h3, h4⟩
        · exact allocated_of_rangeFullyAllocated hg hbb (Nat.le_refl _) (Nat.lt_succ_self _)
        · exact allocated_of_rangeFullyAllocated hg hib (Nat.le_refl _) (Nat.lt_succ_self _)
        · exact allocated_of_rangeFullyAllocated hg hit h3 h4
      · exact hrest i hlt (by omega) b hb
    · rw [List.range'_succ, List.flatMap_cons, coveredCount_append, coveredCount_groupFixedSpans,
        Nat.add_assoc]

/-- 使用中の区間から数えた個数は、target 以上の使用中の block の数を下回らない。 -/
theorem card_allocatedAbove_le (hg : buildAllocationGraph host V.disk = .ok graph) :
    (V.allocatedAbove target).card ≤ (graph.allocated.map fun e =>
      if e.endBlock > target then e.endBlock - max e.start target else 0).sum := by
  have hsub : V.allocatedAbove target ⊆
      Interval.covered target (graph.allocated.map fun e => (e.start, e.length)) := by
    intro b hb
    obtain ⟨ht, ha⟩ := mem_allocatedAbove.mp hb
    obtain ⟨e, he, h1, h2⟩ := @inRuns_buildAllocationGraph V host graph hg b ha.first ha.within true
      ⟨fun _ => rfl, fun _ => ha.marked⟩
    exact Interval.mem_covered.mpr ⟨ht, _, List.mem_map_of_mem he, h1, h2⟩
  refine (Finset.card_le_card hsub).trans (Interval.card_covered_le.trans (Nat.le_of_eq ?_))
  unfold Interval.coveredCount
  rw [List.map_map]
  refine congrArg _ (List.map_congr_left fun e _ => ?_)
  unfold BlockExtent.endBlock
  dsimp only [Function.comp_apply]
  split <;> omega

/-- 被覆が完全とした計画が確かめたこと。 -/
structure Counted (V : Volume) (plan : OwnerRelocationPlan) : Prop where
  moves : (plan.moves.map OwnerMove.sourceSpan).Perm (V.spansAbove plan.targetBlocks)
  apart : (V.spansAbove plan.targetBlocks).Pairwise SpanApart
  fixed : ∀ g < V.sb.groupsCount, ∀ b, V.Fixed g b → V.Allocated b
  enough : (V.allocatedAbove plan.targetBlocks).card ≤ (V.ownedAbove plan.targetBlocks).card
    + Interval.coveredCount plan.targetBlocks V.fixedSpans

end Volume

/-- **被覆が完全とした計画では、移動は対象の全部であり、個数は足りている。** -/
theorem counted_of_buildOwnerRelocationPlan {d : Disk} {targetBytes : Nat} {host : Host}
    {plan : OwnerRelocationPlan} (h : buildOwnerRelocationPlan host d targetBytes = .ok plan)
    (hc : plan.completeOwnerCoverage = true) : ∃ V : Volume, V.disk = d ∧ V.Counted plan := by
  obtain ⟨V, rfl, hsound⟩ := buildOwnerRelocationPlan_sound h
  unfold buildOwnerRelocationPlan at h
  rw [readSuperblock_of_loadMetadataContext V.load, Result.ok_bind] at h
  simp only [Result.guard_bind_eq_ok_iff] at h
  obtain ⟨hsize, -, h⟩ := h
  obtain ⟨graph, hgraph, h⟩ := Result.bind_eq_ok h
  obtain ⟨owners, howners, h⟩ := Result.bind_eq_ok h
  obtain ⟨_, hvalid, h⟩ := Result.bind_eq_ok h
  obtain ⟨fixed, hfixed, h⟩ := Result.bind_eq_ok h
  cases h
  simp only [Bool.and_eq_true, decide_eq_true_eq] at hc
  obtain ⟨⟨⟨hplaced, -⟩, -⟩, henough⟩ := hc
  have hscan := Volume.scanned_scanExtentOwners howners
  rw [Nat.min_eq_left (Volume.target_lt hsize).le] at hscan
  obtain ⟨hmarked, rfl⟩ := Volume.countFixedMetadata_spec hgraph (Nat.zero_add _).le hfixed
  have hspans : (owners.extents.map extentSpan ++ owners.treeBlocks.map treeSpan).Perm
      (V.spansAbove (targetBytes / V.sb.blockSize)) :=
    (hscan.extents.map _).append ((List.Perm.of_eq hscan.trees).map _)
  have happart : (V.spansAbove (targetBytes / V.sb.blockSize)).Pairwise SpanApart :=
    hspans.pairwise (spans_apart_of_validate hvalid) fun h => Apart.symm h
  have habove : ∀ t ∈ owners.treeBlocks, targetBytes / V.sb.blockSize ≤ t.physicalBlock := by
    intro t ht
    rw [hscan.trees] at ht
    obtain ⟨s, -, ht⟩ := List.mem_flatMap.mp ht
    exact of_decide_eq_true (List.mem_filter.mp ht).2
  refine ⟨V, rfl, ⟨?_, happart, fun g hg => hmarked g (Nat.zero_le _) (by omega), ?_⟩⟩
  · -- 移動の元は、対象の元である
    have hperm := (hsound.complete hplaced).map OwnerMove.sourceSpan
    unfold Volume.subjectsAbove at hperm
    rw [List.map_map, map_sourceSpan_subjects] at hperm
    exact hperm
  · have hcard := @Volume.card_allocatedAbove_le V host graph (targetBytes / V.sb.blockSize) hgraph
    have howned : (V.ownedAbove (targetBytes / V.sb.blockSize)).card =
        sumTailOverlap owners.extents (targetBytes / V.sb.blockSize) +
          (owners.treeBlocks.filter
            fun t => decide (t.physicalBlock ≥ targetBytes / V.sb.blockSize)).length := by
      unfold Volume.ownedAbove
      rw [Interval.card_covered happart, sumTailOverlap_eq,
        List.filter_eq_self.mpr fun t ht => decide_eq_true (habove t ht),
        length_eq_coveredCount habove, ← coveredCount_append]
      exact ((hspans.symm.map _).sum_eq)
    show (V.allocatedAbove (targetBytes / V.sb.blockSize)).card ≤
      (V.ownedAbove (targetBytes / V.sb.blockSize)).card +
        Interval.coveredCount (targetBytes / V.sb.blockSize) V.fixedSpans
    unfold Volume.fixedSpans
    have hknown := (le_min_iff.mp (Nat.sub_eq_zero_iff_le.mp henough)).2
    rw [Nat.zero_add] at hknown
    rw [List.range_eq_range', howned]
    exact hcard.trans hknown

/-! ## 判定の正しさ -/

namespace Volume

variable {V : Volume} {plan : OwnerRelocationPlan}

/-- 範囲 `r` を元とする移動がある。 -/
theorem Counted.exists_move (h : V.Counted plan) {r : Nat × Nat}
    (hr : r ∈ V.spansAbove plan.targetBlocks) :
    ∃ m ∈ plan.moves, m.sourceBlock = r.1 ∧ m.blockCount = r.2 := by
  obtain ⟨m, hm, rfl⟩ := List.mem_map.mp (h.moves.mem_iff.mpr hr)
  exact ⟨m, hm, rfl, rfl⟩

theorem Counted.span_mem (h : V.Counted plan) {m : OwnerMove} (hm : m ∈ plan.moves) :
    m.sourceSpan ∈ V.spansAbove plan.targetBlocks :=
  h.moves.mem_iff.mp (List.mem_map_of_mem hm)

/-- 移動の元は互いに重ならないので、block を含む移動は一つである。 -/
theorem Counted.move_unique (h : V.Counted plan) {m m' : OwnerMove} (hm : m ∈ plan.moves)
    (hm' : m' ∈ plan.moves) {b : Nat} (h1 : m.sourceBlock ≤ b)
    (h2 : b < m.sourceBlock + m.blockCount) (h1' : m'.sourceBlock ≤ b)
    (h2' : b < m'.sourceBlock + m'.blockCount) : m = m' := by
  have hsymm : Std.Symm fun m n : OwnerMove => SpanApart m.sourceSpan n.sourceSpan :=
    ⟨fun _ _ h => Apart.symm h⟩
  have hall := h.moves.symm.pairwise h.apart fun h => Apart.symm h
  rw [List.pairwise_map] at hall
  by_contra hne
  rcases hall.forall hm hm' hne with h | h
  · unfold OwnerMove.sourceSpan at h
    dsimp only at h
    omega
  · unfold OwnerMove.sourceSpan at h
    dsimp only at h
    omega

/-- **数えた範囲に重複がなければ、個数の一致は集合の一致である。** -/
theorem Counted.exact (h : V.Counted plan) (hc : V.CountedOnce plan.targetBlocks) :
    V.CoverageExact plan := by
  have howned : V.ownedAbove plan.targetBlocks ⊆ V.allocatedAbove plan.targetBlocks := by
    intro b hb
    obtain ⟨ht, r, hr, h1, h2⟩ := Interval.mem_covered.mp hb
    exact mem_allocatedAbove.mpr ⟨ht, (hc.owned r hr b h1 h2).1⟩
  have hfixed : V.fixedAbove plan.targetBlocks ⊆ V.allocatedAbove plan.targetBlocks := by
    intro b hb
    obtain ⟨ht, g, hg, hb⟩ := mem_fixedAbove.mp hb
    exact mem_allocatedAbove.mpr ⟨ht, h.fixed g hg b hb⟩
  have hdisj : Disjoint (V.ownedAbove plan.targetBlocks) (V.fixedAbove plan.targetBlocks) := by
    rw [Finset.disjoint_left]
    intro b hb hb'
    obtain ⟨-, r, hr, h1, h2⟩ := Interval.mem_covered.mp hb
    obtain ⟨-, g, hg, hf⟩ := mem_fixedAbove.mp hb'
    exact (hc.owned r hr b h1 h2).2 g hg hf
  have hcard : (V.allocatedAbove plan.targetBlocks).card ≤
      (V.ownedAbove plan.targetBlocks ∪ V.fixedAbove plan.targetBlocks).card := by
    rw [Finset.card_union_of_disjoint hdisj]
    rcases hc.fixed with hd | hle
    · rw [← hd]
      exact h.enough
    · exact hle
  have hall := Finset.eq_of_subset_of_card_le (Finset.union_subset howned hfixed) hcard
  refine ⟨fun b ht ha => ?_, fun m hm b h1 h2 => hc.owned _ (h.span_mem hm) b h1 h2⟩
  have hb := mem_allocatedAbove.mpr ⟨ht, ha⟩
  rw [← hall, Finset.mem_union] at hb
  rcases hb with hb | hb
  · left
    obtain ⟨-, r, hr, h1, h2⟩ := Interval.mem_covered.mp hb
    obtain ⟨m, hm, hs, hn⟩ := h.exists_move hr
    rw [← hs] at h1 h2
    rw [← hn] at h2
    exact ⟨m, ⟨hm, h1, h2⟩, fun m' ⟨hm', h1', h2'⟩ => h.move_unique hm' hm h1' h2' h1 h2⟩
  · exact .inr (mem_fixedAbove.mp hb).2

/-- **被覆が完全なら、数えた範囲は条件を満たす。** -/
theorem Counted.countedOnce (h : V.Counted plan) (hx : V.CoverageExact plan) :
    V.CountedOnce plan.targetBlocks := by
  refine ⟨fun r hr b h1 h2 => ?_, .inr ?_⟩
  · obtain ⟨m, hm, hs, hn⟩ := h.exists_move hr
    exact hx.sources m hm b (by omega) (by omega)
  · refine (Finset.card_le_card ?_).trans (Finset.card_union_le _ _)
    intro b hb
    obtain ⟨ht, ha⟩ := mem_allocatedAbove.mp hb
    rw [Finset.mem_union]
    rcases hx.covered b ht ha with ⟨m, ⟨hm, h1, h2⟩, -⟩ | hf
    · exact .inl (Interval.mem_covered.mpr ⟨ht, _, h.span_mem hm, h1, h2⟩)
    · exact .inr (mem_fixedAbove.mpr ⟨ht, hf⟩)

end Volume

/--
**被覆が完全とした計画で被覆が本当に完全なのは、数えた範囲が条件を満たすとき、
かつそのときに限る。**
-/
theorem completeOwnerCoverage_iff {host : Host} {d : Disk} {targetBytes : Nat}
    {plan : OwnerRelocationPlan} (h : buildOwnerRelocationPlan host d targetBytes = .ok plan)
    (hc : plan.completeOwnerCoverage = true) : ∃ V : Volume, V.disk = d ∧
      (V.CoverageExact plan ↔ V.CountedOnce plan.targetBlocks) := by
  obtain ⟨V, hV, hcounted⟩ := counted_of_buildOwnerRelocationPlan h hc
  exact ⟨V, hV, hcounted.countedOnce, hcounted.exact⟩

/-- 一つの file を target より下に移す計画では、被覆は条件を満たすときに完全である。 -/
theorem completeOwnerCoverage_iff_tiny : ∃ (V : Volume) (plan : OwnerRelocationPlan),
    V.disk = Tiny.disk (Tiny.image 1 [1]) ∧ plan.completeOwnerCoverage = true ∧
      (V.CoverageExact plan ↔ V.CountedOnce plan.targetBlocks) := by
  have hrun : (buildOwnerRelocationPlan Tiny.host (Tiny.disk (Tiny.image 1 [1])) 20480).map
      OwnerRelocationPlan.completeOwnerCoverage = .ok true := by decide +kernel
  cases hp : buildOwnerRelocationPlan Tiny.host (Tiny.disk (Tiny.image 1 [1])) 20480 with
  | error e =>
    rw [hp] at hrun
    cases hrun
  | ok plan =>
    rw [hp] at hrun
    have hc : plan.completeOwnerCoverage = true := Except.ok.inj hrun
    obtain ⟨V, hV, hiff⟩ := completeOwnerCoverage_iff hp hc
    exact ⟨V, plan, hV, hc, hiff⟩

namespace Tiny

/-- block 13 が inode bitmap と file の両方に使われ、block 14 は持ち主がないのに使用中の image。 -/
def sharedBitmap : Disk :=
  disk ((image 2 []).applyAll
    [⟨2048 + 4, leBytes 4 13⟩, ⟨4096, [0x17, 0x70]⟩, ⟨26624, [0xff, 0x07]⟩])

def sharedBitmapSb : Superblock := decodeSuperblock (rawSuper sharedBitmap)

def sharedBitmapDesc : GroupDesc := descAt sharedBitmap sharedBitmapSb 0

end Tiny

/-- 二重に数えた block があると、持ち主のない使用中の block が残っても、被覆は完全とされる。 -/
theorem completeOwnerCoverage_missed : ∃ plan,
    buildOwnerRelocationPlan Tiny.host Tiny.sharedBitmap 24576 = .ok plan ∧
      plan.completeOwnerCoverage = true ∧
      ∀ V : Volume, V.disk = Tiny.sharedBitmap → ¬ V.CoverageExact plan := by
  have hrun : (buildOwnerRelocationPlan Tiny.host Tiny.sharedBitmap 24576).map (fun plan =>
      (plan.completeOwnerCoverage, plan.targetBlocks, plan.moves.map OwnerMove.sourceSpan)) =
      .ok (true, 12, [(12, 2)]) := by decide +kernel
  cases hp : buildOwnerRelocationPlan Tiny.host Tiny.sharedBitmap 24576 with
  | error e =>
    rw [hp] at hrun
    cases hrun
  | ok plan =>
    rw [hp] at hrun
    obtain ⟨hc, hrest⟩ := Prod.mk.inj (Except.ok.inj hrun)
    obtain ⟨ht, hmoves⟩ := Prod.mk.inj hrest
    refine ⟨plan, rfl, hc, fun V hV hexact => ?_⟩
    have hsb : V.sb = Tiny.sharedBitmapSb := by
      have hread : readSuperblock Tiny.sharedBitmap = .ok Tiny.sharedBitmapSb := by decide +kernel
      have hload := readSuperblock_of_loadMetadataContext V.load
      rw [hV] at hload
      exact Except.ok.inj (hload.symm.trans hread)
    have hgroups : V.sb.groupsCount = 1 := by
      rw [hsb]
      decide +kernel
    have hdesc : V.desc 0 = Tiny.sharedBitmapDesc := by
      have hread : readGroupDesc Tiny.sharedBitmap Tiny.sharedBitmapSb 0 =
          .ok Tiny.sharedBitmapDesc := by decide +kernel
      have hload : readGroupDesc V.disk V.sb 0 = .ok (V.desc 0) :=
        V.descs 0 (by rw [hgroups]; exact Nat.one_pos)
      rw [hV, hsb] at hload
      exact Except.ok.inj (hload.symm.trans hread)
    have hall : V.Allocated 14 := by
      have hgroup : V.sb.groupOf 14 = 0 := by
        rw [hsb]
        decide +kernel
      refine ⟨?_, ?_, ?_⟩
      · rw [hsb]
        decide +kernel
      · rw [hsb]
        decide +kernel
      · unfold Volume.Marked Volume.blockAt Volume.data Volume.bs
        rw [hgroup, hdesc, hsb, hV]
        decide +kernel
    -- 移動の元は block 12 と 13 で、block 14 は固定の metadata でもない
    rcases hexact.covered 14 (by rw [ht]; decide) hall with ⟨m, ⟨hm, h1, h2⟩, -⟩ | ⟨g, hg, hf⟩
    · have hspan : m.sourceSpan ∈ plan.moves.map OwnerMove.sourceSpan := List.mem_map_of_mem hm
      rw [hmoves, List.mem_singleton] at hspan
      obtain ⟨hs, hn⟩ := Prod.mk.inj hspan
      omega
    · rw [hgroups, Nat.lt_one_iff] at hg
      subst hg
      revert hf
      unfold Volume.Fixed
      rw [hdesc, hsb]
      decide +kernel

end Fsx.Ext4
