import Fsx.Ext4.RelocationGeometry

/-!
# `check` と `plan_shrink`（`src/ext4/ext4.cpp`）

どちらも descriptor と bitmap を一通り読んで数えるだけの、何も書かない操作である。

* `check` の数は、読めなくなる前までの group の使用中の block の数である。読めない descriptor は
  warning になるだけで、`errors` はつねに空、`clean` はつねに真である（`check_exact`）。
* `plan_shrink` の数は、bitmap と descriptor から数えたとおりである。容量が足りるとするのは、
  使用中の block がすべて target より下に収まるときである（`planShrink_exact`）。
-/

namespace Fsx.Ext4

/-! ## `check` -/

structure CheckReport where
  clean : Bool := true
  groupsChecked : Nat := 0
  bitmapAllocatedBlocks : Nat := 0
  warnings : List String := []
  errors : List String := []

/-- 読めない descriptor についての warning。 -/
def scanStopped (e : Error) : String := "deep scan stopped: " ++ e.message

/-- `check` の group についてのループ。 -/
def checkGroups (cancelled : Nat → Bool) (d : Disk) (sb : Superblock) :
    Nat → Nat → CheckReport → Result CheckReport
  | 0, _, r => .ok r
  | n + 1, g, r =>
    if cancelled g then .error { code := .unsafeErr, message := "check cancelled" }
    else
      match readGroupDesc d sb g with
      | .error e => .ok { r with warnings := r.warnings ++ [scanStopped e] }
      | .ok gd =>
        let r := if gd.blockBitmap ≥ sb.blocksCount ∨ gd.inodeBitmap ≥ sb.blocksCount
            ∨ gd.inodeTable ≥ sb.blocksCount then
          { r with errors := r.errors ++
              ["group " ++ toString g ++ " has metadata pointer outside filesystem"] }
          else r
        match readBlockBitmap d sb gd with
        | .error e =>
          .ok { r with errors := r.errors ++ ["group " ++ toString g ++ ": " ++ e.message] }
        | .ok bm =>
          let start := sb.firstDataBlock + g * sb.blocksPerGroup
          let blocks := min sb.blocksPerGroup (sb.blocksCount - start)
          checkGroups cancelled d sb n (g + 1)
            { r with bitmapAllocatedBlocks := r.bitmapAllocatedBlocks + popcountBitmap bm blocks }

/-- 始めに付く warning。 -/
def checkWarnings (sb : Superblock) : List String :=
  (if sb.state ≠ 1 then ["filesystem superblock is not marked clean"] else []) ++
  (if sb.hasRoCompat roCompatMetadataCsum then
    ["metadata_csum present; use check metadata or check deep for checksum coverage"] else []) ++
  if sb.hasIncompat incompatMetaBg then
    ["meta_bg present; deep group scan is limited until extended descriptor placement support lands"]
  else []

/-- `check`。 -/
def check (cancelled : Nat → Bool) (d : Disk) : Result CheckReport := do
  let sb ← readSuperblock d
  let r ← checkGroups cancelled d sb sb.groupsCount 0
    { groupsChecked := sb.groupsCount, warnings := checkWarnings sb }
  return { r with clean := r.errors.isEmpty }

/-- 先頭から `g` 個の group の終わり。 -/
def Superblock.groupsEnd (sb : Superblock) (g : Nat) : Nat :=
  min (sb.firstDataBlock + g * sb.blocksPerGroup) sb.blocksCount

/-- `[first, next)` の使用中の block。 -/
def usedBlocks (d : Disk) (sb : Superblock) (first next : Nat) : Finset Nat :=
  (Finset.Ico first next).filter fun b => bitAt d sb b = true

section Check

variable {d : Disk} {sb : Superblock} {cancelled : Nat → Bool} {n g : Nat} {r r' : CheckReport}

theorem countOf_eq_card (f : Nat → Bool) (used : Bool) (first next : Nat) :
    countOf f used first next = ((Finset.Ico first next).filter fun b => f b = used).card := by
  have hnodup : ((List.range' first (next - first)).filter fun b => f b == used).Nodup :=
    List.Nodup.filter _ List.nodup_range'
  rw [countOf, List.countP_eq_length_filter, ← List.toFinset_card_of_nodup hnodup]
  refine congrArg _ (Finset.ext fun b => ?_)
  simp only [List.mem_toFinset, List.mem_filter, List.mem_range'_1, Finset.mem_filter,
    Finset.mem_Ico, beq_iff_eq]
  exact and_congr_left fun _ => by omega

/-- 一つの group の bitmap の数は、その block の印の数である。 -/
theorem popcountBitmap_group (ha : sb.Accepted d.sizeBytes) (hg : g < sb.groupsCount) :
    popcountBitmap (bitmapOf d sb (descAt d sb g))
        (min sb.blocksPerGroup (sb.blocksCount - (sb.firstDataBlock + g * sb.blocksPerGroup))) =
      countOf (bitAt d sb) true (sb.groupsEnd g) (sb.groupsEnd (g + 1)) := by
  have hlt := ha.lt_groupsCount_iff.mp hg
  have hfirst := ha.first_lt
  have hstart : sb.groupsEnd g = sb.firstDataBlock + g * sb.blocksPerGroup := by
    unfold Superblock.groupsEnd
    omega
  have hlen : sb.groupsEnd (g + 1) - sb.groupsEnd g =
      min sb.blocksPerGroup (sb.blocksCount - (sb.firstDataBlock + g * sb.blocksPerGroup)) := by
    rw [hstart]
    unfold Superblock.groupsEnd
    rw [Nat.succ_mul]
    omega
  unfold popcountBitmap countOf
  rw [hlen, hstart, List.range'_eq_map_range, List.countP_map]
  refine List.countP_congr fun i hi => ?_
  rw [List.mem_range] at hi
  obtain ⟨h1, h2⟩ := ha.groupOf_indexOf_of_eq
    (b := sb.firstDataBlock + g * sb.blocksPerGroup + i) (g := g) (i := i) (by omega) rfl
  rw [Function.comp_apply, bitAt, h1, h2, beq_true]
  rfl

theorem groupsEnd_mono (sb : Superblock) {a b : Nat} (h : a ≤ b) : sb.groupsEnd a ≤ sb.groupsEnd b := by
  have := Nat.mul_le_mul_right sb.blocksPerGroup h
  unfold Superblock.groupsEnd
  omega

/-- ループが進んだ group の数 `k` と、止まった理由。 -/
structure Surveyed (d : Disk) (sb : Superblock) (n g k : Nat) (r r' : CheckReport) : Prop where
  le : k ≤ n
  readable : ∀ i < k, ∃ gd, readGroupDesc d sb (g + i) = .ok gd
  errors : r'.errors = r.errors
  checked : r'.groupsChecked = r.groupsChecked
  allocated : r'.bitmapAllocatedBlocks = r.bitmapAllocatedBlocks +
    countOf (bitAt d sb) true (sb.groupsEnd g) (sb.groupsEnd (g + k))
  warnings : (k = n ∧ r'.warnings = r.warnings) ∨
    ∃ e, k < n ∧ readGroupDesc d sb (g + k) = .error e ∧ r'.warnings = r.warnings ++ [scanStopped e]

/-- **読める descriptor の bitmap は必ず読めるので、ループが `errors` に足すことはない。** -/
theorem surveyed_of_checkGroups (ha : sb.Accepted d.sizeBytes) (hn : g + n ≤ sb.groupsCount)
    (h : checkGroups cancelled d sb n g r = .ok r') : ∃ k, Surveyed d sb n g k r r' := by
  induction n generalizing g r with
  | zero =>
    cases h
    exact ⟨0, le_refl 0, nofun, rfl, rfl, by rw [Nat.add_zero, countOf_self]; rfl, Or.inl ⟨rfl, rfl⟩⟩
  | succ n ih =>
    unfold checkGroups at h
    split at h
    · cases h
    cases hgd : readGroupDesc d sb g with
    | error e =>
      rw [hgd] at h
      cases h
      exact ⟨0, Nat.zero_le _, nofun, rfl, rfl, by rw [Nat.add_zero, countOf_self]; rfl,
        Or.inr ⟨e, Nat.succ_pos n, hgd, rfl⟩⟩
    | ok gd =>
      rw [hgd] at h
      obtain ⟨hgd', hlt⟩ := readGroupDesc_eq_descAt hgd
      have hin := (readGroupDesc_eq_ok_iff.mp hgd).2.2.2
      dsimp only at h
      rw [if_neg hin.pointers, ha.readBlockBitmap_ok hin.blockBitmap_lt] at h
      dsimp only at h
      obtain ⟨k, hk⟩ := ih (by omega) h
      refine ⟨k + 1, Nat.succ_le_succ hk.le, fun i hi => ?_, hk.errors, hk.checked, ?_, ?_⟩
      · cases i with
        | zero => exact ⟨gd, hgd⟩
        | succ i =>
          obtain ⟨gd', h'⟩ := hk.readable i (by omega)
          exact ⟨gd', by rw [← h', Nat.add_right_comm]; rfl⟩
      · have hpop := popcountBitmap_group ha hlt
        rw [← hgd'] at hpop
        have hadd := @countOf_add (bitAt d sb) true (sb.groupsEnd g) (sb.groupsEnd (g + 1))
          (sb.groupsEnd (g + 1 + k) - sb.groupsEnd (g + 1)) (groupsEnd_mono sb (Nat.le_succ g))
        rw [Nat.add_sub_cancel' (groupsEnd_mono sb (Nat.le_add_right _ k))] at hadd
        rw [hk.allocated]
        dsimp only
        rw [show g + (k + 1) = g + 1 + k by omega, hadd, ← Nat.add_assoc]
        exact congrArg₂ _ (congrArg₂ _ rfl hpop) rfl
      · rcases hk.warnings with ⟨rfl, hw⟩ | ⟨e, hlt', he, hw⟩
        · exact Or.inl ⟨rfl, hw⟩
        · exact Or.inr ⟨e, Nat.succ_lt_succ hlt', by rw [← he, Nat.add_right_comm]; rfl, hw⟩

theorem groupsEnd_zero (ha : sb.Accepted d.sizeBytes) : sb.groupsEnd 0 = sb.firstDataBlock := by
  have := ha.first_lt
  unfold Superblock.groupsEnd
  omega

theorem groupsEnd_groupsCount (ha : sb.Accepted d.sizeBytes) :
    sb.groupsEnd sb.groupsCount = sb.blocksCount := by
  have := mt ha.lt_groupsCount_iff.mpr (Nat.lt_irrefl sb.groupsCount)
  unfold Superblock.groupsEnd
  omega

/--
**`check` の数は正確だが、`check` が不良を報告することはない。**

数えるのは、読めない descriptor の手前までの group の、使用中の block である。止まったことは warning
にだけ現れ、`errors` は空、`clean` は真のままである。allocation graph を作れる filesystem では
最後まで進み、数は graph のものと一致する。
-/
theorem check_exact (h : check cancelled d = .ok r) : ∃ sb k, readSuperblock d = .ok sb ∧
    r.clean = true ∧ r.errors = [] ∧ r.groupsChecked = sb.groupsCount ∧
    r.bitmapAllocatedBlocks = (usedBlocks d sb sb.firstDataBlock (sb.groupsEnd k)).card ∧
    (∀ g < k, ∃ gd, readGroupDesc d sb g = .ok gd) ∧
    ((k = sb.groupsCount ∧ r.warnings = checkWarnings sb) ∨
      ∃ e, k < sb.groupsCount ∧ readGroupDesc d sb k = .error e ∧
        r.warnings = checkWarnings sb ++ [scanStopped e]) ∧
    ∀ host requested graph, buildAllocationGraphWith host requested d = .ok graph →
      sb.groupsEnd k = sb.blocksCount ∧ r.bitmapAllocatedBlocks = graph.allocatedBlocks := by
  unfold check at h
  obtain ⟨sb, hsb, h⟩ := Result.bind_eq_ok h
  obtain ⟨r', hr', h⟩ := Result.bind_eq_ok h
  cases h
  have ha := accepted_of_readSuperblock hsb
  obtain ⟨k, hk⟩ := surveyed_of_checkGroups ha (by rw [Nat.zero_add]) hr'
  have herrors : r'.errors = [] := hk.errors
  have hallocated : r'.bitmapAllocatedBlocks =
      countOf (bitAt d sb) true sb.firstDataBlock (sb.groupsEnd k) := by
    rw [hk.allocated, groupsEnd_zero ha]
    simp only [Nat.zero_add]
  refine ⟨sb, k, hsb, by simp [herrors], herrors, hk.checked, ?_, ?_, ?_, ?_⟩
  · exact hallocated.trans (countOf_eq_card _ _ _ _)
  · intro i hi
    have hread := hk.readable i hi
    rwa [Nat.zero_add] at hread
  · simpa only [Nat.zero_add] using hk.warnings
  · intro host requested graph hg
    obtain ⟨sb', s, hsb', -, -, ⟨gds, hgds⟩, -, -⟩ := buildAllocationGraphWith_eq_ok hg
    obtain ⟨sb'', hsb'', -, -, hcount, -⟩ := maximalRuns_of_build hg
    rw [hsb] at hsb' hsb''
    cases hsb'
    cases hsb''
    have hall : k = sb.groupsCount := by
      rcases hk.warnings with ⟨hend, -⟩ | ⟨e, hlt, he, -⟩
      · exact hend
      · rw [readGroupDesc_of_readDescs hgds _ (Nat.zero_le _) (by omega)] at he
        cases he
    subst hall
    rw [groupsEnd_groupsCount ha] at hallocated ⊢
    exact ⟨rfl, hallocated.trans hcount.symm⟩

theorem Tiny.checked : (check (fun _ => false) Tiny.spread).isOk = true := by decide +kernel

theorem check_exact_spread : ∃ r, check (fun _ => false) Tiny.spread = .ok r ∧
    r.clean = true ∧ r.errors = [] := by
  have hok := Tiny.checked
  cases h : check (fun _ => false) Tiny.spread with
  | error e =>
    rw [h] at hok
    cases hok
  | ok r =>
    obtain ⟨sb, k, -, h1, h2, -⟩ := check_exact h
    exact ⟨r, rfl, h1, h2⟩

end Check

/-! ## `plan_shrink` -/

structure ResizePlan where
  currentBytes : Nat
  targetBytes : Nat
  targetBlocks : Nat
  blockSize : Nat
  allocatedBlocksAboveTarget : Nat
  allocatedBytesAboveTarget : Nat
  metadataBlocksAboveTarget : Nat
  freeBlocksBelowTarget : Nat
  highestAllocatedBlock : Nat
  allocatedExtentCount : Nat
  freeExtentCount : Nat
  relocationMoveCount : Nat
  largestRelocationExtentBlocks : Nat
  targetPossibleByCapacity : Bool
  requiresRelocation : Bool
  notes : List String

/-- 使用中の区間についてのループ。target 以上の block の数と、最も後ろの block である。 -/
def countAbove (target : Nat) (s : Nat × Nat) (e : BlockExtent) : Nat × Nat :=
  (if e.endBlock > target then s.1 + (e.endBlock - max e.start target) else s.1,
    if e.length ≠ 0 then max s.2 (e.endBlock - 1) else s.2)

/-- 空きの区間についてのループ。最初の target 以上の区間で打ち切る。 -/
def countBelow (target : Nat) : List BlockExtent → Nat → Nat
  | [], n => n
  | e :: es, n =>
    if e.start ≥ target then n else countBelow target es (n + (min e.endBlock target - e.start))

/-- 一つの group の metadata のうち、target 以上の block の数。 -/
def groupMetadataAbove (sb : Superblock) (target : Nat) (gd : GroupDesc) : Nat :=
  (if gd.blockBitmap ≥ target then 1 else 0) + (if gd.inodeBitmap ≥ target then 1 else 0) +
    if gd.inodeTable ≥ target then sb.inodeTableBlocks
    else if gd.inodeTable + sb.inodeTableBlocks > target then
      gd.inodeTable + sb.inodeTableBlocks - target
    else 0

/-- group についてのループ。 -/
def countMetadata (cancelled : Nat → Bool) (d : Disk) (sb : Superblock) (target : Nat) :
    Nat → Nat → Nat → Result Nat
  | 0, _, n => .ok n
  | k + 1, g, n => do
    if cancelled g then throw { code := .unsafeErr, message := "resize plan cancelled" }
    let gd ← readGroupDesc d sb g
    countMetadata cancelled d sb target k (g + 1) (n + groupMetadataAbove sb target gd)

/-- 計画に付く注記。 -/
def resizeNotes (sb : Superblock) : List String :=
  (if sb.hasIncompat incompatMetaBg then
    ["meta_bg requires extended descriptor relocation support before destructive shrink can be enabled"]
    else []) ++
  ["geometry plan only; use plan relocate for owner-aware relocation and shrink readiness"]

/-- 移動の幾何より前の部分。 -/
def surveyShrink (host : ScanHost) (cancelled : Nat → Bool) (d : Disk) (targetBytes : Nat) :
    Result (Superblock × CountedGraph × Nat) := do
  let sb ← readSuperblock d
  if targetBytes ≥ sb.sizeBytes then
    throw { code := .invalidArgument, message := "target is not smaller than filesystem" }
  let target := targetBytes / sb.blockSize
  if target ≤ sb.firstDataBlock then
    throw { code := .invalidArgument, message := "target is too small" }
  let graph ← buildAllocationGraphWith host none d
  let metadata ← countMetadata cancelled d sb target sb.groupsCount 0 0
  return (sb, graph, metadata)

/-- `plan_shrink`。`none` は、ループが止まらないことを表す。 -/
def planShrink (srt : StdSort) (host : ScanHost) (cancelled : Nat → Bool) (d : Disk)
    (targetBytes : Nat) : Option (Result ResizePlan) :=
  match surveyShrink host cancelled d targetBytes with
  | .error e => some (.error e)
  | .ok (sb, graph, metadata) =>
    let target := targetBytes / sb.blockSize
    let above := graph.allocated.foldl (countAbove target) (0, 0)
    match buildRelocationGeometry srt graph target with
    | none => none
    | some (.error e) => some (.error e)
    | some (.ok geometry) => some (.ok {
        currentBytes := sb.sizeBytes
        targetBytes
        targetBlocks := target
        blockSize := sb.blockSize
        allocatedBlocksAboveTarget := above.1
        allocatedBytesAboveTarget := above.1 * sb.blockSize
        metadataBlocksAboveTarget := metadata
        freeBlocksBelowTarget := countBelow target graph.free 0
        highestAllocatedBlock := above.2
        allocatedExtentCount := graph.allocated.length
        freeExtentCount := graph.free.length
        relocationMoveCount := geometry.moves.length
        largestRelocationExtentBlocks := geometry.largestSourceExtent
        targetPossibleByCapacity := geometry.capacityOk && decide (target ≥ graph.allocatedBlocks)
        requiresRelocation := decide (above.1 > 0) || decide (metadata > 0)
        notes := resizeNotes sb })

section Plan

variable {d : Disk} {sb : Superblock} {cancelled : Nat → Bool} {graph : CountedGraph}
  {es : List BlockExtent} {target first n g k r : Nat}

theorem fst_foldl_countAbove (s : Nat × Nat) :
    (es.foldl (countAbove target) s).1 = s.1 + ((es.filter fun e => ¬ e.endBlock ≤ target).map
      fun e => e.endBlock - max e.start target).sum := by
  induction es generalizing s with
  | nil => rfl
  | cons e es ih =>
    rw [List.foldl_cons, ih]
    by_cases h : e.endBlock ≤ target
    · rw [List.filter_cons_of_neg (by simpa using h), countAbove, if_neg (by omega)]
    · rw [List.filter_cons_of_pos (by simpa using h), countAbove, if_pos (by omega), List.map_cons,
        List.sum_cons, Nat.add_assoc]

/-- 最大値は、どの要素以上でもあり、始めの値か要素のどれかである。 -/
theorem foldl_max_spec (l : List Nat) (n : Nat) :
    (∀ x ∈ l, x ≤ l.foldl max n) ∧ n ≤ l.foldl max n ∧ (l.foldl max n = n ∨ l.foldl max n ∈ l) := by
  induction l generalizing n with
  | nil => exact ⟨nofun, Nat.le_refl n, Or.inl rfl⟩
  | cons y l ih =>
    obtain ⟨h1, h2, h3⟩ := ih (max n y)
    rw [List.foldl_cons]
    refine ⟨fun x hx => ?_, by omega, ?_⟩
    · rcases List.mem_cons.mp hx with rfl | hx
      · omega
      · exact h1 x hx
    · rcases h3 with h3 | h3
      · rcases Nat.le_total n y with hle | hle
        · exact Or.inr (List.mem_cons.mpr (Or.inl (h3.trans (Nat.max_eq_right hle))))
        · exact Or.inl (h3.trans (Nat.max_eq_left hle))
      · exact Or.inr (List.mem_cons_of_mem _ h3)

/-- `highest` は使用中の区間の最後の block の最大のものである。 -/
theorem snd_foldl_countAbove (hpos : ∀ e ∈ es, 0 < e.length) (s : Nat × Nat) :
    (es.foldl (countAbove target) s).2 = (es.map fun e => e.endBlock - 1).foldl max s.2 := by
  induction es generalizing s with
  | nil => rfl
  | cons e es ih =>
    obtain ⟨he, hes⟩ := List.forall_mem_cons.mp hpos
    have hstep : (countAbove target s e).2 = max s.2 (e.endBlock - 1) := if_pos (by omega)
    rw [List.foldl_cons, ih hes, hstep, List.map_cons, List.foldl_cons]

theorem countBelow_eq (n : Nat) :
    countBelow target es n = n + (((es.takeWhile fun e => ¬ e.start ≥ target).filterMap fun e =>
      if min e.endBlock target > e.start then
        some (⟨e.start, min e.endBlock target - e.start⟩ : BlockExtent)
      else none).map BlockExtent.length).sum := by
  induction es generalizing n with
  | nil => rfl
  | cons e es ih =>
    unfold countBelow
    by_cases h : e.start ≥ target
    · rw [if_pos h, List.takeWhile_cons_of_neg (by simpa using h)]
      rfl
    · rw [if_neg h, ih, List.takeWhile_cons_of_pos (by simpa using h)]
      by_cases hroom : min e.endBlock target > e.start
      · simp only [List.filterMap_cons, if_pos hroom, List.map_cons, List.sum_cons, Nat.add_assoc]
      · simp only [List.filterMap_cons, if_neg hroom]
        rw [Nat.sub_eq_zero_of_le (Nat.not_lt.mp hroom), Nat.add_zero]

theorem sum_geometrySources (hg : graph.Partition first) :
    ((geometrySources graph.toAllocationGraph target).map BlockExtent.length).sum =
      (allocatedAbove graph target).card := by
  refine sum_length_eq_card (pairwise_geometrySources hg) fun b => ?_
  rw [inRuns_geometrySources, allocatedAbove, Finset.mem_filter, Finset.mem_range]
  exact ⟨fun h => ⟨((hg.covers b).mp (.inl h.2)).2, h⟩, fun h => h.2⟩

theorem sum_geometryDests (hg : graph.Partition first) :
    ((geometryDests graph.toAllocationGraph target).map BlockExtent.length).sum =
      (freeBelow graph target).card := by
  refine sum_length_eq_card (pairwise_geometryDests hg) fun b => ?_
  rw [inRuns_geometryDests hg, freeBelow, Finset.mem_filter, Finset.mem_range]
  exact ⟨fun h => ⟨((hg.covers b).mp (.inr h.2)).2, h⟩, fun h => h.2⟩

/-- 一つの group の metadata の範囲（先頭と長さ）。 -/
def metadataSpans (sb : Superblock) (gd : GroupDesc) : List (Nat × Nat) :=
  [(gd.blockBitmap, 1), (gd.inodeBitmap, 1), (gd.inodeTable, sb.inodeTableBlocks)]

theorem groupMetadataAbove_eq (gd : GroupDesc) :
    groupMetadataAbove sb target gd = Interval.coveredCount target (metadataSpans sb gd) := by
  unfold groupMetadataAbove Interval.coveredCount metadataSpans
  simp only [List.map_cons, List.map_nil, List.sum_cons, List.sum_nil]
  split <;> split <;> split <;> try split
  all_goals omega

theorem countMetadata_eq (h : countMetadata cancelled d sb target k g n = .ok r) :
    r = n + ((List.range k).map fun i =>
      Interval.coveredCount target (metadataSpans sb (descAt d sb (g + i)))).sum := by
  induction k generalizing g n with
  | zero =>
    cases h
    rfl
  | succ k ih =>
    unfold countMetadata at h
    rw [Result.guard_bind_eq_ok_iff] at h
    obtain ⟨gd, hgd, h⟩ := Result.bind_eq_ok h.2
    rw [ih h, map_range_from_succ
      (fun i => Interval.coveredCount target (metadataSpans sb (descAt d sb i))) g k, List.sum_cons,
      groupMetadataAbove_eq, (readGroupDesc_eq_descAt hgd).1, Nat.add_assoc]

/-- `[first, next)` の空きの block。 -/
def unusedBlocks (d : Disk) (sb : Superblock) (first next : Nat) : Finset Nat :=
  (Finset.Ico first next).filter fun b => bitAt d sb b = false

/-- 使用中と空きを合わせると、範囲のすべての block になる。 -/
theorem card_used_add_unused :
    (usedBlocks d sb first target).card + (unusedBlocks d sb first target).card =
      target - first := by
  rw [usedBlocks, unusedBlocks, ← Nat.card_Ico first target,
    ← Finset.card_filter_add_card_filter_not (s := Finset.Ico first target)
      fun b => bitAt d sb b = true]
  simp only [Bool.not_eq_true]

theorem card_used_add (h : first ≤ target) (h' : target ≤ k) :
    (usedBlocks d sb first target).card + (usedBlocks d sb target k).card =
      (usedBlocks d sb first k).card := by
  unfold usedBlocks
  rw [← Finset.card_union_of_disjoint, ← Finset.filter_union, Finset.Ico_union_Ico_eq_Ico h h']
  exact Finset.disjoint_filter_filter (Finset.Ico_disjoint_Ico_consecutive _ _ _)

/-- 印が `used` の block の並びの先頭。 -/
def runStarts (f : Nat → Bool) (used : Bool) (first next : Nat) : Finset Nat :=
  (Finset.Ico first next).filter fun b => f b = used ∧ (b = first ∨ f (b - 1) ≠ used)

section Runs

variable {f : Nat → Bool} {used : Bool} {next : Nat}

/-- 別の区間の間には、印の異なる block がある。 -/
theorem MaximalRuns.gap (h : MaximalRuns f used first next es) {e e' : BlockExtent} (he : e ∈ es)
    (he' : e' ∈ es) (hne : e ≠ e') : e.endBlock < e'.start ∨ e'.endBlock < e.start := by
  have hsymm : Std.Symm fun a c : BlockExtent => a.endBlock < c.start ∨ c.endBlock < a.start :=
    ⟨fun _ _ h => Or.symm h⟩
  have hgaps : es.Pairwise fun a c => a.endBlock < c.start ∨ c.endBlock < a.start :=
    h.gaps.imp fun hac => Or.inl hac
  exact hgaps.forall he he' hne

/-- 続いた block は、一つの区間に収まる。 -/
theorem MaximalRuns.stretch (h : MaximalRuns f used first next es) {b m : Nat} (hm : 0 < m)
    (hall : ∀ i < m, InRuns es (b + i)) : ∃ e ∈ es, e.start ≤ b ∧ b + m ≤ e.endBlock := by
  induction m with
  | zero => cases hm
  | succ m ih =>
    rcases Nat.eq_zero_or_pos m with rfl | hpos
    · obtain ⟨e, he, h1, h2⟩ := hall 0 Nat.one_pos
      exact ⟨e, he, h1, h2⟩
    · obtain ⟨e, he, h1, h2⟩ := ih hpos fun i hi => hall i (Nat.lt_succ_of_lt hi)
      obtain ⟨e', he', h1', h2'⟩ := hall m (Nat.lt_succ_self m)
      by_cases heq : e = e'
      · exact ⟨e, he, h1, heq ▸ h2'⟩
      · rcases h.gap he he' heq with hgap | hgap <;> omega

/-- 区間の先頭は、並びの先頭である。 -/
theorem MaximalRuns.mem_runStarts_iff (h : MaximalRuns f used first next es) {b : Nat} :
    b ∈ runStarts f used first next ↔ ∃ e ∈ es, e.start = b := by
  unfold runStarts
  rw [Finset.mem_filter, Finset.mem_Ico]
  constructor
  · rintro ⟨⟨h1, h2⟩, hb, hstart⟩
    obtain ⟨e, he, hlo, hhi⟩ := (h.exact b).mpr ⟨h1, h2, hb⟩
    refine ⟨e, he, ?_⟩
    by_contra hne
    obtain ⟨h3, -, h4⟩ := (h.exact (b - 1)).mp ⟨e, he, by omega, by omega⟩
    rcases hstart with rfl | hstart
    · have := (h.exact e.start).mp ⟨e, he, Nat.le_refl _, by omega⟩
      omega
    · exact hstart h4
  · rintro ⟨e, he, rfl⟩
    have hpos := h.positive e he
    obtain ⟨h1, h2, h3⟩ := (h.exact e.start).mp ⟨e, he, Nat.le_refl _, Nat.lt_add_of_pos_right hpos⟩
    refine ⟨⟨h1, h2⟩, h3, ?_⟩
    by_contra hcon
    rw [not_or, not_not] at hcon
    -- 前の block にも印があれば、その区間は先頭の区間と離れていない
    obtain ⟨e', he', h4, h5⟩ := (h.exact (e.start - 1)).mpr ⟨by omega, by omega, hcon.2⟩
    have hne : e ≠ e' := by
      rintro rfl
      omega
    have hlen : e.start ≤ e.endBlock := Nat.le_add_right _ _
    rcases h.gap he he' hne with hgap | hgap <;> omega

theorem MaximalRuns.length_eq (h : MaximalRuns f used first next es) :
    es.length = (runStarts f used first next).card := by
  have hnodup : (es.map BlockExtent.start).Nodup := by
    refine List.pairwise_map.mpr (h.gaps.imp fun {a c} hac => ?_)
    have : a.start ≤ a.endBlock := Nat.le_add_right _ _
    omega
  rw [← List.length_map BlockExtent.start, ← List.toFinset_card_of_nodup hnodup]
  refine congrArg _ (Finset.ext fun b => ?_)
  rw [List.mem_toFinset, List.mem_map, h.mem_runStarts_iff]

end Runs

/-- 移動の列が、target 以上の使用中の block を、target より下の空きへちょうど移す。 -/
structure Relocates (d : Disk) (sb : Superblock) (target : Nat) (moves : List GeometryMove) : Prop where
  even : ∀ m ∈ moves, 0 < m.source.length ∧ m.destination.length = m.source.length
  sourcesApart : (moves.map GeometryMove.source).Pairwise BlockExtent.Apart
  sources : ∀ b, InRuns (moves.map GeometryMove.source) b ↔ b ∈ usedBlocks d sb target sb.blocksCount
  destinationsApart : (moves.map GeometryMove.destination).Pairwise BlockExtent.Apart
  destinations : ∀ b, InRuns (moves.map GeometryMove.destination) b →
    b ∈ unusedBlocks d sb sb.firstDataBlock target

/-- `plan_shrink` の数え方の、bitmap と descriptor での言い換え。 -/
structure ResizePlan.Exact (d : Disk) (sb : Superblock) (targetBytes : Nat) (p : ResizePlan) :
    Prop where
  sizes : p.currentBytes = sb.sizeBytes ∧ p.targetBytes = targetBytes ∧ p.blockSize = sb.blockSize
  targetBlocks : p.targetBlocks = targetBytes / sb.blockSize
  bytes : p.allocatedBytesAboveTarget = p.allocatedBlocksAboveTarget * sb.blockSize
  allocatedExtents : p.allocatedExtentCount =
    (runStarts (bitAt d sb) true sb.firstDataBlock sb.blocksCount).card
  freeExtents : p.freeExtentCount =
    (runStarts (bitAt d sb) false sb.firstDataBlock sb.blocksCount).card
  /-- 移動の数は、容量が足りるときの移動の列の長さで、足りなければ 0 である。 -/
  moves : ∃ moves : List GeometryMove, p.relocationMoveCount = moves.length ∧
    if p.allocatedBlocksAboveTarget ≤ p.freeBlocksBelowTarget then
      Relocates d sb p.targetBlocks moves
    else moves = []
  /-- target 以上で使用中の block が続く、最も長い並びの長さである。 -/
  largest : (∃ b, ∀ i < p.largestRelocationExtentBlocks,
      b + i ∈ usedBlocks d sb p.targetBlocks sb.blocksCount) ∧
    ∀ b n, (∀ i < n, b + i ∈ usedBlocks d sb p.targetBlocks sb.blocksCount) →
      n ≤ p.largestRelocationExtentBlocks
  inside : sb.firstDataBlock < p.targetBlocks ∧ p.targetBlocks < sb.blocksCount
  above : p.allocatedBlocksAboveTarget = (usedBlocks d sb p.targetBlocks sb.blocksCount).card
  below : p.freeBlocksBelowTarget = (unusedBlocks d sb sb.firstDataBlock p.targetBlocks).card
  highest : ∀ b ∈ usedBlocks d sb sb.firstDataBlock sb.blocksCount, b ≤ p.highestAllocatedBlock
  reached : p.highestAllocatedBlock ∈ usedBlocks d sb sb.firstDataBlock sb.blocksCount ∨
    p.highestAllocatedBlock = 0
  metadata : p.metadataBlocksAboveTarget = ((List.range sb.groupsCount).map fun g =>
    Interval.coveredCount p.targetBlocks (metadataSpans sb (descAt d sb g))).sum
  possible : p.targetPossibleByCapacity = true ↔
    (usedBlocks d sb sb.firstDataBlock sb.blocksCount).card ≤ p.targetBlocks - sb.firstDataBlock
  requires : p.requiresRelocation = true ↔
    (∃ b ∈ usedBlocks d sb sb.firstDataBlock sb.blocksCount, p.targetBlocks ≤ b) ∨
    ∃ g < sb.groupsCount, ∃ span ∈ metadataSpans sb (descAt d sb g),
      p.targetBlocks < span.1 + span.2 ∧ 0 < span.2

theorem mem_usedBlocks_iff (hfirst : sb.firstDataBlock ≤ target)
    (hused : MaximalRuns (bitAt d sb) true sb.firstDataBlock sb.blocksCount graph.allocated) {b : Nat} :
    b ∈ usedBlocks d sb target sb.blocksCount ↔ target ≤ b ∧ InRuns graph.allocated b := by
  rw [usedBlocks, Finset.mem_filter, Finset.mem_Ico, hused.exact]
  constructor
  · rintro ⟨⟨ht, hb⟩, hbit⟩
    exact ⟨ht, hfirst.trans ht, hb, hbit⟩
  · rintro ⟨ht, -, hb, hbit⟩
    exact ⟨⟨ht, hb⟩, hbit⟩

/-- 幾何の移動は、使用中の block をちょうど移す。 -/
theorem Relocates.of_geometry (hfirst : sb.firstDataBlock ≤ target)
    (hused : MaximalRuns (bitAt d sb) true sb.firstDataBlock sb.blocksCount graph.allocated)
    (hfree : MaximalRuns (bitAt d sb) false sb.firstDataBlock sb.blocksCount graph.free)
    {moves : List GeometryMove}
    (heven : ∀ m ∈ moves, 0 < m.source.length ∧ m.destination.length = m.source.length)
    (hsources : (moves.map GeometryMove.source).Pairwise BlockExtent.Apart)
    (hexact : ∀ b, InRuns (moves.map GeometryMove.source) b ↔
      target ≤ b ∧ InRuns graph.allocated b)
    (hdests : (moves.map GeometryMove.destination).Pairwise BlockExtent.Apart)
    (hbelow : ∀ b, InRuns (moves.map GeometryMove.destination) b →
      b < target ∧ InRuns graph.free b) : Relocates d sb target moves where
  even := heven
  sourcesApart := hsources
  sources b := (hexact b).trans (mem_usedBlocks_iff hfirst hused).symm
  destinationsApart := hdests
  destinations b hb := by
    obtain ⟨hlt, hrun⟩ := hbelow b hb
    obtain ⟨h1, -, hbit⟩ := (hfree.exact b).mp hrun
    exact Finset.mem_filter.mpr ⟨Finset.mem_Ico.mpr ⟨h1, hlt⟩, hbit⟩

/-- 移動元の最大の長さは、target 以上で使用中の block が続く最も長い並びの長さである。 -/
theorem largest_geometrySources (hfirst : sb.firstDataBlock ≤ target)
    (hused : MaximalRuns (bitAt d sb) true sb.firstDataBlock sb.blocksCount graph.allocated)
    {sources : List BlockExtent}
    (hperm : sources.Perm (geometrySources graph.toAllocationGraph target)) :
    (∃ b, ∀ i < (sources.map BlockExtent.length).foldl max 0,
      b + i ∈ usedBlocks d sb target sb.blocksCount) ∧
    ∀ b n, (∀ i < n, b + i ∈ usedBlocks d sb target sb.blocksCount) →
      n ≤ (sources.map BlockExtent.length).foldl max 0 := by
  obtain ⟨hle, -, hreached⟩ := foldl_max_spec (sources.map BlockExtent.length) 0
  constructor
  · rcases hreached with hzero | hmem
    · exact ⟨0, fun i hi => absurd hi (by omega)⟩
    · obtain ⟨e', he', hlen⟩ := List.mem_map.mp hmem
      obtain ⟨e, he, rfl⟩ := List.mem_map.mp (hperm.mem_iff.mp he')
      refine ⟨max e.start target, fun i hi => (mem_usedBlocks_iff hfirst hused).mpr ?_⟩
      rw [← hlen] at hi
      dsimp only at hi
      exact ⟨by omega, e, (List.mem_filter.mp he).1, by omega, by omega⟩
  · intro b n hall
    rcases Nat.eq_zero_or_pos n with rfl | hpos
    · exact Nat.zero_le _
    · have hrun := fun i hi => (mem_usedBlocks_iff hfirst hused).mp (hall i hi)
      obtain ⟨e, he, h1, h2⟩ := hused.stretch hpos fun i hi => (hrun i hi).2
      have htarget := (hrun 0 hpos).1
      have hmem : (⟨max e.start target, e.endBlock - max e.start target⟩ : BlockExtent) ∈ sources :=
        hperm.mem_iff.mpr (List.mem_map.mpr ⟨e, List.mem_filter.mpr ⟨he, by simpa using by omega⟩, rfl⟩)
      have hlast := hle _ (List.mem_map_of_mem hmem)
      dsimp only at hlast
      omega

theorem surveyShrink_eq_ok {host : ScanHost} {targetBytes metadata : Nat}
    (h : surveyShrink host cancelled d targetBytes = .ok (sb, graph, metadata)) :
    readSuperblock d = .ok sb ∧ targetBytes < sb.sizeBytes ∧
    sb.firstDataBlock < targetBytes / sb.blockSize ∧
    buildAllocationGraphWith host none d = .ok graph ∧
    countMetadata cancelled d sb (targetBytes / sb.blockSize) sb.groupsCount 0 0 = .ok metadata := by
  unfold surveyShrink at h
  obtain ⟨sb', hsb, h⟩ := Result.bind_eq_ok h
  dsimp only at h
  simp only [Result.guard_bind_eq_ok_iff] at h
  obtain ⟨hsize, hfirst, h⟩ := h
  obtain ⟨graph', hgraph, h⟩ := Result.bind_eq_ok h
  obtain ⟨metadata', hmetadata, h⟩ := Result.bind_eq_ok h
  cases h
  exact ⟨hsb, Nat.not_le.mp hsize, Nat.not_le.mp hfirst, hgraph, hmetadata⟩

/-- 区間にある block は、bitmap で使用中の block である。 -/
theorem allocatedAbove_eq (htotal : graph.totalBlocks = sb.blocksCount)
    (hfirst : sb.firstDataBlock ≤ target)
    (hused : MaximalRuns (bitAt d sb) true sb.firstDataBlock sb.blocksCount graph.allocated) :
    allocatedAbove graph target = usedBlocks d sb target sb.blocksCount := by
  ext b
  rw [allocatedAbove, usedBlocks, Finset.mem_filter, Finset.mem_filter, Finset.mem_range,
    Finset.mem_Ico, hused.exact, htotal]
  constructor
  · rintro ⟨hb, ht, -, -, hbit⟩
    exact ⟨⟨ht, hb⟩, hbit⟩
  · rintro ⟨⟨ht, hb⟩, hbit⟩
    exact ⟨hb, ht, hfirst.trans ht, hb, hbit⟩

theorem freeBelow_eq (htotal : graph.totalBlocks = sb.blocksCount) (hlt : target ≤ sb.blocksCount)
    (hfree : MaximalRuns (bitAt d sb) false sb.firstDataBlock sb.blocksCount graph.free) :
    freeBelow graph target = unusedBlocks d sb sb.firstDataBlock target := by
  ext b
  rw [freeBelow, unusedBlocks, Finset.mem_filter, Finset.mem_filter, Finset.mem_range,
    Finset.mem_Ico, hfree.exact, htotal]
  constructor
  · rintro ⟨-, ht, hb, -, hbit⟩
    exact ⟨⟨hb, ht⟩, hbit⟩
  · rintro ⟨⟨hb, ht⟩, hbit⟩
    exact ⟨ht.trans_le hlt, ht, hb, ht.trans_le hlt, hbit⟩

/-- metadata の数が 0 でないのは、target 以上にかかる範囲があるときである。 -/
theorem sum_coveredCount_pos {f : Nat → List (Nat × Nat)} :
    0 < ((List.range k).map fun g => Interval.coveredCount target (f g)).sum ↔
      ∃ g < k, ∃ span ∈ f g, target < span.1 + span.2 ∧ 0 < span.2 := by
  have hspan : ∀ a n : Nat, 0 < a + n - max a target ↔ target < a + n ∧ 0 < n := by
    intro a n
    omega
  have hsum : ∀ l : List Nat, 0 < l.sum ↔ ∃ x ∈ l, 0 < x := by
    intro l
    simp [Nat.pos_iff_ne_zero, List.sum_eq_zero_iff]
  simp only [hsum, Interval.coveredCount, List.mem_map, List.mem_range, exists_exists_and_eq_and,
    hspan]

/-- target 以上で数えた block は、bitmap で使用中の block である。 -/
theorem card_usedBlocks_of_graph (hg : graph.Partition first)
    (htotal : graph.totalBlocks = sb.blocksCount) (hfirst : sb.firstDataBlock ≤ target)
    (hused : MaximalRuns (bitAt d sb) true sb.firstDataBlock sb.blocksCount graph.allocated) :
    (graph.allocated.foldl (countAbove target) (0, 0)).1 =
      (usedBlocks d sb target sb.blocksCount).card := by
  have hsources := @sum_geometrySources graph target _ hg
  rw [geometrySources, List.map_map, allocatedAbove_eq htotal hfirst hused] at hsources
  exact ((@fst_foldl_countAbove graph.allocated target (0, 0)).trans (Nat.zero_add _)).trans hsources

/-- target より下で数えた block は、bitmap で空きの block である。 -/
theorem card_unusedBlocks_of_graph (hg : graph.Partition first)
    (htotal : graph.totalBlocks = sb.blocksCount) (hlt : target ≤ sb.blocksCount)
    (hfree : MaximalRuns (bitAt d sb) false sb.firstDataBlock sb.blocksCount graph.free) :
    countBelow target graph.free 0 = (unusedBlocks d sb sb.firstDataBlock target).card := by
  have hdests := @sum_geometryDests graph target _ hg
  rw [geometryDests, freeBelow_eq htotal hlt hfree] at hdests
  exact ((@countBelow_eq graph.free target 0).trans (Nat.zero_add _)).trans hdests

/-- 数えた最後の block は、使用中の最後の block である。 -/
theorem highest_of_graph
    (hused : MaximalRuns (bitAt d sb) true sb.firstDataBlock sb.blocksCount graph.allocated) :
    (∀ b ∈ usedBlocks d sb sb.firstDataBlock sb.blocksCount,
      b ≤ (graph.allocated.foldl (countAbove target) (0, 0)).2) ∧
    ((graph.allocated.foldl (countAbove target) (0, 0)).2 ∈
        usedBlocks d sb sb.firstDataBlock sb.blocksCount ∨
      (graph.allocated.foldl (countAbove target) (0, 0)).2 = 0) := by
  have hmem : ∀ b, b ∈ usedBlocks d sb sb.firstDataBlock sb.blocksCount ↔
      InRuns graph.allocated b := by
    intro b
    rw [hused.exact, usedBlocks, Finset.mem_filter, Finset.mem_Ico, and_assoc]
  rw [snd_foldl_countAbove hused.positive]
  obtain ⟨hle, -, hreached⟩ := foldl_max_spec (graph.allocated.map fun e => e.endBlock - 1) 0
  constructor
  · intro b hb
    obtain ⟨e, he, -, h2⟩ := (hmem b).mp hb
    exact (Nat.le_sub_one_of_lt h2).trans (hle _ (List.mem_map_of_mem he))
  · rcases hreached with hzero | hlast
    · exact Or.inr hzero
    · obtain ⟨e, he, hlast⟩ := List.mem_map.mp hlast
      have hpos := hused.positive e he
      refine Or.inl ((hmem _).mpr ⟨e, he, ?_⟩)
      rw [← hlast]
      unfold BlockExtent.endBlock
      omega

/-- 使用中の block が target 以上にあることの二つの言い方。 -/
theorem card_usedBlocks_pos_iff (hfirst : first ≤ target) :
    0 < (usedBlocks d sb target k).card ↔ ∃ b ∈ usedBlocks d sb first k, target ≤ b := by
  rw [Finset.card_pos]
  constructor
  · rintro ⟨b, hb⟩
    obtain ⟨hb, hbit⟩ := Finset.mem_filter.mp hb
    rw [Finset.mem_Ico] at hb
    exact ⟨b, Finset.mem_filter.mpr ⟨Finset.mem_Ico.mpr ⟨hfirst.trans hb.1, hb.2⟩, hbit⟩, hb.1⟩
  · rintro ⟨b, hb, hle⟩
    obtain ⟨hb, hbit⟩ := Finset.mem_filter.mp hb
    rw [Finset.mem_Ico] at hb
    exact ⟨b, Finset.mem_filter.mpr ⟨Finset.mem_Ico.mpr ⟨hle, hb.2⟩, hbit⟩⟩

/--
**`plan_shrink` は必ず止まり、計画の数は bitmap と descriptor から数えたとおりである。**

容量が足りるとするのは、使用中のすべての block が target より下に収まるときに限る。
-/
theorem planShrink_exact (srt : StdSort) (host : ScanHost) (cancelled : Nat → Bool) (d : Disk)
    (targetBytes : Nat) :
    ∃ res, planShrink srt host cancelled d targetBytes = some res ∧
      ∀ p, res = .ok p → ∃ sb, readSuperblock d = .ok sb ∧ p.Exact d sb targetBytes := by
  unfold planShrink
  cases hsurvey : surveyShrink host cancelled d targetBytes with
  | error e => exact ⟨.error e, rfl, nofun⟩
  | ok x =>
    obtain ⟨sb, graph, metadata⟩ := x
    obtain ⟨hsb, hsize, hfirst, hgraph, hmetadata⟩ := surveyShrink_eq_ok hsurvey
    have ha := accepted_of_readSuperblock hsb
    obtain ⟨sb', hsb', htotal, hg⟩ := partition_of_build hgraph
    obtain ⟨sb'', hsb'', hused, hfree, hcount, -⟩ := maximalRuns_of_build hgraph
    rw [hsb] at hsb' hsb''
    cases hsb'
    cases hsb''
    have hlt : targetBytes / sb.blockSize < sb.blocksCount := by
      rw [ha.sizeBytes_eq d.size_lt] at hsize
      exact Nat.div_lt_of_lt_mul (by rwa [Nat.mul_comm] at hsize)
    dsimp only
    generalize htarget : targetBytes / sb.blockSize = target at hfirst hlt hmetadata ⊢
    obtain ⟨r, hr, hcap, hcovers, hnone, hmax⟩ :=
      buildRelocationGeometry_inside srt hg (by omega) (htotal ▸ hlt)
    rw [hr]
    refine ⟨_, rfl, fun p hp => ⟨sb, hsb, ?_⟩⟩
    cases hp
    have habove := card_usedBlocks_of_graph hg htotal hfirst.le hused
    have hbelow := card_unusedBlocks_of_graph hg htotal hlt.le hfree
    have hhighest := @highest_of_graph d sb graph target hused
    rw [allocatedAbove_eq htotal hfirst.le hused, freeBelow_eq htotal hlt.le hfree] at hcap
    rw [countOf_eq_card] at hcount
    have hmetadata' := countMetadata_eq hmetadata
    simp only [Nat.zero_add] at hmetadata'
    exact {
      sizes := ⟨rfl, rfl, rfl⟩
      targetBlocks := htarget.symm
      bytes := rfl
      allocatedExtents := hused.length_eq
      freeExtents := hfree.length_eq
      moves := by
        refine ⟨r.moves, rfl, ?_⟩
        dsimp only
        rw [habove, hbelow]
        split
        · next hle =>
          obtain ⟨heven, hs, hexact, hd, hin⟩ := hcovers (hcap.mpr hle)
          exact Relocates.of_geometry hfirst.le hused hfree heven hs hexact hd hin
        · next hlt =>
          exact hnone (Bool.eq_false_iff.mpr fun h => hlt (hcap.mp h))
      largest := by
        dsimp only
        rw [hmax]
        exact largest_geometrySources hfirst.le hused (srt.perm _ _)
      inside := ⟨hfirst, hlt⟩
      above := habove
      below := hbelow
      highest := hhighest.1
      reached := hhighest.2
      metadata := hmetadata'
      possible := by
        have hadd := @card_used_add_unused d sb target sb.firstDataBlock
        have hall := @card_used_add d sb target sb.firstDataBlock sb.blocksCount hfirst.le hlt.le
        have hcount' : graph.allocatedBlocks =
          (usedBlocks d sb sb.firstDataBlock sb.blocksCount).card := hcount
        dsimp only
        rw [Bool.and_eq_true, hcap, decide_eq_true_eq, hcount']
        omega
      requires := by
        dsimp only
        rw [Bool.or_eq_true, decide_eq_true_eq, decide_eq_true_eq, habove, hmetadata']
        exact or_congr (card_usedBlocks_pos_iff hfirst.le) sum_coveredCount_pos }

end Plan

/-- 16 block のうち、後ろの 5 block を切る計画。使用中の block 10 から 15 が target をまたぐ。 -/
theorem Tiny.surveyed : (planShrink StdSort.ofStable Tiny.scanHost (fun _ => false) Tiny.spread
    22528).map (fun r => r.map fun p => (p.allocatedBlocksAboveTarget, p.freeBlocksBelowTarget,
      p.allocatedExtentCount, p.largestRelocationExtentBlocks)) = some (.ok (5, 5, 2, 5)) := by
  decide +kernel

theorem planShrink_exact_spread : ∃ p, planShrink StdSort.ofStable Tiny.scanHost (fun _ => false)
    Tiny.spread 22528 = some (.ok p) ∧ p.allocatedBlocksAboveTarget = 5 ∧
      ∃ sb, readSuperblock Tiny.spread = .ok sb ∧ p.Exact Tiny.spread sb 22528 := by
  have hok := Tiny.surveyed
  obtain ⟨res, hres, hexact⟩ := planShrink_exact StdSort.ofStable Tiny.scanHost (fun _ => false)
    Tiny.spread 22528
  rw [hres] at hok
  cases res with
  | error e => cases hok
  | ok p => exact ⟨p, hres, (Prod.mk.inj (Except.ok.inj (Option.some.inj hok))).1, hexact p rfl⟩

end Fsx.Ext4
