import Fsx.Core.Interval
import Fsx.Ext4.LiveScan
import Fsx.Ext4.Session

/-!
# 深い検証（`src/ext4/verify.cpp`）

`verify_deep` は、inode の checksum を含む `verify_metadata` に続けて、extent と tree block の
範囲が印の中にあること、互いに重ならないこと、固定の metadata と交わらないことを調べる。

`clean` と答えた image では、使われている inode の持つ範囲がどれも filesystem の中で印を持ち、
互いにも固定の metadata とも重ならない。
-/

namespace Fsx.Ext4

/-! ## inode を調べる `verify_metadata` -/

/-- `verify_inode_checksum` -/
def verifyInodeChecksum (ctx : MetadataContext) (ino : Nat) (raw : Bytes) : Result Bool := do
  if ctx.metadataCsum = false then return true
  if raw.length < 128 then
    throw { code := .corrupt, message := "inode buffer too short" }
  let hi := inodeHasHiChecksum raw
  let stored := readLe 2 raw 0x7c ||| (if hi then readLe 2 raw 0x82 else 0) <<< 16
  let expected := computeInodeChecksum ctx ino raw
  return if hi then decide (stored = expected)
    else decide (stored &&& 0xffff = expected &&& 0xffff)

/-- `verify_metadata` の inode のループ。 -/
def verifyInodes (d : Disk) (ctx : MetadataContext) (ib : Bytes) (firstInode : Nat) :
    Nat → Nat → List String → Result (List String)
  | 0, _, errors => .ok errors
  | n + 1, i, errors =>
    if bitSet ib i = false then verifyInodes d ctx ib firstInode n (i + 1) errors
    else do
      let inode ← readInodeRaw d ctx (firstInode + i)
      if readLe 2 inode 0 = 0 then verifyInodes d ctx ib firstInode n (i + 1) errors
      else
        let ok ← verifyInodeChecksum ctx (firstInode + i) inode
        verifyInodes d ctx ib firstInode n (i + 1) (errors ++
          if ok then [] else ["inode " ++ toString (firstInode + i) ++ " checksum mismatch"])

/-- `scan_inodes` が真のときの group 一つ分。 -/
def verifyGroupInodes (d : Disk) (ctx : MetadataContext) (g : Nat) (out : MetadataIntegrityReport) :
    Result MetadataIntegrityReport := do
  let out' ← verifyGroup d ctx g out
  let gd ← readGroupDesc d ctx.sb g
  if ctx.metadataCsum = false ∨ gd.flags &&& bgInodeUninit ≠ 0 then return out'
  let ib ← readInodeBitmap d ctx.sb gd
  let errors ← verifyInodes d ctx ib (u64 (g * ctx.sb.inodesPerGroup + 1))
    (ctx.sb.groupInodeCount g) 0 out'.errors
  return { out' with errors }

def verifyGroupsInodes (cancel : Nat → Bool) (d : Disk) (ctx : MetadataContext) :
    Nat → Nat → MetadataIntegrityReport → Result MetadataIntegrityReport
  | 0, _, out => .ok out
  | n + 1, g, out => do
    if cancel g then
      throw { code := .unsafeErr, message := "metadata verification cancelled" }
    let out' ← verifyGroupInodes d ctx g out
    verifyGroupsInodes cancel d ctx n (g + 1) out'

/-- `verify_metadata(dev, scan_inodes = true)` -/
def verifyMetadataInodes (cancel : Nat → Bool) (d : Disk) : Result MetadataIntegrityReport := do
  let raw ← readRawSuperblock d
  let _ ← readSuperblock d
  let ctx ← loadMetadataContext d
  let out ← verifyGroupsInodes cancel d ctx ctx.sb.groupsCount 0 {
    allocatedBlocks := 0
    allocatedInodes := 0
    errors := if verifySuperblockChecksum raw then [] else ["superblock checksum mismatch"] }
  return { out with
    errors := out.errors
      ++ (if out.allocatedBlocks = ctx.sb.blocksCount - ctx.sb.freeBlocks then []
          else ["superblock free-block count disagrees with allocation bitmaps"])
      ++ (if ctx.sb.inodesCount - ctx.sb.freeInodes = out.allocatedInodes then []
          else ["superblock free-inode count disagrees with inode bitmaps"]) }

/-! ## 範囲の判定 -/

namespace Deep

/-- `verify.cpp` の `Range` -/
structure Range where
  start : Nat
  endBlock : Nat
  inode : Nat
  metadata : Bool
  deriving DecidableEq

/-- `count_overlaps` の並べ方。 -/
def Range.before (a b : Range) : Bool :=
  if a.start ≠ b.start then decide (a.start < b.start)
  else if a.endBlock ≠ b.endBlock then decide (a.endBlock < b.endBlock)
  else decide (a.inode < b.inode)

/-- `overlaps_any` に渡す列の並べ方。 -/
def Range.beforeBounds (a b : Range) : Bool :=
  if a.start ≠ b.start then decide (a.start < b.start)
  else decide (a.endBlock < b.endBlock)

/-- `add_overflow`。桁あふれしないときだけ和を返す。 -/
def addOverflow (a b : Nat) : Option Nat := if b > u64Max - a then none else some (a + b)

/-- `fully_allocated` の、位置を見つけた後のループ。 -/
def extendCovered (stop : Nat) : List BlockExtent → Nat → Bool
  | [], _ => false
  | e :: es, covered =>
    if e.start ≤ covered then
      let covered' := max covered e.end64
      if covered' ≥ stop then true else extendCovered stop es covered'
    else false

/-- `fully_allocated`。 -/
def fullyAllocated (allocated : List BlockExtent) (start length : Nat) : Bool :=
  if length = 0 then true
  else
    match addOverflow start length with
    | none => false
    | some stop =>
      extendCovered stop
        (allocated.drop (Interval.lowerBound (fun e => decide (e.end64 ≤ start)) allocated)) start

/-- `count_overlaps` -/
def countOverlaps (srt : StdSort) (ranges : List Range) : Nat :=
  match srt.sort Range.before ranges with
  | [] => 0
  | r :: rest => Interval.overlapCount Range.start Range.endBlock r.endBlock rest

/-- `overlaps_any` -/
def overlapsAny (sorted : List Range) (start stop : Nat) : Bool :=
  Interval.meetsAny Range.start Range.endBlock sorted start stop

end Deep

/-! ## `verify_deep` -/

structure DeepIntegrityReport where
  completeOwnerCoverage : Bool := true
  groupsChecked : Nat := 0
  allocatedInodes : Nat := 0
  extentInodes : Nat := 0
  legacyInodes : Nat := 0
  dataExtents : Nat := 0
  dataBlocks : Nat := 0
  extentTreeBlocks : Nat := 0
  ownerUnallocatedRanges : Nat := 0
  metadataUnallocatedRanges : Nat := 0
  overlappingOwnerRanges : Nat := 0
  ownerMetadataOverlaps : Nat := 0
  warnings : List String := []
  errors : List String := []
  deriving DecidableEq

/-- `clean` -/
def DeepIntegrityReport.clean (r : DeepIntegrityReport) : Bool := r.errors.isEmpty

namespace Deep

/-- 範囲を集める途中。 -/
structure State where
  out : DeepIntegrityReport
  ranges : List Range

section Steps

variable (blocksCount : Nat) (graph : AllocationGraph)

/-- extent 一つ分。 -/
def addExtent (s : State) (e : OwnedExtent) : State :=
  if e.length > u64Max - e.physicalBlock ∨ e.endBlock > blocksCount then
    { s with out := { s.out with
      errors := s.out.errors ++
        ["inode " ++ toString e.inode ++ " extent overflows filesystem geometry"] } }
  else
    let allocated := fullyAllocated graph.allocated e.physicalBlock e.length
    { ranges := s.ranges ++ [⟨e.physicalBlock, e.endBlock, e.inode, false⟩]
      out := { s.out with
        dataBlocks := s.out.dataBlocks + e.length
        ownerUnallocatedRanges := s.out.ownerUnallocatedRanges + if allocated then 0 else 1
        errors := s.out.errors ++ if allocated then [] else
          ["inode " ++ toString e.inode ++ " extent is not fully allocated in the block bitmap"] } }

/-- tree block 一つ分。 -/
def addTreeBlock (s : State) (t : ExtentTreeBlock) : State :=
  let allocated := fullyAllocated graph.allocated t.physicalBlock 1
  { ranges := s.ranges ++ [⟨t.physicalBlock, t.physicalBlock + 1, t.inode, false⟩]
    out := { s.out with
      ownerUnallocatedRanges := s.out.ownerUnallocatedRanges + if allocated then 0 else 1
      errors := s.out.errors ++ if allocated then [] else
        ["inode " ++ toString t.inode ++ " extent-tree block is not allocated in the block bitmap"] } }

/-- 固定の metadata の範囲一つ分。 -/
def checkFixed (g : Nat) (sorted : List Range) (out : DeepIntegrityReport) (r : Range) :
    DeepIntegrityReport :=
  if r.endBlock > blocksCount then
    { out with
      metadataUnallocatedRanges := out.metadataUnallocatedRanges + 1
      errors := out.errors ++
        ["group " ++ toString g ++ " fixed metadata exceeds filesystem geometry"] }
  else
    let allocated := fullyAllocated graph.allocated r.start (r.endBlock - r.start)
    let overlaps := overlapsAny sorted r.start r.endBlock
    { out with
      metadataUnallocatedRanges := out.metadataUnallocatedRanges + if allocated then 0 else 1
      ownerMetadataOverlaps := out.ownerMetadataOverlaps + if overlaps then 1 else 0
      errors := out.errors
        ++ (if allocated then [] else
          ["group " ++ toString g ++ " fixed metadata is not fully allocated in block bitmap"])
        ++ if overlaps then
          ["group " ++ toString g ++ " fixed metadata overlaps inode-owned blocks"] else [] }

end Steps

/-- group の固定の metadata。`tableBlocks` は inode table の block 数である。 -/
def fixedRanges (gd : GroupDesc) (tableBlocks : Nat) : List Range :=
  [⟨gd.blockBitmap, gd.blockBitmap + 1, 0, true⟩, ⟨gd.inodeBitmap, gd.inodeBitmap + 1, 0, true⟩,
    ⟨gd.inodeTable, gd.inodeTable + tableBlocks, 0, true⟩]

/-- group のループ。 -/
def checkGroups (cancel : Nat → Bool) (d : Disk) (sb : Superblock) (graph : AllocationGraph)
    (sorted : List Range) : Nat → Nat → DeepIntegrityReport → Result DeepIntegrityReport
  | 0, _, out => .ok out
  | n + 1, g, out => do
    if cancel g then throw { code := .unsafeErr, message := "deep verification cancelled" }
    let gd ← readGroupDesc d sb g
    checkGroups cancel d sb graph sorted n (g + 1)
      ((fixedRanges gd sb.inodeTableBlocks).foldl (checkFixed sb.blocksCount graph g sorted) out)

end Deep

open Deep in
/-- `verify_deep`。`cancel g` は group `g` の手前での中断要求である。 -/
def verifyDeep (host : Host) (cancel : Nat → Bool) (d : Disk) : Result DeepIntegrityReport := do
  let basic ← verifyMetadataInodes host.verifyCancelled d
  let sb ← readSuperblock d
  let graph ← buildAllocationGraph host d
  let owners ← scanExtentOwners host.srt host.scanCancelled d 0
  let out : DeepIntegrityReport := {
    completeOwnerCoverage := decide (owners.legacyBlockmapInodes = 0)
    groupsChecked := sb.groupsCount
    allocatedInodes := owners.allocatedInodes
    extentInodes := owners.extentInodes
    legacyInodes := owners.legacyBlockmapInodes
    dataExtents := owners.extents.length
    extentTreeBlocks := owners.treeBlocks.length
    warnings := if owners.legacyBlockmapInodes = 0 then [] else
      [toString owners.legacyBlockmapInodes ++ " allocated inodes use legacy indirect block maps; "
        ++ "full owner coverage is unavailable"]
    errors := basic.errors }
  let s := owners.extents.foldl (addExtent sb.blocksCount graph) { out, ranges := [] }
  let s := owners.treeBlocks.foldl (addTreeBlock graph) s
  let overlaps := countOverlaps host.srt s.ranges
  checkGroups cancel d sb graph (host.srt.sort Range.beforeBounds s.ranges) sb.groupsCount 0
    { s.out with
      overlappingOwnerRanges := overlaps
      errors := s.out.errors ++ if overlaps = 0 then [] else
        [toString overlaps ++ " overlapping physical owner ranges detected"] }

/-! ## 印のある範囲 -/

theorem BlockExtent.end64_le (e : BlockExtent) : e.end64 ≤ e.endBlock := Nat.mod_le _ _

theorem coveredUpTo_eq {stop : Nat} : ∀ {es : List BlockExtent} {covered : Nat},
    coveredUpTo stop es covered =
      Interval.reaches BlockExtent.start BlockExtent.end64 stop es covered
  | [], _ => rfl
  | e :: es, covered => by
    have hmax : (if e.end64 > covered then e.end64 else covered) = max covered e.end64 := by
      rw [Nat.max_def]
      split <;> split <;> omega
    simp only [coveredUpTo, Interval.reaches, hmax, coveredUpTo_eq, ge_iff_le]

theorem rangeFullyAllocated_eq (allocated : List BlockExtent) (start length : Nat) :
    rangeFullyAllocated allocated start length =
      if length = 0 then true
      else if length > u64Max - start then false
      else
        Interval.covers BlockExtent.start BlockExtent.end64 allocated start (start + length) := by
  simp only [rangeFullyAllocated, Interval.covers, coveredUpTo_eq]

namespace Deep

theorem extendCovered_eq {stop : Nat} : ∀ {es : List BlockExtent} {covered : Nat},
    extendCovered stop es covered =
      Interval.reaches BlockExtent.start BlockExtent.end64 stop es covered
  | [], _ => rfl
  | e :: es, covered => by
    simp only [extendCovered, Interval.reaches, extendCovered_eq, ge_iff_le]

/-- **二つの探索は、どの列についても同じ答えを返す。** -/
theorem fullyAllocated_eq (allocated : List BlockExtent) (start length : Nat) :
    fullyAllocated allocated start length = rangeFullyAllocated allocated start length := by
  rw [rangeFullyAllocated_eq]
  unfold fullyAllocated addOverflow
  by_cases hwrap : length > u64Max - start
  · simp only [if_pos hwrap]
  · simp only [if_neg hwrap, Interval.covers, extendCovered_eq]

end Deep

/-- 範囲がすべて使用中と答えたなら、どの block も使用中の区間にある。 -/
theorem exists_of_rangeFullyAllocated {allocated : List BlockExtent} {start length : Nat}
    (h : rangeFullyAllocated allocated start length = true) {b : Nat} (h1 : start ≤ b)
    (h2 : b < start + length) : ∃ e ∈ allocated, e.start ≤ b ∧ b < e.endBlock := by
  rw [rangeFullyAllocated_eq, if_neg (show ¬ length = 0 by omega)] at h
  split at h
  · cases h
  · obtain ⟨e, he, hle, hlt⟩ := Interval.exists_of_reaches h b h1 h2
    exact ⟨e, List.mem_of_mem_drop he, hle, hlt.trans_le e.end64_le⟩

namespace Volume

/-- block `b` は filesystem の中にあり、使用中の印を持つ。 -/
structure Allocated (V : Volume) (b : Nat) : Prop where
  first : V.sb.firstDataBlock ≤ b
  within : b < V.sb.blocksCount
  marked : V.Marked V.data b

/-- 使用中と答えた範囲の block は、filesystem の中にあって印を持つ。 -/
theorem allocated_of_rangeFullyAllocated {V : Volume} {host : Host} {graph : AllocationGraph}
    (hg : buildAllocationGraph host V.disk = .ok graph) {start length : Nat}
    (h : rangeFullyAllocated graph.allocated start length = true) {b : Nat} (h1 : start ≤ b)
    (h2 : b < start + length) : V.Allocated b := by
  obtain ⟨e, he, h3, h4⟩ := exists_of_rangeFullyAllocated h h1 h2
  obtain ⟨h5, h6, h7⟩ := (side_buildAllocationGraph hg true).1 e he b h3 h4
  exact ⟨h5, h6, h7.mpr rfl⟩

theorem allocated_of_fullyAllocated {V : Volume} {host : Host} {graph : AllocationGraph}
    (hg : buildAllocationGraph host V.disk = .ok graph) {start length : Nat}
    (h : Deep.fullyAllocated graph.allocated start length = true) {b : Nat} (h1 : start ≤ b)
    (h2 : b < start + length) : V.Allocated b := by
  rw [Deep.fullyAllocated_eq] at h
  exact allocated_of_rangeFullyAllocated hg h h1 h2

end Volume

/-! ## 異常のない一歩 -/

namespace Deep

def extentRange (e : OwnedExtent) : Range := ⟨e.physicalBlock, e.endBlock, e.inode, false⟩

def treeRange (t : ExtentTreeBlock) : Range :=
  ⟨t.physicalBlock, t.physicalBlock + 1, t.inode, false⟩

section Clean

variable {blocksCount : Nat} {graph : AllocationGraph}

theorem addExtent_clean {s : State} {e : OwnedExtent}
    (h : (addExtent blocksCount graph s e).out.errors = []) :
    s.out.errors = [] ∧ fullyAllocated graph.allocated e.physicalBlock e.length = true ∧
      (addExtent blocksCount graph s e).ranges = s.ranges ++ [extentRange e] := by
  unfold addExtent at h ⊢
  split at h
  · simp at h
  · next hfits =>
    rw [if_neg hfits]
    cases ha : fullyAllocated graph.allocated e.physicalBlock e.length with
    | false => simp [ha] at h
    | true => exact ⟨by simpa [ha] using h, rfl, rfl⟩

theorem addTreeBlock_clean {s : State} {t : ExtentTreeBlock}
    (h : (addTreeBlock graph s t).out.errors = []) :
    s.out.errors = [] ∧ fullyAllocated graph.allocated t.physicalBlock 1 = true ∧
      (addTreeBlock graph s t).ranges = s.ranges ++ [treeRange t] := by
  unfold addTreeBlock at h ⊢
  cases ha : fullyAllocated graph.allocated t.physicalBlock 1 with
  | false => simp [ha] at h
  | true => exact ⟨by simpa [ha] using h, rfl, rfl⟩

/-- 異常なしに終わった畳み込みは、どの要素でも異常がなく、範囲を順に足している。 -/
theorem foldl_clean {α : Type} {step : State → α → State} {ok : α → Prop} {range : α → Range}
    (hstep : ∀ s x, (step s x).out.errors = [] →
      s.out.errors = [] ∧ ok x ∧ (step s x).ranges = s.ranges ++ [range x]) :
    ∀ {xs : List α} {s : State}, (xs.foldl step s).out.errors = [] →
      s.out.errors = [] ∧ (∀ x ∈ xs, ok x) ∧ (xs.foldl step s).ranges = s.ranges ++ xs.map range
  | [], s, h => ⟨h, fun x hx => (by cases hx), by simp⟩
  | x :: xs, s, h => by
    obtain ⟨h1, h2, h3⟩ := @foldl_clean α step ok range hstep xs (step s x) h
    obtain ⟨h4, h5, h6⟩ := hstep s x h1
    refine ⟨h4, List.forall_mem_cons.mpr ⟨h5, h2⟩, ?_⟩
    rw [List.foldl_cons, h3, h6, List.map_cons, List.append_assoc, List.singleton_append]

variable {g : Nat} {sorted : List Range}

/-- 固定の metadata の範囲に異常がない。 -/
structure FixedOk (graph : AllocationGraph) (sorted : List Range) (r : Range) : Prop where
  allocated : fullyAllocated graph.allocated r.start (r.endBlock - r.start) = true
  apart : overlapsAny sorted r.start r.endBlock = false

theorem checkFixed_clean {out : DeepIntegrityReport} {r : Range}
    (h : (checkFixed blocksCount graph g sorted out r).errors = []) :
    out.errors = [] ∧ FixedOk graph sorted r := by
  unfold checkFixed at h
  split at h
  · simp at h
  · cases ha : fullyAllocated graph.allocated r.start (r.endBlock - r.start) with
    | false => simp [ha] at h
    | true =>
      cases hm : overlapsAny sorted r.start r.endBlock with
      | false => exact ⟨by simpa [ha, hm] using h, ha, hm⟩
      | true => simp [hm] at h

theorem foldl_checkFixed_clean : ∀ {rs : List Range} {out : DeepIntegrityReport},
    (rs.foldl (checkFixed blocksCount graph g sorted) out).errors = [] →
      out.errors = [] ∧ ∀ r ∈ rs, FixedOk graph sorted r
  | [], _, h => ⟨h, fun r hr => (by cases hr)⟩
  | r :: rs, out, h => by
    rw [List.foldl_cons] at h
    obtain ⟨h1, h2⟩ := foldl_checkFixed_clean h
    obtain ⟨h3, h4⟩ := checkFixed_clean h1
    exact ⟨h3, List.forall_mem_cons.mpr ⟨h4, h2⟩⟩

/-- 異常なしに終わった group のループでは、どの group の固定の metadata にも異常がない。 -/
theorem checkGroups_clean {cancel : Nat → Bool} {d : Disk} {sb : Superblock} :
    ∀ {n g : Nat} {out r : DeepIntegrityReport},
      checkGroups cancel d sb graph sorted n g out = .ok r → r.errors = [] →
      out.errors = [] ∧ ∀ i, g ≤ i → i < g + n → ∃ gd, readGroupDesc d sb i = .ok gd ∧
        ∀ x ∈ fixedRanges gd sb.inodeTableBlocks, FixedOk graph sorted x
  | 0, g, out, r, h, hr => by
    cases h
    exact ⟨hr, fun i h1 h2 => absurd h2 (by omega)⟩
  | n + 1, g, out, r, h, hr => by
    rw [checkGroups, Result.guard_bind_eq_ok_iff] at h
    obtain ⟨gd, hgd, h⟩ := Result.bind_eq_ok h.2
    obtain ⟨h1, h2⟩ := checkGroups_clean h hr
    obtain ⟨h3, h4⟩ := foldl_checkFixed_clean h1
    refine ⟨h3, fun i hi hi' => ?_⟩
    rcases Nat.eq_or_lt_of_le hi with rfl | hlt
    · exact ⟨gd, hgd, h4⟩
    · exact h2 i hlt (by omega)

end Clean

/-! ## 並べた範囲 -/

/-- 二つの範囲が重ならない。 -/
def Range.Apart (a b : Range) : Prop := a.endBlock ≤ b.start ∨ b.endBlock ≤ a.start

instance : Std.Symm Range.Apart := ⟨fun _ _ h => Or.symm h⟩

theorem strictWeak_beforeBounds : StrictWeak Range.beforeBounds := by
  constructor
  · intro a b h
    unfold Range.beforeBounds at h ⊢
    grind
  · intro a b c h1 h2
    unfold Range.beforeBounds at h1 h2 ⊢
    grind

/-- **重なりを一つも数えなければ、どの二つの範囲も重ならない。** -/
theorem pairwise_of_countOverlaps {srt : StdSort} {ranges : List Range}
    (h : countOverlaps srt ranges = 0) : ranges.Pairwise Range.Apart := by
  have hordered : Interval.Ordered Range.start Range.endBlock (srt.sort Range.before ranges) := by
    unfold countOverlaps at h
    split at h
    · next hnil => exact hnil ▸ List.Pairwise.nil
    · next r rest hcons =>
      rw [hcons]
      obtain ⟨h1, h2⟩ := (Interval.overlapCount_eq_zero_iff Range.start Range.endBlock).mp h
      exact List.pairwise_cons.mpr ⟨h1, h2⟩
  have happart : (srt.sort Range.before ranges).Pairwise Range.Apart :=
    hordered.imp fun hab => Or.inl hab
  exact (srt.perm _ _).pairwise happart fun h => Or.symm h

/-- 重ならない空でない範囲は、位置の順に並べると順に並ぶ。 -/
theorem ordered_sort {srt : StdSort} {ranges : List Range} (h : ranges.Pairwise Range.Apart)
    (hne : ∀ r ∈ ranges, r.start < r.endBlock) :
    Interval.Ordered Range.start Range.endBlock (srt.sort Range.beforeBounds ranges) := by
  have hperm := srt.perm Range.beforeBounds ranges
  have happart : (srt.sort Range.beforeBounds ranges).Pairwise Range.Apart :=
    hperm.symm.pairwise h fun h => Or.symm h
  refine List.Pairwise.imp_of_mem ?_
    (happart.and (srt.sorted Range.beforeBounds ranges strictWeak_beforeBounds))
  rintro a b - hb ⟨hab | hba, hle⟩
  · exact hab
  · -- 後ろの範囲が前にあれば、並び順に反する。
    have hlt := hne b (hperm.mem_iff.mp hb)
    exfalso
    unfold Range.beforeBounds at hle
    rw [if_pos (by omega), decide_eq_false_iff_not] at hle
    omega

end Deep

/-! ## 健全さ -/

namespace Volume

variable (V : Volume)

/-- inode `ino` の extent と tree block の範囲。 -/
def spansOf (ino : Nat) : List (Nat × Nat) :=
  (V.extentsOf ino).map extentSpan ++ (V.treesOf ino).map treeSpan

/-- block `b` は group `g` の固定の metadata である。 -/
def Fixed (g b : Nat) : Prop :=
  b = (V.desc g).blockBitmap ∨ b = (V.desc g).inodeBitmap ∨
    ((V.desc g).inodeTable ≤ b ∧ b < (V.desc g).inodeTable + V.sb.inodeTableBlocks)

/-- 使われている inode の範囲と固定の metadata が、印の中で互いに重ならない。 -/
structure DeepSound : Prop where
  owned : ∀ ino, V.Live ino → ∀ r ∈ V.spansOf ino, ∀ b, r.1 ≤ b → b < r.1 + r.2 → V.Allocated b
  apartWithin : ∀ ino, V.Live ino → (V.spansOf ino).Pairwise SpanApart
  apartAcross : ∀ ino ino', V.Live ino → V.Live ino' → ino ≠ ino' →
    ∀ r ∈ V.spansOf ino, ∀ r' ∈ V.spansOf ino', SpanApart r r'
  fixed : ∀ g < V.sb.groupsCount, ∀ b, V.Fixed g b → V.Allocated b
  fixedApart : ∀ g < V.sb.groupsCount, ∀ b, V.Fixed g b → ∀ ino, V.Live ino →
    ∀ r ∈ V.spansOf ino, ¬ (r.1 ≤ b ∧ b < r.1 + r.2)

variable {V}

def slotSpans (V : Volume) (s : InodeSlot) : List (Nat × Nat) :=
  (V.slotExtents s).map extentSpan ++ (V.slotTrees s).map treeSpan

theorem Live.slotSpans {ino : Nat} (h : V.Live ino) :
    V.slotSpans (V.slotOf ino) = V.spansOf ino := by
  unfold Volume.slotSpans spansOf
  rw [h.slotExtents, h.slotTrees]

/-- 固定の metadata の block は、調べる範囲のどれかにある。 -/
theorem Fixed.exists_range {g b : Nat} (h : V.Fixed g b) :
    ∃ x ∈ Deep.fixedRanges (V.desc g) V.sb.inodeTableBlocks, x.start ≤ b ∧ b < x.endBlock := by
  unfold Deep.fixedRanges
  rcases h with rfl | rfl | ⟨h1, h2⟩
  · exact ⟨_, List.mem_cons_self, Nat.le_refl _, Nat.lt_succ_self _⟩
  · exact ⟨_, List.mem_cons_of_mem _ List.mem_cons_self, Nat.le_refl _, Nat.lt_succ_self _⟩
  · exact ⟨_, List.mem_cons_of_mem _ (List.mem_cons_of_mem _ List.mem_cons_self), h1, h2⟩

/-- 検査を通った枠では、零から上の extent と tree block は全部である。 -/
theorem SlotOk.kept_zero {s : InodeSlot} {retain : Nat} (h : V.SlotOk s retain) :
    V.keptExtents 0 s = V.slotExtents s ∧ V.keptTrees 0 s = V.slotTrees s := by
  constructor
  · refine List.filter_eq_self.mpr fun e he => ?_
    rw [← @nodeExtents_slotCtx V s retain] at he
    have := (extent_bounds h.nodes he).2.1
    unfold OwnedExtent.endBlock
    exact decide_eq_true (by omega)
  · exact List.filter_eq_self.mpr fun t _ => decide_eq_true (Nat.zero_le _)

/-- 零から上の走査は、使われている枠の木をすべて集める。 -/
theorem Scanned.all {out : OwnerScan} (h : V.Scanned 0 out) :
    out.extents.Perm (V.liveSlots.flatMap V.slotExtents) ∧
      out.treeBlocks = V.liveSlots.flatMap V.slotTrees := by
  have hkept := fun s hs => (h.checked s hs).kept_zero
  constructor
  · refine h.extents.trans (List.Perm.of_eq ?_)
    exact List.flatMap_congr fun s hs => (hkept s hs).1
  · rw [h.trees]
    exact List.flatMap_congr fun s hs => (hkept s hs).2

/-- 集めた範囲がどの二つも重ならなければ、枠ごとにも、枠の間でも重ならない。 -/
theorem slotSpans_apart {extents : List OwnedExtent} {trees : List ExtentTreeBlock}
    (he : extents.Perm (V.liveSlots.flatMap V.slotExtents))
    (ht : trees = V.liveSlots.flatMap V.slotTrees)
    (h : (extents.map extentSpan ++ trees.map treeSpan).Pairwise SpanApart) :
    (∀ s ∈ V.liveSlots, (V.slotSpans s).Pairwise SpanApart) ∧
    ∀ s ∈ V.liveSlots, ∀ s' ∈ V.liveSlots, s ≠ s' →
      ∀ r ∈ V.slotSpans s, ∀ r' ∈ V.slotSpans s', SpanApart r r' := by
  obtain ⟨hE, hT, hET⟩ := List.pairwise_append.mp h
  have hE' := (he.map extentSpan).pairwise hE fun h => Apart.symm h
  rw [List.map_flatMap, List.pairwise_flatMap] at hE'
  rw [ht, List.map_flatMap, List.pairwise_flatMap] at hT
  have hcross : ∀ s ∈ V.liveSlots, ∀ s' ∈ V.liveSlots, ∀ r ∈ (V.slotExtents s).map extentSpan,
      ∀ r' ∈ (V.slotTrees s').map treeSpan, SpanApart r r' := by
    intro s hs s' hs' r hr r' hr'
    obtain ⟨e, hmem, rfl⟩ := List.mem_map.mp hr
    obtain ⟨t, hmem', rfl⟩ := List.mem_map.mp hr'
    refine hET _ (List.mem_map_of_mem ?_) _ (List.mem_map_of_mem ?_)
    · exact he.mem_iff.mpr (List.mem_flatMap.mpr ⟨s, hs, hmem⟩)
    · exact ht ▸ List.mem_flatMap.mpr ⟨s', hs', hmem'⟩
  constructor
  · intro s hs
    exact List.pairwise_append.mpr ⟨hE'.1 s hs, hT.1 s hs, fun r hr r' hr' =>
      hcross s hs s hs r hr r' hr'⟩
  · intro s hs s' hs' hne r hr r' hr'
    have hsymm : ∀ f : InodeSlot → List (Nat × Nat), Std.Symm fun a b =>
        ∀ x ∈ f a, ∀ y ∈ f b, SpanApart x y :=
      fun f => ⟨fun a b hab x hx y hy => Apart.symm (hab y hy x hx)⟩
    have := hsymm fun s => (V.slotExtents s).map extentSpan
    have := hsymm fun s => (V.slotTrees s).map treeSpan
    rcases List.mem_append.mp hr with hr | hr <;> rcases List.mem_append.mp hr' with hr' | hr'
    · exact hE'.2.forall hs hs' hne r hr r' hr'
    · exact hcross s hs s' hs' r hr r' hr'
    · exact Apart.symm (hcross s' hs' s hs r' hr' r hr)
    · exact hT.2.forall hs hs' hne r hr r' hr'

end Volume

/-! ## 異常のない検証 -/

namespace Deep

/-- 集めた extent と tree block の範囲。 -/
def ownerRanges (owners : OwnerScan) : List Range :=
  owners.extents.map extentRange ++ owners.treeBlocks.map treeRange

/-- 異常なしに終わった検証が確かめたこと。 -/
structure Findings (V : Volume) (srt : StdSort) (graph : AllocationGraph) (owners : OwnerScan) :
    Prop where
  scanned : V.Scanned 0 owners
  extents : ∀ e ∈ owners.extents, fullyAllocated graph.allocated e.physicalBlock e.length = true
  trees : ∀ t ∈ owners.treeBlocks, fullyAllocated graph.allocated t.physicalBlock 1 = true
  apart : (ownerRanges owners).Pairwise Range.Apart
  fixed : ∀ g < V.sb.groupsCount, ∀ x ∈ fixedRanges (V.desc g) V.sb.inodeTableBlocks,
    FixedOk graph (srt.sort Range.beforeBounds (ownerRanges owners)) x

theorem findings_of_verifyDeep {V : Volume} {host : Host} {cancel : Nat → Bool}
    {r : DeepIntegrityReport} (h : verifyDeep host cancel V.disk = .ok r) (hclean : r.clean = true) :
    ∃ (graph : AllocationGraph) (owners : OwnerScan),
      buildAllocationGraph host V.disk = .ok graph ∧ Findings V host.srt graph owners := by
  have herr : r.errors = [] := by simpa [DeepIntegrityReport.clean] using hclean
  unfold verifyDeep at h
  obtain ⟨basic, -, h⟩ := Result.bind_eq_ok h
  obtain ⟨sb, hsb, h⟩ := Result.bind_eq_ok h
  obtain ⟨graph, hgraph, h⟩ := Result.bind_eq_ok h
  obtain ⟨owners, howners, h⟩ := Result.bind_eq_ok h
  obtain rfl : V.sb = sb :=
    Except.ok.inj ((readSuperblock_of_loadMetadataContext V.load).symm.trans hsb)
  have hscan := Volume.scanned_scanExtentOwners howners
  rw [Nat.zero_min] at hscan
  obtain ⟨hsum, hfixed⟩ := checkGroups_clean h herr
  simp only [List.append_eq_nil_iff] at hsum
  obtain ⟨hsum, hover⟩ := hsum
  have hcount : ∀ {n : Nat} {text : List String}, text ≠ [] →
      (if n = 0 then [] else text) = [] → n = 0 := by
    intro n text hne hif
    by_contra hn
    exact hne ((if_neg hn).symm.trans hif)
  have hzero := hcount (by simp) hover
  obtain ⟨hsum, htrees, hranges⟩ :=
    @foldl_clean _ (addTreeBlock graph) _ _ (fun s t => addTreeBlock_clean) _ _ hsum
  obtain ⟨-, hextents, hranges'⟩ :=
    @foldl_clean _ (addExtent V.sb.blocksCount graph) _ _ (fun s e => addExtent_clean) _ _ hsum
  rw [hranges', List.nil_append] at hranges
  rw [hranges] at hzero hfixed
  refine ⟨graph, owners, hgraph,
    ⟨hscan, hextents, htrees, pairwise_of_countOverlaps hzero, fun g hg => ?_⟩⟩
  obtain ⟨gd, hgd, hall⟩ := hfixed g (Nat.zero_le _) (by omega)
  obtain rfl := Except.ok.inj ((V.descs g hg).symm.trans hgd)
  exact hall

section Findings

variable {V : Volume} {srt : StdSort} {graph : AllocationGraph} {owners : OwnerScan}

/-- 使われている inode の範囲は、集めた範囲である。 -/
theorem Findings.mem_spans (h : Findings V srt graph owners) {ino : Nat} (hlive : V.Live ino)
    {r : Nat × Nat} (hr : r ∈ V.spansOf ino) :
    (∃ e ∈ owners.extents, r = extentSpan e) ∨ ∃ t ∈ owners.treeBlocks, r = treeSpan t := by
  obtain ⟨hextents, htrees⟩ := h.scanned.all
  rw [← hlive.slotSpans] at hr
  rcases List.mem_append.mp hr with hr | hr
  · obtain ⟨e, he, rfl⟩ := List.mem_map.mp hr
    exact .inl ⟨e, hextents.mem_iff.mpr (List.mem_flatMap.mpr ⟨_, hlive.slotOf_mem, he⟩), rfl⟩
  · obtain ⟨t, ht, rfl⟩ := List.mem_map.mp hr
    exact .inr ⟨t, htrees ▸ List.mem_flatMap.mpr ⟨_, hlive.slotOf_mem, ht⟩, rfl⟩

theorem Findings.nonempty (h : Findings V srt graph owners) {r : Range}
    (hr : r ∈ ownerRanges owners) : r.start < r.endBlock := by
  rcases List.mem_append.mp hr with hr | hr
  · obtain ⟨e, he, rfl⟩ := List.mem_map.mp hr
    obtain ⟨s, hs, he⟩ := List.mem_flatMap.mp (h.scanned.all.1.mem_iff.mp he)
    rw [← @Volume.nodeExtents_slotCtx V s 0] at he
    have := (extent_bounds (h.scanned.checked s hs).nodes he).2.1
    simp only [extentRange, OwnedExtent.endBlock]
    omega
  · obtain ⟨t, -, rfl⟩ := List.mem_map.mp hr
    exact Nat.lt_succ_self _

/-- 使われている inode の範囲は、枠の中でも枠の間でも重ならない。 -/
theorem Findings.slotSpans_apart (h : Findings V srt graph owners) :
    (∀ s ∈ V.liveSlots, (V.slotSpans s).Pairwise SpanApart) ∧
    ∀ s ∈ V.liveSlots, ∀ s' ∈ V.liveSlots, s ≠ s' →
      ∀ r ∈ V.slotSpans s, ∀ r' ∈ V.slotSpans s', SpanApart r r' := by
  obtain ⟨hextents, htrees⟩ := h.scanned.all
  refine Volume.slotSpans_apart hextents htrees ?_
  have happart := h.apart
  unfold ownerRanges at happart
  simp only [List.pairwise_append, List.pairwise_map, List.forall_mem_map] at happart ⊢
  exact happart

/-- 固定の metadata の block は、どの集めた範囲にもない。 -/
theorem Findings.fixed_apart (h : Findings V srt graph owners) {g b : Nat}
    (hg : g < V.sb.groupsCount) (hb : V.Fixed g b) {r : Range} (hr : r ∈ ownerRanges owners) :
    ¬ (r.start ≤ b ∧ b < r.endBlock) := by
  obtain ⟨x, hx, h1, h2⟩ := hb.exists_range
  have hordered := @ordered_sort srt _ h.apart fun r hr => h.nonempty hr
  have hmeet := Interval.forall_of_meetsAny_eq_false hordered
    (fun y hy => h.nonempty ((srt.perm _ _).mem_iff.mp hy)) (h.fixed g hg x hx).apart (by omega)
    r ((srt.perm _ _).mem_iff.mpr hr)
  omega

end Findings

end Deep

/-- 検証が確かめたことは、範囲が印の中で重ならないことを導く。 -/
theorem Deep.Findings.sound {V : Volume} {host : Host} {graph : AllocationGraph}
    {owners : OwnerScan} (hgraph : buildAllocationGraph host V.disk = .ok graph)
    (hf : Deep.Findings V host.srt graph owners) : V.DeepSound := by
  obtain ⟨hwithin, hacross⟩ := hf.slotSpans_apart
  refine ⟨?_, ?_, ?_, ?_, ?_⟩
  · intro ino hlive r hr b h1 h2
    rcases hf.mem_spans hlive hr with ⟨e, he, rfl⟩ | ⟨t, ht, rfl⟩
    · exact Volume.allocated_of_fullyAllocated hgraph (hf.extents e he) h1 h2
    · exact Volume.allocated_of_fullyAllocated hgraph (hf.trees t ht) h1 h2
  · intro ino hlive
    rw [← hlive.slotSpans]
    exact hwithin _ hlive.slotOf_mem
  · intro ino ino' hlive hlive' hne
    rw [← hlive.slotSpans, ← hlive'.slotSpans]
    exact hacross _ hlive.slotOf_mem _ hlive'.slotOf_mem fun heq =>
      hne (hlive.slotOf_injective hlive' heq)
  · intro g hg b hb
    obtain ⟨x, hx, h1, h2⟩ := hb.exists_range
    exact Volume.allocated_of_fullyAllocated hgraph (hf.fixed g hg x hx).allocated h1
      (by omega)
  · rintro g hg b hb ino hlive r hr ⟨hin, hin'⟩
    rcases hf.mem_spans hlive hr with ⟨e, he, rfl⟩ | ⟨t, ht, rfl⟩
    · exact hf.fixed_apart hg hb (List.mem_append_left _ (List.mem_map_of_mem he)) ⟨hin, hin'⟩
    · exact hf.fixed_apart hg hb (List.mem_append_right _ (List.mem_map_of_mem ht)) ⟨hin, hin'⟩

/-- 検証の終わる image は、読み込める filesystem である。 -/
theorem exists_of_verifyDeep {host : Host} {cancel : Nat → Bool} {d : Disk} {r : DeepIntegrityReport}
    (h : verifyDeep host cancel d = .ok r) : ∃ V : Volume, V.disk = d := by
  unfold verifyDeep at h
  obtain ⟨basic, -, h⟩ := Result.bind_eq_ok h
  obtain ⟨sb, -, h⟩ := Result.bind_eq_ok h
  obtain ⟨graph, -, h⟩ := Result.bind_eq_ok h
  obtain ⟨owners, howners, -⟩ := Result.bind_eq_ok h
  exact Volume.exists_of_scanExtentOwners howners

/-- **深い検証が `clean` と答えた image では、持ち主のある範囲はどれも印の中にあり、重ならない。** -/
theorem verifyDeep_sound {host : Host} {cancel : Nat → Bool} {d : Disk} {r : DeepIntegrityReport}
    (h : verifyDeep host cancel d = .ok r) (hclean : r.clean = true) :
    ∃ V : Volume, V.disk = d ∧ V.DeepSound := by
  obtain ⟨V, rfl⟩ := exists_of_verifyDeep h
  obtain ⟨graph, owners, hgraph, hf⟩ := Deep.findings_of_verifyDeep h hclean
  exact ⟨V, rfl, hf.sound hgraph⟩

/-- 二つの file を持つ小さな filesystem は `clean` と判定され、範囲は重ならない。 -/
theorem verifyDeep_sound_tiny :
    ∃ V : Volume, V.disk = Tiny.spread ∧ V.DeepSound := by
  have hrun : (verifyDeep Tiny.host (fun _ => false) Tiny.spread).map
      DeepIntegrityReport.clean = .ok true := by decide +kernel
  cases hr : verifyDeep Tiny.host (fun _ => false) Tiny.spread with
  | error e =>
    rw [hr] at hrun
    cases hrun
  | ok r =>
    rw [hr] at hrun
    exact verifyDeep_sound hr (Except.ok.inj hrun)

end Fsx.Ext4
