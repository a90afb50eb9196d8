import Fsx.Core.Interval
import Fsx.Ext4.Extents

/-!
# 移動の計画（`src/ext4/allocation.cpp`・`src/ext4/relocate.cpp`）

`build_allocation_graph` は bitmap を端から読んで使用中と空きの区間に分け、
`build_owner_relocation_plan` は target より上にかかる extent と tree block のそれぞれに、
target より下の空きから行き先を割り当てる。

bitmap の読み出しは先読みの pipeline を通るが、結果は group の順に取り出されるので、
順に読むものとして写す。
-/

namespace Fsx.Ext4

/-- `profile_device` の答えのうち、ここで使うもの。 -/
structure IoProfile where
  workers : Nat
  largeIoBytes : Nat

/-- host の答え。中断の要求は、調べた場所ごとの答えとして与える。 -/
structure Host where
  srt : StdSort
  /-- `require_offline_for_write` -/
  offline : Result Unit
  /-- `inspect_device_safety` の `block_device` -/
  blockDevice : Result Bool
  /-- `profile_device` -/
  profile : Result IoProfile
  /-- `build_allocation_graph` の group `g` の手前での中断要求 -/
  graphCancelled : Nat → Bool
  /-- `scan_extent_owners` の group `g` の手前での中断要求 -/
  scanCancelled : Nat → Bool
  /-- `verify_metadata` の group `g` の手前での中断要求 -/
  verifyCancelled : Nat → Bool
  /-- `stage_relocation` が `pos` 番目の移動に取りかかる前の中断要求 -/
  stageCancelled : Nat → Bool
  /-- `copy_one` が transaction `t` の `done` byte まで写したところでの中断要求 -/
  copyCancelled : Nat → Nat → Bool
  /-- `commit_staged_relocation` が `i` 番目の移動に取りかかる前の中断要求 -/
  commitCancelled : Nat → Bool

/-! ## 使用中と空きの区間 -/

structure BlockExtent where
  start : Nat
  length : Nat
  deriving DecidableEq

def BlockExtent.endBlock (e : BlockExtent) : Nat := e.start + e.length

/-- `end()` が返す値。和は 64 bit で桁あふれする。 -/
def BlockExtent.end64 (e : BlockExtent) : Nat := u64 e.endBlock

/-- `append_run`。 -/
def appendRun (out : List BlockExtent) (start len : Nat) : List BlockExtent :=
  if len = 0 then out
  else
    match out.getLast? with
    | some e =>
      if e.endBlock = start then out.dropLast ++ [{ e with length := e.length + len }]
      else out ++ [⟨start, len⟩]
    | none => out ++ [⟨start, len⟩]

structure AllocationGraph where
  allocated : List BlockExtent := []
  free : List BlockExtent := []
  deriving DecidableEq

/-- 走査中の区間。 -/
structure OpenRun where
  used : Bool
  start : Nat
  length : Nat
  deriving DecidableEq

/-- `flush_run`。 -/
def flushRun (g : AllocationGraph) : Option OpenRun → AllocationGraph
  | none => g
  | some r =>
    if r.used then { g with allocated := appendRun g.allocated r.start r.length }
    else { g with free := appendRun g.free r.start r.length }

/-- block 一つ分。 -/
def graphStep : AllocationGraph × Option OpenRun → Nat × Bool → AllocationGraph × Option OpenRun
  | (g, none), (block, used) => (g, some ⟨used, block, 1⟩)
  | (g, some r), (block, used) =>
    if used = r.used ∧ r.start + r.length = block then (g, some { r with length := r.length + 1 })
    else (flushRun g (some r), some ⟨used, block, 1⟩)

/-- group の block を、使用中かどうかとともに並べる。 -/
def groupBlockStates (sb : Superblock) (g : Nat) (bm : Bytes) : List (Nat × Bool) :=
  (List.range (sb.groupBlockCount g)).map fun i => (sb.groupStartBlock g + i, bitSet bm i)

/-- すべての descriptor を読む。 -/
def readDescs (d : Disk) (sb : Superblock) : Nat → Nat → Result (List GroupDesc)
  | 0, _ => .ok []
  | n + 1, g => do
    let gd ← readGroupDesc d sb g
    if gd.flags &&& bgBlockUninit ≠ 0 then
      throw { code := .unsupported
              message := "block-uninitialized ext4 groups require reconstructed bitmap support before destructive planning" }
    let rest ← readDescs d sb n (g + 1)
    return gd :: rest

/-- bitmap を順に読み、block ごとの状態を並べる。 -/
def readBlockStates (cancel : Nat → Bool) (d : Disk) (sb : Superblock) :
    Nat → List GroupDesc → Result (List (Nat × Bool))
  | _, [] => .ok []
  | g, gd :: gds => do
    if gd.blockBitmap ≥ sb.blocksCount then
      throw { code := .corrupt, message := "block bitmap points beyond filesystem" }
    if cancel g then throw { code := .unsafeErr, message := "scan cancelled" }
    let bm ← d.readExact (gd.blockBitmap * sb.blockSize) sb.blockSize
    let rest ← readBlockStates cancel d sb (g + 1) gds
    return groupBlockStates sb g bm ++ rest

/-- `build_allocation_graph`。 -/
def buildAllocationGraph (host : Host) (d : Disk) : Result AllocationGraph := do
  let sb ← readSuperblock d
  if sb.hasIncompat incompatMetaBg then
    throw { code := .unsupported
            message := "allocation graph does not yet support ext4 meta_bg descriptor placement" }
  if sb.hasRoCompat roCompatBigalloc then
    throw { code := .unsupported
            message := "bigalloc uses cluster allocation; block-granularity relocation is refused" }
  let _ ← host.profile
  let descs ← readDescs d sb sb.groupsCount 0
  let states ← readBlockStates host.graphCancelled d sb 0 descs
  let (graph, run) := states.foldl graphStep ({}, none)
  return flushRun graph run

/-! ## 行き先の割り当て -/

structure FreeSlot where
  start : Nat
  length : Nat
  deriving DecidableEq

/-- `allocate_best_fit` のループ。いちばん無駄の少ない slot の番号と、その無駄を返す。 -/
def bestFit (length : Nat) : List FreeSlot → Nat → Option (Nat × Nat) → Option (Nat × Nat)
  | [], _, best => best
  | s :: rest, i, best =>
    if s.length < length then bestFit length rest (i + 1) best
    else
      let w := s.length - length
      if w < (best.map Prod.snd).getD u64Max then
        if w = 0 then some (i, 0) else bestFit length rest (i + 1) (some (i, w))
      else bestFit length rest (i + 1) best

/-- `allocate_best_fit`。行き先と、残りの slot を返す。 -/
def allocateBestFit (slots : List FreeSlot) (length : Nat) : Option (Nat × List FreeSlot) :=
  match bestFit length slots 0 none with
  | none => none
  | some (i, _) =>
    match slots[i]? with
    | none => none
    | some s =>
      let s' : FreeSlot := ⟨s.start + length, s.length - length⟩
      some (s.start, if s'.length = 0 then slots.eraseIdx i else slots.set i s')

/-! ## 計画 -/

inductive RelocationKind where
  | dataExtent | extentTreeBlock
  deriving DecidableEq

/-- 列挙の値。journal の `state` に入る。 -/
def RelocationKind.code : RelocationKind → Nat
  | .dataExtent => 1
  | .extentTreeBlock => 2

structure OwnerMove where
  kind : RelocationKind
  transactionId : Nat
  inode : Nat
  logicalBlock : Nat
  sourceBlock : Nat
  destinationBlock : Nat
  blockCount : Nat
  unwritten : Bool
  treeDepth : Nat
  deriving DecidableEq

/-- 既定の値だけの `OwnerMove{}`。 -/
def OwnerMove.blank : OwnerMove where
  kind := .dataExtent
  transactionId := 0
  inode := 0
  logicalBlock := 0
  sourceBlock := 0
  destinationBlock := 0
  blockCount := 0
  unwritten := false
  treeDepth := 0

structure OwnerRelocationPlan where
  blockSize : Nat
  targetBlocks : Nat
  targetBytes : Nat
  unknownAllocatedBlocksAboveTarget : Nat
  fixedMetadataBlocksAboveTarget : Nat
  legacyBlockmapInodes : Nat
  completeOwnerCoverage : Bool
  destinationsAvailable : Bool
  moves : List OwnerMove
  deriving DecidableEq

/-- `sum_tail_overlap`。 -/
def sumTailOverlap (extents : List OwnedExtent) (target : Nat) : Nat :=
  (extents.map fun e =>
    if e.endBlock ≤ target then 0 else e.endBlock - max e.physicalBlock target).sum

/-- `range_fully_allocated` の、位置を見つけた後のループ。 -/
def coveredUpTo (endBlock : Nat) : List BlockExtent → Nat → Bool
  | [], _ => false
  | e :: es, covered =>
    if e.start ≤ covered then
      let covered' := if e.end64 > covered then e.end64 else covered
      if covered' ≥ endBlock then true else coveredUpTo endBlock es covered'
    else false

/-- `range_fully_allocated`。 -/
def rangeFullyAllocated (allocated : List BlockExtent) (start length : Nat) : Bool :=
  if length = 0 then true
  else if length > u64Max - start then false
  else
    coveredUpTo (start + length)
      (allocated.drop (Interval.lowerBound (fun e => decide (e.end64 ≤ start)) allocated)) start

structure OwnedRange where
  start : Nat
  endBlock : Nat
  inode : Nat
  tree : Bool
  deriving DecidableEq

/-- `validate_owner_ranges` の比較。 -/
def OwnedRange.before (a b : OwnedRange) : Bool :=
  if a.start ≠ b.start then decide (a.start < b.start)
  else if a.endBlock ≠ b.endBlock then decide (a.endBlock < b.endBlock)
  else if a.inode ≠ b.inode then decide (a.inode < b.inode)
  else !a.tree && b.tree

/-- `validate_owner_ranges` の隣り合う区間の検査。 -/
def checkOwnedRanges : List OwnedRange → Result Unit
  | [] => .ok ()
  | [_] => .ok ()
  | a :: b :: rest =>
    if b.start < a.endBlock then
      .error { code := .corrupt
               message := "physical block ownership overlaps between inode " ++ toString a.inode
                 ++ " and inode " ++ toString b.inode }
    else checkOwnedRanges (b :: rest)

/-- 走査した extent と tree block の区間。 -/
def ownedRanges (owners : OwnerScan) : List OwnedRange :=
  owners.extents.map (fun e => ⟨e.physicalBlock, e.endBlock, e.inode, false⟩)
    ++ owners.treeBlocks.map fun t => ⟨t.physicalBlock, t.physicalBlock + 1, t.inode, true⟩

/-- `validate_owner_ranges`。 -/
def validateOwnerRanges (srt : StdSort) (owners : OwnerScan) : Result Unit :=
  checkOwnedRanges (srt.sort OwnedRange.before (ownedRanges owners))

/-- group の metadata が使用中であることを確かめ、target 以上にある block を数える。 -/
def countFixedMetadata (d : Disk) (sb : Superblock) (graph : AllocationGraph) (target : Nat) :
    Nat → Nat → Nat → Result Nat
  | 0, _, count => .ok count
  | n + 1, g, count => do
    let gd ← readGroupDesc d sb g
    let tableBlocks := sb.inodeTableBlocks
    if rangeFullyAllocated graph.allocated gd.blockBitmap 1 = false
        ∨ rangeFullyAllocated graph.allocated gd.inodeBitmap 1 = false
        ∨ rangeFullyAllocated graph.allocated gd.inodeTable tableBlocks = false then
      throw { code := .corrupt
              message := "group " ++ toString g
                ++ " fixed metadata is not fully allocated in block bitmap" }
    let above := (if gd.blockBitmap ≥ target then 1 else 0)
      + (if gd.inodeBitmap ≥ target then 1 else 0)
      + (if gd.inodeTable ≥ target then tableBlocks
          else if gd.inodeTable + tableBlocks > target then gd.inodeTable + tableBlocks - target
          else 0)
    countFixedMetadata d sb graph target n (g + 1) (count + above)

/-- target より下の空き。 -/
def freeSlots (graph : AllocationGraph) (target : Nat) : List FreeSlot :=
  (graph.free.takeWhile fun e => decide (e.start < target)).filterMap fun e =>
    let stop := min e.endBlock target
    if stop > e.start then some ⟨e.start, stop - e.start⟩ else none

/-- data extent の移動。 -/
def dataMove (txn : Nat) (e : OwnedExtent) (dest : Nat) : OwnerMove where
  kind := .dataExtent
  transactionId := txn
  inode := e.inode
  logicalBlock := e.logicalBlock
  sourceBlock := e.physicalBlock
  destinationBlock := dest
  blockCount := e.length
  unwritten := e.unwritten
  treeDepth := 0

/-- tree block の移動。 -/
def treeMove (txn : Nat) (t : ExtentTreeBlock) (dest : Nat) : OwnerMove where
  kind := .extentTreeBlock
  transactionId := txn
  inode := t.inode
  logicalBlock := 0
  sourceBlock := t.physicalBlock
  destinationBlock := dest
  blockCount := 1
  unwritten := false
  treeDepth := t.depth

/-- 割り当ての途中。 -/
structure Placement where
  slots : List FreeSlot
  txn : Nat := 1
  moves : List OwnerMove := []
  allPlaced : Bool := true

/-- 一つの対象に行き先を割り当てる。割り当てられなければ、そこで止まる。 -/
def Placement.place (p : Placement) (length : Nat) (mk : Nat → Nat → OwnerMove) : Placement :=
  if p.allPlaced = false then p
  else
    match allocateBestFit p.slots length with
    | none => { p with allPlaced := false }
    | some (dest, slots) =>
      { p with slots, txn := p.txn + 1, moves := p.moves ++ [mk p.txn dest] }

/-- data extent、tree block の順に割り当てる。 -/
def placeAll (slots : List FreeSlot) (data : List OwnedExtent) (trees : List ExtentTreeBlock) :
    Placement :=
  let p := data.foldl (fun p e => p.place e.length fun txn dest => dataMove txn e dest) { slots }
  trees.foldl (fun p t => p.place 1 fun txn dest => treeMove txn t dest) p

/-- `build_owner_relocation_plan`。 -/
def buildOwnerRelocationPlan (host : Host) (d : Disk) (targetBytes : Nat) :
    Result OwnerRelocationPlan := do
  let sb ← readSuperblock d
  if targetBytes ≥ sb.sizeBytes then
    throw { code := .invalidArgument, message := "target is not smaller than filesystem" }
  let target := targetBytes / sb.blockSize
  if target ≤ sb.firstDataBlock then
    throw { code := .invalidArgument, message := "target is too small" }
  let graph ← buildAllocationGraph host d
  let owners ← scanExtentOwners host.srt host.scanCancelled d target
  validateOwnerRanges host.srt owners
  let fixed ← countFixedMetadata d sb graph target sb.groupsCount 0 0
  let free := host.srt.sort (fun a b => decide (a.length < b.length)) (freeSlots graph target)
  let data := host.srt.sort (fun a b => decide (a.length > b.length))
    (owners.extents.filter fun e => decide (e.endBlock > target))
  let trees := owners.treeBlocks.filter fun t => decide (t.physicalBlock ≥ target)
  let p := placeAll free data trees
  let allocatedTail := (graph.allocated.map fun e =>
    if e.endBlock > target then e.endBlock - max e.start target else 0).sum
  let known := min allocatedTail
    (sumTailOverlap owners.extents target + trees.length + fixed)
  return {
    blockSize := sb.blockSize
    targetBlocks := target
    targetBytes := target * sb.blockSize
    unknownAllocatedBlocksAboveTarget := allocatedTail - known
    fixedMetadataBlocksAboveTarget := fixed
    legacyBlockmapInodes := owners.legacyBlockmapInodes
    completeOwnerCoverage := p.allPlaced && decide (owners.legacyBlockmapInodes = 0)
      && decide (owners.corruptInodes = 0) && decide (allocatedTail - known = 0)
    destinationsAvailable := p.allPlaced
    moves := p.moves }

end Fsx.Ext4
