import Fsx.Ext4.Stage

/-!
# metadata を確定する段（`src/ext4/mutate.cpp`）

写しの済んだ移動を一つずつ、destination の確保、持ち主の切り替え、source の解放の順に確定する。
それぞれの段の終わりに device を flush し、journal に record を残す。

書く内容を決める計算（`groupUpdate`・`dataOwnerUpdate`・`treeParentUpdate`）は device を読むだけの
関数とし、書き込みと flush はその結果を流すところに置く。
-/

namespace Fsx.Ext4

open Engine

structure CommitOptions where
  journalPath : String
  allowBlockDevice : Bool := false
  verifyMetadataAfter : Bool := true
  leaveFilesystemDirty : Bool := false

structure CommitReport where
  movesTotal : Nat := 0
  destinationsReserved : Nat := 0
  ownersSwitched : Nat := 0
  sourcesReleased : Nat := 0
  movesCommitted : Nat := 0
  bytesRelocated : Nat := 0
  paused : Bool := false
  complete : Bool := false
  filesystemClean : Bool := false
  deriving DecidableEq

/-! ## block bitmap -/

/-- `set_desc_free_blocks`。上位の欄は descriptor が届くときだけ書く。 -/
def setDescFreeBlocks (gd : Bytes) (v : Nat) : Bytes :=
  let gd' := writeLe 2 gd 12 v
  if gd.length ≥ 46 then writeLe 2 gd' 44 (v >>> 16) else gd'

/-- `set_bitmap_bit`。 -/
def setBitmapBit (bm : Bytes) (bit : Nat) (value : Bool) : Bytes :=
  let v := bm.getD (bit / 8) 0
  let mask : UInt8 := 1 <<< UInt8.ofNat (bit % 8)
  bm.set (bit / 8) (if value then v ||| mask else v &&& ~~~mask)

/-- `first` から `count` 個の bit をそろえる。 -/
def setBitmapRange (bm : Bytes) (first : Nat) : Nat → Bool → Bytes
  | 0, _ => bm
  | count + 1, value => setBitmapBit (setBitmapRange bm first count value) (first + count) value

structure RangeState where
  allSet : Bool
  allClear : Bool
  deriving DecidableEq

/-- 範囲のうち一つの group に入る部分。 -/
structure GroupSpan where
  group : Nat
  first : Nat
  count : Nat
  deriving DecidableEq

/-- 範囲 `[pos, pos + left)` を group ごとに区切る。 -/
def groupSpans (sb : Superblock) : Nat → Nat → Nat → List GroupSpan
  | 0, _, _ => []
  | fuel + 1, pos, left =>
    if left = 0 then []
    else
      let group := (pos - sb.firstDataBlock) / sb.blocksPerGroup
      let idx := pos - sb.groupStartBlock group
      let n := min left (sb.groupBlockCount group - idx)
      ⟨group, idx, n⟩ :: groupSpans sb fuel (pos + n) (left - n)

/-- `allocation_state` のループ。 -/
def spanStates (d : Disk) (ctx : MetadataContext) : List GroupSpan → RangeState → Result RangeState
  | [], out => .ok out
  | s :: rest, out => do
    let gd ← readGroupDesc d ctx.sb s.group
    let bm ← readBlockBitmap d ctx.sb gd
    let bits := (List.range s.count).map fun i => bitSet bm (s.first + i)
    spanStates d ctx rest {
      allSet := out.allSet && bits.all id
      allClear := out.allClear && bits.all (!·) }

/-- `allocation_state`。 -/
def allocationState (d : Disk) (ctx : MetadataContext) (start length : Nat) :
    Result RangeState := do
  if length = 0 ∨ start ≥ ctx.sb.blocksCount ∨ length > ctx.sb.blocksCount - start then
    throw { code := .invalidArgument, message := "allocation range lies outside filesystem" }
  if start < ctx.sb.firstDataBlock then
    throw { code := .unsafeErr, message := "allocation range reaches reserved pre-data blocks" }
  spanStates d ctx (groupSpans ctx.sb length start length) { allSet := true, allClear := true }

/-- `rewrite_group_bitmap` が書くもの。bitmap と descriptor の二つである。 -/
def groupUpdate (d : Disk) (ctx : MetadataContext) (s : GroupSpan) (allocate : Bool) :
    Result (Write × Write) := do
  let gd ← readGroupDesc d ctx.sb s.group
  let raw ← readGroupDescriptorRaw d ctx s.group
  let gdOk ← verifyGroupDescriptorChecksum ctx s.group raw
  if gdOk = false then
    throw { code := .corrupt
            message := "group descriptor checksum mismatch before allocation update" }
  let bm ← readBlockBitmap d ctx.sb gd
  if verifyBlockBitmapChecksum ctx raw bm = false then
    throw { code := .corrupt, message := "block bitmap checksum mismatch before allocation update" }
  let valid := ctx.sb.groupBlockCount s.group
  if s.first > valid ∨ s.count > valid - s.first then
    throw { code := .corrupt, message := "bitmap update exceeds valid group blocks" }
  let bm' := setBitmapRange bm s.first s.count allocate
  let free := valid - popcountBitmap bm' valid
  if free > 2 ^ 32 - 1 then
    throw { code := .internal, message := "group free count overflow" }
  let raw' := updateBlockBitmapChecksum ctx (setDescFreeBlocks raw free) bm'
  let raw'' ← updateGroupDescriptorChecksum ctx s.group raw'
  let addr ← groupDescriptorAddress ctx s.group raw''
  return (⟨gd.blockBitmap * ctx.sb.blockSize, bm'⟩, ⟨addr, raw''⟩)

/-- `rewrite_group_bitmap`。 -/
def rewriteGroupBitmap (ctx : MetadataContext) (s : GroupSpan) (allocate : Bool) :
    EngineM Unit := do
  let (bitmap, desc) ← device fun d => groupUpdate d ctx s allocate
  write bitmap.off bitmap.bytes
  write desc.off desc.bytes

/-- group ごとのループ。 -/
def rewriteSpans (ctx : MetadataContext) (allocate : Bool) : List GroupSpan → EngineM Unit
  | [] => pure ()
  | s :: rest => do
    rewriteGroupBitmap ctx s allocate
    rewriteSpans ctx allocate rest

/-- `set_allocation_range`。 -/
def setAllocationRange (ctx : MetadataContext) (start length : Nat) (allocate : Bool) :
    EngineM Unit := do
  if length = 0 then return ()
  if start < ctx.sb.firstDataBlock then
    throw { code := .unsafeErr, message := "allocation update reaches reserved pre-data blocks" }
  rewriteSpans ctx allocate (groupSpans ctx.sb length start length)
  flush

/-! ## 内容の checksum -/

/-- `extent_crc` の chunk。 -/
def crcChunkBytes : Nat := 4 * 1024 * 1024

/-- `extent_crc`。 -/
def extentCrc (d : Disk) (block count bs : Nat) : Result UInt32 := do
  if bs = 0 then
    throw { code := .corrupt, message := "zero block size while checksumming extent" }
  if count = 0 then return crc32cFinal []
  if count > u64Max / bs ∨ block > u64Max / bs then
    throw { code := .corrupt, message := "extent byte geometry overflows" }
  let total := count * bs
  let start := block * bs
  if start > d.sizeBytes ∨ total > d.sizeBytes - start then
    throw { code := .corrupt, message := "extent lies outside containing device" }
  let size := min crcChunkBytes total
  if size = 0 then
    throw { code := .internal, message := "invalid zero-sized extent checksum buffer" }
  let crc ← crcChunks d start (chunks size total 0 total) crcInit
  return crc ^^^ 0xffffffff

/-! ## superblock の状態 -/

/-- 状態の欄の clean の bit を変えた superblock。 -/
def stateUpdate (d : Disk) (clean : Bool) : Result Bytes := do
  let raw ← readRawSuperblock d
  let state := readLe 2 raw 0x3a
  let state' := if clean then state ||| 1 else state &&& 0xfffe
  updateSuperblockChecksum (writeLe 2 raw 0x3a state')

/-- `mark_filesystem_state`。 -/
def markFilesystemState (clean : Bool) : EngineM Unit := do
  let raw ← device fun d => stateUpdate d clean
  write 1024 raw
  flush

/-! ## 持ち主の切り替え -/

/-- extent の先頭の block を書き換える。 -/
def setLeafPhysical (node : Bytes) (off block : Nat) : Bytes :=
  writeLe 4 (writeLe 2 node (off + 6) (block >>> 32)) (off + 8) block

/-- 途中の entry の子を書き換える。 -/
def setIndexChild (node : Bytes) (off block : Nat) : Bytes :=
  writeLe 2 (writeLe 4 node (off + 4) block) (off + 8) (block >>> 32)

/-- inode の中の entry を書き換えた inode の書き込み。 -/
def inodeEntryWrite (d : Disk) (ctx : MetadataContext) (inode entryOff : Nat)
    (set : Bytes → Nat → Bytes) (text : String) : Result Write := do
  let raw ← readInodeRaw d ctx inode
  let off := 40 + entryOff
  if off + 12 > raw.length then throw { code := .corrupt, message := text }
  let raw' ← updateInodeChecksum ctx inode (set raw off)
  if raw'.length ≠ ctx.sb.inodeSize then
    throw { code := .invalidArgument, message := "inode buffer has wrong size" }
  let addr ← inodeOffset d ctx inode
  return ⟨addr, raw'⟩

/-- extent block の中の entry を書き換えた block の書き込み。 -/
def blockEntryWrite (d : Disk) (ctx : MetadataContext) (inode generation addr entryOff : Nat)
    (set : Bytes → Nat → Bytes) (sumText text : String) : Result Write := do
  let block ← d.readExact addr ctx.sb.blockSize
  let ok ← verifyExtentBlockChecksum ctx inode generation block
  if ok = false then throw { code := .corrupt, message := sumText }
  if entryOff + 12 > block.length then throw { code := .corrupt, message := text }
  let block' ← updateExtentBlockChecksum ctx inode generation (set block entryOff)
  return ⟨addr, block'⟩

/-- `update_data_owner` が書くもの。すでに `newBlock` を指していれば何も書かない。 -/
def dataOwnerUpdate (srt : StdSort) (d : Disk) (ctx : MetadataContext) (m : OwnerMove)
    (newBlock : Nat) : Result (Option Write) := do
  let e ← findInodeExtent srt d m.inode m.logicalBlock
  if e.logicalBlock ≠ m.logicalBlock ∨ e.length ≠ m.blockCount then
    throw { code := .unsafeErr, message := "extent geometry changed since relocation plan" }
  if e.physicalBlock = newBlock then return none
  if e.physicalBlock ≠ m.sourceBlock then
    throw { code := .unsafeErr
            message := "extent owner points to neither source nor destination" }
  match e.reference.kind with
  | .inodeRoot =>
    let w ← inodeEntryWrite d ctx m.inode e.reference.entryOffset
      (fun b off => setLeafPhysical b off newBlock) "extent entry exceeds inode"
    return some w
  | .extentBlock =>
    let w ← blockEntryWrite d ctx m.inode e.inodeGeneration
      (e.reference.containerBlock * ctx.sb.blockSize) e.reference.entryOffset
      (fun b off => setLeafPhysical b off newBlock)
      "extent block checksum mismatch before owner switch" "extent entry exceeds extent block"
    return some w

/-- `current_data_owner`。 -/
def currentDataOwner (srt : StdSort) (d : Disk) (m : OwnerMove) : Result Nat := do
  let e ← findInodeExtent srt d m.inode m.logicalBlock
  if e.logicalBlock ≠ m.logicalBlock ∨ e.length ≠ m.blockCount then
    throw { code := .unsafeErr, message := "extent geometry changed since plan" }
  return e.physicalBlock

/-- `find_tree_location`。tree block と inode の generation を返す。 -/
def findTreeLocation (srt : StdSort) (d : Disk) (ctx : MetadataContext) (m : OwnerMove) :
    Result (ExtentTreeBlock × Nat) := do
  let scan ← scanInodeExtentTree srt d m.inode 0
  match scan.treeBlocks.find? fun t =>
      decide (t.physicalBlock = m.sourceBlock ∨ t.physicalBlock = m.destinationBlock) with
  | none =>
    throw { code := .notFound, message := "extent tree block is not reachable from inode" }
  | some t =>
    let inode ← readInodeRaw d ctx m.inode
    return (t, readLe 4 inode 0x64)

/-- `update_tree_parent` が書くもの。すでに `newBlock` を指していれば何も書かない。 -/
def treeParentUpdate (srt : StdSort) (d : Disk) (ctx : MetadataContext) (m : OwnerMove)
    (newBlock : Nat) : Result (Option Write) := do
  let (t, generation) ← findTreeLocation srt d ctx m
  if t.physicalBlock = newBlock then return none
  if t.physicalBlock ≠ m.sourceBlock then
    throw { code := .unsafeErr, message := "tree owner points to neither source nor destination" }
  let parentAbs := t.parentContainerByteOffset
  if parentAbs % ctx.sb.blockSize = 0 then
    let w ← blockEntryWrite d ctx m.inode generation parentAbs t.parentEntryOffset
      (fun b off => setIndexChild b off newBlock)
      "parent extent block checksum mismatch" "extent index exceeds parent block"
    return some w
  else
    let w ← inodeEntryWrite d ctx m.inode t.parentEntryOffset
      (fun b off => setIndexChild b off newBlock) "extent index exceeds inode root"
    return some w

/-- `current_tree_owner`。 -/
def currentTreeOwner (srt : StdSort) (d : Disk) (ctx : MetadataContext) (m : OwnerMove) :
    Result Nat := do
  let (t, _) ← findTreeLocation srt d ctx m
  return t.physicalBlock

/-- 書くものがあれば書いて flush する。 -/
def emitUpdate : Option Write → EngineM Unit
  | none => pure ()
  | some w => do
    write w.off w.bytes
    flush

/-- `update_data_owner`。 -/
def updateDataOwner (srt : StdSort) (ctx : MetadataContext) (m : OwnerMove) (newBlock : Nat) :
    EngineM Unit := do
  let u ← device fun d => dataOwnerUpdate srt d ctx m newBlock
  emitUpdate u

/-- `update_tree_parent`。 -/
def updateTreeParent (srt : StdSort) (ctx : MetadataContext) (m : OwnerMove) (newBlock : Nat) :
    EngineM Unit := do
  let u ← device fun d => treeParentUpdate srt d ctx m newBlock
  emitUpdate u

/-- `refresh_tree_copy` が写す block。 -/
def treeCopySource (d : Disk) (ctx : MetadataContext) (m : OwnerMove) : Result Bytes := do
  let b ← d.readExact (m.sourceBlock * ctx.sb.blockSize) ctx.sb.blockSize
  let inode ← readInodeRaw d ctx m.inode
  let ok ← verifyExtentBlockChecksum ctx m.inode (readLe 4 inode 0x64) b
  if ok = false then
    throw { code := .corrupt, message := "source extent tree block checksum mismatch" }
  return b

/-- `refresh_tree_copy`。 -/
def refreshTreeCopy (ctx : MetadataContext) (m : OwnerMove) : EngineM Unit := do
  let b ← device fun d => treeCopySource d ctx m
  write (m.destinationBlock * ctx.sb.blockSize) b
  flush
  let v ← device fun d => d.readExact (m.destinationBlock * ctx.sb.blockSize) b.length
  if v ≠ b then
    throw { code := .io, message := "extent tree block verification mismatch" }

/-! ## 一つの移動 -/

/-- いまの持ち主。 -/
def currentOwner (srt : StdSort) (d : Disk) (ctx : MetadataContext) (m : OwnerMove) : Result Nat :=
  match m.kind with
  | .dataExtent => currentDataOwner srt d m
  | .extentTreeBlock => currentTreeOwner srt d ctx m

/-- 移動に取りかかるときの検査。（destination の状態、いまの持ち主）を返す。 -/
def inspectMove (srt : StdSort) (d : Disk) (ctx : MetadataContext) (m : OwnerMove) :
    Result (RangeState × Nat) := do
  let src ← allocationState d ctx m.sourceBlock m.blockCount
  let dst ← allocationState d ctx m.destinationBlock m.blockCount
  let owner ← currentOwner srt d ctx m
  if owner ≠ m.sourceBlock ∧ owner ≠ m.destinationBlock then
    throw { code := .unsafeErr, message := "owner mapping is inconsistent with relocation journal" }
  if owner = m.sourceBlock ∧ src.allSet = false then
    throw { code := .corrupt, message := "authoritative source extent is not fully allocated" }
  if owner = m.destinationBlock ∧ dst.allSet = false then
    throw { code := .corrupt, message := "authoritative destination extent is not fully allocated" }
  return (dst, owner)

/-- destination を確保する。 -/
def reserveDestination (ctx : MetadataContext) (m : OwnerMove) (dst : RangeState) :
    EngineM Unit := do
  if dst.allSet then return ()
  if dst.allClear = false then
    throw { code := .corrupt, message := "destination allocation range is partially allocated" }
  setAllocationRange ctx m.destinationBlock m.blockCount true
  append (moveRecord .destinationReserved m)

/-- 写しの内容を journal の CRC と照らす。`stored` は検証済みの記録の CRC である。 -/
def checkStagedCopy (d : Disk) (bs : Nat) (m : OwnerMove) (stored : UInt32) : Result Unit := do
  if m.unwritten then return ()
  let crc ← extentCrc d m.destinationBlock m.blockCount bs
  if crc ≠ stored then
    throw { code := .io, message := "staged destination checksum changed before metadata commit" }

/-- 持ち主を source から destination に切り替える。 -/
def switchOwner (srt : StdSort) (ctx : MetadataContext) (bs : Nat) (m : OwnerMove)
    (stored : UInt32) : EngineM Unit := do
  match m.kind with
  | .dataExtent =>
    device fun d => checkStagedCopy d bs m stored
    updateDataOwner srt ctx m m.destinationBlock
  | .extentTreeBlock =>
    refreshTreeCopy ctx m
    updateTreeParent srt ctx m m.destinationBlock
  append (moveRecord .ownerSwitched m)

/-- source を解放する。 -/
def releaseSource (ctx : MetadataContext) (m : OwnerMove) : EngineM Unit := do
  let src ← device fun d => allocationState d ctx m.sourceBlock m.blockCount
  if src.allClear then return ()
  if src.allSet = false then
    throw { code := .corrupt, message := "source allocation range is partially released" }
  setAllocationRange ctx m.sourceBlock m.blockCount false
  append (moveRecord .sourceReleased m)

/-- 移動一つ。 -/
def commitMove (srt : StdSort) (ctx : MetadataContext) (bs : Nat) (m : OwnerMove)
    (stored : UInt32) : EngineM Unit := do
  let (dst, owner) ← device fun d => inspectMove srt d ctx m
  reserveDestination ctx m dst
  if owner = m.sourceBlock then switchOwner srt ctx bs m stored
  releaseSource ctx m
  append (moveRecord .metadataCommitted m)

/-! ## `commit_staged_relocation` -/

/-- 移動を確定する順。data extent を先に、tree block は葉に近いものから。 -/
def OwnerMove.before (a b : OwnerMove) : Bool :=
  if a.kind ≠ b.kind then decide (a.kind = .dataExtent)
  else if a.kind = .extentTreeBlock then decide (a.treeDepth < b.treeDepth)
  else decide (a.transactionId < b.transactionId)

/-- 検証済みの記録の CRC。 -/
def storedCrc (records : List JournalRecord) (m : OwnerMove) : UInt32 :=
  ((lastRecord records .copyVerified m.transactionId).map JournalRecord.dataCrc32c).getD 0

/-- 移動のループ。`i` は何番目かである。止められたら `paused` を立てて戻る。 -/
def commitMoves (host : Host) (ctx : MetadataContext) (bs : Nat) (records : List JournalRecord) :
    Nat → List OwnerMove → CommitReport → EngineM CommitReport
  | _, [], report => pure report
  | i, m :: rest, report => do
    if host.commitCancelled i then
      checkpoint .metadataPaused
      return { report with paused := true }
    commitMove host.srt ctx bs m (storedCrc records m)
    commitMoves host ctx bs records (i + 1) rest { report with
      destinationsReserved := report.destinationsReserved + 1
      ownersSwitched := report.ownersSwitched + 1
      sourcesReleased := report.sourcesReleased + 1
      movesCommitted := report.movesCommitted + 1
      bytesRelocated := report.bytesRelocated + m.blockCount * bs }

/-- 計画が journal の検証済みの記録と一致するか。 -/
def matchPlan (records : List JournalRecord) (moves : List OwnerMove) : Result Unit := do
  if recordCount records .copyVerified < moves.length then
    throw { code := .unsafeErr
            message := "not every relocation has a durable verified-copy record" }
  if moves.any fun m => match lastRecord records .copyVerified m.transactionId with
      | none => true
      | some r => !sameGeometry r m then
    throw { code := .unsafeErr, message := "journal relocation geometry differs from current plan" }

/-- `compacted` の journal に対する答え。 -/
def compactedReport (ctx : MetadataContext) (plan : OwnerRelocationPlan) : CommitReport where
  movesTotal := plan.moves.length
  movesCommitted := plan.moves.length
  sourcesReleased := plan.moves.length
  ownersSwitched := plan.moves.length
  destinationsReserved := plan.moves.length
  bytesRelocated := (plan.moves.map fun m => m.blockCount * plan.blockSize).sum
  complete := true
  filesystemClean := decide (ctx.sb.state &&& 1 ≠ 0)

/-- 確定に入れる filesystem か。 -/
def checkCommitFilesystem (d : Disk) : Result MetadataContext := do
  let ctx ← loadMetadataContext d
  if ctx.sb.hasRoCompat roCompatBigalloc then
    throw { code := .unsupported, message := "bigalloc metadata mutation is not supported" }
  if ctx.sb.hasIncompat incompatMetaBg then
    throw { code := .unsupported, message := "meta_bg metadata mutation is not supported" }
  if ctx.sb.hasIncompat incompatRecover then
    throw { code := .unsafeErr
            message := "filesystem journal recovery is required before metadata commit" }
  return ctx

/-- 開いた journal が計画の確定に使えるか。 -/
def checkCommitJournal (d : Disk) (ctx : MetadataContext) (v : JournalView)
    (plan : OwnerRelocationPlan) : Result Unit := do
  let fu ← parseUuid ctx.sb.uuid
  checkIdentity v.identity fu d.sizeBytes plan "journal target differs from current plan"
  if v.phase ≠ .staged ∧ v.phase ≠ .metadataFinalize ∧ v.phase ≠ .metadataPaused
      ∧ v.phase ≠ .compacted then
    throw { code := .unsafeErr, message := "journal is not in a metadata-commit compatible phase" }
  matchPlan v.records plan.moves

/-- 確定を始める。clean なら dirty にし、phase を `metadata_finalize` にする。 -/
def beginCommit (ctx : MetadataContext) : EngineM Unit := do
  if ctx.sb.state &&& 1 ≠ 0 then
    markFilesystemState false
    append (moveRecord .filesystemMarkedDirty .blank)
  checkpoint .metadataFinalize

/-- すべての移動の後。metadata を確かめ、clean に戻し、phase を `compacted` にする。 -/
def finishCommit (host : Host) (opts : CommitOptions) (report : CommitReport) :
    EngineM CommitReport := do
  if opts.verifyMetadataAfter then
    let r ← device fun d => verifyMetadata host.verifyCancelled d
    if r.clean = false then
      throw { code := .corrupt
              message := "post-commit metadata verification failed; filesystem intentionally left unclean" }
  if opts.leaveFilesystemDirty = false then
    markFilesystemState true
    append (moveRecord .filesystemMarkedClean .blank)
  checkpoint .compacted
  return { report with
    filesystemClean := report.filesystemClean || !opts.leaveFilesystemDirty
    complete := true }

/-- `commit_staged_relocation`。 -/
def commitStagedRelocation (host : Host) (plan : OwnerRelocationPlan) (opts : CommitOptions) :
    EngineM CommitReport := do
  if opts.journalPath = "" then
    throw { code := .invalidArgument, message := "commit requires --journal=FILE" }
  device fun _ => checkDeviceSafety host opts.allowBlockDevice
    "block-device metadata commit requires explicit --allow-block-device"
  let ctx ← device checkCommitFilesystem
  let j ← journal { code := .notFound, message := "relocation journal does not exist" }
  device fun d => checkCommitJournal d ctx j.view plan
  if j.view.phase = .compacted then return compactedReport ctx plan
  beginCommit ctx
  let report ← commitMoves host ctx plan.blockSize j.view.records 0
    (stableSort OwnerMove.before plan.moves) { movesTotal := plan.moves.length }
  if report.paused then return report
  finishCommit host opts report

end Fsx.Ext4
