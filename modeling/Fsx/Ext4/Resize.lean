import Fsx.Ext4.Commit

/-!
# 大きさの変更を確定する段（`src/ext4/resize.cpp`）

target より上に何も残っていないことを確かめてから、末尾の group の bitmap と descriptor を直し、
superblock とその写しの block 数を書き換える。

手順は三度 superblock を書く。はじめに dirty にし、bitmap と descriptor の後に新しい大きさを書き、
検証の後に clean にする。
-/

namespace Fsx.Ext4

open Engine

structure FinalizeOptions where
  journalPath : String
  allowBlockDevice : Bool := false

/-! ## superblock の写し -/

/-- `is_power` のループ。 -/
def isPowerLoop (base : Nat) : Nat → Nat → Bool
  | 0, n => decide (n = 1)
  | fuel + 1, n => if n % base = 0 then isPowerLoop base fuel (n / base) else decide (n = 1)

/-- `is_power`。 -/
def isPower (n base : Nat) : Bool := if n < 1 then false else isPowerLoop base n n

/-- `group_has_super`。 -/
def groupHasSuper (sb : Bytes) (group : Nat) : Bool :=
  if group = 0 then true
  else if readLe 4 sb 0x5c &&& 0x0200 ≠ 0 then
    decide (group = readLe 4 sb 0x24c) || decide (group = readLe 4 sb 0x250)
  else if readLe 4 sb 0x64 &&& 0x0001 = 0 then true
  else if group = 1 then true
  else isPower group 3 || isPower group 5 || isPower group 7

/-- group `g` に置く superblock の写しの書き込み。 -/
def backupSuper (ctx : MetadataContext) (primary : Bytes) (g : Nat) : Result Write := do
  let bs := ctx.sb.blockSize
  let start := ctx.sb.groupStartBlock g
  if start ≥ ctx.sb.blocksCount ∨ start > u64Max / bs then
    throw { code := .corrupt, message := "backup superblock address is outside filesystem" }
  let copy ← updateSuperblockChecksum (writeLe 2 primary 0x5a g)
  return ⟨start * bs, copy⟩

/-- 写しを持つ group のループ。`n` は残りの group の数である。 -/
def writeBackupSupers (ctx : MetadataContext) (primary : Bytes) : Nat → Nat → EngineM Unit
  | 0, _ => pure ()
  | n + 1, g => do
    if groupHasSuper primary g then
      let w ← device fun _ => backupSuper ctx primary g
      write w.off w.bytes
    writeBackupSupers ctx primary n (g + 1)

/-- `write_super_copies`。 -/
def writeSuperCopies (ctx : MetadataContext) (primary : Bytes) : EngineM Unit := do
  if ctx.sb.blockSize = 0 then
    throw { code := .corrupt, message := "invalid ext4 block size while updating backup superblocks" }
  if primary.length ≠ 1024 then
    throw { code := .invalidArgument
            message := "ext superblock write requires exactly 1024 bytes" }
  write 1024 primary
  writeBackupSupers ctx primary (ctx.sb.groupsCount - 1) 1
  flush

/-- group `g` に置く descriptor の写しの番地。 -/
def backupDescAddress (ctx : MetadataContext) (descGroup g : Nat) : Result Nat := do
  let bs := ctx.sb.blockSize
  let start := ctx.sb.groupStartBlock g
  if start ≥ ctx.sb.blocksCount - 1 ∨ start + 1 > u64Max / bs then
    throw { code := .corrupt, message := "backup descriptor table address is outside filesystem" }
  let base := (start + 1) * bs
  let off := descGroup * ctx.sb.descBytes
  if off > u64Max - base then
    throw { code := .corrupt, message := "backup descriptor address overflows" }
  return base + off

/-- 写しを持つ group のループ。 -/
def writeBackupDescs (ctx : MetadataContext) (super : Bytes) (descGroup : Nat) (desc : Bytes) :
    Nat → Nat → EngineM Unit
  | 0, _ => pure ()
  | n + 1, g => do
    if groupHasSuper super g then
      let addr ← device fun _ => backupDescAddress ctx descGroup g
      write addr desc
    writeBackupDescs ctx super descGroup desc n (g + 1)

/-- `write_group_desc_backups`。 -/
def writeGroupDescBackups (ctx : MetadataContext) (super : Bytes) (descGroup : Nat)
    (desc : Bytes) : EngineM Unit := do
  let bs := ctx.sb.blockSize
  let ds := ctx.sb.descBytes
  if bs = 0 ∨ ds = 0 ∨ ds > bs then
    throw { code := .corrupt, message := "invalid ext4 group descriptor geometry" }
  if descGroup > u64Max / ds then
    throw { code := .corrupt, message := "backup descriptor offset overflows" }
  writeBackupDescs ctx super descGroup desc (ctx.sb.groupsCount - 1) 1

/-! ## 縮められるか -/

structure ShrinkReadiness where
  targetBlocks : Nat
  currentGroups : Nat
  targetGroups : Nat
  allocatedTailBlocks : Nat
  fixedMetadataTailBlocks : Nat
  blockers : List String
  deriving DecidableEq

/-- `metadata_only_finalize_possible`。 -/
def ShrinkReadiness.finalizePossible (r : ShrinkReadiness) : Bool :=
  decide (r.targetGroups = r.currentGroups) && decide (r.allocatedTailBlocks = 0)
    && decide (r.fixedMetadataTailBlocks = 0)

/-- なくなる group に残っている inode の数。 -/
def countRemovedInodes (d : Disk) (sb : Superblock) : Nat → Nat → Nat → Result Nat
  | 0, _, count => .ok count
  | n + 1, g, count => do
    let gd ← readGroupDesc d sb g
    if gd.flags &&& bgInodeUninit ≠ 0 then countRemovedInodes d sb n (g + 1) count
    else
      let ib ← readInodeBitmap d sb gd
      countRemovedInodes d sb n (g + 1) (count + popcountBitmap ib (sb.groupInodeCount g))

/-- group がなくなるときの、縮められない理由。 -/
def removedGroupBlockers (d : Disk) (sb : Superblock) (targetGroups currentGroups : Nat) :
    Result (List String) :=
  if targetGroups < currentGroups then do
    let n ← countRemovedInodes d sb (currentGroups - targetGroups) targetGroups 0
    return [if n ≠ 0 then
        toString n ++ " allocated inodes must be renumbered out of removed block groups"
      else "target removes block groups; inode-table/group removal engine is not enabled yet"]
  else .ok []

/-- target 以上にある group metadata の block の数。 -/
def countTailMetadata (d : Disk) (sb : Superblock) (target : Nat) : Nat → Nat → Nat → Result Nat
  | 0, _, count => .ok count
  | n + 1, g, count => do
    let gd ← readGroupDesc d sb g
    let mark := fun b => if b ≥ target ∧ b < sb.blocksCount then 1 else 0
    let a := max gd.inodeTable target
    let z := min (gd.inodeTable + sb.inodeTableBlocks) sb.blocksCount
    countTailMetadata d sb target n (g + 1)
      (count + mark gd.blockBitmap + mark gd.inodeBitmap + (if z > a then z - a else 0))

/-- `analyze_shrink_readiness`。 -/
def analyzeShrinkReadiness (host : Host) (d : Disk) (targetBytes : Nat) :
    Result ShrinkReadiness := do
  let sb ← readSuperblock d
  if targetBytes ≥ sb.sizeBytes then
    throw { code := .invalidArgument, message := "target is not smaller than filesystem" }
  if targetBytes % sb.blockSize ≠ 0 then
    throw { code := .invalidArgument, message := "target must be aligned to filesystem block size" }
  let target := targetBytes / sb.blockSize
  let currentGroups := sb.groupsCount
  let dataBlocks := target - sb.firstDataBlock
  let targetGroups := (dataBlocks + sb.blocksPerGroup - 1) / sb.blocksPerGroup
  let removed ← removedGroupBlockers d sb targetGroups currentGroups
  let graph ← buildAllocationGraph host d
  let tail := (graph.allocated.map fun e =>
    if e.endBlock > target then e.endBlock - max e.start target else 0).sum
  let fixed ← countTailMetadata d sb target currentGroups 0 0
  return {
    targetBlocks := target
    currentGroups
    targetGroups
    allocatedTailBlocks := tail
    fixedMetadataTailBlocks := fixed
    blockers := removed
      ++ (if tail ≠ 0 then [toString tail ++ " allocated blocks remain at or above target"] else [])
      ++ (if fixed ≠ 0 then
          [toString fixed ++ " fixed metadata blocks remain at or above target"] else []) }

/-! ## `finalize_metadata_only_shrink` -/

/-- `desc_free`。 -/
def descFree (gd : Bytes) : Nat :=
  readLe 2 gd 12 ||| (if gd.length ≥ 46 then readLe 2 gd 44 <<< 16 else 0)

/-- `set_u64_lohi`。 -/
def setLoHi (b : Bytes) (lo hi v : Nat) : Bytes := writeLe 4 (writeLe 4 b lo v) hi (v >>> 32)

/-- 末尾の group の bitmap に、なくなる block の印を付ける。`n` は残りの block の数である。 -/
def markTailBits (gs : Nat) : Nat → Nat → Bytes → Result Bytes
  | 0, _, bm => .ok bm
  | n + 1, b, bm =>
    if b < gs then markTailBits gs n (b + 1) bm
    else if bitSet bm (b - gs) then
      .error { code := .corrupt
               message := "tail block became allocated after shrink readiness check" }
    else markTailBits gs n (b + 1) (setBitmapBit bm (b - gs) true)

/-- 末尾の group の、新しい bitmap と descriptor の書き込み。 -/
def tailUpdate (d : Disk) (ctx : MetadataContext) (target : Nat) : Result (Write × Write) := do
  let lastGroup := ctx.sb.groupsCount - 1
  let removed := ctx.sb.blocksCount - target
  let gd ← readGroupDesc d ctx.sb lastGroup
  let raw ← readGroupDescriptorRaw d ctx lastGroup
  let bm ← readBlockBitmap d ctx.sb gd
  let bm' ← markTailBits (ctx.sb.groupStartBlock lastGroup) removed target bm
  let oldFree := descFree raw
  if removed > oldFree then
    throw { code := .corrupt, message := "last group free count is smaller than removed tail" }
  let raw' := updateBlockBitmapChecksum ctx (setDescFreeBlocks raw (oldFree - removed)) bm'
  let raw'' ← updateGroupDescriptorChecksum ctx lastGroup raw'
  let addr ← groupDescriptorAddress ctx lastGroup raw''
  return (⟨gd.blockBitmap * ctx.sb.blockSize, bm'⟩, ⟨addr, raw''⟩)

/-- 新しい大きさを入れた superblock。 -/
def shrunkSuper (ctx : MetadataContext) (raw : Bytes) (state target : Nat) : Result Bytes := do
  let removed := ctx.sb.blocksCount - target
  if removed > ctx.sb.freeBlocks then
    throw { code := .corrupt, message := "superblock free count smaller than shrink tail" }
  let reserved :=
    if ctx.sb.reservedBlocks > target then target / 20 else ctx.sb.reservedBlocks
  let raw₁ := setLoHi raw 0x04 0x150 target
  let raw₂ := setLoHi raw₁ 0x0c 0x158 (ctx.sb.freeBlocks - removed)
  let raw₃ := setLoHi raw₂ 0x08 0x154 reserved
  updateSuperblockChecksum (writeLe 2 raw₃ 0x3a (state &&& 0xfffe))

/-- 手を付ける前の検査。 -/
def checkFinalize (host : Host) (d : Disk) (targetBytes : Nat) : Result MetadataContext := do
  let ready ← analyzeShrinkReadiness host d targetBytes
  if ready.finalizePossible = false then
    throw { code := .unsupported
            message := ready.blockers.headD "target requires unsupported block-group relocation" }
  let ctx ← loadMetadataContext d
  if ctx.sb.hasIncompat incompatMetaBg ∨ ctx.sb.hasRoCompat roCompatBigalloc then
    throw { code := .unsupported, message := "metadata-only shrink refuses meta_bg and bigalloc" }
  return ctx

/-- journal が確定に使えるか。 -/
def checkFinalizeJournal (ctx : MetadataContext) (v : JournalView) (targetBytes : Nat) :
    Result Unit := do
  let fu ← parseUuid ctx.sb.uuid
  if v.identity.filesystemUuid ≠ fu ∨ v.identity.targetSize.toNat ≠ targetBytes then
    throw { code := .unsafeErr, message := "journal identity does not match shrink target" }
  if v.phase ≠ .compacted ∧ v.phase ≠ .staged then
    throw { code := .unsafeErr, message := "journal is not ready for filesystem-size finalization" }

/-- はじめの superblock。dirty にして書き、journal の phase を `metadata_finalize` にする。 -/
def beginFinalize (ctx : MetadataContext) (raw : Bytes) : EngineM Unit := do
  writeSuperCopies ctx raw
  append { type := .filesystemMarkedDirty }
  checkpoint .metadataFinalize

/-- 末尾の group の bitmap と descriptor。 -/
def shrinkTail (ctx : MetadataContext) (raw : Bytes) (target : Nat) : EngineM Unit := do
  let (bitmap, desc) ← device fun d => tailUpdate d ctx target
  write bitmap.off bitmap.bytes
  write desc.off desc.bytes
  writeGroupDescBackups ctx raw (ctx.sb.groupsCount - 1) desc.bytes
  flush

/-- 新しい大きさの superblock を書いてから、clean に戻すまで。 -/
def completeFinalize (host : Host) (ctx : MetadataContext) (shrunk : Bytes) (state : Nat) :
    EngineM Unit := do
  writeSuperCopies ctx shrunk
  let r ← device fun d => verifyMetadata host.verifyCancelled d
  if r.clean = false then
    throw { code := .corrupt
            message := "post-shrink metadata verification failed; filesystem intentionally left unclean" }
  let clean ← device fun _ => updateSuperblockChecksum (writeLe 2 shrunk 0x3a (state ||| 1))
  writeSuperCopies ctx clean
  append { type := .filesystemMarkedClean }
  checkpoint .filesystemShrunk

/-- `finalize_metadata_only_shrink`。`missing` は journal の file を開けなかったときの失敗である。 -/
def finalizeMetadataOnlyShrink (host : Host) (missing : Error) (targetBytes : Nat)
    (opts : FinalizeOptions) : EngineM Unit := do
  if opts.journalPath = "" then
    throw { code := .invalidArgument, message := "shrink finalization requires --journal=FILE" }
  device fun _ => checkDeviceSafety host opts.allowBlockDevice
    "block-device shrink requires --allow-block-device"
  let ctx ← device fun d => checkFinalize host d targetBytes
  let j ← journal missing
  device fun _ => checkFinalizeJournal ctx j.view targetBytes
  let sbraw ← device readRawSuperblock
  let state := readLe 2 sbraw 0x3a
  let raw ← device fun _ => updateSuperblockChecksum (writeLe 2 sbraw 0x3a (state &&& 0xfffe))
  beginFinalize ctx raw
  let target := targetBytes / ctx.sb.blockSize
  shrinkTail ctx raw target
  let shrunk ← device fun _ => shrunkSuper ctx raw state target
  completeFinalize host ctx shrunk state

end Fsx.Ext4
