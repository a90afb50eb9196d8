import Fsx.Ext4.Resize
import Fsx.Ext4.Verify

/-!
# 数の修復と名前の付け替え（`src/ext4/maintenance.cpp`）

`repair_metadata_counters` は、bitmap を正しいものとして、group descriptor の空きの数と checksum、
superblock の空きの数と checksum を書き直す。bitmap や inode には触れない。
`set_volume_label` は superblock とその写しの名前の欄だけを書き換える。

`is_power`・`group_has_super`・`set_desc_free_blocks`・`set_u64_lohi` は `src/ext4/resize.cpp` にある
同じ関数と同じ中身なので、その定義を使う。`count_set` は `popcount_bitmap` と同じループである。
-/

namespace Fsx.Ext4

structure RepairOptions where
  allowBlockDevice : Bool := false
  verifyAfter : Bool := true

structure RepairReport where
  groupsRewritten : Nat := 0
  freeBlocks : Nat := 0
  freeInodes : Nat := 0
  superblockRewritten : Bool := false
  verified : Bool := false
  deriving DecidableEq

/-- `count_set`。 -/
abbrev countSet (bitmap : Bytes) (bits : Nat) : Nat := popcountBitmap bitmap bits

/-- `set_desc_free_inodes`。 -/
def setDescFreeInodes (gd : Bytes) (v : Nat) : Bytes :=
  let gd' := writeLe 2 gd 14 v
  if gd.length ≥ 48 then writeLe 2 gd' 46 (v >>> 16) else gd'

/-- `update_inode_bitmap_checksum`。 -/
def updateInodeBitmapChecksum (ctx : MetadataContext) (gd bitmap : Bytes) : Bytes :=
  if ctx.metadataCsum = false then gd
  else
    let c := bitmapChecksum ctx bitmap ((ctx.sb.inodesPerGroup + 7) / 8)
    let gd' := writeLe 2 gd 0x1a c
    if gd.length ≥ 0x3a + 2 then writeLe 2 gd' 0x3a (c >>> 16) else gd'

/-- `load_metadata_context(dev, true)`。checksum の合わない superblock も受け入れる。 -/
def loadMetadataContextTolerant (d : Disk) : Result MetadataContext := do
  let sb ← readSuperblock d
  let raw ← readRawSuperblock d
  let metadataCsum := sb.hasRoCompat roCompatMetadataCsum
  return {
    sb
    uuid := slice raw 0x68 16
    checksumSeed := metadataSeed raw
    metadataCsum
    gdtCsum := sb.hasRoCompat roCompatGdtCsum || metadataCsum }

/-- 書き直した descriptor と、空きの数。 -/
def repairedDesc (ctx : MetadataContext) (g : Nat) (raw bb ib : Bytes) :
    Result (Bytes × Nat × Nat) := do
  let validBlocks := ctx.sb.groupBlockCount g
  let freeBlocks := validBlocks - countSet bb validBlocks
  if freeBlocks > 2 ^ 32 - 1 then
    throw { code := .internal, message := "group free-block count overflow" }
  let validInodes := ctx.sb.groupInodeCount g
  let freeInodes := validInodes - countSet ib validInodes
  if freeInodes > 2 ^ 32 - 1 then
    throw { code := .internal, message := "group free-inode count overflow" }
  let counted := setDescFreeInodes (setDescFreeBlocks raw freeBlocks) freeInodes
  let summed := updateInodeBitmapChecksum ctx (updateBlockBitmapChecksum ctx counted bb) ib
  let desc ← updateGroupDescriptorChecksum ctx g summed
  return (desc, freeBlocks, freeInodes)

/-- 写しを持つ group のループ。`n` は残りの group の数である。 -/
def writeDescCopies (ctx : MetadataContext) (super : Bytes) (descGroup : Nat) (desc : Bytes) :
    Nat → Nat → DevM Unit
  | 0, _ => pure ()
  | n + 1, g => do
    if groupHasSuper super g then
      DevM.write ((ctx.sb.groupStartBlock g + 1) * ctx.sb.blockSize + descGroup * ctx.sb.descBytes) desc
    writeDescCopies ctx super descGroup desc n (g + 1)

/-- `write_group_descriptor_copies`。 -/
def writeGroupDescriptorCopies (ctx : MetadataContext) (super : Bytes) (descGroup : Nat)
    (desc : Bytes) : DevM Unit := do
  if ctx.sb.hasIncompat incompatMetaBg then
    throw { code := .unsupported
            message := "meta_bg group-descriptor backup repair is not implemented" }
  let addr ← Proc.reading fun _ => groupDescriptorAddress ctx descGroup desc
  DevM.write addr desc
  writeDescCopies ctx super descGroup desc (ctx.sb.groupsCount - 1) 1

/-- 写しを持つ group のループ。 -/
def writeSuperblockBackups (ctx : MetadataContext) (primary : Bytes) : Nat → Nat → DevM Unit
  | 0, _ => pure ()
  | n + 1, g => do
    if groupHasSuper primary g then
      let copy ← Proc.reading fun _ => updateSuperblockChecksum (writeLe 2 primary 0x5a g)
      DevM.write (ctx.sb.groupStartBlock g * ctx.sb.blockSize) copy
    writeSuperblockBackups ctx primary n (g + 1)

/-- `write_superblock_copies`。 -/
def writeSuperblockCopies (ctx : MetadataContext) (raw : Bytes) : DevM Unit := do
  if raw.length ≠ 1024 then
    throw { code := .invalidArgument, message := "superblock copy must be 1024 bytes" }
  DevM.write 1024 raw
  writeSuperblockBackups ctx raw (ctx.sb.groupsCount - 1) 1
  DevM.flush

/-- group 一つ分。 -/
def repairGroup (ctx : MetadataContext) (super : Bytes) (g : Nat) (report : RepairReport) :
    DevM RepairReport := do
  let gd ← Proc.reading fun d => readGroupDesc d ctx.sb g
  let raw ← Proc.reading fun d => readGroupDescriptorRaw d ctx g
  let bb ← Proc.reading fun d => readBlockBitmap d ctx.sb gd
  let ib ← Proc.reading fun d => readInodeBitmap d ctx.sb gd
  let (desc, freeBlocks, freeInodes) ← Proc.reading fun _ => repairedDesc ctx g raw bb ib
  writeGroupDescriptorCopies ctx super g desc
  return { report with
    freeBlocks := report.freeBlocks + freeBlocks
    freeInodes := report.freeInodes + freeInodes
    groupsRewritten := report.groupsRewritten + 1 }

/-- group のループ。`cancelled g` は group `g` の手前での中断要求である。 -/
def repairGroups (cancelled : Nat → Bool) (ctx : MetadataContext) (super : Bytes) :
    Nat → Nat → RepairReport → DevM RepairReport
  | 0, _, report => pure report
  | n + 1, g, report => do
    if cancelled g then
      throw { code := .unsafeErr
              message := "metadata repair cancelled before the next group write" }
    let report' ← repairGroup ctx super g report
    repairGroups cancelled ctx super n (g + 1) report'

/-- 手を付ける前の検査。 -/
def checkRepair (host : Host) (opts : RepairOptions) (d : Disk) : Result MetadataContext := do
  checkDeviceSafety host opts.allowBlockDevice
    "block-device metadata repair requires --allow-block-device"
  let ctx ← loadMetadataContextTolerant d
  if ctx.sb.hasIncompat incompatMetaBg then
    throw { code := .unsupported, message := "metadata repair currently refuses meta_bg" }
  if ctx.sb.hasRoCompat roCompatBigalloc then
    throw { code := .unsupported, message := "metadata repair currently refuses bigalloc" }
  if ctx.sb.hasIncompat incompatRecover then
    throw { code := .unsafeErr
            message := "filesystem journal recovery is required before offline repair" }
  return ctx

/-- 空きの数を入れた superblock。 -/
def repairedSuper (raw : Bytes) (freeBlocks freeInodes : Nat) : Result Bytes :=
  updateSuperblockChecksum (writeLe 4 (setLoHi raw 0x0c 0x158 freeBlocks) 0x10 freeInodes)

/-- `repair_metadata_counters`。 -/
def repairMetadataCounters (host : Host) (cancelled : Nat → Bool) (opts : RepairOptions) :
    DevM RepairReport := do
  let ctx ← Proc.reading fun d => checkRepair host opts d
  let super ← Proc.reading readRawSuperblock
  let report ← repairGroups cancelled ctx super ctx.sb.groupsCount 0 {}
  let super' ← Proc.reading fun _ => repairedSuper super report.freeBlocks report.freeInodes
  writeSuperblockCopies ctx super'
  let report' := { report with superblockRewritten := true }
  if opts.verifyAfter then
    let verify ← Proc.reading fun d => verifyMetadata host.verifyCancelled d
    if verify.clean = false then
      throw { code := .corrupt
              message := "metadata verification still reports errors after conservative repair" }
    return { report' with verified := true }
  return report'

/-! ## `set_volume_label` -/

/-- 名前の欄を零で埋めてから `label` を入れた superblock。 -/
def labelledSuper (raw label : Bytes) : Result Bytes :=
  updateSuperblockChecksum (patch (patch raw 0x78 (zeros 16)) 0x78 label)

/-- `set_volume_label`。 -/
def setVolumeLabel (host : Host) (label : Bytes) (allowBlockDevice : Bool) : DevM Unit := do
  if label.length > 16 then
    throw { code := .invalidArgument, message := "ext volume label is limited to 16 bytes" }
  Proc.reading fun _ => checkDeviceSafety host allowBlockDevice
    "block-device tuning requires --allow-block-device"
  let ctx ← Proc.reading loadMetadataContext
  let raw ← Proc.reading readRawSuperblock
  let raw' ← Proc.reading fun _ => labelledSuper raw label
  writeSuperblockCopies ctx raw'

end Fsx.Ext4
