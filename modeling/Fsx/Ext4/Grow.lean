import Fsx.Ext4.Resize

/-!
# 末尾の group の中での拡大（`src/ext4/resize.cpp`）

縮小の確定と同じく、superblock を三度書く。はじめに dirty にし、末尾の group の bitmap と
descriptor の後に新しい大きさを書き、検証の後に clean にする。縮小と違い journal は使わない。
末尾の group は、dirty にする前に読んでおく。
-/

namespace Fsx.Ext4

open Engine

structure GrowOptions where
  allowBlockDevice : Bool := false
  verifyAfter : Bool := true

structure GrowReport where
  oldBlocks : Nat
  newBlocks : Nat
  blocksAdded : Nat
  freeBlocksAfter : Nat
  verified : Bool
  deriving DecidableEq

/-- 手を付ける前の検査。 -/
def checkGrow (d : Disk) (targetBytes : Nat) : Result MetadataContext := do
  let ctx ← loadMetadataContext d
  if ctx.sb.hasIncompat incompatMetaBg then
    throw { code := .unsupported, message := "same-group grow refuses meta_bg" }
  if ctx.sb.hasRoCompat roCompatBigalloc then
    throw { code := .unsupported, message := "same-group grow refuses bigalloc" }
  if ctx.sb.hasIncompat incompatRecover then
    throw { code := .unsafeErr, message := "filesystem journal recovery is required before grow" }
  if ctx.sb.state &&& 1 = 0 then
    throw { code := .unsafeErr
            message := "filesystem is not marked clean; run a check before grow" }
  if targetBytes ≤ ctx.sb.sizeBytes then
    throw { code := .invalidArgument, message := "grow target must be larger than filesystem" }
  if targetBytes > d.sizeBytes then
    throw { code := .invalidArgument, message := "grow target exceeds containing device" }
  if targetBytes % ctx.sb.blockSize ≠ 0 then
    throw { code := .invalidArgument
            message := "grow target must be aligned to filesystem block size" }
  let target := targetBytes / ctx.sb.blockSize
  let dataBlocks := target - ctx.sb.firstDataBlock
  if (dataBlocks + ctx.sb.blocksPerGroup - 1) / ctx.sb.blocksPerGroup ≠ ctx.sb.groupsCount then
    throw { code := .unsupported
            message := "grow would add ext4 block groups; this release only grows within the existing last group" }
  if target > ctx.sb.groupStartBlock (ctx.sb.groupsCount - 1) + ctx.sb.blocksPerGroup then
    throw { code := .invalidArgument, message := "grow target exceeds existing last block group" }
  return ctx

/-- 末尾の group の、読んでおいた descriptor と bitmap。 -/
structure LastGroup where
  gd : GroupDesc
  raw : Bytes
  bitmap : Bytes

/-- `is_fixed`。末尾の group の metadata の block か。 -/
def LastGroup.isFixed (sb : Superblock) (t : LastGroup) (b : Nat) : Bool :=
  decide (b = t.gd.blockBitmap) || decide (b = t.gd.inodeBitmap)
    || (decide (b ≥ t.gd.inodeTable) && decide (b < t.gd.inodeTable + sb.inodeTableBlocks))

/-- 増える block のループ。`n` は残りの block の数である。 -/
def checkGrowRange (sb : Superblock) (t : LastGroup) (gs : Nat) : Nat → Nat → Result Unit
  | 0, _ => .ok ()
  | n + 1, b =>
    if b < gs then
      .error { code := .corrupt, message := "grow range precedes last block group" }
    else if t.isFixed sb b then
      .error { code := .unsafeErr, message := "grow range intersects fixed ext4 metadata" }
    else if bitSet t.bitmap (b - gs) = false then
      .error { code := .corrupt
               message := "block beyond current filesystem is not marked unavailable in last-group bitmap" }
    else checkGrowRange sb t gs n (b + 1)

/-- 末尾の group を読み、増える block がどれも使えないままになっていることを確かめる。 -/
def readLastGroup (d : Disk) (ctx : MetadataContext) (target : Nat) : Result LastGroup := do
  let lastGroup := ctx.sb.groupsCount - 1
  let gd ← readGroupDesc d ctx.sb lastGroup
  let raw ← readGroupDescriptorRaw d ctx lastGroup
  let bitmap ← readBlockBitmap d ctx.sb gd
  let t : LastGroup := { gd, raw, bitmap }
  checkGrowRange ctx.sb t (ctx.sb.groupStartBlock lastGroup) (target - ctx.sb.blocksCount)
    ctx.sb.blocksCount
  return t

/-- 末尾の group の、新しい bitmap と descriptor の書き込み。 -/
def grownTail (ctx : MetadataContext) (t : LastGroup) (target : Nat) : Result (Write × Write) := do
  let lastGroup := ctx.sb.groupsCount - 1
  let added := target - ctx.sb.blocksCount
  let oldFree := descFree t.raw
  if oldFree + added > 2 ^ 32 - 1 then
    throw { code := .corrupt, message := "group free-block counter would overflow" }
  let bm' := setBitmapRange t.bitmap
    (ctx.sb.blocksCount - ctx.sb.groupStartBlock lastGroup) added false
  let raw' := updateBlockBitmapChecksum ctx (setDescFreeBlocks t.raw (oldFree + added)) bm'
  let raw'' ← updateGroupDescriptorChecksum ctx lastGroup raw'
  let addr ← groupDescriptorAddress ctx lastGroup raw''
  return (⟨t.gd.blockBitmap * ctx.sb.blockSize, bm'⟩, ⟨addr, raw''⟩)

/-- 新しい大きさを入れた superblock。 -/
def grownSuper (ctx : MetadataContext) (raw : Bytes) (state target : Nat) : Result Bytes := do
  let added := target - ctx.sb.blocksCount
  if ctx.sb.freeBlocks > u64Max - added then
    throw { code := .corrupt, message := "superblock free-block counter would overflow" }
  let raw₁ := setLoHi raw 0x04 0x150 target
  let raw₂ := setLoHi raw₁ 0x0c 0x158 (ctx.sb.freeBlocks + added)
  updateSuperblockChecksum (writeLe 2 raw₂ 0x3a (state &&& 0xfffe))

/-- 末尾の group の bitmap と descriptor。 -/
def growTail (ctx : MetadataContext) (raw : Bytes) (t : LastGroup) (target : Nat) :
    EngineM Unit := do
  let (bitmap, desc) ← device fun _ => grownTail ctx t target
  write bitmap.off bitmap.bytes
  write desc.off desc.bytes
  writeGroupDescBackups ctx raw (ctx.sb.groupsCount - 1) desc.bytes
  flush

/-- 新しい大きさの superblock を書き終えたところで持っているもの。 -/
structure Resized where
  ctx : MetadataContext
  /-- 書いた superblock -/
  raw : Bytes
  /-- はじめの状態の欄 -/
  state : Nat

/-- 検査から、新しい大きさの superblock を書くまで。 -/
def prepareGrow (host : Host) (targetBytes : Nat) (opts : GrowOptions) : EngineM Resized := do
  device fun _ => checkDeviceSafety host opts.allowBlockDevice
    "block-device grow requires --allow-block-device"
  let ctx ← device fun d => checkGrow d targetBytes
  let target := targetBytes / ctx.sb.blockSize
  let t ← device fun d => readLastGroup d ctx target
  let sbraw ← device readRawSuperblock
  let state := readLe 2 sbraw 0x3a
  let raw ← device fun _ => updateSuperblockChecksum (writeLe 2 sbraw 0x3a (state &&& 0xfffe))
  writeSuperCopies ctx raw
  growTail ctx raw t target
  let grown ← device fun _ => grownSuper ctx raw state target
  writeSuperCopies ctx grown
  return { ctx, raw := grown, state }

/-- 検証と、clean に戻すところ。 -/
def completeGrow (host : Host) (targetBytes : Nat) (opts : GrowOptions) (r : Resized) :
    EngineM GrowReport := do
  if opts.verifyAfter then
    let v ← device fun d => verifyMetadata host.verifyCancelled d
    if v.clean = false then
      throw { code := .corrupt
              message := "post-grow metadata verification failed; filesystem intentionally left unclean" }
  let clean ← device fun _ => updateSuperblockChecksum (writeLe 2 r.raw 0x3a (r.state ||| 1))
  writeSuperCopies r.ctx clean
  let target := targetBytes / r.ctx.sb.blockSize
  return {
    oldBlocks := r.ctx.sb.blocksCount
    newBlocks := target
    blocksAdded := target - r.ctx.sb.blocksCount
    freeBlocksAfter := r.ctx.sb.freeBlocks + (target - r.ctx.sb.blocksCount)
    verified := opts.verifyAfter }

/-- `grow_within_last_group`。 -/
def growWithinLastGroup (host : Host) (targetBytes : Nat) (opts : GrowOptions) :
    EngineM GrowReport := do
  let r ← prepareGrow host targetBytes opts
  completeGrow host targetBytes opts r

end Fsx.Ext4
