import Fsx.Ext4.Superblock

/-!
# block group の metadata（`src/ext4/internal.cpp`・`src/ext4/metadata.cpp`）

group descriptor・bitmap・inode の読み出しと、それぞれの checksum。

読むだけの関数は `Disk → Result α` とする。書く側（`rewrite_group_bitmap` など）は
`Fsx/Ext4/Commit.lean` にある。
-/

namespace Fsx.Ext4

/-! ## group の位置 -/

namespace Superblock

/-- `group_start_block`。 -/
def groupStartBlock (sb : Superblock) (g : Nat) : Nat :=
  if sb.blocksPerGroup = 0 then u64Max
  else if g > (u64Max - sb.firstDataBlock) / sb.blocksPerGroup then u64Max
  else sb.firstDataBlock + g * sb.blocksPerGroup

/-- `group_block_count`。 -/
def groupBlockCount (sb : Superblock) (g : Nat) : Nat :=
  let start := sb.groupStartBlock g
  if start < sb.blocksCount then min sb.blocksPerGroup (sb.blocksCount - start) else 0

/--
group の inode の数。末尾の group では `inodes_count` で切れる。

先頭の番号は 64 bit で計算する。group の数と group あたりの inode の数の積は、
2 EiB を超える device では 64 bit を溢れうる。
-/
def groupInodeCount (sb : Superblock) (g : Nat) : Nat :=
  let first := u64 (g * sb.inodesPerGroup + 1)
  min sb.inodesPerGroup (if sb.inodesCount ≥ first then sb.inodesCount - first + 1 else 0)

/-- inode table の block 数。 -/
def inodeTableBlocks (sb : Superblock) : Nat :=
  (sb.inodesPerGroup * sb.inodeSize + sb.blockSize - 1) / sb.blockSize

end Superblock

/-! ## descriptor -/

structure GroupDesc where
  blockBitmap : Nat
  inodeBitmap : Nat
  inodeTable : Nat
  freeBlocks : Nat
  freeInodes : Nat
  flags : Nat
  deriving DecidableEq

def bgInodeUninit : Nat := 0x0001
def bgBlockUninit : Nat := 0x0002

/-- descriptor table の先頭の byte 番地。 -/
def Superblock.tableOffset (sb : Superblock) : Nat :=
  (if sb.blockSize = 1024 then 2 else 1) * sb.blockSize

/-- group `g` の descriptor の byte 番地。 -/
def Superblock.descOffset (sb : Superblock) (g : Nat) : Nat := sb.tableOffset + g * sb.descBytes

/-- `read_group_desc` が欄を取り出すところ。 -/
def decodeGroupDesc (sb : Superblock) (buf : Bytes) : GroupDesc :=
  let wide := decide (sb.descBytes ≥ 64) && sb.hasIncompat incompat64bit
  let hi32 := fun off => if wide then readLe 4 buf off <<< 32 else 0
  let hi16 := fun off => if wide then readLe 2 buf off <<< 16 else 0
  { blockBitmap := readLe 4 buf 0 ||| hi32 32
    inodeBitmap := readLe 4 buf 4 ||| hi32 36
    inodeTable := readLe 4 buf 8 ||| hi32 40
    freeBlocks := readLe 2 buf 12 ||| hi16 44
    freeInodes := readLe 2 buf 14 ||| hi16 46
    flags := readLe 2 buf 18 }

/-- `read_group_desc`。 -/
def readGroupDesc (d : Disk) (sb : Superblock) (group : Nat) : Result GroupDesc := do
  let bs := sb.blockSize
  if bs = 0 then throw { code := .corrupt, message := "invalid ext4 block size" }
  if group ≥ sb.groupsCount then
    throw { code := .corrupt, message := "ext4 group descriptor index is outside filesystem" }
  let ds := sb.descBytes
  if ds > bs ∨ ds > 1024 then
    throw { code := .corrupt, message := "invalid ext4 group descriptor size" }
  if group > u64Max / ds then
    throw { code := .corrupt, message := "ext4 group descriptor offset overflows" }
  if sb.hasIncompat incompatMetaBg ∧ group * ds ≥ bs then
    throw { code := .unsupported
            message := "ext4 meta_bg descriptor placement is not implemented yet" }
  if group * ds > u64Max - sb.tableOffset then
    throw { code := .corrupt, message := "ext4 group descriptor address overflows" }
  let buf ← d.readExact (sb.descOffset group) ds
  let g := decodeGroupDesc sb buf
  if g.blockBitmap ≥ sb.blocksCount ∨ g.inodeBitmap ≥ sb.blocksCount
      ∨ g.inodeTable ≥ sb.blocksCount then
    throw { code := .corrupt, message := "ext4 group metadata points outside filesystem" }
  let inodeBytes := sb.inodesPerGroup * sb.inodeSize
  let tableBlocks := inodeBytes / bs + (if inodeBytes % bs ≠ 0 then 1 else 0)
  if tableBlocks = 0 ∨ tableBlocks > sb.blocksCount - g.inodeTable then
    throw { code := .corrupt, message := "ext4 inode table extends beyond filesystem" }
  return g

/-- `read_block_bitmap`。 -/
def readBlockBitmap (d : Disk) (sb : Superblock) (gd : GroupDesc) : Result Bytes := do
  let bs := sb.blockSize
  if bs = 0 then throw { code := .corrupt, message := "invalid ext4 block size" }
  if gd.blockBitmap ≥ sb.blocksCount then
    throw { code := .corrupt, message := "block bitmap points beyond filesystem" }
  if gd.blockBitmap > u64Max / bs then
    throw { code := .corrupt, message := "block bitmap byte offset overflows" }
  d.readExact (gd.blockBitmap * bs) bs

/-- `read_inode_bitmap`。 -/
def readInodeBitmap (d : Disk) (sb : Superblock) (gd : GroupDesc) : Result Bytes := do
  let bs := sb.blockSize
  if bs = 0 then throw { code := .corrupt, message := "invalid ext4 block size" }
  if gd.inodeBitmap ≥ sb.blocksCount then
    throw { code := .corrupt, message := "inode bitmap points beyond filesystem" }
  if gd.inodeBitmap > u64Max / bs then
    throw { code := .corrupt, message := "inode bitmap byte offset overflows" }
  d.readExact (gd.inodeBitmap * bs) bs

/-- `bit_set`。 -/
def bitSet (b : Bytes) (bit : Nat) : Bool :=
  decide (bit / 8 < b.length) && (b.getD (bit / 8) 0).toNat.testBit (bit % 8)

/-- `popcount_bitmap`。 -/
def popcountBitmap (b : Bytes) (bits : Nat) : Nat := (List.range bits).countP (bitSet b)

/-! ## 生の descriptor -/

/-- `read_group_descriptor_raw`。 -/
def readGroupDescriptorRaw (d : Disk) (ctx : MetadataContext) (group : Nat) : Result Bytes := do
  if group ≥ ctx.sb.groupsCount then
    throw { code := .invalidArgument, message := "group number outside filesystem" }
  let bs := ctx.sb.blockSize
  let ds := ctx.sb.descBytes
  if bs = 0 ∨ ds = 0 ∨ ds > bs then
    throw { code := .corrupt, message := "invalid ext4 descriptor geometry" }
  if group > u64Max / ds then
    throw { code := .corrupt, message := "group descriptor offset overflows" }
  if ctx.sb.hasIncompat incompatMetaBg ∧ group * ds ≥ bs then
    throw { code := .unsupported
            message := "meta_bg descriptor placement is not supported by the write engine yet" }
  if group * ds > u64Max - ctx.sb.tableOffset then
    throw { code := .corrupt, message := "group descriptor address overflows" }
  d.readExact (ctx.sb.descOffset group) ds

/-- `write_group_descriptor_raw` が書く前に見る条件。成功なら書く番地を返す。 -/
def groupDescriptorAddress (ctx : MetadataContext) (group : Nat) (raw : Bytes) : Result Nat := do
  let bs := ctx.sb.blockSize
  let ds := ctx.sb.descBytes
  if bs = 0 ∨ ds = 0 ∨ ds > bs then
    throw { code := .corrupt, message := "invalid ext4 descriptor geometry" }
  if raw.length ≠ ds then
    throw { code := .invalidArgument, message := "group descriptor buffer has wrong size" }
  if group ≥ ctx.sb.groupsCount then
    throw { code := .invalidArgument, message := "group number outside filesystem" }
  if group > u64Max / ds then
    throw { code := .corrupt, message := "group descriptor offset overflows" }
  if ctx.sb.hasIncompat incompatMetaBg ∧ group * ds ≥ bs then
    throw { code := .unsupported, message := "meta_bg descriptor writes are not supported yet" }
  if group * ds > u64Max - ctx.sb.tableOffset then
    throw { code := .corrupt, message := "group descriptor address overflows" }
  return ctx.sb.descOffset group

/-! ## checksum -/

/-- `crc16_ibm` の 1 bit。 -/
def crc16Bit (c : UInt16) : UInt16 := if c &&& 1 ≠ 0 then (c >>> 1) ^^^ 0xa001 else c >>> 1

/-- `crc16_ibm`。 -/
def crc16Ibm (data : Bytes) (seed : UInt16) : UInt16 :=
  data.foldl (fun c b =>
    crc16Bit (crc16Bit (crc16Bit (crc16Bit (crc16Bit (crc16Bit (crc16Bit (crc16Bit
      (c ^^^ b.toUInt16))))))))) seed

/-- checksum の欄を零にした descriptor から計算した値。 -/
def groupDescriptorSum (ctx : MetadataContext) (group : Nat) (raw : Bytes) : Nat :=
  let copy := writeLe 2 raw 0x1e 0
  let gb := leBytes 4 group
  if ctx.metadataCsum then (crc32c copy (crc32c gb ctx.checksumSeed)).toNat % 2 ^ 16
  else
    let crc := crc16Ibm (copy.take 30) (crc16Ibm gb (crc16Ibm ctx.uuid 0xffff))
    (if copy.length > 32 then crc16Ibm (copy.drop 32) crc else crc).toNat

/-- `verify_group_descriptor_checksum`。 -/
def verifyGroupDescriptorChecksum (ctx : MetadataContext) (group : Nat) (raw : Bytes) :
    Result Bool :=
  if ctx.gdtCsum = false then .ok true
  else if raw.length < 32 then
    .error { code := .corrupt, message := "group descriptor too short" }
  else .ok (readLe 2 raw 0x1e = groupDescriptorSum ctx group raw)

/-- `update_group_descriptor_checksum`。 -/
def updateGroupDescriptorChecksum (ctx : MetadataContext) (group : Nat) (raw : Bytes) :
    Result Bytes :=
  if ctx.gdtCsum = false then .ok raw
  else if raw.length < 32 then
    .error { code := .corrupt, message := "group descriptor too short" }
  else .ok (writeLe 2 (writeLe 2 raw 0x1e 0) 0x1e (groupDescriptorSum ctx group raw))

/-- `bitmap_checksum`。 -/
def bitmapChecksum (ctx : MetadataContext) (bitmap : Bytes) (bytes : Nat) : Nat :=
  (crc32c (bitmap.take bytes) ctx.checksumSeed).toNat

/-- `descriptor_bitmap_checksum`。上位の欄は descriptor が届くときだけ読む。 -/
def descriptorBitmapChecksum (gd : Bytes) (lo hi : Nat) : Nat :=
  readLe 2 gd lo ||| (if gd.length ≥ hi + 2 then readLe 2 gd hi <<< 16 else 0)

/-- `verify_block_bitmap_checksum` と `verify_inode_bitmap_checksum` に共通の形。 -/
def verifyBitmapChecksum (ctx : MetadataContext) (perGroup lo hi : Nat) (gd bitmap : Bytes) : Bool :=
  if ctx.metadataCsum = false then true
  else
    let got := bitmapChecksum ctx bitmap ((perGroup + 7) / 8)
    let stored := descriptorBitmapChecksum gd lo hi
    if gd.length ≥ hi + 2 then stored = got else stored % 2 ^ 16 = got % 2 ^ 16

def verifyBlockBitmapChecksum (ctx : MetadataContext) (gd bitmap : Bytes) : Bool :=
  verifyBitmapChecksum ctx ctx.sb.blocksPerGroup 0x18 0x38 gd bitmap

def verifyInodeBitmapChecksum (ctx : MetadataContext) (gd bitmap : Bytes) : Bool :=
  verifyBitmapChecksum ctx ctx.sb.inodesPerGroup 0x1a 0x3a gd bitmap

/-- `update_block_bitmap_checksum`。 -/
def updateBlockBitmapChecksum (ctx : MetadataContext) (gd bitmap : Bytes) : Bytes :=
  if ctx.metadataCsum = false then gd
  else
    let c := bitmapChecksum ctx bitmap ((ctx.sb.blocksPerGroup + 7) / 8)
    let gd' := writeLe 2 gd 0x18 c
    if gd.length ≥ 0x38 + 2 then writeLe 2 gd' 0x38 (c >>> 16) else gd'

/-! ## inode -/

/-- `inode_offset`。 -/
def inodeOffset (d : Disk) (ctx : MetadataContext) (inode : Nat) : Result Nat := do
  if inode = 0 ∨ inode > ctx.sb.inodesCount then
    throw { code := .invalidArgument, message := "inode number outside filesystem" }
  let z := inode - 1
  let gd ← readGroupDesc d ctx.sb (z / ctx.sb.inodesPerGroup)
  let bs := ctx.sb.blockSize
  if bs = 0 ∨ gd.inodeTable > u64Max / bs then
    throw { code := .corrupt, message := "inode table byte offset overflows" }
  let index := z % ctx.sb.inodesPerGroup
  if index > u64Max / ctx.sb.inodeSize then
    throw { code := .corrupt, message := "inode entry offset overflows" }
  if index * ctx.sb.inodeSize > u64Max - gd.inodeTable * bs then
    throw { code := .corrupt, message := "inode absolute offset overflows" }
  let off := gd.inodeTable * bs + index * ctx.sb.inodeSize
  if off > ctx.sb.sizeBytes ∨ ctx.sb.inodeSize > ctx.sb.sizeBytes - off then
    throw { code := .corrupt, message := "inode table entry lies beyond filesystem" }
  return off

/-- `read_inode_raw`。 -/
def readInodeRaw (d : Disk) (ctx : MetadataContext) (inode : Nat) : Result Bytes := do
  let off ← inodeOffset d ctx inode
  d.readExact off ctx.sb.inodeSize

/-- `inode_has_hi_checksum`。 -/
def inodeHasHiChecksum (inode : Bytes) : Bool :=
  if inode.length ≤ 128 ∨ inode.length < 0x82 + 2 then false
  else decide (readLe 2 inode 0x80 ≥ 4)

/-- `compute_inode_checksum`。checksum の欄を零にして計算する。 -/
def computeInodeChecksum (ctx : MetadataContext) (inodeNo : Nat) (inode : Bytes) : Nat :=
  let z := if inode.length ≥ 0x7c + 2 then writeLe 2 inode 0x7c 0 else inode
  let z' := if inodeHasHiChecksum inode then writeLe 2 z 0x82 0 else z
  let gen := leBytes 4 (readLe 4 z' 0x64)
  (crc32c z' (crc32c gen (crc32c (leBytes 4 inodeNo) ctx.checksumSeed))).toNat

/-- `update_inode_checksum`。 -/
def updateInodeChecksum (ctx : MetadataContext) (inodeNo : Nat) (inode : Bytes) : Result Bytes :=
  if ctx.metadataCsum = false then .ok inode
  else if inode.length < 128 then
    .error { code := .corrupt, message := "inode buffer too short" }
  else
    let c := computeInodeChecksum ctx inodeNo inode
    let raw := writeLe 2 inode 0x7c c
    .ok (if inodeHasHiChecksum raw then writeLe 2 raw 0x82 (c >>> 16) else raw)

/-! ## extent block -/

/-- `compute_extent_checksum`。 -/
def computeExtentChecksum (ctx : MetadataContext) (inode generation : Nat) (block : Bytes) :
    Result Nat := do
  if block.length < 12 then
    throw { code := .corrupt, message := "extent block too small" }
  if readLe 2 block 0 ≠ 0xf30a then
    throw { code := .corrupt, message := "invalid extent block magic" }
  let tail := 12 + readLe 2 block 4 * 12
  if tail + 4 > block.length then
    throw { code := .corrupt, message := "extent checksum tail lies outside block" }
  let crc := crc32c (leBytes 4 generation) (crc32c (leBytes 4 inode) ctx.checksumSeed)
  return (crc32c (block.take tail) crc).toNat

/-- `verify_extent_block_checksum`。 -/
def verifyExtentBlockChecksum (ctx : MetadataContext) (inode generation : Nat) (block : Bytes) :
    Result Bool := do
  if ctx.metadataCsum = false then return true
  let c ← computeExtentChecksum ctx inode generation block
  return readLe 4 block (12 + readLe 2 block 4 * 12) = c

/-- `update_extent_block_checksum`。 -/
def updateExtentBlockChecksum (ctx : MetadataContext) (inode generation : Nat) (block : Bytes) :
    Result Bytes := do
  if ctx.metadataCsum = false then return block
  let c ← computeExtentChecksum ctx inode generation block
  return writeLe 4 block (12 + readLe 2 block 4 * 12) c

/-! ## `verify_metadata` -/

structure MetadataIntegrityReport where
  allocatedBlocks : Nat
  allocatedInodes : Nat
  errors : List String
  deriving DecidableEq

/-- `clean`。 -/
def MetadataIntegrityReport.clean (r : MetadataIntegrityReport) : Bool := r.errors.isEmpty

/-- `verify_metadata` の group 一つ分。`scan_inodes` が偽のときの検査である。 -/
def verifyGroup (d : Disk) (ctx : MetadataContext) (g : Nat) (out : MetadataIntegrityReport) :
    Result MetadataIntegrityReport := do
  let raw ← readGroupDescriptorRaw d ctx g
  let gdOk ← verifyGroupDescriptorChecksum ctx g raw
  let gd ← readGroupDesc d ctx.sb g
  let bb ← readBlockBitmap d ctx.sb gd
  let ib ← readInodeBitmap d ctx.sb gd
  let name := "group " ++ toString g
  let gb := ctx.sb.groupBlockCount g
  let ba := popcountBitmap bb gb
  let icount := ctx.sb.groupInodeCount g
  let ia := popcountBitmap ib icount
  return {
    allocatedBlocks := out.allocatedBlocks + ba
    allocatedInodes := out.allocatedInodes + ia
    errors := out.errors
      ++ (if gdOk then [] else [name ++ " descriptor checksum mismatch"])
      ++ (if verifyBlockBitmapChecksum ctx raw bb then []
          else [name ++ " block bitmap checksum mismatch"])
      ++ (if verifyInodeBitmapChecksum ctx raw ib then []
          else [name ++ " inode bitmap checksum mismatch"])
      ++ (if gb - ba = gd.freeBlocks then [] else [name ++ " free-block count mismatch"])
      ++ (if icount - ia = gd.freeInodes then [] else [name ++ " free-inode count mismatch"]) }

/-- `verify_metadata` の group のループ。`n` は残りの group の数である。 -/
def verifyGroups (cancel : Nat → Bool) (d : Disk) (ctx : MetadataContext) :
    Nat → Nat → MetadataIntegrityReport → Result MetadataIntegrityReport
  | 0, _, out => .ok out
  | n + 1, g, out => do
    if cancel g then
      throw { code := .unsafeErr, message := "metadata verification cancelled" }
    let out' ← verifyGroup d ctx g out
    verifyGroups cancel d ctx n (g + 1) out'

/-- `verify_metadata(dev, scan_inodes = false)`。`cancel g` は group `g` の手前での中断要求である。 -/
def verifyMetadata (cancel : Nat → Bool) (d : Disk) : Result MetadataIntegrityReport := do
  let raw ← readRawSuperblock d
  let _ ← readSuperblock d
  let ctx ← loadMetadataContext d
  let out ← verifyGroups cancel d ctx ctx.sb.groupsCount 0 {
    allocatedBlocks := 0
    allocatedInodes := 0
    errors := if verifySuperblockChecksum raw then [] else ["superblock checksum mismatch"] }
  return { out with
    errors := out.errors
      ++ (if out.allocatedBlocks = ctx.sb.blocksCount - ctx.sb.freeBlocks then []
          else ["superblock free-block count disagrees with allocation bitmaps"])
      ++ (if ctx.sb.inodesCount - ctx.sb.freeInodes = out.allocatedInodes then []
          else ["superblock free-inode count disagrees with inode bitmaps"]) }

end Fsx.Ext4
