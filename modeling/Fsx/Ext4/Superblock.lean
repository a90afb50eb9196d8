import Fsx.Core.Crc
import Fsx.Io.Disk
import Fsx.Journal.Format

/-!
# superblock（`src/ext4/ext4.cpp`・`src/ext4/metadata.cpp`・`src/core/uuid.cpp`）

`read_superblock` と、superblock の生の byte 列の読み書き、checksum の検査と更新。

番号や個数は `Nat` で持つ。`read_superblock` が通れば `blocks_count` は device の大きさを
block で割った値以下なので、block 番号に block size を掛けても 64 bit を溢れない。
-/

namespace Fsx

/-! ## UUID の文字列 -/

/-- `"0123456789abcdef"[n]`。 -/
def hexDigit (n : Nat) : Char :=
  ['0', '1', '2', '3', '4', '5', '6', '7', '8', '9', 'a', 'b', 'c', 'd', 'e', 'f'].getD n '0'

/-- `hex`。16 進の桁でなければ `none`。 -/
def hexValue (c : Char) : Option Nat :=
  if '0' ≤ c ∧ c ≤ '9' then some (c.toNat - '0'.toNat)
  else if 'a' ≤ c ∧ c ≤ 'f' then some (c.toNat - 'a'.toNat + 10)
  else if 'A' ≤ c ∧ c ≤ 'F' then some (c.toNat - 'A'.toNat + 10)
  else none

/-- `parse_uuid` のループ。`high` は組の上位の桁である。 -/
def parseUuidLoop : List Char → Bytes → Option Nat → Result (Bytes × Option Nat)
  | [], out, high => .ok (out, high)
  | c :: cs, out, high =>
    if c = '-' then parseUuidLoop cs out high
    else
      match hexValue c, high with
      | none, _ => .error { code := .invalidArgument, message := "invalid UUID" }
      | some v, none => parseUuidLoop cs out (some v)
      | some v, some h =>
        if out.length ≥ 16 then
          .error { code := .invalidArgument, message := "UUID is too long" }
        else parseUuidLoop cs (out ++ [UInt8.ofNat (h * 16 + v)]) none

/-- `parse_uuid`。 -/
def parseUuid (s : List Char) : Result Uuid := do
  let (out, high) ← parseUuidLoop s [] none
  if out.length ≠ 16 ∨ high.isSome then
    throw { code := .invalidArgument, message := "UUID must contain 16 bytes" }
  return Uuid.ofBytes out

namespace Ext4

/-- `uuid_string` のループ。`i` は byte の番号である。 -/
def uuidStringFrom : Nat → Bytes → List Char
  | _, [] => []
  | i, b :: bs =>
    (if i = 4 ∨ i = 6 ∨ i = 8 ∨ i = 10 then ['-'] else [])
      ++ hexDigit (b.toNat / 16) :: hexDigit (b.toNat % 16) :: uuidStringFrom (i + 1) bs

/-- `uuid_string`。 -/
def uuidString (b : Bytes) : List Char := uuidStringFrom 0 (b.take 16)

/-! ## superblock の欄 -/

def extMagic : Nat := 0xEF53
def incompatRecover : Nat := 0x04
def incompatMetaBg : Nat := 0x10
def incompat64bit : Nat := 0x80
def incompatCsumSeed : Nat := 0x2000
def roCompatGdtCsum : Nat := 0x0010
def roCompatBigalloc : Nat := 0x200
def roCompatMetadataCsum : Nat := 0x400

structure Superblock where
  inodesCount : Nat
  blocksCount : Nat
  reservedBlocks : Nat
  freeBlocks : Nat
  freeInodes : Nat
  firstDataBlock : Nat
  logBlockSize : Nat
  blocksPerGroup : Nat
  inodesPerGroup : Nat
  state : Nat
  inodeSize : Nat
  featureIncompat : Nat
  featureRoCompat : Nat
  descSize : Nat
  magic : Nat
  uuid : List Char
  deriving DecidableEq

namespace Superblock

/-- `block_size()`。 -/
def blockSize (sb : Superblock) : Nat :=
  if sb.logBlockSize ≤ 6 then 1024 <<< sb.logBlockSize else 0

/-- `size_bytes()`。 -/
def sizeBytes (sb : Superblock) : Nat :=
  if sb.blockSize = 0 ∨ sb.blocksCount > u64Max / sb.blockSize then u64Max
  else sb.blocksCount * sb.blockSize

/-- `groups_count()`。 -/
def groupsCount (sb : Superblock) : Nat :=
  let dataBlocks := sb.blocksCount - sb.firstDataBlock
  if sb.blocksPerGroup = 0 then 0
  else dataBlocks / sb.blocksPerGroup + (if dataBlocks % sb.blocksPerGroup ≠ 0 then 1 else 0)

/-- feature の bit が立っているか。 -/
def hasIncompat (sb : Superblock) (bit : Nat) : Bool := sb.featureIncompat &&& bit ≠ 0

def hasRoCompat (sb : Superblock) (bit : Nat) : Bool := sb.featureRoCompat &&& bit ≠ 0

/-- descriptor の大きさ。`desc_size >= 32 ? desc_size : 32`。 -/
def descBytes (sb : Superblock) : Nat := if sb.descSize ≥ 32 then sb.descSize else 32

end Superblock

/-- 下位と上位に分けて置かれた値。上位は `64bit` のときだけ読む。 -/
def readLoHi (b : Bytes) (wide : Bool) (lo hi : Nat) : Nat :=
  readLe 4 b lo ||| (if wide then readLe 4 b hi <<< 32 else 0)

/-- `read_superblock` が欄を取り出すところ。 -/
def decodeSuperblock (b : Bytes) : Superblock :=
  let wide := readLe 4 b 0x60 &&& incompat64bit ≠ 0
  { inodesCount := readLe 4 b 0x00
    blocksCount := readLoHi b wide 0x04 0x150
    reservedBlocks := readLoHi b wide 0x08 0x154
    freeBlocks := readLoHi b wide 0x0c 0x158
    freeInodes := readLe 4 b 0x10
    firstDataBlock := readLe 4 b 0x14
    logBlockSize := readLe 4 b 0x18
    blocksPerGroup := readLe 4 b 0x20
    inodesPerGroup := readLe 4 b 0x28
    state := readLe 2 b 0x3a
    inodeSize := readLe 2 b 0x58
    featureIncompat := readLe 4 b 0x60
    featureRoCompat := readLe 4 b 0x64
    descSize := readLe 2 b 0xfe
    magic := readLe 2 b 0x38
    uuid := uuidString (slice b 0x68 16) }

/-- `read_superblock` の検査。 -/
def checkSuperblock (devBytes : Nat) (s : Superblock) : Result Unit := do
  if s.magic ≠ extMagic then
    throw { code := .unsupported, message := "not an ext2/3/4 filesystem" }
  let bs := s.blockSize
  if bs < 1024 ∨ bs > 65536 ∨ bs &&& (bs - 1) ≠ 0 then
    throw { code := .corrupt, message := "invalid ext block size" }
  if s.blocksPerGroup = 0 ∨ s.inodesPerGroup = 0 ∨ s.blocksCount = 0 ∨ s.inodesCount = 0 then
    throw { code := .corrupt, message := "invalid ext geometry" }
  if s.firstDataBlock ≥ s.blocksCount then
    throw { code := .corrupt, message := "ext first data block is outside filesystem" }
  if s.blocksPerGroup > bs * 8 ∨ s.inodesPerGroup > bs * 8 then
    throw { code := .corrupt, message := "ext group geometry exceeds one-block bitmap capacity" }
  if s.inodeSize < 128 ∨ s.inodeSize > bs ∨ s.inodeSize &&& (s.inodeSize - 1) ≠ 0 then
    throw { code := .corrupt, message := "invalid ext inode size" }
  if s.freeBlocks > s.blocksCount ∨ s.freeInodes > s.inodesCount
      ∨ s.reservedBlocks > s.blocksCount then
    throw { code := .corrupt, message := "ext free/reserved counters exceed filesystem geometry" }
  if s.hasIncompat incompat64bit ∧ (s.descBytes < 64 ∨ s.descBytes > bs ∨ s.descBytes &&& 7 ≠ 0) then
    throw { code := .corrupt, message := "invalid 64-bit ext group descriptor size" }
  if ¬ s.hasIncompat incompat64bit ∧ s.descSize ≠ 0
      ∧ (s.descSize < 32 ∨ s.descSize > bs ∨ s.descSize &&& 7 ≠ 0) then
    throw { code := .corrupt, message := "invalid ext group descriptor size" }
  if s.groupsCount = 0 then
    throw { code := .corrupt, message := "ext filesystem has zero block groups" }
  let inodeGroups := s.inodesCount / s.inodesPerGroup
    + (if s.inodesCount % s.inodesPerGroup ≠ 0 then 1 else 0)
  if inodeGroups > s.groupsCount then
    throw { code := .corrupt
            message := "ext inode geometry requires more groups than block geometry provides" }
  if devBytes ≠ 0 ∧ s.blocksCount > devBytes / bs then
    throw { code := .corrupt, message := "filesystem is larger than containing device" }

/-- `read_superblock`。 -/
def readSuperblock (d : Disk) : Result Superblock := do
  let b ← d.readExact 1024 1024
  let s := decodeSuperblock b
  checkSuperblock d.sizeBytes s
  return s

/-! ## 生の superblock と checksum -/

/-- `read_raw_superblock`。 -/
def readRawSuperblock (d : Disk) : Result Bytes := d.readExact 1024 1024

/-- `verify_superblock_checksum`。 -/
def verifySuperblockChecksum (raw : Bytes) : Bool :=
  if raw.length < 1024 then false
  else if readLe 4 raw 0x64 &&& roCompatMetadataCsum = 0 then true
  else readLe 4 raw 0x3fc = (crc32c (raw.take 0x3fc) crcInit).toNat

/-- `update_superblock_checksum`。 -/
def updateSuperblockChecksum (raw : Bytes) : Result Bytes :=
  if raw.length < 1024 then
    .error { code := .invalidArgument, message := "superblock buffer is too small" }
  else if readLe 4 raw 0x64 &&& roCompatMetadataCsum = 0 then .ok raw
  else .ok (writeLe 4 raw 0x3fc (crc32c (raw.take 0x3fc) crcInit).toNat)

/-- `metadata_seed`。 -/
def metadataSeed (raw : Bytes) : UInt32 :=
  if readLe 4 raw 0x60 &&& incompatCsumSeed ≠ 0 then UInt32.ofNat (readLe 4 raw 0x270)
  else crc32c (slice raw 0x68 16) crcInit

structure MetadataContext where
  sb : Superblock
  uuid : Bytes
  checksumSeed : UInt32
  metadataCsum : Bool
  gdtCsum : Bool
  deriving DecidableEq

/-- `load_metadata_context`。`tolerate_bad_superblock_checksum` は既定の `false` である。 -/
def loadMetadataContext (d : Disk) : Result MetadataContext := do
  let sb ← readSuperblock d
  let raw ← readRawSuperblock d
  let metadataCsum := sb.hasRoCompat roCompatMetadataCsum
  if metadataCsum ∧ ¬ verifySuperblockChecksum raw then
    throw { code := .corrupt, message := "ext4 superblock checksum mismatch" }
  return {
    sb
    uuid := slice raw 0x68 16
    checksumSeed := metadataSeed raw
    metadataCsum
    gdtCsum := sb.hasRoCompat roCompatGdtCsum || metadataCsum }

end Ext4

end Fsx
