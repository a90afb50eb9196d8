import Fsx.Core.Crc
import Fsx.Core.Words
import Fsx.Io.Disk

/-!
# XFS の検査（`src/fs/xfs.cpp`）

どの allocation group（AG）も superblock の写しで始まる。`check` は primary の寸法を確かめてから、
すべての写しを読み、寸法と UUID が primary と等しいことを確かめる。version 5 では CRC も照合する。
-/

namespace Fsx.Xfs

structure Superblock where
  blockSize : Nat
  dataBlocks : Nat
  uuid : Bytes
  agBlocks : Nat
  agCount : Nat
  logBlocks : Nat
  version : Nat
  sectorSize : Nat
  inodeSize : Nat
  inodesPerBlock : Nat
  label : Bytes
  deriving DecidableEq

structure CheckReport where
  clean : Bool := true
  warnings : List String := []
  errors : List String := []
  deriving DecidableEq

def pow2 (x : Nat) : Bool := x != 0 && x &&& (x - 1) == 0

/-- `err`。 -/
def CheckReport.err (r : CheckReport) (s : String) : CheckReport :=
  { r with clean := false, errors := r.errors ++ [s] }

/-- 条件 `bad` が成り立つときの `err`。 -/
def CheckReport.errIf (r : CheckReport) (bad : Prop) [Decidable bad] (s : String) : CheckReport :=
  if bad then r.err s else r

/-! ## 写しの解釈 -/

/-- `read_sb_raw`。 -/
def readSbRaw (d : Disk) (off : Nat) : Result Bytes :=
  if off > d.sizeBytes ∨ 512 > d.sizeBytes - off then
    .error { code := .corrupt, message := "XFS allocation-group superblock lies outside device" }
  else d.readExact off 512

/-- `"XFSB"`。 -/
def magic : Bytes := [0x58, 0x46, 0x53, 0x42]

/-- `parse_raw` が欄を取り出すところ。 -/
def fields (b : Bytes) : Superblock where
  blockSize := readBe 4 b 4
  dataBlocks := readBe 8 b 8
  uuid := slice b 32 16
  agBlocks := readBe 4 b 84
  agCount := readBe 4 b 88
  logBlocks := readBe 4 b 96
  version := readBe 2 b 100
  sectorSize := readBe 2 b 102
  inodeSize := readBe 2 b 104
  inodesPerBlock := readBe 2 b 106
  label := (slice b 108 12).takeWhile (· != 0)

/-- `parse_raw`。 -/
def parseRaw (b : Bytes) : Result Superblock :=
  if b.length < 512 then .error { code := .corrupt, message := "short XFS superblock" }
  else if slice b 0 4 ≠ magic then
    .error { code := .unsupported, message := "not an XFS filesystem" }
  else .ok (fields b)

/-- CRC の欄の番地。 -/
def crcOff : Nat := 224

/-- 欄を 0 にして計算した CRC。 -/
def sectorCrc (b : Bytes) : Nat := (crc32cFinal (patch b crcOff (zeros 4))).toNat

/-- `verify_v5_crc` の、写しを読む範囲の条件。 -/
def sectorOutside (d : Disk) (off : Nat) (s : Superblock) : Bool :=
  decide (s.sectorSize < 512 ∨ s.sectorSize > 32768 ∨ off > d.sizeBytes ∨
    s.sectorSize > d.sizeBytes - off)

/-- `verify_v5_crc`。 -/
def verifyV5Crc (d : Disk) (off : Nat) (s : Superblock) : Bool :=
  if s.version % 16 ≠ 5 then true
  else if sectorOutside d off s then false
  else
    match d.readExact off s.sectorSize with
    | .error _ => false
    | .ok b =>
      if b.length < crcOff + 4 then false else decide (readLe 4 b crcOff = sectorCrc b)

/-- `read_superblock`。 -/
def readSuperblock (d : Disk) : Result Superblock := do
  if d.sizeBytes < 512 then throw { code := .unsupported, message := "device is too small for XFS" }
  let b ← readSbRaw d 0
  parseRaw b

/-! ## `check` -/

/-- data block の数の検査。 -/
def checkData (d : Disk) (s : Superblock) (r : CheckReport) : CheckReport :=
  if s.dataBlocks = 0 then r.err "XFS data block count is zero"
  else r.errIf (s.blockSize ≠ 0 ∧ s.dataBlocks > d.sizeBytes / s.blockSize)
    "XFS data geometry exceeds containing device"

/-- 64 bit の引き算。 -/
def u64Sub (a b : Nat) : Nat := (a + 2 ^ 64 - b) % 2 ^ 64

/-- AG の寸法の検査。`last_blocks` の引き算は回り込むことがある。 -/
def checkGroups (s : Superblock) (r : CheckReport) : CheckReport :=
  if s.agBlocks = 0 ∨ s.agCount = 0 then r.err "XFS allocation-group geometry is zero"
  else
    let fullBeforeLast := s.agBlocks * (s.agCount - 1)
    let lastBlocks := u64Sub s.dataBlocks fullBeforeLast
    (r.errIf (fullBeforeLast ≥ s.dataBlocks)
      "XFS allocation-group geometry exceeds data blocks").errIf
        (lastBlocks = 0 ∨ lastBlocks > s.agBlocks) "XFS final allocation-group size is invalid"

/-- `check` の、primary だけを見る部分。 -/
def checkPrimary (d : Disk) (s : Superblock) : CheckReport :=
  let r : CheckReport := {}
  let r := r.errIf (pow2 s.blockSize = false ∨ s.blockSize < 512 ∨ s.blockSize > 65536)
    "invalid XFS block size"
  let r := r.errIf (pow2 s.sectorSize = false ∨ s.sectorSize < 512 ∨ s.sectorSize > s.blockSize)
    "invalid XFS sector size"
  let r := checkGroups s (checkData d s r)
  let r := r.errIf (pow2 s.inodeSize = false ∨ s.inodeSize < 256 ∨ s.inodeSize > s.blockSize)
    "invalid XFS inode size"
  let r := r.errIf (s.inodeSize ≠ 0 ∧ s.blockSize / s.inodeSize ≠ s.inodesPerBlock)
    "XFS inodes-per-block does not match block/inode size"
  let v := s.version % 16
  let r := if v < 4 ∨ v > 5 then
    { r with warnings := r.warnings ++
        ["XFS superblock version is outside the modern v4/v5 range"] } else r
  r.errIf (v = 5 ∧ verifyV5Crc d 0 s = false) "XFS primary superblock CRC32C is invalid"

/-- 写し `o` と primary `s` の比較。 -/
def compareCopy (d : Disk) (s : Superblock) (off ag : Nat) (o : Superblock) (r : CheckReport) :
    CheckReport :=
  let r := r.errIf (o.blockSize ≠ s.blockSize ∨ o.dataBlocks ≠ s.dataBlocks ∨
      o.agBlocks ≠ s.agBlocks ∨ o.agCount ≠ s.agCount ∨ o.sectorSize ≠ s.sectorSize ∨
      o.inodeSize ≠ s.inodeSize)
    ("XFS secondary superblock geometry disagrees in AG " ++ toString ag)
  let r := r.errIf (o.uuid ≠ s.uuid)
    ("XFS secondary superblock UUID disagrees in AG " ++ toString ag)
  r.errIf (s.version % 16 = 5 ∧ verifyV5Crc d off o = false)
    ("XFS secondary superblock CRC32C is invalid in AG " ++ toString ag)

/-- 写しについてのループ。読めない写しで打ち切り、解釈できない写しは数えて次に進む。 -/
def checkCopies (d : Disk) (s : Superblock) : Nat → Nat → CheckReport → CheckReport
  | 0, _, r => r
  | n + 1, ag, r =>
    let agBlock := ag * s.agBlocks
    if agBlock > u64Max / s.blockSize then r.err "XFS allocation-group offset overflows"
    else
      let off := agBlock * s.blockSize
      match readSbRaw d off with
      | .error _ => r.err ("cannot read XFS secondary superblock for AG " ++ toString ag)
      | .ok raw =>
        match parseRaw raw with
        | .error _ => checkCopies d s n (ag + 1)
            (r.err ("invalid XFS secondary superblock for AG " ++ toString ag))
        | .ok o => checkCopies d s n (ag + 1) (compareCopy d s off ag o r)

/-- `check`。 -/
def check (d : Disk) : Result CheckReport := do
  let s ← readSuperblock d
  let r := checkPrimary d s
  if r.clean = false then return r
  if s.agCount > 1000000 then return r.err "XFS allocation-group count is unreasonable"
  let r := checkCopies d s (s.agCount - 1) 1 r
  return { r with clean := r.errors.isEmpty }

end Fsx.Xfs
