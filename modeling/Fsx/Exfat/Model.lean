import Fsx.Io.Machine

/-!
# exFAT（`src/fs/exfat.cpp`）

boot sector の解釈（`parse`）、FAT の entry の読み出し（`readFatEntry`）、cluster の鎖の
読み出し（`readChain`）。位置・長さ・cluster 番号の計算と device の読み出しは `Machine` で行い、
すべて記録に残る。回転する checksum の計算は、切り詰めることが定義なので記録に残さない。buffer の
中を先頭から進むだけの添字（checksum と照合のループ）も、buffer の長さを超えないので残さない。

`parse` は、寸法の検査（`header`）、boot region の照合（`checkBoot`）、root directory の
はじめの cluster（`readRoot`）、root の FAT entry に分けて書く。
-/

namespace Fsx.Exfat

open Machine

/-- 何を読むか。 -/
inductive Region where
  | boot | root | fatEntry | cluster
  deriving DecidableEq

abbrev ExfatM := Machine Region

structure Volume where
  partitionOffset : Nat
  volumeLength : Nat
  fatOffset : Nat
  fatLength : Nat
  clusterHeapOffset : Nat
  clusterCount : Nat
  rootDirCluster : Nat
  serial : Nat
  revision : Nat
  flags : Nat
  bytesPerSector : Nat
  sectorsPerCluster : Nat
  fatCount : Nat
  percentInUse : Nat
  mainBootChecksumOk : Bool := false
  backupBootChecksumOk : Bool := false
  bootRegionsMatch : Bool := false
  allocationBitmapSeen : Bool := false
  upcaseTableSeen : Bool := false
  allocationBitmapCluster : Nat := 0
  allocationBitmapLength : Nat := 0
  upcaseCluster : Nat := 0
  upcaseLength : Nat := 0
  upcaseChecksum : Nat := 0
  rootFatEntry : Nat := 0
  label : Bytes := []
  deriving DecidableEq

/-- `size_bytes`。 -/
def Volume.sizeBytes (v : Volume) : ExfatM Nat :=
  if v.bytesPerSector = 0 ∨ v.volumeLength > u64Max / v.bytesPerSector then pure u64Max
  else mul 64 v.volumeLength v.bytesPerSector

/-! ## boot sector -/

/-- `kName`。 -/
def fsName : Bytes := [0x45, 0x58, 0x46, 0x41, 0x54, 0x20, 0x20, 0x20]

def isExfatName (b : Bytes) : Bool := decide (11 ≤ b.length) && slice b 3 8 == fsName

def geometryInvalid : Error := { code := .corrupt, message := "exFAT geometry is invalid" }

def shiftInvalid : Error :=
  { code := .corrupt, message := "exFAT sector/cluster shift is invalid" }

/-- 寸法の検査。 -/
def checkGeometry (d : Disk) (v : Volume) : ExfatM Unit := do
  if v.volumeLength = 0 ∨ v.fatOffset < 24 ∨ v.fatLength = 0 ∨
      v.clusterHeapOffset ≤ v.fatOffset ∨ v.clusterCount = 0 ∨ v.clusterCount > 0xfffffff5 ∨
      v.rootDirCluster < 2 then
    throw geometryInvalid
  -- 上の検査が先にあるので、次の和はあふれない
  let clusterEnd ← add 32 v.clusterCount 2
  if v.rootDirCluster ≥ clusterEnd ∨ v.fatCount = 0 ∨ v.fatCount > 2 then
    throw geometryInvalid
  if v.percentInUse > 100 ∧ v.percentInUse ≠ 0xff then
    throw { code := .corrupt, message := "exFAT percent-in-use field is invalid" }
  let size ← v.sizeBytes
  if size > d.sizeBytes then
    throw { code := .corrupt, message := "exFAT volume is larger than containing device" }
  let fats ← mul 64 v.fatLength v.fatCount
  let fatEnd ← add 64 v.fatOffset fats
  if fatEnd > v.clusterHeapOffset then
    throw { code := .corrupt, message := "exFAT FAT region overlaps cluster heap" }
  let fatBytes ← mul 64 v.fatLength v.bytesPerSector
  let entries ← add 64 v.clusterCount 2
  if fatBytes / 4 < entries then
    throw { code := .corrupt, message := "exFAT FAT is too small for advertised cluster count" }
  let heapSectors ← mul 64 v.clusterCount v.sectorsPerCluster
  let heapEnd ← add 64 v.clusterHeapOffset heapSectors
  if heapEnd > v.volumeLength then
    throw { code := .corrupt, message := "exFAT cluster heap exceeds volume length" }

/-- `parse` のうち、boot sector の欄を読むところ。 -/
def bootFields (f : Bytes) (bytesPerSector sectorsPerCluster : Nat) : Volume where
  bytesPerSector := bytesPerSector
  sectorsPerCluster := sectorsPerCluster
  partitionOffset := readLe 8 f 64
  volumeLength := readLe 8 f 72
  fatOffset := readLe 4 f 80
  fatLength := readLe 4 f 84
  clusterHeapOffset := readLe 4 f 88
  clusterCount := readLe 4 f 92
  rootDirCluster := readLe 4 f 96
  serial := readLe 4 f 100
  revision := readLe 2 f 104
  flags := readLe 2 f 106
  fatCount := readLe 1 f 110
  percentInUse := readLe 1 f 112

/-- `parse` のはじめ。 -/
def header (d : Disk) : ExfatM Volume := do
  if d.sizeBytes < 512 then
    throw { code := .unsupported, message := "device is too small for exFAT" }
  let f ← read d .boot 0 512
  if ¬ isExfatName f then throw { code := .unsupported, message := "not an exFAT volume" }
  if readLe 1 f 510 ≠ 0x55 ∨ readLe 1 f 511 ≠ 0xaa then
    throw { code := .corrupt, message := "exFAT boot signature is invalid" }
  let bpsShift := readLe 1 f 108
  let spcShift := readLe 1 f 109
  if bpsShift < 9 ∨ bpsShift > 12 ∨ spcShift > 25 then throw shiftInvalid
  let shift ← add 32 bpsShift spcShift
  if shift > 25 then throw shiftInvalid
  let bytesPerSector ← mul 32 1 (2 ^ bpsShift)
  let sectorsPerCluster ← mul 32 1 (2 ^ spcShift)
  let v := bootFields f bytesPerSector sectorsPerCluster
  checkGeometry d v
  return v

/-! ## boot region -/

/-- `read_boot_region`。 -/
def readBootRegion (d : Disk) (sectorBytes firstSector : Nat) : ExfatM Bytes := do
  let len ← mul 64 sectorBytes 12
  if len > u64Max then
    throw { code := .unsupported, message := "exFAT boot region is too large for this build" }
  let off ← mul 64 firstSector sectorBytes
  read d .boot off len

/-- 右に回して足す。 -/
def rotateAdd (sum : Nat) (b : UInt8) : Nat :=
  (((sum <<< 31) % 2 ^ 32 ||| sum >>> 1) + b.toNat) % 2 ^ 32

/-- checksum に入らない、書き換わる欄の位置。 -/
def mutableByte (i : Nat) : Bool := i == 106 || i == 107 || i == 112

/-- `boot_checksum`。 -/
def bootChecksum (data : Bytes) (sectorBytes : Nat) : ExfatM Nat := do
  let limit ← mul 64 sectorBytes 11
  return (data.take limit).zipIdx.foldl
    (fun sum x => if mutableByte x.2 then sum else rotateAdd sum x.1) 0

/-- `checksum_sector_matches`。 -/
def checksumSectorMatches (sector : Bytes) (expected : Nat) : Bool :=
  sector.length % 4 == 0 &&
    (List.range (sector.length / 4)).all fun i => readLe 4 sector (4 * i) == expected

/-- 二つの region が、書き換わる欄を除いて等しい。 -/
def regionsMatch (main backup : Bytes) (compareLen : Nat) : Bool :=
  ((main.zip backup).take compareLen).zipIdx.all fun x => mutableByte x.2 || x.1.1 == x.1.2

/-- `parse` の boot region の照合。 -/
def checkBoot (d : Disk) (v : Volume) : ExfatM Volume := do
  let main ← readBootRegion d v.bytesPerSector 0
  let backup ← readBootRegion d v.bytesPerSector 12
  let mainSum ← bootChecksum main v.bytesPerSector
  let backupSum ← bootChecksum backup v.bytesPerSector
  let mainOff ← mul 64 v.bytesPerSector 11
  let backupOff ← mul 64 v.bytesPerSector 11
  let compareLen ← mul 64 v.bytesPerSector 11
  return { v with
    mainBootChecksumOk := checksumSectorMatches (slice main mainOff v.bytesPerSector) mainSum
    backupBootChecksumOk :=
      checksumSectorMatches (slice backup backupOff v.bytesPerSector) backupSum
    bootRegionsMatch := regionsMatch main backup compareLen }

/-! ## root directory -/

/-- `utf16_ascii_label`。 -/
def utf16AsciiLabel (entry : Bytes) : Bytes :=
  if entry.length < 32 then []
  else
    let chars := (List.range (min 15 (readLe 1 entry 1))).map fun i => readLe 2 entry (2 + i * 2)
    (chars.takeWhile (· ≠ 0)).map fun ch =>
      if 0x20 ≤ ch ∧ ch ≤ 0x7e then UInt8.ofNat ch else 0x3f

/-- root directory の entry 一つ。 -/
def rootEntry (root : Bytes) (off type : Nat) (v : Volume) : ExfatM Volume :=
  if type = 0x83 then return { v with label := utf16AsciiLabel (slice root off 32) }
  else if type = 0x81 then do
    let clusterAt ← add 64 off 20
    let lengthAt ← add 64 off 24
    return { v with
      allocationBitmapSeen := true
      allocationBitmapCluster := readLe 4 root clusterAt
      allocationBitmapLength := readLe 8 root lengthAt }
  else if type = 0x82 then do
    let checksumAt ← add 64 off 4
    let clusterAt ← add 64 off 20
    let lengthAt ← add 64 off 24
    return { v with
      upcaseTableSeen := true
      upcaseChecksum := readLe 4 root checksumAt
      upcaseCluster := readLe 4 root clusterAt
      upcaseLength := readLe 8 root lengthAt }
  else return v

/-- root directory のループ。 -/
def rootLoop (root : Bytes) : Nat → Nat → Volume → ExfatM Volume
  | 0, _, v => return v
  | fuel + 1, off, v => do
    let entryEnd ← add 64 off 32
    if entryEnd ≤ root.length then
      let type := readLe 1 root off
      if type = 0 then return v
      else
        let v ← rootEntry root off type v
        let next ← add 64 off 32
        rootLoop root fuel next v
    else return v

/-- cluster のはじめの sector。 -/
def clusterSector (v : Volume) (c : Nat) : ExfatM Nat := do
  let index ← sub 32 c 2
  let rel ← mul 64 index v.sectorsPerCluster
  add 64 v.clusterHeapOffset rel

/-- `parse` のうち、root directory のはじめの cluster を読むところ。読めなくても続ける。 -/
def readRoot (d : Disk) (v : Volume) : ExfatM Volume := do
  let clusterBytes ← mul 64 v.bytesPerSector v.sectorsPerCluster
  if clusterBytes ≤ 16 * 1024 * 1024 then
    let rootSector ← clusterSector v v.rootDirCluster
    let off ← mul 64 rootSector v.bytesPerSector
    let r ← attempt (read d .root off clusterBytes)
    match r with
    | .error _ => return v
    | .ok root => rootLoop root (root.length / 32 + 1) 0 v
  else return v

/-! ## FAT -/

/-- `read_fat_entry`。 -/
def readFatEntry (d : Disk) (v : Volume) (cluster : Nat) : ExfatM Nat := do
  let clusterEnd ← add 32 v.clusterCount 2
  if cluster ≥ clusterEnd then
    throw { code := .corrupt, message := "exFAT cluster index exceeds FAT range" }
  let fatBase ← mul 64 v.fatOffset v.bytesPerSector
  let rel ← mul 64 cluster 4
  let off ← add 64 fatBase rel
  let b ← read d .fatEntry off 4
  return readLe 4 b 0

/-- `parse`。 -/
def parse (d : Disk) : ExfatM Volume := do
  let v ← header d
  let v ← checkBoot d v
  let v ← readRoot d v
  let r ← attempt (readFatEntry d v v.rootDirCluster)
  match r with
  | .error _ => return v
  | .ok e => return { v with rootFatEntry := e }

def readVolume (d : Disk) : ExfatM Volume := parse d

/-! ## cluster の鎖 -/

/-- ループが決められた回数で終わらなかったことを表す。source にはない失敗である。 -/
def unfinished : Error := { code := .internal, message := "exFAT chain loop has not ended" }

/-- ループのはじめの検査。 -/
def checkCluster (v : Volume) (c : Nat) (seen : List Nat) : ExfatM Unit := do
  if c < 2 then
    throw { code := .corrupt, message := "exFAT system stream cluster lies outside heap" }
  let clusterEnd ← add 32 v.clusterCount 2
  if c ≥ clusterEnd then
    throw { code := .corrupt, message := "exFAT system stream cluster lies outside heap" }
  if c ∈ seen then
    throw { code := .corrupt, message := "exFAT system stream FAT chain contains a loop" }

/-- 次の cluster。終わりの印と壊れた印は断る。 -/
def nextCluster (d : Disk) (v : Volume) (c : Nat) : ExfatM Nat := do
  let next ← readFatEntry d v c
  if next ≥ 0xfffffff8 then
    throw { code := .corrupt
            message := "exFAT system stream FAT chain ended before advertised length" }
  if next = 0xfffffff7 ∨ next = 0 then
    throw { code := .corrupt, message := "exFAT system stream FAT chain contains invalid cluster" }
  return next

/-- `read_chain` のループ。 -/
def chainLoop (d : Disk) (v : Volume) (clusterBytes length : Nat) :
    Nat → Nat → Nat → List Nat → Bytes → ExfatM Bytes
  | 0, _, _, _, _ => throw unfinished
  | fuel + 1, copied, c, seen, out =>
    if copied < length then do
      checkCluster v c seen
      let sector ← clusterSector v c
      let left ← sub 64 length copied
      let n := min clusterBytes left
      let off ← mul 64 sector v.bytesPerSector
      let b ← read d .cluster off n
      let done ← add 64 copied n
      if done ≥ length then return patch out copied b
      else
        let next ← nextCluster d v c
        chainLoop d v clusterBytes length fuel done next (seen ++ [c]) (patch out copied b)
    else return out

/-- `read_chain`。一周ごとに少なくとも 1 byte 進むので、`length + 1` 周で終わる。 -/
def readChain (d : Disk) (v : Volume) (first length limit : Nat) : ExfatM Bytes := do
  if length > limit then
    throw { code := .unsupported, message := "exFAT system stream exceeds validation safety limit" }
  let clusterBytes ← mul 64 v.bytesPerSector v.sectorsPerCluster
  if clusterBytes = 0 ∨ length > u64Max then
    throw { code := .unsupported, message := "exFAT stream is too large for address space" }
  chainLoop d v clusterBytes length (length + 1) 0 first [] (zeros length)

end Fsx.Exfat
