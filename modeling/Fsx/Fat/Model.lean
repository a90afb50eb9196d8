import Fsx.Io.Disk

/-!
# FAT12 / FAT16 / FAT32（`src/fs/fat.cpp`）

boot sector の解釈、割り当て表の窓（`FatStream`）、検査（`check`）。

`FatStream` は、表の 4 MiB ごとの区切りから始まる窓を一つだけ持つ。FAT12 の entry は
1.5 byte なので、sector や窓の境界をまたぐことがある。窓が区切りより 8 byte 長いのはそのためである。

device と buffer のどこに触れたかを `touched` に残す。値の計算には使わない。
-/

namespace Fsx.Fat

inductive Kind where
  | fat12 | fat16 | fat32
  deriving DecidableEq

structure Volume where
  kind : Kind
  bytesPerSector : Nat
  sectorsPerCluster : Nat
  reservedSectors : Nat
  fatCount : Nat
  sectorsPerFat : Nat
  totalSectors : Nat
  rootDirSectors : Nat
  firstDataSector : Nat
  dataSectors : Nat
  clusterCount : Nat
  rootCluster : Nat
  media : Nat
  serial : Nat
  label : Bytes
  deriving DecidableEq

def Volume.sizeBytes (v : Volume) : Nat := v.totalSectors * v.bytesPerSector

/-! ## boot sector -/

def power2 (v : Nat) : Bool := v != 0 && v &&& (v - 1) == 0

/-- `trim_field`。NUL までを取り、末尾の空白を落とす。 -/
def trimField (s : Bytes) : Bytes :=
  ((s.takeWhile (· != 0)).reverse.dropWhile fun c => c == 0x20 || c == 0).reverse

/-- `boot_sector`。 -/
def bootSector (d : Disk) : Result Bytes := do
  if d.sizeBytes < 512 then
    throw { code := .unsupported, message := "device is too small for a FAT boot sector" }
  d.readExact 0 512

def kindOf (clusterCount : Nat) : Kind :=
  if clusterCount < 4085 then .fat12 else if clusterCount < 65525 then .fat16 else .fat32

/-- 表の entry 一つの bit 数。 -/
def Kind.entryBits : Kind → Nat
  | .fat12 => 12
  | .fat16 => 16
  | .fat32 => 32

/-- 種別の後の検査。FAT32 だけが root cluster を持つ。root cluster・serial・label を返す。 -/
def parseTail (b : Bytes) (kind : Kind) (clusterCount : Nat) : Result (Nat × Nat × Bytes) :=
  if kind = .fat32 then do
    if readLe 2 b 17 ≠ 0 ∨ readLe 2 b 22 ≠ 0 then
      throw { code := .corrupt, message := "FAT32 has incompatible FAT12/16 geometry fields" }
    let root := readLe 4 b 44
    if root < 2 ∨ root ≥ clusterCount + 2 then
      throw { code := .corrupt, message := "invalid FAT32 root cluster" }
    return (root, readLe 4 b 67, trimField (slice b 71 11))
  else do
    if readLe 2 b 17 = 0 then
      throw { code := .corrupt, message := "FAT12/16 root directory entry count is zero" }
    return (0, readLe 4 b 39, trimField (slice b 43 11))

/-- `parse_volume`。32 bit の計算はどれも検査の後にあり、あふれない。 -/
def parseVolume (d : Disk) (b : Bytes) : Result Volume := do
  if readLe 1 b 510 ≠ 0x55 ∨ readLe 1 b 511 ≠ 0xaa then
    throw { code := .unsupported, message := "FAT boot signature is absent" }
  let bytesPerSector := readLe 2 b 11
  let sectorsPerCluster := readLe 1 b 13
  let reservedSectors := readLe 2 b 14
  let fatCount := readLe 1 b 16
  let rootEntries := readLe 2 b 17
  let total16 := readLe 2 b 19
  let fat16 := readLe 2 b 22
  if ¬ power2 bytesPerSector ∨ bytesPerSector < 512 ∨ bytesPerSector > 4096 then
    throw { code := .corrupt, message := "invalid FAT bytes-per-sector" }
  if ¬ power2 sectorsPerCluster ∨ sectorsPerCluster > 128 then
    throw { code := .corrupt, message := "invalid FAT sectors-per-cluster" }
  if reservedSectors = 0 ∨ fatCount = 0 ∨ fatCount > 4 then
    throw { code := .corrupt, message := "invalid FAT reserved/FAT count geometry" }
  let totalSectors := if total16 ≠ 0 then total16 else readLe 4 b 32
  let sectorsPerFat := if fat16 ≠ 0 then fat16 else readLe 4 b 36
  if totalSectors = 0 ∨ sectorsPerFat = 0 then
    throw { code := .corrupt, message := "invalid FAT size fields" }
  let rootDirSectors := (rootEntries * 32 + (bytesPerSector - 1)) / bytesPerSector
  let firstData := reservedSectors + fatCount * sectorsPerFat + rootDirSectors
  if firstData ≥ totalSectors then
    throw { code := .corrupt, message := "FAT metadata consumes the whole volume" }
  let dataSectors := totalSectors - firstData
  let clusterCount := dataSectors / sectorsPerCluster
  let kind := kindOf clusterCount
  if kind = .fat32 ∧ clusterCount > 0x0ffffff5 then
    throw { code := .corrupt, message := "FAT32 cluster count exceeds representable data clusters" }
  let (rootCluster, serial, label) ← parseTail b kind clusterCount
  if totalSectors * bytesPerSector > d.sizeBytes then
    throw { code := .corrupt, message := "FAT volume is larger than containing device" }
  if sectorsPerFat * bytesPerSector * 8 / kind.entryBits < clusterCount + 2 then
    throw { code := .corrupt, message := "FAT table is too small for cluster count" }
  return {
    kind, bytesPerSector, sectorsPerCluster, reservedSectors, fatCount, sectorsPerFat, totalSectors,
    rootDirSectors, firstDataSector := firstData, dataSectors, clusterCount, rootCluster,
    media := readLe 1 b 21, serial, label }

def readVolume (d : Disk) : Result Volume := do
  let b ← bootSector d
  parseVolume d b

/-! ## 割り当て表の窓 -/

/-- 触れた範囲。 -/
inductive Touch where
  | device (off len : Nat)
  | buffer (i len : Nat)

structure FatStream where
  base : Nat
  bytes : Nat
  kind : Kind
  buffer : Bytes
  windowOff : Nat
  windowValid : Nat
  touched : List Touch

/-- 窓の区切り。 -/
def windowChunk : Nat := 4 * 1024 * 1024

/-- buffer の長さ。 -/
def windowBytes : Nat := windowChunk + 8

/-- entry の位置。 -/
def Kind.entryOff : Kind → Nat → Nat
  | .fat12, cluster => cluster + cluster / 2
  | .fat16, cluster => cluster * 2
  | .fat32, cluster => cluster * 4

/-- entry を読むのに要る byte 数。 -/
def Kind.need : Kind → Nat
  | .fat32 => 4
  | _ => 2

namespace FatStream

/-- まだ何も読んでいない窓。 -/
def create (base bytes : Nat) (kind : Kind) : FatStream where
  base := base
  bytes := bytes
  kind := kind
  buffer := zeros windowBytes
  windowOff := u64Max
  windowValid := 0
  touched := []

def touch (s : FatStream) (ts : List Touch) : FatStream := { s with touched := s.touched ++ ts }

/-- `off` を含む区切りに移した窓。中身はまだ前のままである。 -/
def moved (s : FatStream) (off : Nat) : FatStream :=
  { s with
    windowOff := off / windowChunk * windowChunk
    windowValid := min s.buffer.length (s.bytes - off / windowChunk * windowChunk) }

/-- 窓を `off` の区切りに移す。読めなくても、窓の位置は移っている。 -/
def slide (d : Disk) (off : Nat) : Proc FatStream Unit := do
  modify fun s => s.moved off
  modify fun s => s.touch [.buffer 0 s.windowValid, .device (s.base + s.windowOff) s.windowValid]
  let b ← Proc.reading fun s : FatStream => d.readExact (s.base + s.windowOff) s.windowValid
  modify fun s => { s with buffer := patch s.buffer 0 b }

/-- `buffer_[i]`。 -/
def byteAt (i : Nat) : Proc FatStream Nat := fun s =>
  (.ok (s.buffer.getD i 0).toNat, s.touch [.buffer i 1])

/-- 窓の `i` から entry を取り出す。 -/
def entryAt (kind : Kind) (cluster i : Nat) : Proc FatStream Nat :=
  match kind with
  | .fat12 => do
    let a ← byteAt i
    let b ← byteAt (i + 1)
    let pair := (a ||| (b <<< 8)) % 2 ^ 16
    return if cluster &&& 1 ≠ 0 then pair >>> 4 else pair &&& 0x0fff
  | .fat16 => do
    let a ← byteAt i
    let b ← byteAt (i + 1)
    return a ||| (b <<< 8)
  | .fat32 => do
    let a ← byteAt i
    let b ← byteAt (i + 1)
    let c ← byteAt (i + 2)
    let e ← byteAt (i + 3)
    return (a ||| (b <<< 8) ||| (c <<< 16) ||| (e <<< 24)) &&& 0x0fffffff

/-- `get`。 -/
def get (d : Disk) (cluster : Nat) : Proc FatStream Nat := do
  let s ← MonadState.get
  let off := s.kind.entryOff cluster
  let need := s.kind.need
  if off > s.bytes ∨ need > s.bytes - off then
    throw { code := .corrupt, message := "FAT entry table ended before advertised cluster count" }
  if ¬ (off ≥ s.windowOff ∧ off + need ≤ s.windowOff + s.windowValid) then slide d off
  let s ← MonadState.get
  entryAt s.kind cluster (off - s.windowOff)

end FatStream

/-! ## 検査 -/

structure CheckReport where
  clean : Bool := true
  fatBytesCompared : Nat := 0
  mirroredFatMismatches : Nat := 0
  invalidClusterEntries : Nat := 0
  warnings : List String := []
  errors : List String := []

/-- 中断要求。 -/
structure CheckHost where
  /-- cluster の entry を読む前 -/
  scanCancelled : Nat → Bool
  /-- 写しの chunk を比べる前 -/
  compareCancelled : Nat → Nat → Bool

namespace Volume

/-- はじめの表の位置。 -/
def fatBase (v : Volume) : Nat := v.reservedSectors * v.bytesPerSector

/-- 表一つの byte 数。 -/
def fatBytes (v : Volume) : Nat := v.sectorsPerFat * v.bytesPerSector

end Volume

def Kind.mask : Kind → Nat
  | .fat12 => 0x0fff
  | .fat16 => 0xffff
  | .fat32 => 0x0fffffff

/-- 壊れた cluster の印。 -/
def Kind.bad : Kind → Nat
  | .fat12 => 0x0ff7
  | .fat16 => 0xfff7
  | .fat32 => 0x0ffffff7

/-- 鎖の終わりの印のはじめ。 -/
def Kind.eoc : Kind → Nat
  | .fat12 => 0x0ff8
  | .fat16 => 0xfff8
  | .fat32 => 0x0ffffff8

/-- entry 一つの検査。 -/
def checkEntry (v : Volume) (e : Nat) (out : CheckReport) : CheckReport :=
  let val := e &&& v.kind.mask
  if val = 0 ∨ val = v.kind.bad ∨ val ≥ v.kind.eoc then out
  else if val < 2 ∨ val > v.clusterCount + 1 then
    { out with invalidClusterEntries := out.invalidClusterEntries + 1 }
  else out

/-- entry のループ。`c` 番から `n` 個を見る。 -/
def scanEntries (host : CheckHost) (d : Disk) (v : Volume) :
    Nat → Nat → FatStream → CheckReport → Result CheckReport
  | 0, _, _, out => .ok out
  | n + 1, c, s, out =>
    if host.scanCancelled c then .error { code := .unsafeErr, message := "FAT check cancelled" }
    else
      match Proc.run (FatStream.get d c) s with
      | (.error e, _) => .ok { out with errors := out.errors ++ [e.message] }
      | (.ok e, s) => scanEntries host d v n (c + 1) s (checkEntry v e out)

/-- 写しを比べる単位。 -/
def compareChunk : Nat := 4 * 1024 * 1024

/-- `copy` 番の写しを、はじめの表と比べるループ。 -/
def compareCopy (host : CheckHost) (d : Disk) (v : Volume) (copy : Nat) :
    Nat → Nat → CheckReport → Result CheckReport
  | 0, _, out => .ok out
  | fuel + 1, done, out =>
    if done < v.fatBytes then do
      if host.compareCancelled copy done then
        throw { code := .unsafeErr, message := "FAT check cancelled" }
      let n := min compareChunk (v.fatBytes - done)
      let a ← d.readExact (v.fatBase + done) n
      let b ← d.readExact (v.fatBase + copy * v.fatBytes + done) n
      compareCopy host d v copy fuel (done + n)
        { out with
          mirroredFatMismatches := out.mirroredFatMismatches + if a = b then 0 else 1
          fatBytesCompared := out.fatBytesCompared + n }
    else .ok out

/-- 残りの写しを順に比べる。chunk の数は `fatBytes / compareChunk + 1` を超えない。 -/
def compareCopies (host : CheckHost) (d : Disk) (v : Volume) :
    List Nat → CheckReport → Result CheckReport
  | [], out => .ok out
  | copy :: rest, out => do
    let out ← compareCopy host d v copy (v.fatBytes / compareChunk + 1) 0 out
    compareCopies host d v rest out

/-- 数えた結果を error にまとめる。 -/
def conclude (out : CheckReport) : CheckReport :=
  let errors := out.errors ++
    (if out.invalidClusterEntries ≠ 0 then
      [toString out.invalidClusterEntries ++ " FAT entries point outside the data cluster range"]
    else []) ++
    (if out.mirroredFatMismatches ≠ 0 then
      [toString out.mirroredFatMismatches ++ " FAT mirror chunks differ"] else [])
  { out with errors, clean := errors.isEmpty }

/-- `check`。 -/
def check (host : CheckHost) (d : Disk) : Result CheckReport := do
  let v ← readVolume d
  let out ← scanEntries host d v v.clusterCount 2 (.create v.fatBase v.fatBytes v.kind) {}
  let out ← compareCopies host d v (List.range' 1 (v.fatCount - 1)) out
  return conclude out

end Fsx.Fat
