import Fsx.Core.Crc
import Fsx.Io.Disk

/-!
# GPT（`src/partition/gpt.cpp`）

GPT は二つの写しを持つ。primary は LBA 1 の header と entry array、backup は最後の LBA の
header と entry array である。読む側は両方を読んで食い違いを調べ、書く側は backup を先に書く。

値はすべて `uint64_t` / `uint32_t` だが、検査を通った後は桁あふれしないものを `Nat` で持つ。
あふれうる箇所（`last - sectors` など）には `u64` を書く。

`require_disk_offline_for_write` などの host の答えは `WriteHost` で外から与える。
-/

namespace Fsx

/-- 書き込みの前に host が返す答え。 -/
structure WriteHost where
  /-- `require_disk_offline_for_write` -/
  offline : Result Unit
  /-- `inspect_device_safety` の `block_device` -/
  blockDevice : Result Bool
  /-- `ioctl(BLKRRPART)` が成功するか -/
  reread : Bool

namespace Gpt

/-- `"EFI PART"`。 -/
def SIG : Bytes := [0x45, 0x46, 0x49, 0x20, 0x50, 0x41, 0x52, 0x54]

/-- 片側の写し。 -/
structure RawSide where
  signatureOk : Bool := false
  headerCrcOk : Bool := false
  entriesCrcOk : Bool := false
  lba : Nat := 0
  currentLba : Nat := 0
  backupLba : Nat := 0
  firstUsable : Nat := 0
  lastUsable : Nat := 0
  entriesLba : Nat := 0
  revision : Nat := 0
  headerSize : Nat := 0
  entryCount : Nat := 0
  entrySize : Nat := 0
  diskGuid : Bytes := []
  header : Bytes := []
  entries : Bytes := []
  deriving DecidableEq

structure Partition where
  index : Nat
  firstLba : Nat
  lastLba : Nat
  attributes : Nat
  typeGuid : Bytes
  uniqueGuid : Bytes
  name : List Char
  deriving DecidableEq

structure Table where
  primaryHeaderCrcOk : Bool := false
  entriesCrcOk : Bool := false
  backupHeaderCrcOk : Bool := false
  backupEntriesCrcOk : Bool := false
  protectiveMbrOk : Bool := false
  currentLba : Nat := 0
  backupLba : Nat := 0
  firstUsableLba : Nat := 0
  lastUsableLba : Nat := 0
  primaryEntriesLba : Nat := 0
  backupEntriesLba : Nat := 0
  headerSize : Nat := 0
  entrySize : Nat := 0
  entryCount : Nat := 0
  diskGuid : Bytes := []
  partitions : List Partition := []
  deriving DecidableEq

structure MutationOptions where
  allowBlockDevice : Bool := false
  rereadKernelTable : Bool := true

structure MutationReport where
  backupWritten : Bool := false
  primaryWritten : Bool := false
  verified : Bool := false
  kernelRereadRequested : Bool := false
  deriving DecidableEq

/-- `logical_sector ? logical_sector : 512U`。 -/
def sectorSize (d : Disk) : Nat := if d.logicalSector ≠ 0 then d.logicalSector else 512

def totalSectors (d : Disk) : Nat := d.sizeBytes / sectorSize d

/-- entry array の byte 数。 -/
def RawSide.arrayBytes (s : RawSide) : Nat := s.entryCount * s.entrySize

/-- entry array が占める sector 数。 -/
def RawSide.arraySectors (s : RawSide) (ss : Nat) : Nat := (s.arrayBytes + ss - 1) / ss

/-- 署名と二つの CRC が合っている。 -/
def RawSide.valid (s : RawSide) : Bool := s.signatureOk && s.headerCrcOk && s.entriesCrcOk

/-! ## entry -/

/-- `utf16le_name`。 -/
def utf16leName : Bytes → List Char
  | lo :: hi :: rest =>
    let c := lo.toNat + 256 * hi.toNat
    if c = 0 then []
    else (if c < 0x80 then Char.ofNat c else '?') :: utf16leName rest
  | _ => []

/-- `zero_guid`。 -/
def zeroGuid (g : Bytes) : Bool := g.all (· == 0)

/-- `i` 番目の entry。 -/
def RawSide.entry (s : RawSide) (i : Nat) : Bytes := slice s.entries (i * s.entrySize) s.entrySize

/-- entry が表す partition。`type_guid` が零なら空きである。 -/
def partitionOf (s : RawSide) (i : Nat) : Option Partition :=
  let ent := s.entry i
  if zeroGuid (slice ent 0 16) then none
  else some {
    index := i + 1
    firstLba := readLe 8 ent 32
    lastLba := readLe 8 ent 40
    attributes := readLe 8 ent 48
    typeGuid := slice ent 0 16
    uniqueGuid := slice ent 16 16
    name := utf16leName (slice ent 56 (min 72 (s.entrySize - 56))) }

/-- `table_from_side`。 -/
def tableFromSide (s : RawSide) (pmbr : Bool) : Table where
  currentLba := s.currentLba
  backupLba := s.backupLba
  firstUsableLba := s.firstUsable
  lastUsableLba := s.lastUsable
  headerSize := s.headerSize
  entryCount := s.entryCount
  entrySize := s.entrySize
  diskGuid := s.diskGuid
  protectiveMbrOk := pmbr
  partitions := (List.range s.entryCount).filterMap (partitionOf s)

/-- `validate_entries` の一つ目のループ。 -/
def entryRanges (s : RawSide) : List Nat → Result (List (Nat × Nat))
  | [] => .ok []
  | i :: is => do
    let ent := s.entry i
    if zeroGuid (slice ent 0 16) then entryRanges s is
    else
      let first := readLe 8 ent 32
      let last := readLe 8 ent 40
      if first > s.lastUsable ∨ last < s.firstUsable ∨ first > last then
        throw { code := .corrupt, message := "GPT partition lies outside usable LBA range" }
      let rest ← entryRanges s is
      return (first, last) :: rest

/-- 並べた範囲の隣どうしの重なりを調べる。 -/
def rangesOverlap : List (Nat × Nat) → Bool
  | a :: b :: rest => decide (b.1 ≤ a.2) || rangesOverlap (b :: rest)
  | _ => false

/-- `std::pair` の順序。 -/
def pairLe (a b : Nat × Nat) : Bool := decide (a.1 < b.1 ∨ a.1 = b.1 ∧ a.2 ≤ b.2)

/-- `validate_entries`。 -/
def validateEntries (s : RawSide) : Result Unit := do
  let ranges ← entryRanges s (List.range s.entryCount)
  if rangesOverlap (ranges.mergeSort pairLe) then
    throw { code := .corrupt, message := "GPT partitions overlap" }

/-- `sides_equal`。 -/
def sidesEqual (a b : RawSide) : Bool :=
  a.revision == b.revision && a.headerSize == b.headerSize
    && a.backupLba == b.currentLba && b.backupLba == a.currentLba
    && a.firstUsable == b.firstUsable && a.lastUsable == b.lastUsable
    && a.entryCount == b.entryCount && a.entrySize == b.entrySize
    && a.diskGuid == b.diskGuid && a.entries == b.entries

/-! ## 読む -/

/-- `validate_side_geometry`。 -/
def validateSideGeometry (s : RawSide) (total ss : Nat) : Result Unit := do
  if s.backupLba ≥ total ∨ s.backupLba = s.currentLba then
    throw { code := .corrupt, message := "GPT alternate-header LBA is invalid" }
  if s.firstUsable > s.lastUsable ∨ s.lastUsable ≥ total then
    throw { code := .corrupt, message := "GPT usable LBA range is invalid" }
  let arrFirst := s.entriesLba
  let arrLast := u64 (s.entriesLba + s.arraySectors ss - 1)
  if ¬ (arrLast < s.firstUsable ∨ arrFirst > s.lastUsable) then
    throw { code := .corrupt, message := "GPT entry array overlaps usable partition space" }
  if s.currentLba ≥ s.firstUsable ∧ s.currentLba ≤ s.lastUsable then
    throw { code := .corrupt, message := "GPT header overlaps usable partition space" }

/-- header の CRC。CRC の field は零として計算する。 -/
def headerCrc (header : Bytes) (headerSize : Nat) : Nat :=
  (crc32IeeeFinal ((writeLe 4 header 16 0).take headerSize)).toNat

/-- header の sector から field を取り出す。entry array はまだ読まない。 -/
def parseHeader (header : Bytes) (lba : Nat) : RawSide where
  signatureOk := true
  headerCrcOk := readLe 4 header 16 == headerCrc header (readLe 4 header 12)
  lba := lba
  currentLba := readLe 8 header 24
  backupLba := readLe 8 header 32
  firstUsable := readLe 8 header 40
  lastUsable := readLe 8 header 48
  entriesLba := readLe 8 header 72
  revision := readLe 4 header 8
  headerSize := readLe 4 header 12
  entryCount := readLe 4 header 80
  entrySize := readLe 4 header 84
  diskGuid := slice header 56 16
  header := header

theorem parseHeader_entriesLba (header : Bytes) (lba : Nat) :
    (parseHeader header lba).entriesLba = readLe 8 header 72 := rfl

theorem parseHeader_arrayBytes (header : Bytes) (lba : Nat) :
    (parseHeader header lba).arrayBytes = readLe 4 header 80 * readLe 4 header 84 := rfl

/-- entry array を読み込んだ側。 -/
def RawSide.withEntries (s : RawSide) (entries : Bytes) : RawSide :=
  { s with
    entries
    entriesCrcOk := (crc32IeeeFinal entries).toNat == readLe 4 s.header 88 }

/-- `read_side`。 -/
def readSide (d : Disk) (lba : Nat) : Result RawSide := do
  let ss := sectorSize d
  let total := totalSectors d
  if lba ≥ total then
    throw { code := .corrupt, message := "GPT header LBA is outside device" }
  let header ← d.readExact (lba * ss) ss
  if slice header 0 8 ≠ SIG then
    return { lba, header }
  let out := parseHeader header lba
  if out.headerSize < 92 ∨ out.headerSize > ss then
    throw { code := .corrupt, message := "invalid GPT header size" }
  if out.currentLba ≠ lba then
    throw { code := .corrupt
            message := "GPT header current-LBA field does not match its location" }
  if out.entrySize < 128 ∨ out.entrySize > 4096 ∨ out.entryCount = 0 ∨ out.entryCount > 16384 then
    throw { code := .corrupt, message := "unreasonable GPT entry geometry" }
  if out.arrayBytes > 64 * 1024 * 1024 then
    throw { code := .corrupt, message := "GPT entry array too large" }
  let sectors := out.arraySectors ss
  if out.entriesLba ≥ total ∨ sectors > total - out.entriesLba then
    throw { code := .corrupt, message := "GPT entry array lies outside device" }
  let entries ← d.readExact (out.entriesLba * ss) out.arrayBytes
  let out := out.withEntries entries
  validateSideGeometry out total ss
  return out

/-- `protective_mbr_ok`。 -/
def protectiveMbrOk (d : Disk) : Bool :=
  let ss := sectorSize d
  if ss < 512 then false
  else match d.readExact 0 ss with
    | .error _ => false
    | .ok b =>
      readLe 1 b 510 == 0x55 && readLe 1 b 511 == 0xaa
        && (List.range 4).any fun i => readLe 1 b (446 + i * 16 + 4) == 0xee

/-- `read_redundant_table`。 -/
def readRedundantTable (d : Disk) : Result Table := do
  let total := totalSectors d
  if total < 2 then
    throw { code := .corrupt, message := "device too small for GPT" }
  let p ← readSide d 1
  let b ← readSide d (total - 1)
  if ¬ p.valid ∧ ¬ b.valid then
    throw { code := .corrupt, message := "both GPT copies are invalid" }
  if p.valid then validateEntries p
  if b.valid then validateEntries b
  if p.valid ∧ b.valid ∧ ¬ sidesEqual p b then
    throw { code := .corrupt
            message := "primary and backup GPT copies are both valid but disagree (split-brain GPT)" }
  let c := if p.valid then p else b
  return { tableFromSide c (protectiveMbrOk d) with
    primaryHeaderCrcOk := p.headerCrcOk
    entriesCrcOk := p.entriesCrcOk
    backupHeaderCrcOk := b.headerCrcOk
    backupEntriesCrcOk := b.entriesCrcOk
    primaryEntriesLba := p.entriesLba
    backupEntriesLba := b.entriesLba }

/-! ## 書く -/

/-- CRC を書く前の header。 -/
def headerBody (c : RawSide) (current backup entriesLba entriesCrc ss : Nat) : Bytes :=
  let h := patch (zeros ss) 0 SIG
  let h := writeLe 4 h 8 (if c.revision ≠ 0 then c.revision else 0x00010000)
  let h := writeLe 4 h 12 (if c.headerSize ≠ 0 then c.headerSize else 92)
  let h := writeLe 4 h 16 0
  let h := writeLe 4 h 20 0
  let h := writeLe 8 h 24 current
  let h := writeLe 8 h 32 backup
  let h := writeLe 8 h 40 c.firstUsable
  let h := writeLe 8 h 48 c.lastUsable
  let h := patch h 56 c.diskGuid
  let h := writeLe 8 h 72 entriesLba
  let h := writeLe 4 h 80 c.entryCount
  let h := writeLe 4 h 84 c.entrySize
  writeLe 4 h 88 entriesCrc

/-- `make_header`。 -/
def makeHeader (c : RawSide) (current backup entriesLba entriesCrc ss : Nat) : Bytes :=
  let h := headerBody c current backup entriesLba entriesCrc ss
  writeLe 4 h 16 (crc32IeeeFinal (h.take c.headerSize)).toNat

/-- `write_pair` が backup の entry array を置く LBA。 -/
def backupEntries (c : RawSide) (total ss : Nat) : Nat :=
  u64 (total - 1 + 2 ^ 64 - c.arraySectors ss)

/-- `write_pair` が primary の entry array を置く LBA。 -/
def primaryEntries (c : RawSide) (ss : Nat) : Nat :=
  let sectors := c.arraySectors ss
  if c.firstUsable > sectors ∧ c.firstUsable - sectors ≥ 2 then c.firstUsable - sectors else 2

/-- GPT を書いてよいか。 -/
def writeGate (host : WriteHost) (options : MutationOptions) (refusal : String) : Result Unit := do
  host.offline
  let block ← host.blockDevice
  if block ∧ ¬ options.allowBlockDevice then
    throw { code := .unsafeErr, message := refusal }

/-- 書いた後の読み直し。 -/
def verifyPair (d : Disk) : Result Unit := do
  let t ← readRedundantTable d
  if ¬ t.primaryHeaderCrcOk ∨ ¬ t.entriesCrcOk ∨ ¬ t.backupHeaderCrcOk ∨ ¬ t.backupEntriesCrcOk then
    throw { code := .io, message := "GPT post-write verification failed" }

/-- kernel への再読込の要求。 -/
def kernelReread (host : WriteHost) (options : MutationOptions) (d : Disk) : Bool :=
  options.rereadKernelTable && d.isBlockDevice && host.reread

/-- `write_pair`。 -/
def writePair (host : WriteHost) (c : RawSide) (entries : Bytes) (options : MutationOptions) :
    DevM MutationReport := do
  Proc.reading fun _ =>
    writeGate host options "GPT mutation on a block device requires --allow-block-device"
  let d ← get
  let ss := sectorSize d
  let total := totalSectors d
  if total < 100 then
    throw { code := .invalidArgument, message := "device is too small for GPT" }
  let last := total - 1
  let be := backupEntries c total ss
  let pe := primaryEntries c ss
  let ecrc := (crc32IeeeFinal entries).toNat
  DevM.write (u64 (be * ss)) entries
  DevM.write (last * ss) (makeHeader c last 1 be ecrc ss)
  DevM.flush
  DevM.write (u64 (pe * ss)) entries
  DevM.write ss (makeHeader c 1 last pe ecrc ss)
  DevM.flush
  Proc.reading verifyPair
  return {
    backupWritten := true, primaryWritten := true, verified := true
    kernelRereadRequested := kernelReread host options d }

/-- `resize_partition` で書き換えた写し。 -/
def RawSide.resizeEntry (c : RawSide) (index first last : Nat) : RawSide :=
  let off := (index - 1) * c.entrySize
  { c with entries := writeLe 8 (writeLe 8 c.entries (off + 32) first) (off + 40) last }

/-- `resize_partition` が元にする写し。 -/
def mutationSource (d : Disk) : Result RawSide := do
  let p ← readSide d 1
  let b ← readSide d (totalSectors d - 1)
  if p.valid ∧ b.valid ∧ ¬ sidesEqual p b then
    throw { code := .corrupt
            message := "refusing GPT mutation because valid primary and backup copies disagree" }
  if p.valid then return p
  else if b.valid then return b
  else throw { code := .corrupt, message := "no valid GPT copy is available for mutation" }

/-- `resize_partition` の検査。書き換えた写しを返す。 -/
def resizedSide (d : Disk) (index newFirst newLast : Nat) : Result RawSide := do
  let c ← mutationSource d
  if index = 0 ∨ index > c.entryCount then
    throw { code := .invalidArgument, message := "partition index outside GPT array" }
  if newFirst < c.firstUsable ∨ newLast > c.lastUsable ∨ newFirst > newLast then
    throw { code := .invalidArgument
            message := "requested partition range is outside usable GPT space" }
  if zeroGuid (slice (c.entry (index - 1)) 0 16) then
    throw { code := .notFound, message := "requested GPT partition entry is unused" }
  let c' := c.resizeEntry index newFirst newLast
  validateEntries c'
  return c'

/-- `resize_partition`。 -/
def resizePartition (host : WriteHost) (index newFirst newLast : Nat) (options : MutationOptions) :
    DevM MutationReport := do
  let c ← Proc.reading fun d => resizedSide d index newFirst newLast
  writePair host c c.entries options

/-- `repair_redundancy` が元にする写し。 -/
def repairSource (d : Disk) : Result RawSide := do
  let p ← readSide d 1
  let b ← readSide d (totalSectors d - 1)
  if ¬ p.valid ∧ ¬ b.valid then
    throw { code := .corrupt, message := "neither GPT copy can be used as repair source" }
  if p.valid ∧ b.valid ∧ ¬ sidesEqual p b then
    throw { code := .corrupt
            message := "both GPT copies are valid but disagree; repair source is ambiguous" }
  let c := if p.valid then p else b
  validateEntries c
  return c

/-- `repair_redundancy`。 -/
def repairRedundancy (host : WriteHost) (options : MutationOptions) : DevM MutationReport := do
  let c ← Proc.reading repairSource
  writePair host c c.entries options

/-! ## metadata の退避 -/

/-- `"FSXGPTB1"`。 -/
def backupMagic : Bytes := [0x46, 0x53, 0x58, 0x47, 0x50, 0x54, 0x42, 0x31]

/-- 退避 file を置くときに host が返す答え。 -/
structure BackupHost where
  /-- 一時 file の `BlockDevice::create_file` -/
  createFile : Result Unit
  /-- `publish_file_noreplace` -/
  publish : Result Unit

/-- `read_piece`。`payload` はそこまでに読んだ列で、長さが `off` に当たる。 -/
def readPiece (d : Disk) (payloadSize diskOff bytes : Nat) (payload : Bytes) : Result Bytes := do
  if bytes > payloadSize - payload.length then
    throw { code := .internal, message := "GPT backup payload layout overflow" }
  let b ← d.readExact diskOff bytes
  return payload ++ b

/-- checksum を書く前の、退避 file の header。 -/
def backupHeaderBody (ss sizeBytes entryBytes primaryEntries backupEntries last payloadSize
    payloadCrc : Nat) : Bytes :=
  let h := patch (zeros 128) 0 backupMagic
  let h := writeLe 4 h 8 1
  let h := writeLe 4 h 12 ss
  let h := writeLe 8 h 16 sizeBytes
  let h := writeLe 8 h 24 entryBytes
  let h := writeLe 8 h 32 primaryEntries
  let h := writeLe 8 h 40 backupEntries
  let h := writeLe 8 h 48 last
  let h := writeLe 8 h 56 payloadSize
  let h := writeLe 4 h 64 payloadCrc
  writeLe 4 h 68 0

/-- `backup_metadata`。公開した file の内容を返す。 -/
def backupMetadata (host : BackupHost) (d : Disk) : Result Bytes := do
  let t ← readRedundantTable d
  if ¬ t.primaryHeaderCrcOk ∨ ¬ t.entriesCrcOk ∨ ¬ t.backupHeaderCrcOk ∨ ¬ t.backupEntriesCrcOk then
    throw { code := .corrupt, message := "GPT metadata backup requires two valid GPT copies" }
  let ss := sectorSize d
  if ss < 512 ∨ ss > 65536 then
    throw { code := .unsupported, message := "unsupported logical sector size for GPT backup" }
  let entryBytes := t.entryCount * t.entrySize
  if entryBytes > 64 * 1024 * 1024 then
    throw { code := .corrupt, message := "GPT entry array too large to back up" }
  if d.sizeBytes / ss < 2 then
    throw { code := .corrupt, message := "disk too small for GPT backup" }
  let last := d.sizeBytes / ss - 1
  let payloadSize := 3 * ss + 2 * entryBytes
  let payload ← readPiece d payloadSize 0 ss []
  let payload ← readPiece d payloadSize ss ss payload
  let payload ← readPiece d payloadSize (t.primaryEntriesLba * ss) entryBytes payload
  let payload ← readPiece d payloadSize (t.backupEntriesLba * ss) entryBytes payload
  let payload ← readPiece d payloadSize (last * ss) ss payload
  if payload.length ≠ payloadSize then
    throw { code := .internal, message := "GPT backup payload size mismatch" }
  let h := backupHeaderBody ss d.sizeBytes entryBytes t.primaryEntriesLba t.backupEntriesLba last
    payloadSize (crc32cFinal payload).toNat
  host.createFile
  host.publish
  return writeLe 4 h 68 (crc32cFinal h).toNat ++ payload

/-! ## 退避した metadata の書き戻し -/

/-- `side_from_backup_bytes`。 -/
def sideFromBackupBytes (header entries : Bytes) (lba total ss : Nat) : Result RawSide := do
  if header.length < ss then
    throw { code := .corrupt, message := "GPT backup header sector is truncated" }
  let header := header.take ss
  if slice header 0 8 ≠ SIG then
    throw { code := .corrupt, message := "GPT backup contains a header with invalid signature" }
  let out := parseHeader header lba
  if out.headerSize < 92 ∨ out.headerSize > ss then
    throw { code := .corrupt, message := "GPT backup contains invalid header size" }
  if ¬ out.headerCrcOk then
    throw { code := .corrupt, message := "GPT backup embedded header checksum mismatch" }
  if out.currentLba ≠ lba then
    throw { code := .corrupt, message := "GPT backup embedded header current-LBA mismatch" }
  if out.entrySize < 128 ∨ out.entrySize > 4096 ∨ out.entryCount = 0 ∨ out.entryCount > 16384 then
    throw { code := .corrupt, message := "GPT backup embedded entry geometry is unreasonable" }
  if out.arrayBytes ≠ entries.length then
    throw { code := .corrupt
            message := "GPT backup embedded entry array size disagrees with header" }
  let out := out.withEntries entries
  if ¬ out.entriesCrcOk then
    throw { code := .corrupt, message := "GPT backup embedded entry-array checksum mismatch" }
  validateSideGeometry out total ss
  validateEntries out
  return out

/-- 退避 file の中身。書き戻す五つの断片と位置である。 -/
structure BackupImage where
  primaryEntries : Nat
  backupEntries : Nat
  backupHeader : Nat
  mbr : Bytes
  ph : Bytes
  pe : Bytes
  be : Bytes
  bh : Bytes

/-- `restore_metadata` が退避 file を読み、検査するところ。 -/
def loadBackup (d file : Disk) : Result BackupImage := do
  let h ← file.readExact 0 128
  if slice h 0 8 ≠ backupMagic then
    throw { code := .corrupt, message := "not an FSX GPT backup" }
  if readLe 4 h 8 ≠ 1 then
    throw { code := .unsupported, message := "unsupported FSX GPT backup version" }
  if (crc32cFinal (writeLe 4 h 68 0)).toNat ≠ readLe 4 h 68 then
    throw { code := .corrupt, message := "GPT backup header checksum mismatch" }
  let ss := readLe 4 h 12
  let diskSize := readLe 8 h 16
  let entryBytes := readLe 8 h 24
  let primaryEntries := readLe 8 h 32
  let backupEntries := readLe 8 h 40
  let backupHeader := readLe 8 h 48
  let payloadSize := readLe 8 h 56
  if ss ≠ sectorSize d ∨ diskSize ≠ d.sizeBytes then
    throw { code := .unsafeErr, message := "GPT backup geometry does not match target disk" }
  if entryBytes = 0 ∨ entryBytes > 64 * 1024 * 1024 then
    throw { code := .corrupt, message := "GPT backup entry geometry is unreasonable" }
  if payloadSize ≠ 3 * ss + 2 * entryBytes then
    throw { code := .corrupt, message := "GPT backup payload geometry mismatch" }
  if 128 + payloadSize ≠ file.sizeBytes then
    throw { code := .corrupt, message := "GPT backup file size does not match its header" }
  let total := diskSize / ss
  if total < 2 ∨ backupHeader ≠ total - 1 then
    throw { code := .corrupt, message := "GPT backup header LBA does not match disk geometry" }
  let entrySectors := (entryBytes + ss - 1) / ss
  if primaryEntries ≥ total ∨ backupEntries ≥ total ∨ entrySectors > total - primaryEntries
      ∨ entrySectors > total - backupEntries then
    throw { code := .corrupt, message := "GPT backup entry arrays are outside disk geometry" }
  let payload ← file.readExact 128 payloadSize
  if (crc32cFinal payload).toNat ≠ readLe 4 h 64 then
    throw { code := .corrupt, message := "GPT backup payload checksum mismatch" }
  let mbr := slice payload 0 ss
  let ph := slice payload ss ss
  let pe := slice payload (2 * ss) entryBytes
  let be := slice payload (2 * ss + entryBytes) entryBytes
  let bh := slice payload (2 * ss + 2 * entryBytes) ss
  if readLe 1 mbr 510 ≠ 0x55 ∨ readLe 1 mbr 511 ≠ 0xaa then
    throw { code := .corrupt, message := "GPT backup protective MBR signature is invalid" }
  if ¬ (List.range 4).any fun i => readLe 1 mbr (446 + i * 16 + 4) == 0xee then
    throw { code := .corrupt, message := "GPT backup protective MBR has no 0xEE entry" }
  let ps ← sideFromBackupBytes ph pe 1 total ss
  let bs ← sideFromBackupBytes bh be backupHeader total ss
  if ps.entriesLba ≠ primaryEntries ∨ bs.entriesLba ≠ backupEntries then
    throw { code := .corrupt
            message := "GPT backup sidecar entry-array LBAs disagree with embedded headers" }
  if ¬ sidesEqual ps bs then
    throw { code := .corrupt
            message := "GPT backup contains internally inconsistent primary and backup tables" }
  return { primaryEntries, backupEntries, backupHeader, mbr, ph, pe, be, bh }

/-- 書き戻した後の読み直し。 -/
def verifyRestored (d : Disk) : Result Unit := do
  let t ← readRedundantTable d
  if ¬ t.primaryHeaderCrcOk ∨ ¬ t.entriesCrcOk ∨ ¬ t.backupHeaderCrcOk ∨ ¬ t.backupEntriesCrcOk
      ∨ ¬ t.protectiveMbrOk then
    throw { code := .io, message := "restored GPT failed post-write verification" }

/-- `restore_metadata`。`backup` は退避 file を開いた結果である。 -/
def restoreMetadata (host : WriteHost) (backup : Result Disk) (options : MutationOptions) :
    DevM MutationReport := do
  Proc.reading fun _ =>
    writeGate host options "GPT restore on a block device requires --allow-block-device"
  let file ← Proc.reading fun _ => backup
  let d ← get
  let im ← Proc.reading fun d => loadBackup d file
  let ss := sectorSize d
  DevM.write (im.backupEntries * ss) im.be
  DevM.write (im.backupHeader * ss) im.bh
  DevM.flush
  DevM.write (im.primaryEntries * ss) im.pe
  DevM.write ss im.ph
  DevM.write 0 im.mbr
  DevM.flush
  Proc.reading verifyRestored
  return {
    backupWritten := true, primaryWritten := true, verified := true
    kernelRereadRequested := kernelReread host options d }

end Gpt

end Fsx
