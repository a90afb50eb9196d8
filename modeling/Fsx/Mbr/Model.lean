import Fsx.Gpt.Model

/-!
# MBR（`src/partition/mbr.cpp`）

sector 0 の四つの entry を読み、検査し、一つを書き換える。書き換える前に、元の sector 0 を
undo file として公開する。

`BackupHost` は undo file の一時 file を作ることと、公開することへの host の答えである。
同じ path に file があれば、公開は答えによらず断られる。
-/

namespace Fsx.Mbr

open Gpt (BackupHost pairLe rangesOverlap totalSectors)

def PART_OFF : Nat := 446

structure Partition where
  index : Nat
  bootable : Bool
  type : Nat
  firstLba : Nat
  sectors : Nat
  deriving DecidableEq

def Partition.lastLba (p : Partition) : Nat :=
  if p.sectors ≠ 0 then p.firstLba + p.sectors - 1 else p.firstLba

structure Table where
  signatureOk : Bool
  isProtective : Bool
  hybrid : Bool
  diskSignature : Nat
  partitions : List Partition

structure MutationOptions where
  allowBlockDevice : Bool := false
  backupSectorPath : String

/-- disk と、`backup_sector_path` にある file の内容。 -/
structure Site where
  disk : Disk
  undo : Option Bytes

/-- `read_sector`。 -/
def readSector (d : Disk) : Result Bytes := d.readExact 0 512

/-- `decode` のループの一回。種別か sector 数が 0 の entry は空とみなす。 -/
def partitionAt (b : Bytes) (i : Nat) : Option Partition :=
  let o := PART_OFF + i * 16
  let type := readLe 1 b (o + 4)
  let count := readLe 4 b (o + 12)
  if type = 0 ∨ count = 0 then none
  else some {
    index := i + 1
    bootable := readLe 1 b o == 0x80
    type
    firstLba := readLe 4 b (o + 8)
    sectors := count }

def partitionsOf (b : Bytes) : List Partition := (List.range 4).filterMap (partitionAt b)

/-- `decode`。 -/
def decode (b : Bytes) : Result Table := do
  if b.length < 512 then throw { code := .corrupt, message := "MBR sector truncated" }
  let partitions := partitionsOf b
  let protect := partitions.countP fun p => p.type == 0xee
  let nonprotect := partitions.countP fun p => p.type != 0xee
  return {
    signatureOk := readLe 1 b 510 == 0x55 && readLe 1 b 511 == 0xaa
    isProtective := decide (protect > 0)
    hybrid := decide (protect > 0 ∧ nonprotect > 0)
    diskSignature := readLe 4 b 440
    partitions }

/-- `validate` の一つ目のループ。protective の entry は重なりの検査に加わらない。 -/
def usedRanges (diskSectors : Nat) : List Partition → Result (List (Nat × Nat))
  | [] => .ok []
  | p :: ps => do
    if p.sectors = 0 then usedRanges diskSectors ps
    else
      if p.lastLba ≥ diskSectors then
        throw { code := .invalidArgument, message := "MBR partition exceeds disk" }
      let rest ← usedRanges diskSectors ps
      return if p.type ≠ 0xee then (p.firstLba, p.lastLba) :: rest else rest

/-- `validate`。 -/
def validate (t : Table) (diskSectors : Nat) : Result Unit := do
  let r ← usedRanges diskSectors t.partitions
  if rangesOverlap (r.mergeSort pairLe) then
    throw { code := .invalidArgument, message := "MBR partitions overlap" }

/-- MBR を書いてよいか。 -/
def writeGate (host : WriteHost) (allow : Bool) (refusal : String) : Result Unit := do
  host.offline
  let block ← host.blockDevice
  if block ∧ ¬ allow then
    throw { code := .unsafeErr, message := refusal }

/-- 書き換える entry の番地。 -/
def entryOff (index : Nat) : Nat := PART_OFF + (index - 1) * 16

/-- 一つの entry の先頭と sector 数を書き換えた sector 0。 -/
def resized (b : Bytes) (index : Nat) (first sectors : UInt32) : Bytes :=
  writeLe 4 (writeLe 4 b (entryOff index + 8) first.toNat) (entryOff index + 12) sectors.toNat

/-- `resize_partition` が書く前に調べるところ。書く sector 0 を返す。 -/
def checkResize (d : Disk) (index : Nat) (first sectors : UInt32) : Result Bytes := do
  let b ← readSector d
  let old ← decode b
  if ¬ old.signatureOk then throw { code := .corrupt, message := "MBR signature invalid" }
  if old.isProtective ∨ old.hybrid then
    throw { code := .unsafeErr
            message :=
              "refusing MBR mutation on protective/hybrid GPT media; use GPT commands" }
  if readLe 1 b (entryOff index + 4) = 0 then
    throw { code := .notFound, message := "MBR partition entry unused" }
  let b' := resized b index first sectors
  let nt ← decode b'
  validate nt (totalSectors d)
  return b'

/-- undo file の一時 file を作って書き、公開する。 -/
def publishUndo (backup : BackupHost) (orig : Bytes) (s : Site) : Result Site := do
  backup.createFile
  if s.undo.isSome then
    throw { code := .unsafeErr, message := "refusing to overwrite existing MBR undo sector" }
  backup.publish
  return { s with undo := some orig }

/-- disk に書く。 -/
def writeDisk (off : Nat) (b : Bytes) : Proc Site Unit :=
  Proc.stepping fun s => do
    let d ← s.disk.writeExact off b
    return { s with disk := d }

/-- disk を flush する。 -/
def flushDisk : Proc Site Unit :=
  Proc.stepping fun s => do
    let d ← s.disk.flush
    return { s with disk := d }

/-- `resize_partition`。 -/
def resizePartition (host : WriteHost) (backup : BackupHost) (index : Nat) (first sectors : UInt32)
    (o : MutationOptions) : Proc Site Unit := do
  if index < 1 ∨ index > 4 ∨ sectors = 0 then
    throw { code := .invalidArgument, message := "invalid MBR resize arguments" }
  if o.backupSectorPath = "" then
    throw { code := .invalidArgument, message := "MBR mutation requires --backup-sector=FILE" }
  Proc.reading fun _ => writeGate host o.allowBlockDevice
    "MBR mutation on block device requires --allow-block-device"
  let b ← Proc.reading fun s => checkResize s.disk index first sectors
  let orig ← Proc.reading fun s => readSector s.disk
  Proc.stepping (publishUndo backup orig)
  writeDisk 0 b
  flushDisk

/-- `restore_sector` が undo file を読み、検査するところ。 -/
def loadUndo (file : Disk) : Result Bytes := do
  if file.sizeBytes ≠ 512 then
    throw { code := .corrupt, message := "MBR backup must contain exactly one 512-byte sector" }
  let sec ← file.readExact 0 512
  match decode sec with
  | .ok t =>
    if t.signatureOk then return sec
    else throw { code := .corrupt, message := "MBR backup sector is invalid" }
  | .error _ => throw { code := .corrupt, message := "MBR backup sector is invalid" }

/-- `restore_sector`。`file` は undo file を開いた結果である。 -/
def restoreSector (host : WriteHost) (file : Result Disk) (allow : Bool) : DevM Unit := do
  Proc.reading fun _ => writeGate host allow
    "MBR restore on block device requires --allow-block-device"
  let f ← Proc.reading fun _ => file
  let sec ← Proc.reading fun _ => loadUndo f
  DevM.write 0 sec
  DevM.flush

end Fsx.Mbr
