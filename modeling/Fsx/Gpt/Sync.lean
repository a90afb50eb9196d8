import Fsx.Gpt.Frame
import Fsx.Ext4.World

/-!
# partition を filesystem の大きさに合わせる（`src/partition/sync.cpp`）

縮めた filesystem の大きさに、GPT の partition の終わりを合わせる。filesystem の device は読むだけで、
書くのは disk の GPT と transaction journal である。

書く前の検査と計算は `planSync` にまとめる。64 bit の引き算・足し算・掛け算は、source の式のまま
`u64` で切り詰めて書き、あふれないことは定理（`planSync_exact`）として示す。
-/

namespace Fsx

open Ext4 Gpt

/-- 二つの device と journal。 -/
structure SyncWorld where
  filesystem : Disk
  disk : Disk
  journal : Option JournalFile

abbrev SyncM := Proc SyncWorld

namespace PartitionSync

/-- 書く前に host が返す答え。 -/
structure SyncHost where
  /-- `require_offline_for_write(filesystem)` -/
  filesystemOffline : Result Unit
  /-- disk についての答え -/
  disk : WriteHost

structure PartitionSyncOptions where
  journalPath : String := ""
  allowBlockDevice : Bool := false

structure PartitionSyncReport where
  partitionIndex : Nat
  firstLba : Nat
  oldLastLba : Nat
  newLastLba : Nat
  filesystemBytes : Nat
  changed : Bool := false
  verified : Bool := false
  journalCompleted : Bool := false
  deriving DecidableEq

/-! ## 書く前の検査 -/

/-- `find_partition`。 -/
def findPartition (t : Table) (index : Nat) : Result Partition :=
  match t.partitions.find? fun p => decide (p.index = index) with
  | some p => .ok p
  | none => .error { code := .notFound, message := "GPT partition index is unused" }

/-- 検査の途中で計算した値。 -/
structure SyncPlan where
  part : Partition
  sectors : Nat
  partitionBytes : Nat
  filesystemBytes : Nat
  newSectors : Nat
  newLast : Nat

/-- 選んだ partition と filesystem の大きさを突き合わせる。 -/
def planPartition (filesystem disk : Disk) (sb : Superblock) (part : Partition) :
    Result SyncPlan := do
  let sector := sectorSize disk
  if filesystem.logicalSector ≠ 0 ∧ filesystem.logicalSector ≠ sector
      ∧ filesystem.isBlockDevice then
    throw { code := .unsafeErr
            message := "filesystem and parent disk report different logical sector sizes" }
  let sectors := u64 (u64 (part.lastLba + 2 ^ 64 - part.firstLba) + 1)
  if sectors > u64Max / sector then
    throw { code := .corrupt, message := "GPT partition byte size overflows" }
  let partitionBytes := u64 (sectors * sector)
  if filesystem.sizeBytes ≠ partitionBytes then
    throw { code := .unsafeErr
            message := "selected GPT partition size does not match filesystem device geometry; "
              ++ "wrong disk/index pair or stale kernel table" }
  let filesystemBytes := sb.sizeBytes
  if filesystemBytes > partitionBytes then
    throw { code := .corrupt, message := "filesystem is larger than selected GPT partition" }
  if filesystemBytes % sector ≠ 0 then
    throw { code := .unsupported
            message := "filesystem size is not aligned to parent disk logical sectors" }
  let newSectors := filesystemBytes / sector
  if newSectors = 0 then
    throw { code := .corrupt, message := "filesystem has zero partition sectors" }
  if part.firstLba > u64Max - (newSectors - 1) then
    throw { code := .corrupt, message := "new GPT partition endpoint overflows" }
  let newLast := u64 (u64 (part.firstLba + newSectors) + 2 ^ 64 - 1)
  if newLast > part.lastLba then
    throw { code := .unsafeErr
            message := "partition synchronization only shrinks to the current filesystem size" }
  return { part, sectors, partitionBytes, filesystemBytes, newSectors, newLast }

/-- superblock と GPT を読み、書き換えを計画する。 -/
def planSync (filesystem disk : Disk) (index : Nat) : Result (Superblock × SyncPlan) := do
  let sb ← readSuperblock filesystem
  if sb.state &&& 1 = 0 then
    throw { code := .unsafeErr
            message := "filesystem is not marked clean; partition synchronization refused" }
  let t ← readRedundantTable disk
  if ¬ t.primaryHeaderCrcOk ∨ ¬ t.entriesCrcOk ∨ ¬ t.backupHeaderCrcOk ∨ ¬ t.backupEntriesCrcOk then
    throw { code := .corrupt
            message := "both GPT copies must be valid before partition synchronization" }
  let part ← findPartition t index
  let plan ← planPartition filesystem disk sb part
  return (sb, plan)

/-- host の側の検査。 -/
def syncGate (host : SyncHost) (options : PartitionSyncOptions) : Result Unit := do
  host.filesystemOffline
  writeGate host.disk { allowBlockDevice := options.allowBlockDevice }
    "GPT synchronization on a real disk requires --allow-block-device"

/-- `validate_journal`。 -/
def validateJournal (v : JournalView) (sb : Superblock) (target : Nat) : Result Unit := do
  let u ← parseUuid sb.uuid
  if v.identity.filesystemUuid ≠ u then
    throw { code := .unsafeErr
            message := "journal filesystem UUID does not match partition filesystem" }
  if v.identity.targetSize.toNat ≠ target then
    throw { code := .unsafeErr
            message := "journal target size does not match current filesystem size" }
  if v.phase ≠ .filesystemShrunk ∧ v.phase ≠ .partitionPending ∧ v.phase ≠ .complete then
    throw { code := .unsafeErr, message := "journal is not at the partition-resize phase" }

/-! ## journal と disk への操作 -/

/-- disk への手続き。 -/
def onDisk {α : Type} (p : DevM α) : SyncM α := fun w =>
  ((Proc.run p w.disk).1, { w with disk := (Proc.run p w.disk).2 })

/-- journal への操作。 -/
def journalOp (op : JournalOp) : SyncM Unit := Proc.stepping fun w =>
  match w.journal with
  | none => .error { code := .permission, message := "journal is read-only" }
  | some j => do
    let j' ← j.step op
    return { w with journal := some j' }

/-- path があれば journal を開いて確かめる。開けなかったときの失敗が `missing` である。 -/
def openJournal (options : PartitionSyncOptions) (missing : Error) (sb : Superblock)
    (plan : SyncPlan) : SyncM (Option JournalView) := Proc.reading fun w =>
  if options.journalPath = "" then .ok none
  else match w.journal with
    | none => .error missing
    | some j => do
      validateJournal j.view sb plan.filesystemBytes
      return some j.view

/-- partition の書き換えについての record。 -/
def partitionRecord (type : JournalRecordType) (index : Nat) (plan : SyncPlan) : JournalRecord where
  type := type
  transactionId := 1
  sourceBlock := UInt64.ofNat plan.part.lastLba
  destinationBlock := UInt64.ofNat plan.newLast
  blockCount := UInt64.ofNat plan.newSectors
  inode := UInt64.ofNat index
  aux := UInt64.ofNat plan.part.firstLba

/-- 書き換える前に意図を残す。再開のときは残っている。 -/
def announce (j : Option JournalView) (index : Nat) (plan : SyncPlan) : SyncM Unit :=
  match j with
  | none => pure ()
  | some v =>
    if v.phase = .partitionPending then pure ()
    else do
      journalOp (.appendBatch [partitionRecord .partitionIntent index plan])
      journalOp (.checkpoint .partitionPending)

/-- 書き換えた後に結果を残す。 -/
def conclude (j : Option JournalView) (index : Nat) (plan : SyncPlan) : SyncM Unit :=
  match j with
  | none => pure ()
  | some _ => do
    journalOp (.appendBatch [partitionRecord .partitionCommitted index plan])
    journalOp (.checkpoint .complete)

/-- 書き換えが要らないときの後始末。 -/
def settle (j : Option JournalView) : SyncM Unit :=
  match j with
  | none => pure ()
  | some _ => journalOp (.checkpoint .complete)

/-- journal を確かめた後。GPT がすでに合っていれば journal を閉じ、違えば書き換える。 -/
def applySync (host : SyncHost) (index : Nat) (options : PartitionSyncOptions) (plan : SyncPlan)
    (report : PartitionSyncReport) (j : Option JournalView) : SyncM PartitionSyncReport := do
  if (j.map JournalView.phase) = some .complete then
    if plan.newLast ≠ plan.part.lastLba then
      throw { code := .unsafeErr
              message := "journal says operation is complete but GPT still has old geometry" }
    return { report with journalCompleted := true }
  else if plan.newLast = plan.part.lastLba then
    settle j
    return { report with journalCompleted := j.isSome }
  else
    announce j index plan
    let changed ← onDisk (resizePartition host.disk index plan.part.firstLba plan.newLast
      { allowBlockDevice := options.allowBlockDevice })
    if changed.verified = false then
      throw { code := .io, message := "GPT resize did not pass post-write verification" }
    conclude j index plan
    return { report with changed := true, journalCompleted := j.isSome }

/-- `sync_gpt_partition_to_ext4`。 -/
def syncGptPartitionToExt4 (host : SyncHost) (missing : Error) (index : Nat)
    (options : PartitionSyncOptions) : SyncM PartitionSyncReport := do
  Proc.reading fun _ => syncGate host options
  let (sb, plan) ← Proc.reading fun w => planSync w.filesystem w.disk index
  let report : PartitionSyncReport := {
    partitionIndex := index
    firstLba := plan.part.firstLba
    oldLastLba := plan.part.lastLba
    newLastLba := plan.newLast
    filesystemBytes := plan.filesystemBytes
    verified := true }
  let j ← openJournal options missing sb plan
  applySync host index options plan report j

/-! ## 計画の計算があふれないこと -/

/-- 計画の途中の値が、あふれのない計算と一致する。 -/
structure SyncPlan.Exact (plan : SyncPlan) (sector : Nat) : Prop where
  ordered : plan.part.firstLba ≤ plan.part.lastLba
  sectors : plan.sectors = plan.part.lastLba - plan.part.firstLba + 1
  bytes : plan.partitionBytes = plan.sectors * sector
  newSectors : plan.filesystemBytes = plan.newSectors * sector
  positive : 0 < plan.newSectors
  newLast : plan.newLast + 1 = plan.part.firstLba + plan.newSectors
  shrinks : plan.newLast ≤ plan.part.lastLba

/-- GPT から読んだ LBA の順序と幅から、計画の値はあふれていない。 -/
theorem planPartition_eq_ok {filesystem disk : Disk} {sb : Superblock} {part : Partition}
    {plan : SyncPlan} (hfirst : part.firstLba ≤ part.lastLba) (hlast : part.lastLba < 2 ^ 64)
    (hpos : 0 < filesystem.sizeBytes) (h : planPartition filesystem disk sb part = .ok plan) :
    plan.part = part ∧ plan.filesystemBytes = sb.sizeBytes ∧
      plan.partitionBytes = filesystem.sizeBytes ∧ plan.Exact (sectorSize disk) := by
  have hss := sectorSize_pos disk
  unfold planPartition at h
  simp only [Result.guard_bind_eq_ok_iff, Result.pure_eq_ok_iff] at h
  obtain ⟨-, hsec, hbytes, hle, halign, hzero, hend, hshrink, rfl⟩ := h
  have hdiff : u64 (part.lastLba + 2 ^ 64 - part.firstLba) = part.lastLba - part.firstLba := by
    unfold u64
    omega
  rw [hdiff] at hsec hbytes hle ⊢
  -- 全体を占める partition は `sectors` が 0 に戻るが、大きさ 0 の device はない
  have hwrap : part.lastLba - part.firstLba + 1 < 2 ^ 64 := by
    by_contra hc
    have hmax : part.lastLba - part.firstLba + 1 = 2 ^ 64 := by omega
    rw [hmax, show u64 (2 ^ 64) = 0 from rfl, Nat.zero_mul] at hbytes
    exact hbytes (Nat.pos_iff_ne_zero.mp hpos)
  have hsectors : u64 (part.lastLba - part.firstLba + 1) = part.lastLba - part.firstLba + 1 :=
    u64_of_lt hwrap
  rw [hsectors] at hsec hbytes hle ⊢
  have hprod : (part.lastLba - part.firstLba + 1) * sectorSize disk < 2 ^ 64 := by
    have := (Nat.le_div_iff_mul_le hss).mp (Nat.not_lt.mp hsec)
    unfold u64Max at this
    omega
  have hbytes' : u64 ((part.lastLba - part.firstLba + 1) * sectorSize disk) =
      (part.lastLba - part.firstLba + 1) * sectorSize disk := u64_of_lt hprod
  rw [hbytes'] at hbytes hle ⊢
  have hexact : sb.sizeBytes = sb.sizeBytes / sectorSize disk * sectorSize disk :=
    (Nat.div_mul_cancel (Nat.dvd_of_mod_eq_zero (not_not.mp halign))).symm
  have hfew : sb.sizeBytes / sectorSize disk ≤ part.lastLba - part.firstLba + 1 := by
    rw [hexact] at hle
    exact Nat.le_of_mul_le_mul_right (Nat.not_lt.mp hle) hss
  have hnew : u64 (u64 (part.firstLba + sb.sizeBytes / sectorSize disk) + 2 ^ 64 - 1) + 1
      = part.firstLba + sb.sizeBytes / sectorSize disk := by
    generalize sb.sizeBytes / sectorSize disk = n at hzero hend hfew
    have hroom : part.firstLba + n ≤ 2 ^ 64 := by
      unfold u64Max at hend
      omega
    clear hend hshrink
    unfold u64
    omega
  exact ⟨rfl, rfl, (not_not.mp hbytes).symm, hfirst, rfl, rfl, hexact, Nat.pos_of_ne_zero hzero,
    hnew, Nat.not_lt.mp hshrink⟩

end PartitionSync

end Fsx
