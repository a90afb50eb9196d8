import Fsx.Ext4.World

/-!
# 写しを作る段（`src/ext4/relocate.cpp` の `stage_relocation`）

計画の移動ごとに source の内容を destination（まだ空きの block）に写し、
読み戻した CRC を `copy_verified` として journal に残す。

写しは thread pool で batch ごとに並行に走る。batch の中の写しは互いに重ならない範囲を触るので、
順に走らせるものとして写す（途中で失敗したときに、後ろの写しがどこまで進んだかだけが異なる）。
-/

namespace Fsx.Ext4

open Engine

structure StageOptions where
  journalPath : String
  allowBlockDevice : Bool := false
  verifyAfterWrite : Bool := true

structure StageReport where
  movesTotal : Nat := 0
  movesCompleted : Nat := 0
  bytesCopied : Nat := 0
  bytesVerified : Nat := 0
  paused : Bool := false
  complete : Bool := false
  deriving DecidableEq

/-! ## 範囲の写しと検証 -/

/-- `byte_range`。 -/
def byteRange (d : Disk) (block count bs : Nat) : Result (Nat × Nat) := do
  if bs = 0 ∨ count = 0 then
    throw { code := .invalidArgument, message := "invalid zero-sized relocation range" }
  if block > u64Max / bs ∨ count > u64Max / bs then
    throw { code := .corrupt, message := "relocation byte geometry overflows" }
  let start := block * bs
  let total := count * bs
  if start > d.sizeBytes ∨ total > d.sizeBytes - start then
    throw { code := .corrupt, message := "relocation range lies outside containing device" }
  return (start, total)

/-- `total` byte を `size` ずつに区切ったときの、各回の（位置、長さ）。 -/
def chunks (size : Nat) : Nat → Nat → Nat → List (Nat × Nat)
  | 0, _, _ => []
  | fuel + 1, pos, left =>
    if left = 0 then []
    else (pos, min size left) :: chunks size fuel (pos + min size left) (left - min size left)

/-- `verify_one` と `extent_crc` の読み出しのループ。 -/
def crcChunks (d : Disk) (start : Nat) : List (Nat × Nat) → UInt32 → Result UInt32
  | [], crc => .ok crc
  | (pos, n) :: rest, crc => do
    let span ← d.readExact (start + pos) n
    crcChunks d start rest (crc32c span crc)

/-- `copy_one` のループ。 -/
def copyChunks (host : Host) (m : OwnerMove) (src dst : Nat) :
    List (Nat × Nat) → UInt32 → EngineM UInt32
  | [], crc => pure crc
  | (pos, n) :: rest, crc => do
    if host.copyCancelled m.transactionId pos then
      throw { code := .unsafeErr, message := "relocation cancellation requested" }
    let span ← device fun d => d.readExact (src + pos) n
    write (dst + pos) span
    copyChunks host m src dst rest (crc32c span crc)

/-- `copy_one`。CRC と写した byte 数を返す。 -/
def copyOne (host : Host) (bs chunkBytes : Nat) (m : OwnerMove) : EngineM (UInt32 × Nat) := do
  if m.unwritten then return (0, 0)
  let (src, total) ← device fun d => byteRange d m.sourceBlock m.blockCount bs
  let (dst, _) ← device fun d => byteRange d m.destinationBlock m.blockCount bs
  let crc ← copyChunks host m src dst (chunks (max bs chunkBytes) total 0 total) crcInit
  return (crc ^^^ 0xffffffff, total)

/-- `verify_one`。 -/
def verifyOne (d : Disk) (bs chunkBytes : Nat) (m : OwnerMove) : Result UInt32 := do
  if m.unwritten then return 0
  let (dst, total) ← byteRange d m.destinationBlock m.blockCount bs
  let crc ← crcChunks d dst (chunks (max bs chunkBytes) total 0 total) crcInit
  return crc ^^^ 0xffffffff

/-! ## journal に残すもの -/

/-- 移動についての record。 -/
def moveRecord (type : JournalRecordType) (m : OwnerMove) : JournalRecord where
  type := type
  transactionId := UInt64.ofNat m.transactionId
  sourceBlock := UInt64.ofNat m.sourceBlock
  destinationBlock := UInt64.ofNat m.destinationBlock
  blockCount := UInt64.ofNat m.blockCount
  inode := UInt64.ofNat m.inode
  aux := UInt64.ofNat m.logicalBlock
  state := UInt32.ofNat m.kind.code

/-- 写しを検証した記録。 -/
def verifiedRecord (m : OwnerMove) (crc : UInt32) : JournalRecord :=
  { moveRecord .copyVerified m with dataCrc32c := crc }

/-- `unordered_map` に積んだときに残る、その種類の最後の record。 -/
def lastRecord (records : List JournalRecord) (type : JournalRecordType) (txn : Nat) :
    Option JournalRecord :=
  (records.filter fun r => decide (r.type = type ∧ r.transactionId.toNat = txn)).getLast?

/-- その種類の record が現れる transaction の数（`unordered_map` の大きさ）。 -/
def recordCount (records : List JournalRecord) (type : JournalRecordType) : Nat :=
  ((records.filter fun r => decide (r.type = type)).map JournalRecord.transactionId).dedup.length

/-- record の場所が移動と一致するか。 -/
def sameGeometry (r : JournalRecord) (m : OwnerMove) : Bool :=
  decide (r.sourceBlock.toNat = m.sourceBlock) && decide (r.destinationBlock.toNat = m.destinationBlock)
    && decide (r.blockCount.toNat = m.blockCount) && decide (r.inode.toNat = m.inode)

/-! ## batch -/

/-- 一回分の batch と、その後に残る移動。検証済みの移動は飛ばす。 -/
def takeBatch (verified : List Nat) : Nat → List OwnerMove → List OwnerMove × List OwnerMove
  | 0, rest => ([], rest)
  | _, [] => ([], [])
  | n + 1, m :: rest =>
    if m.transactionId ∈ verified then takeBatch verified (n + 1) rest
    else
      let (batch, rest') := takeBatch verified n rest
      (m :: batch, rest')

/-- batch を写す。 -/
def copyBatch (host : Host) (bs chunk : Nat) : List OwnerMove → EngineM (List (UInt32 × Nat))
  | [] => pure []
  | m :: rest => do
    let c ← copyOne host bs chunk m
    let cs ← copyBatch host bs chunk rest
    return c :: cs

/-- 写したものを読み戻して確かめ、残す record を作る。 -/
def verifyBatch (opts : StageOptions) (bs chunk : Nat) (d : Disk) :
    List (OwnerMove × (UInt32 × Nat)) → Result (List JournalRecord)
  | [] => .ok []
  | (m, crc, _) :: rest => do
    if opts.verifyAfterWrite then
      let dst ← verifyOne d bs chunk m
      if dst ≠ crc then
        throw { code := .io
                message := "relocation verification checksum mismatch for transaction "
                  ++ toString m.transactionId }
    let rs ← verifyBatch opts bs chunk d rest
    return verifiedRecord m crc :: rs

/-- batch のループ。`pos` は取りかかる移動の番号である。 -/
def stageLoop (host : Host) (opts : StageOptions) (plan : OwnerRelocationPlan)
    (workers chunk : Nat) : Nat → List Nat → List OwnerMove → StageReport → EngineM StageReport
  | 0, _, _, report => pure report
  | fuel + 1, verified, moves, report => do
    let rest := moves.dropWhile fun m => decide (m.transactionId ∈ verified)
    if rest = [] then return report
    if host.stageCancelled (plan.moves.length - rest.length) then
      checkpoint .paused
      return { report with paused := true }
    let (batch, rest') := takeBatch verified workers rest
    let copied ← onError (copyBatch host plan.blockSize chunk batch) (checkpoint .paused)
    flush
    let records ← device fun d => verifyBatch opts plan.blockSize chunk d (batch.zip copied)
    appendBatch records
    let bytes := (copied.map Prod.snd).sum
    let verified' := batch.map OwnerMove.transactionId ++ verified
    stageLoop host opts plan workers chunk fuel verified' rest' { report with
      movesCompleted := report.movesCompleted + batch.length
      bytesCopied := report.bytesCopied + bytes
      bytesVerified := report.bytesVerified + bytes }

/-! ## `stage_relocation` -/

/-- 新しい journal の大きさ。 -/
def journalCapacity (plan : OwnerRelocationPlan) : Result Nat := do
  let count := plan.moves.length
  if count > (u64Max - 4096) / 8 then
    throw { code := .unsupported, message := "relocation plan is too large for journal accounting" }
  let needed := count * 8 + 4096
  if needed > (u64Max - recordsOffset) / recordBytes then
    throw { code := .unsupported, message := "relocation journal size overflows" }
  return max (16 <<< 20) (recordsOffset + needed * recordBytes)

/-- journal を作るときに host が返す答え。 -/
structure JournalHost where
  operationUuid : Uuid
  create : Result Unit

/-- `TransactionJournal::create`。 -/
def createJournal (jhost : JournalHost) (id : JournalIdentity) (cap : Nat) : EngineM Unit :=
  Proc.stepping fun w => do
    if cap ≥ 2 ^ 63 then
      throw { code := .unsupported, message := "requested file size exceeds host off_t" }
    jhost.create
    let j : JournalFile := {
      view := { identity := id, phase := .prepared, records := [] }
      capacity := capacityRecords cap }
    return { w with journal := some j, trace := w.trace ++ [.journal j] }

/-- journal の identity が対象と計画に一致するか。 -/
def checkIdentity (id : JournalIdentity) (fu : Uuid) (deviceSize : Nat)
    (plan : OwnerRelocationPlan) (text : String) : Result Unit := do
  if id.filesystemUuid ≠ fu then
    throw { code := .unsafeErr, message := "journal filesystem UUID does not match target" }
  if id.deviceSize.toNat ≠ deviceSize then
    throw { code := .unsafeErr, message := "journal device size does not match target" }
  if id.targetSize.toNat ≠ plan.targetBytes then
    throw { code := .unsafeErr, message := text }

/-- 再開のときの、移動ごとの検査。検証済みとみなす transaction を返す。 -/
def resumeMoves (d : Disk) (records : List JournalRecord) (bs chunk : Nat) :
    List OwnerMove → Result (List Nat)
  | [] => .ok []
  | m :: rest => do
    match lastRecord records .relocationIntent m.transactionId with
    | none => throw { code := .unsafeErr, message := "resume journal is missing relocation intent" }
    | some r =>
      if sameGeometry r m = false then
        throw { code := .unsafeErr
                message := "resume plan differs from journaled relocation geometry" }
    let here ← match lastRecord records .copyVerified m.transactionId with
      | none => pure []
      | some r => do
        let crc ← verifyOne d bs chunk m
        pure (if crc = r.dataCrc32c then [m.transactionId] else [])
    let others ← resumeMoves d records bs chunk rest
    return here ++ others

/-- 既存の journal から再開できるか。検証済みの transaction を返す。 -/
def resumeStage (d : Disk) (v : JournalView) (plan : OwnerRelocationPlan) (chunk : Nat) :
    Result (List Nat) := do
  if v.phase ≠ .prepared ∧ v.phase ≠ .relocating ∧ v.phase ≠ .paused ∧ v.phase ≠ .staged then
    throw { code := .unsafeErr, message := "journal phase is not valid for relocation staging" }
  if recordCount v.records .relocationIntent ≠ plan.moves.length then
    throw { code := .unsafeErr
            message := "resume journal relocation count differs from current plan" }
  resumeMoves d v.records plan.blockSize chunk plan.moves

/-- device の安全の検査。`stage`・`commit`・`finalize` に共通である。 -/
def checkDeviceSafety (host : Host) (allowBlockDevice : Bool) (text : String) : Result Unit := do
  host.offline
  let block ← host.blockDevice
  if block ∧ allowBlockDevice = false then throw { code := .unsafeErr, message := text }

/-- 新しい journal に移動の意図を残し、写しを始める。 -/
def startStage (jhost : JournalHost) (fu : Uuid) (plan : OwnerRelocationPlan) : EngineM Unit := do
  let size ← device fun d => .ok d.sizeBytes
  let cap ← device fun _ => journalCapacity plan
  let id : JournalIdentity := {
    operationUuid := jhost.operationUuid
    filesystemUuid := fu
    deviceSize := UInt64.ofNat size
    targetSize := UInt64.ofNat plan.targetBytes }
  createJournal jhost id cap
  device fun d => checkIdentity id fu d.sizeBytes plan "journal target size does not match plan"
  appendBatch (plan.moves.map (moveRecord .relocationIntent))
  checkpoint .relocating

/-- 既存の journal があれば再開し、なければ作る。検証済みの transaction を返す。 -/
def openStage (jhost : JournalHost) (fu : Uuid) (plan : OwnerRelocationPlan) (chunk : Nat) :
    EngineM (List Nat) := do
  let w ← get
  match w.journal with
  | none =>
    startStage jhost fu plan
    return []
  | some j =>
    device fun d => checkIdentity j.view.identity fu d.sizeBytes plan
      "journal target size does not match plan"
    device fun d => resumeStage d j.view plan chunk

/-- staging に入る前の、superblock についての検査。 -/
def checkStageFilesystem (host : Host) (d : Disk) : Result Superblock := do
  let sb ← readSuperblock d
  if sb.state ≠ 1 then
    throw { code := .unsafeErr
            message := "filesystem is not marked clean; relocation staging is refused" }
  if sb.hasIncompat incompatRecover then
    throw { code := .unsafeErr
            message := "filesystem journal requires recovery; replay it before offline staging" }
  if sb.hasRoCompat roCompatMetadataCsum then
    let r ← verifyMetadata host.verifyCancelled d
    if r.clean = false then
      throw { code := .corrupt
              message := "metadata checksum/count verification failed before staging" }
  return sb

/-- `stage_relocation`。 -/
def stageRelocation (host : Host) (jhost : JournalHost) (plan : OwnerRelocationPlan)
    (opts : StageOptions) : EngineM StageReport := do
  if opts.journalPath = "" then
    throw { code := .invalidArgument, message := "staging requires --journal=FILE" }
  device fun _ => checkDeviceSafety host opts.allowBlockDevice
    "block-device staging requires explicit --allow-block-device"
  if plan.moves = [] then return { complete := true }
  let sb ← device fun d => checkStageFilesystem host d
  let fu ← device fun _ => parseUuid sb.uuid
  let prof ← device fun _ => host.profile
  let workers := max 1 prof.workers
  let chunk := max plan.blockSize prof.largeIoBytes
  let verified ← openStage jhost fu plan chunk
  let done := plan.moves.filter fun m => decide (m.transactionId ∈ verified)
  let bytes := (done.map fun m => if m.unwritten then 0 else m.blockCount * plan.blockSize).sum
  let report ← stageLoop host opts plan workers chunk plan.moves.length verified plan.moves {
    movesTotal := plan.moves.length
    movesCompleted := done.length
    bytesCopied := bytes
    bytesVerified := bytes }
  if report.paused then return report
  checkpoint .staged
  return { report with complete := true }

end Fsx.Ext4
