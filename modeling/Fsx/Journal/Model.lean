import Fsx.Io.Disk
import Fsx.Journal.Format

/-!
# transaction journal の操作（`src/transaction/journal.cpp`）

`TransactionJournal` の create / open / append_batch / checkpoint / records。

header は二つの slot に交互に書く。slot は sequence の偶奇で選ぶが、`create` だけは
slot 0 に sequence 1、slot 1 に sequence 0 を書くので、作りたての journal では
偶奇が食い違っている。

file の作成と公開（`open(2)` や `rename` の結果）は host の答えとして外から与える。
-/

namespace Fsx

structure JournalStatus where
  identity : JournalIdentity
  phase : OperationPhase
  headerSequence : UInt64 := 0
  recordCount : UInt64 := 0
  committedTransactions : UInt64 := 0
  lastTransactionId : UInt64 := 0
  headerAValid : Bool := false
  headerBValid : Bool := false
  recordsValid : Bool := false
  deriving DecidableEq

structure TransactionJournal where
  device : Disk
  status : JournalStatus
  writable : Bool

abbrev JournalM := Proc TransactionJournal

/-- record を置ける数。 -/
def capacityRecords (sizeBytes : Nat) : Nat :=
  if sizeBytes > recordsOffset then (sizeBytes - recordsOffset) / recordBytes else 0

/-- 記録された transaction id の最大と、commit 済みの数を更新する。 -/
def JournalStatus.account (st : JournalStatus) (r : JournalRecord) : JournalStatus :=
  { st with
    lastTransactionId := max st.lastTransactionId r.transactionId
    committedTransactions :=
      if r.type = .metadataCommitted then st.committedTransactions + 1
      else st.committedTransactions }

namespace TransactionJournal

/-- journal の device への手続きとして走らせる。 -/
def onDevice {α : Type} (p : DevM α) : JournalM α := fun j =>
  let r := Proc.run p j.device
  (r.1, { j with device := r.2 })

/-! ## 読み込み -/

/-- `load` が headers から選んだもの。 -/
def chooseHeader (da db : Result DecodedHeader) : Result DecodedHeader :=
  match da, db with
  | .error _, .error _ =>
    .error { code := .corrupt, message := "both journal headers are invalid" }
  | .ok a, .ok b =>
    if a.id ≠ b.id then
      .error { code := .corrupt, message := "journal headers describe different operations" }
    else .ok (if a.sequence ≥ b.sequence then a else b)
  | .ok a, .error _ => .ok a
  | .error _, .ok b => .ok b

/-- `load` の record のループ。残り `k` 個を `i` 番目から読む。 -/
def loadRecords (d : Disk) : Nat → Nat → JournalStatus → Result JournalStatus
  | 0, _, st => .ok st
  | k + 1, i, st => do
    let rec' ← d.readExact (recordsOffset + i * recordBytes) 128
    let r ← decodeRecord rec'
    if r.sequence ≠ UInt64.ofNat (i + 1) then
      throw { code := .corrupt, message := "journal record sequence is not contiguous" }
    loadRecords d k (i + 1) (st.account r)

/-- `load`。 -/
def load (d : Disk) : Result JournalStatus := do
  let a ← d.readExact 0 4096
  let b ← d.readExact headerBytes 4096
  let da := decodeHeader a
  let db := decodeHeader b
  let h ← chooseHeader da db
  if h.recordCount.toNat > capacityRecords d.sizeBytes then
    throw { code := .corrupt, message := "journal record count exceeds journal capacity" }
  loadRecords d h.recordCount.toNat 0 {
    identity := h.id
    phase := h.phase
    headerSequence := h.sequence
    recordCount := h.recordCount
    headerAValid := da.isOk
    headerBValid := db.isOk
    recordsValid := true }

/-- `open`。存在する file について、開いて読み込む。 -/
def openFile (file : Disk) (writable : Bool) : Result TransactionJournal := do
  let device := { file with writable := writable, events := [] }
  let status ← load device
  return { device, status, writable }

/-- `records` のループ。 -/
def readRecords (d : Disk) : Nat → Nat → Result (List JournalRecord)
  | 0, _ => .ok []
  | k + 1, i => do
    let rec' ← d.readExact (recordsOffset + i * recordBytes) 128
    let r ← decodeRecord rec'
    let rest ← readRecords d k (i + 1)
    return r :: rest

/-- `records`。 -/
def records (j : TransactionJournal) : Result (List JournalRecord) :=
  readRecords j.device j.status.recordCount.toNat 0

/-! ## 書き込み -/

/-- `write_header`。 -/
def writeHeader (slot : Nat) (seq : UInt64) (phase : OperationPhase) (count : UInt64) :
    JournalM Unit := do
  let j ← get
  if j.writable = false then
    throw { code := .permission, message := "journal is read-only" }
  onDevice (DevM.write (slot * headerBytes)
    (encodeHeader { id := j.status.identity, sequence := seq, phase, recordCount := count }))

/-- `append_batch` の record のループ。`n` は書く位置である。 -/
def writeRecords : Nat → List JournalRecord → JournalM Unit
  | _, [] => pure ()
  | n, r :: rs => do
    onDevice (DevM.write (recordsOffset + n * recordBytes)
      (encodeRecord { r with sequence := UInt64.ofNat (n + 1) }))
    writeRecords (n + 1) rs

/-- `append_batch`。 -/
def appendBatch (records : List JournalRecord) : JournalM Unit := do
  let j ← get
  if j.writable = false then
    throw { code := .permission, message := "journal is read-only" }
  if records = [] then return ()
  let capacity := capacityRecords j.device.sizeBytes
  if j.status.recordCount.toNat > capacity
      ∨ records.length > capacity - j.status.recordCount.toNat then
    throw { code := .io, message := "journal is full" }
  let newCount := j.status.recordCount + UInt64.ofNat records.length
  writeRecords j.status.recordCount.toNat records
  onDevice DevM.flush
  let seq := j.status.headerSequence + 1
  writeHeader (seq &&& 1).toNat seq j.status.phase newCount
  onDevice DevM.flush
  modify fun j' => { j' with
    status := records.foldl JournalStatus.account
      { j'.status with headerSequence := seq, recordCount := newCount } }

/-- `append`。 -/
def append (r : JournalRecord) : JournalM Unit := appendBatch [r]

/-- `checkpoint` が置く record。 -/
def checkpointRecord (st : JournalStatus) (phase : OperationPhase) : JournalRecord :=
  { type := .checkpoint
    transactionId := st.lastTransactionId
    aux := UInt64.ofNat phase.code }

/-- `checkpoint`。record を置いてから、phase を変えた header を書く。 -/
def checkpoint (phase : OperationPhase) : JournalM Unit := do
  let j ← get
  if j.writable = false then
    throw { code := .permission, message := "journal is read-only" }
  append (checkpointRecord j.status phase)
  let j' ← get
  let seq := j'.status.headerSequence + 1
  writeHeader (seq &&& 1).toNat seq phase j'.status.recordCount
  onDevice DevM.flush
  modify fun j'' => { j'' with
    status := { j''.status with headerSequence := seq, phase } }

/-! ## 作成 -/

/-- 作成の途中で host が返す答え。 -/
structure CreateHost where
  /-- `std::filesystem::exists(path, ec)` -/
  pathExists : Result Bool
  /-- 一時 file の `open` と `ftruncate` -/
  createFile : Result Unit
  /-- `publish_file_noreplace` -/
  publish : Result Unit
  /-- 公開した path の開き直し -/
  reopen : Result Unit

/-- 零で埋まった `cap` byte の file。 -/
def freshFile (cap : Nat) (h : cap < 2 ^ 63) : Disk where
  sizeBytes := cap
  logicalSector := 512
  isBlockDevice := false
  writable := true
  data := fun _ => 0
  events := []
  size_lt := h

/-- 二つの header を書いて flush するまで。 -/
def writeInitialHeaders : JournalM Unit := do
  writeHeader 0 1 .prepared 0
  writeHeader 1 0 .prepared 0
  onDevice DevM.flush

/-- `create`。 -/
def create (host : CreateHost) (id : JournalIdentity) (cap : Nat) : Result TransactionJournal := do
  if cap < recordsOffset + recordBytes * 16 then
    throw { code := .invalidArgument, message := "journal capacity is too small" }
  match host.pathExists with
  | .error e =>
    throw { code := .openFailed
            message := "cannot inspect transaction journal path: " ++ e.message }
  | .ok true =>
    throw { code := .unsafeErr
            message := "refusing to overwrite existing transaction journal" }
  | .ok false => pure ()
  if h : cap < 2 ^ 63 then
    host.createFile
    let j : TransactionJournal := {
      device := freshFile cap h
      status := {
        identity := id, phase := .prepared, headerSequence := 1, recordsValid := true }
      writable := true }
    match Proc.run writeInitialHeaders j with
    | (.error e, _) => throw e
    | (.ok _, j') =>
      host.publish
      host.reopen
      return { j' with
        device := { j'.device with events := [] }
        status := { j'.status with headerAValid := true, headerBValid := true } }
  else
    throw { code := .unsupported, message := "requested file size exceeds host off_t" }

end TransactionJournal

end Fsx
