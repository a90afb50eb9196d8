import Fsx.Journal.Model

/-!
# journal の操作が device に残すもの

`append_batch` と `checkpoint` が成功したときの event の列と status を、閉じた形で書く。
crash の議論はこの列だけを見る。
-/

namespace Fsx

/-- status が表す header。 -/
def JournalStatus.header (st : JournalStatus) : DecodedHeader :=
  { id := st.identity, sequence := st.headerSequence, phase := st.phase,
    recordCount := st.recordCount }

namespace TransactionJournal

/-! ## event の列 -/

/-- 位置 `n` から置いたときに付く sequence。 -/
def numbered (n : Nat) : List JournalRecord → List JournalRecord
  | [] => []
  | r :: rs => { r with sequence := UInt64.ofNat (n + 1) } :: numbered (n + 1) rs

/-- 位置 `n` から record を並べる書き込み。 -/
def recordWrites (n : Nat) : List JournalRecord → List Write
  | [] => []
  | r :: rs =>
    ⟨recordsOffset + n * recordBytes, encodeRecord { r with sequence := UInt64.ofNat (n + 1) }⟩
      :: recordWrites (n + 1) rs

/-- sequence の偶奇で選ばれる slot への header の書き込み。 -/
def headerWrite (h : DecodedHeader) : Write :=
  ⟨(h.sequence &&& 1).toNat * headerBytes, encodeHeader h⟩

/-- `append_batch` の後の header。 -/
def appendHeader (h : DecodedHeader) (rs : List JournalRecord) : DecodedHeader :=
  { h with sequence := h.sequence + 1, recordCount := h.recordCount + UInt64.ofNat rs.length }

/-- `append_batch` の event。 -/
def appendEvents (h : DecodedHeader) (rs : List JournalRecord) : List Event :=
  (recordWrites h.recordCount.toNat rs).map .write
    ++ [.flush, .write (headerWrite (appendHeader h rs)), .flush]

/-- `checkpoint` の後半で書く header。 -/
def phaseHeader (h : DecodedHeader) (phase : OperationPhase) : DecodedHeader :=
  { h with sequence := h.sequence + 1, phase }

/-- `checkpoint` の後半の event。 -/
def phaseEvents (h : DecodedHeader) (phase : OperationPhase) : List Event :=
  [.write (headerWrite (phaseHeader h phase)), .flush]

/-! ## 成功した操作 -/

@[simp] theorem run_onDevice {α : Type} (p : DevM α) (j : TransactionJournal) :
    Proc.run (onDevice p) j = ((Proc.run p j.device).1, { j with device := (Proc.run p j.device).2 }) :=
  rfl

theorem run_onDevice_write {j : TransactionJournal} {off : Nat} {bytes : Bytes}
    (hw : j.device.writable = true) (h : off + bytes.length ≤ j.device.sizeBytes) :
    Proc.run (onDevice (DevM.write off bytes)) j =
      (.ok (), { j with device := j.device.emit [.write ⟨off, bytes⟩] }) := by
  rw [run_onDevice, DevM.run_write_ok hw h]

theorem run_onDevice_flush (j : TransactionJournal) :
    Proc.run (onDevice DevM.flush) j =
      (.ok (), { j with device := j.device.emit [.flush] }) := by
  rw [run_onDevice, DevM.run_flush]

theorem run_writeRecords : ∀ (rs : List JournalRecord) (n : Nat) (j : TransactionJournal),
    j.device.writable = true →
    recordsOffset + (n + rs.length) * recordBytes ≤ j.device.sizeBytes →
    Proc.run (writeRecords n rs) j =
      (.ok (), { j with device := j.device.emit ((recordWrites n rs).map .write) })
  | [], n, j, _, _ => by
    simp only [writeRecords, recordWrites, List.map_nil, Disk.emit_nil, Proc.run_pure]
  | r :: rs, n, j, hw, hs => by
    have hlen : recordsOffset + n * recordBytes + 128 ≤ j.device.sizeBytes := by
      simp only [List.length_cons, recordBytes] at hs ⊢
      omega
    rw [writeRecords, Proc.run_bind_ok (run_onDevice_write hw (by rw [length_encodeRecord]; exact hlen))]
    refine (run_writeRecords rs (n + 1) _ (by exact hw) ?_).trans ?_
    · rw [show n + 1 + rs.length = n + (rs.length + 1) by omega]
      exact hs
    · simp only [Disk.emit_emit, recordWrites, List.map_cons, List.singleton_append]

theorem run_writeHeader {j : TransactionJournal} {slot : Nat} {seq : UInt64}
    {phase : OperationPhase} {count : UInt64} (hj : j.writable = true)
    (hw : j.device.writable = true) (hs : (slot + 1) * headerBytes ≤ j.device.sizeBytes) :
    Proc.run (writeHeader slot seq phase count) j =
      (.ok (), { j with device := j.device.emit [.write ⟨slot * headerBytes,
        encodeHeader { id := j.status.identity, sequence := seq, phase, recordCount := count }⟩] }) := by
  unfold writeHeader
  rw [Proc.run_bind_ok (Proc.run_get j), if_neg (by rw [hj]; decide)]
  refine run_onDevice_write hw ?_
  rw [length_encodeHeader]
  simp only [headerBytes] at hs ⊢
  omega

theorem slot_lt (seq : UInt64) : (seq &&& 1).toNat < 2 := by
  rw [UInt64.toNat_and]
  have : seq.toNat &&& (1 : UInt64).toNat ≤ (1 : UInt64).toNat := Nat.and_le_right
  exact Nat.lt_succ_of_le this

/-- 容量に収まる record は file に収まる。 -/
theorem records_fit {size n : Nat} (hs : recordsOffset ≤ size) (h : n ≤ capacityRecords size) :
    recordsOffset + n * recordBytes ≤ size := by
  unfold capacityRecords at h
  split at h
  · simp only [recordBytes] at h ⊢
    omega
  · rw [Nat.le_zero.mp h, Nat.zero_mul]
    exact hs

/-- `append_batch` の後の journal。 -/
def appended (j : TransactionJournal) (rs : List JournalRecord) : TransactionJournal :=
  { j with
    device := j.device.emit (appendEvents j.status.header rs)
    status := rs.foldl JournalStatus.account
      { j.status with
        headerSequence := j.status.headerSequence + 1
        recordCount := j.status.recordCount + UInt64.ofNat rs.length } }

/-- `checkpoint` の後の journal。 -/
def checkpointed (j : TransactionJournal) (phase : OperationPhase) : TransactionJournal :=
  let j' := appended j [checkpointRecord j.status phase]
  { j' with
    device := j'.device.emit (phaseEvents j'.status.header phase)
    status := { j'.status with headerSequence := j'.status.headerSequence + 1, phase } }

/-- 収まる `append_batch` は成功し、`appendEvents` を残す。 -/
theorem run_appendBatch {j : TransactionJournal} {rs : List JournalRecord} (hne : rs ≠ [])
    (hj : j.writable = true) (hw : j.device.writable = true)
    (hs : recordsOffset ≤ j.device.sizeBytes)
    (hcap : j.status.recordCount.toNat + rs.length ≤ capacityRecords j.device.sizeBytes) :
    Proc.run (appendBatch rs) j = (.ok (), appended j rs) := by
  have hroom : recordsOffset + (j.status.recordCount.toNat + rs.length) * recordBytes
      ≤ j.device.sizeBytes := records_fit hs hcap
  have hslot : ∀ s : UInt64, ((s &&& 1).toNat + 1) * headerBytes ≤ j.device.sizeBytes := by
    intro s
    have := slot_lt s
    simp only [recordsOffset, headerBytes] at hs ⊢
    omega
  unfold appendBatch
  rw [Proc.run_bind_ok (Proc.run_get j), if_neg (by rw [hj]; decide), if_neg hne]
  rw [if_neg (by omega)]
  rw [Proc.run_bind_ok (run_writeRecords rs _ j hw hroom), Proc.run_bind_ok (run_onDevice_flush _)]
  dsimp only
  rw [Proc.run_bind_ok (run_writeHeader (by exact hj) (by exact hw) (by exact hslot _)),
    Proc.run_bind_ok (run_onDevice_flush _), Proc.run_modify]
  simp only [Disk.emit_emit, appended, appendEvents, headerWrite, appendHeader,
    JournalStatus.header,
    List.append_assoc, List.cons_append, List.nil_append]

/-- 収まらない `append_batch` は何も残さない。 -/
theorem run_appendBatch_full {j : TransactionJournal} {rs : List JournalRecord} (hne : rs ≠ [])
    (hj : j.writable = true)
    (hcap : capacityRecords j.device.sizeBytes < j.status.recordCount.toNat + rs.length) :
    Proc.run (appendBatch rs) j =
      (.error { code := .io, message := "journal is full" }, j) := by
  unfold appendBatch
  rw [Proc.run_bind_ok (Proc.run_get j), if_neg (by rw [hj]; decide), if_neg hne]
  rw [if_pos (by omega)]
  rfl

theorem run_appendBatch_nil {j : TransactionJournal} (hj : j.writable = true) :
    Proc.run (appendBatch []) j = (.ok (), j) := by
  unfold appendBatch
  rw [Proc.run_bind_ok (Proc.run_get j), if_neg (by rw [hj]; decide), if_pos rfl]
  rfl

/-- 収まる `checkpoint` は成功する。 -/
theorem run_checkpoint {j : TransactionJournal} {phase : OperationPhase}
    (hj : j.writable = true) (hw : j.device.writable = true)
    (hs : recordsOffset ≤ j.device.sizeBytes)
    (hcap : j.status.recordCount.toNat + 1 ≤ capacityRecords j.device.sizeBytes) :
    Proc.run (checkpoint phase) j = (.ok (), checkpointed j phase) := by
  have happ : Proc.run (appendBatch [checkpointRecord j.status phase]) j =
      (.ok (), appended j [checkpointRecord j.status phase]) :=
    run_appendBatch (by simp) hj hw hs hcap
  have hslot : ∀ s : UInt64, ((s &&& 1).toNat + 1) * headerBytes ≤ j.device.sizeBytes := by
    intro s
    have := slot_lt s
    simp only [recordsOffset, headerBytes] at hs ⊢
    omega
  unfold checkpoint
  rw [Proc.run_bind_ok (Proc.run_get j), if_neg (by rw [hj]; decide), append,
    Proc.run_bind_ok happ, Proc.run_bind_ok (Proc.run_get _)]
  dsimp only
  rw [Proc.run_bind_ok (run_writeHeader (by exact hj) (by exact hw) (by exact hslot _)),
    Proc.run_bind_ok (run_onDevice_flush _), Proc.run_modify]
  simp only [Disk.emit_emit, checkpointed, appended, phaseEvents, headerWrite, phaseHeader,
    JournalStatus.header, List.append_assoc, List.cons_append, List.nil_append]

theorem run_checkpoint_full {j : TransactionJournal} {phase : OperationPhase}
    (hj : j.writable = true)
    (hcap : capacityRecords j.device.sizeBytes < j.status.recordCount.toNat + 1) :
    Proc.run (checkpoint phase) j =
      (.error { code := .io, message := "journal is full" }, j) := by
  have hfull : Proc.run (appendBatch [checkpointRecord j.status phase]) j =
      (.error { code := .io, message := "journal is full" }, j) :=
    run_appendBatch_full (by simp) hj hcap
  unfold checkpoint
  rw [Proc.run_bind_ok (Proc.run_get j), if_neg (by rw [hj]; decide), append]
  dsimp only
  rw [Proc.run_bind_error hfull]

end TransactionJournal

end Fsx
