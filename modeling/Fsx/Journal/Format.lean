import Fsx.Core.Crc
import Fsx.Core.Error

/-!
# transaction journal の形式（`src/transaction/journal.cpp`）

4096 byte の header と 128 byte の record の encode と decode。

どちらも「零の buffer に field を順に書き、末尾に CRC32C を書く」形である。
decode は末尾を零に戻してから CRC を取り直すが、CRC の範囲は末尾の手前までなので、
零に戻すことは値に影響しない（`take_patch_of_le`）。
-/

namespace Fsx

/-! ## 値 -/

/-- 16 byte の UUID。長さを型に持たせる。 -/
def Uuid := { b : Bytes // b.length = 16 }

instance : DecidableEq Uuid := inferInstanceAs (DecidableEq { b : Bytes // b.length = 16 })

namespace Uuid

/-- `std::copy_n(…, 16, …)`。 -/
def ofBytes (b : Bytes) : Uuid :=
  ⟨(b ++ zeros 16).take 16, by
    rw [List.length_take, List.length_append, length_zeros]; omega⟩

@[simp] theorem length_val (u : Uuid) : u.1.length = 16 := u.2

theorem ofBytes_val (u : Uuid) : ofBytes u.1 = u := by
  apply Subtype.ext
  show (u.1 ++ zeros 16).take 16 = u.1
  rw [List.take_append_of_le_length (by rw [u.2]), List.take_of_length_le (by rw [u.2])]

end Uuid

inductive OperationPhase where
  | prepared | relocating | paused | metadataFinalize | filesystemShrunk | partitionPending
  | complete | failed | staged | metadataPaused | compacted
  deriving DecidableEq, Repr

namespace OperationPhase

/-- `enum class OperationPhase : std::uint32_t` の値。 -/
def code : OperationPhase → Nat
  | prepared => 1
  | relocating => 2
  | paused => 3
  | metadataFinalize => 4
  | filesystemShrunk => 5
  | partitionPending => 6
  | complete => 7
  | failed => 8
  | staged => 9
  | metadataPaused => 10
  | compacted => 11

/-- 値から phase を引く。1 から 11 の外は `none`。 -/
def ofCode : Nat → Option OperationPhase
  | 1 => some prepared
  | 2 => some relocating
  | 3 => some paused
  | 4 => some metadataFinalize
  | 5 => some filesystemShrunk
  | 6 => some partitionPending
  | 7 => some complete
  | 8 => some failed
  | 9 => some staged
  | 10 => some metadataPaused
  | 11 => some compacted
  | _ => none

@[simp] theorem ofCode_code (p : OperationPhase) : ofCode p.code = some p := by cases p <;> rfl

theorem code_lt (p : OperationPhase) : p.code < 12 := by cases p <;> decide

end OperationPhase

inductive JournalRecordType where
  | relocationIntent | copyVerified | metadataCommitted | checkpoint | note
  | destinationReserved | ownerSwitched | sourceReleased | filesystemMarkedDirty
  | filesystemMarkedClean | partitionIntent | partitionCommitted
  deriving DecidableEq, Repr

namespace JournalRecordType

/-- `enum class JournalRecordType : std::uint16_t` の値。 -/
def code : JournalRecordType → Nat
  | relocationIntent => 1
  | copyVerified => 2
  | metadataCommitted => 3
  | checkpoint => 4
  | note => 5
  | destinationReserved => 6
  | ownerSwitched => 7
  | sourceReleased => 8
  | filesystemMarkedDirty => 9
  | filesystemMarkedClean => 10
  | partitionIntent => 11
  | partitionCommitted => 12

/-- 値から type を引く。1 から 12 の外は `none`。 -/
def ofCode : Nat → Option JournalRecordType
  | 1 => some relocationIntent
  | 2 => some copyVerified
  | 3 => some metadataCommitted
  | 4 => some checkpoint
  | 5 => some note
  | 6 => some destinationReserved
  | 7 => some ownerSwitched
  | 8 => some sourceReleased
  | 9 => some filesystemMarkedDirty
  | 10 => some filesystemMarkedClean
  | 11 => some partitionIntent
  | 12 => some partitionCommitted
  | _ => none

@[simp] theorem ofCode_code (t : JournalRecordType) : ofCode t.code = some t := by cases t <;> rfl

theorem code_lt (t : JournalRecordType) : t.code < 13 := by cases t <;> decide

end JournalRecordType

structure JournalIdentity where
  operationUuid : Uuid
  filesystemUuid : Uuid
  deviceSize : UInt64
  targetSize : UInt64
  deriving DecidableEq

structure JournalRecord where
  type : JournalRecordType := .note
  sequence : UInt64 := 0
  transactionId : UInt64 := 0
  sourceBlock : UInt64 := 0
  destinationBlock : UInt64 := 0
  blockCount : UInt64 := 0
  inode : UInt64 := 0
  aux : UInt64 := 0
  dataCrc32c : UInt32 := 0
  state : UInt32 := 0
  deriving DecidableEq, Repr

/-- `decode_header` の結果。 -/
structure DecodedHeader where
  id : JournalIdentity
  sequence : UInt64
  phase : OperationPhase
  recordCount : UInt64
  deriving DecidableEq

def headerBytes : Nat := 4096
def recordsOffset : Nat := headerBytes * 2
def recordBytes : Nat := 128

/-- `"FSXJNL10"`。 -/
def headerMagic : Bytes := [0x46, 0x53, 0x58, 0x4a, 0x4e, 0x4c, 0x31, 0x30]

def headerVersion : Nat := 1
def recordMagic : Nat := 0x52585346
def recordVersion : Nat := 1

/-! ## header -/

/-- CRC を書く前の header。 -/
def headerBody (h : DecodedHeader) : Bytes :=
  let b := patch (zeros 4096) 0 headerMagic
  let b := writeLe 4 b 8 headerVersion
  let b := writeLe 4 b 12 4096
  let b := writeLe 8 b 16 h.sequence.toNat
  let b := patch b 24 h.id.operationUuid.1
  let b := patch b 40 h.id.filesystemUuid.1
  let b := writeLe 8 b 56 h.id.deviceSize.toNat
  let b := writeLe 8 b 64 h.id.targetSize.toNat
  let b := writeLe 4 b 72 h.phase.code
  let b := writeLe 8 b 80 h.recordCount.toNat
  let b := writeLe 8 b 88 recordBytes
  let b := writeLe 8 b 96 recordsOffset
  writeLe 4 b 4092 0

/-- `encode_header`。 -/
def encodeHeader (h : DecodedHeader) : Bytes :=
  writeLe 4 (headerBody h) 4092 (crc32cFinal ((headerBody h).take 4092)).toNat

/-- `decode_header`。 -/
def decodeHeader (b : Bytes) : Result DecodedHeader := do
  if b.length < 4096 then
    throw { code := .corrupt, message := "journal header is truncated" }
  if slice b 0 8 ≠ headerMagic then
    throw { code := .corrupt, message := "journal header magic mismatch" }
  if readLe 4 b 8 ≠ headerVersion ∨ readLe 4 b 12 ≠ 4096 then
    throw { code := .unsupported, message := "unsupported journal header version" }
  let stored := readLe 4 b 4092
  let tmp := writeLe 4 (b.take 4096) 4092 0
  if stored ≠ (crc32cFinal (tmp.take 4092)).toNat then
    throw { code := .corrupt, message := "journal header checksum mismatch" }
  let some phase := OperationPhase.ofCode (readLe 4 b 72)
    | throw { code := .corrupt, message := "invalid journal phase" }
  if readLe 8 b 88 ≠ recordBytes ∨ readLe 8 b 96 ≠ recordsOffset then
    throw { code := .unsupported, message := "unsupported journal record layout" }
  return {
    id := {
      operationUuid := Uuid.ofBytes (slice b 24 16)
      filesystemUuid := Uuid.ofBytes (slice b 40 16)
      deviceSize := UInt64.ofNat (readLe 8 b 56)
      targetSize := UInt64.ofNat (readLe 8 b 64) }
    sequence := UInt64.ofNat (readLe 8 b 16)
    phase := phase
    recordCount := UInt64.ofNat (readLe 8 b 80) }

/-! ## record -/

/-- CRC を書く前の record。 -/
def recordBody (r : JournalRecord) : Bytes :=
  let b := writeLe 4 (zeros 128) 0 recordMagic
  let b := writeLe 2 b 4 recordVersion
  let b := writeLe 2 b 6 r.type.code
  let b := writeLe 8 b 8 r.sequence.toNat
  let b := writeLe 8 b 16 r.transactionId.toNat
  let b := writeLe 8 b 24 r.sourceBlock.toNat
  let b := writeLe 8 b 32 r.destinationBlock.toNat
  let b := writeLe 8 b 40 r.blockCount.toNat
  let b := writeLe 8 b 48 r.inode.toNat
  let b := writeLe 8 b 56 r.aux.toNat
  let b := writeLe 4 b 64 r.dataCrc32c.toNat
  let b := writeLe 4 b 68 r.state.toNat
  writeLe 4 b 124 0

/-- `encode_record`。 -/
def encodeRecord (r : JournalRecord) : Bytes :=
  writeLe 4 (recordBody r) 124 (crc32cFinal ((recordBody r).take 124)).toNat

/-- `decode_record`。 -/
def decodeRecord (b : Bytes) : Result JournalRecord := do
  if b.length < 128 ∨ readLe 4 b 0 ≠ recordMagic ∨ readLe 2 b 4 ≠ recordVersion then
    throw { code := .corrupt, message := "journal record header invalid" }
  let stored := readLe 4 b 124
  let tmp := writeLe 4 (b.take 128) 124 0
  if stored ≠ (crc32cFinal (tmp.take 124)).toNat then
    throw { code := .corrupt, message := "journal record checksum mismatch" }
  let some type := JournalRecordType.ofCode (readLe 2 b 6)
    | throw { code := .corrupt, message := "journal record type invalid" }
  return {
    type := type
    sequence := UInt64.ofNat (readLe 8 b 8)
    transactionId := UInt64.ofNat (readLe 8 b 16)
    sourceBlock := UInt64.ofNat (readLe 8 b 24)
    destinationBlock := UInt64.ofNat (readLe 8 b 32)
    blockCount := UInt64.ofNat (readLe 8 b 40)
    inode := UInt64.ofNat (readLe 8 b 48)
    aux := UInt64.ofNat (readLe 8 b 56)
    dataCrc32c := UInt32.ofNat (readLe 4 b 64)
    state := UInt32.ofNat (readLe 4 b 68) }

/-! ## 往復 -/

@[simp] theorem length_headerBody (h : DecodedHeader) : (headerBody h).length = 4096 := by
  simp only [headerBody, length_writeLe, length_patch, length_zeros]

@[simp] theorem length_encodeHeader (h : DecodedHeader) : (encodeHeader h).length = 4096 := by
  simp only [encodeHeader, length_writeLe, length_headerBody]

@[simp] theorem length_recordBody (r : JournalRecord) : (recordBody r).length = 128 := by
  simp only [recordBody, length_writeLe, length_zeros]

@[simp] theorem length_encodeRecord (r : JournalRecord) : (encodeRecord r).length = 128 := by
  simp only [encodeRecord, length_writeLe, length_recordBody]

/-- header の field を読み戻す。 -/
theorem encodeHeader_fields (h : DecodedHeader) :
    slice (encodeHeader h) 0 8 = headerMagic ∧
    readLe 4 (encodeHeader h) 8 = headerVersion ∧
    readLe 4 (encodeHeader h) 12 = 4096 ∧
    readLe 8 (encodeHeader h) 16 = h.sequence.toNat ∧
    slice (encodeHeader h) 24 16 = h.id.operationUuid.1 ∧
    slice (encodeHeader h) 40 16 = h.id.filesystemUuid.1 ∧
    readLe 8 (encodeHeader h) 56 = h.id.deviceSize.toNat ∧
    readLe 8 (encodeHeader h) 64 = h.id.targetSize.toNat ∧
    readLe 4 (encodeHeader h) 72 = h.phase.code ∧
    readLe 8 (encodeHeader h) 80 = h.recordCount.toNat ∧
    readLe 8 (encodeHeader h) 88 = recordBytes ∧
    readLe 8 (encodeHeader h) 96 = recordsOffset := by
  unfold encodeHeader headerBody
  have hs : h.sequence.toNat < 256 ^ 8 := h.sequence.toNat_lt
  have hd : h.id.deviceSize.toNat < 256 ^ 8 := h.id.deviceSize.toNat_lt
  have ht : h.id.targetSize.toNat < 256 ^ 8 := h.id.targetSize.toNat_lt
  have hc : h.recordCount.toNat < 256 ^ 8 := h.recordCount.toNat_lt
  have hp : h.phase.code < 256 ^ 4 := lt_trans h.phase.code_lt (by decide)
  simp (disch := first | omega | simp) only [slice_writeLe_of_disjoint, slice_patch_of_disjoint,
    slice_patch_self, readLe_writeLe_self, readLe_writeLe_of_disjoint, readLe_patch_of_disjoint,
    Nat.mod_eq_of_lt hs, Nat.mod_eq_of_lt hd, Nat.mod_eq_of_lt ht, Nat.mod_eq_of_lt hc,
    Nat.mod_eq_of_lt hp, true_and]
  exact ⟨slice_patch_self rfl (by simp), by decide, by decide, by decide, by decide⟩

/-- header の末尾は、その手前までの CRC である。 -/
theorem encodeHeader_crc (h : DecodedHeader) :
    readLe 4 (encodeHeader h) 4092 = (crc32cFinal ((encodeHeader h).take 4092)).toNat := by
  unfold encodeHeader
  have hc := (crc32cFinal ((headerBody h).take 4092)).toNat_lt
  rw [readLe_writeLe_self (by simp), Nat.mod_eq_of_lt (lt_of_lt_of_le hc (by decide)), writeLe,
    take_patch_of_le (by omega)]

/-- **header は読み戻せる。** -/
theorem decodeHeader_encodeHeader (h : DecodedHeader) : decodeHeader (encodeHeader h) = .ok h := by
  obtain ⟨hmagic, hver, hsize, hseq, hop, hfs, hdev, htgt, hph, hcnt, hrb, hro⟩ :=
    encodeHeader_fields h
  have htmp : (writeLe 4 ((encodeHeader h).take 4096) 4092 0).take 4092
      = (encodeHeader h).take 4092 := by
    rw [writeLe, take_patch_of_le (by omega), List.take_take, Nat.min_eq_left (by omega)]
  unfold decodeHeader
  simp only [length_encodeHeader, hmagic, hver, hsize, encodeHeader_crc, htmp, hph, hrb, hro, hseq,
    hop, hfs, hdev, htgt, hcnt, OperationPhase.ofCode_code, Uuid.ofBytes_val, UInt64.ofNat_toNat,
    lt_irrefl, ne_eq, not_true_eq_false, or_self, if_false]
  rfl

/-- record の field を読み戻す。 -/
theorem encodeRecord_fields (r : JournalRecord) :
    readLe 4 (encodeRecord r) 0 = recordMagic ∧
    readLe 2 (encodeRecord r) 4 = recordVersion ∧
    readLe 2 (encodeRecord r) 6 = r.type.code ∧
    readLe 8 (encodeRecord r) 8 = r.sequence.toNat ∧
    readLe 8 (encodeRecord r) 16 = r.transactionId.toNat ∧
    readLe 8 (encodeRecord r) 24 = r.sourceBlock.toNat ∧
    readLe 8 (encodeRecord r) 32 = r.destinationBlock.toNat ∧
    readLe 8 (encodeRecord r) 40 = r.blockCount.toNat ∧
    readLe 8 (encodeRecord r) 48 = r.inode.toNat ∧
    readLe 8 (encodeRecord r) 56 = r.aux.toNat ∧
    readLe 4 (encodeRecord r) 64 = r.dataCrc32c.toNat ∧
    readLe 4 (encodeRecord r) 68 = r.state.toNat := by
  unfold encodeRecord recordBody
  have h64 : ∀ x : UInt64, x.toNat % 256 ^ 8 = x.toNat := fun x => Nat.mod_eq_of_lt x.toNat_lt
  have h32 : ∀ x : UInt32, x.toNat % 256 ^ 4 = x.toNat := fun x => Nat.mod_eq_of_lt x.toNat_lt
  have ht : r.type.code < 256 ^ 2 := lt_trans r.type.code_lt (by decide)
  simp (disch := first | omega | simp) only [readLe_writeLe_self, readLe_writeLe_of_disjoint, h64,
    h32, Nat.mod_eq_of_lt ht, and_true]
  decide

theorem encodeRecord_crc (r : JournalRecord) :
    readLe 4 (encodeRecord r) 124 = (crc32cFinal ((encodeRecord r).take 124)).toNat := by
  unfold encodeRecord
  have hc := (crc32cFinal ((recordBody r).take 124)).toNat_lt
  rw [readLe_writeLe_self (by simp), Nat.mod_eq_of_lt (lt_of_lt_of_le hc (by decide)), writeLe,
    take_patch_of_le (by omega)]

/-- **record は読み戻せる。** -/
theorem decodeRecord_encodeRecord (r : JournalRecord) : decodeRecord (encodeRecord r) = .ok r := by
  obtain ⟨hmagic, hver, htype, hseq, htx, hsrc, hdst, hcnt, hino, haux, hcrc, hst⟩ :=
    encodeRecord_fields r
  have htmp : (writeLe 4 ((encodeRecord r).take 128) 124 0).take 124
      = (encodeRecord r).take 124 := by
    rw [writeLe, take_patch_of_le (by omega), List.take_take, Nat.min_eq_left (by omega)]
  unfold decodeRecord
  simp only [length_encodeRecord, hmagic, hver, htype, encodeRecord_crc, htmp, hseq, htx, hsrc,
    hdst, hcnt, hino, haux, hcrc, hst, JournalRecordType.ofCode_code, UInt64.ofNat_toNat,
    UInt32.ofNat_toNat, lt_irrefl, ne_eq, not_true_eq_false, or_self, if_false]
  rfl

end Fsx
