import Fsx.Journal.Effect

/-!
# 媒体の上の journal

媒体の像が header `h` と record の列 `recs` を保持していること（`Stored`）を定め、
`open` がそれを読み出すことを示す。

header の slot については、sequence の大きい方 `s` が有効であることに加えて、
次の書き込み先に関する条件を持つ。次の header は sequence の偶奇で決まる slot に書かれるので、
偶奇が `s` に一致していれば書き込み先は反対側である。一致していないとき
（`create` の直後と、その最初の書き込みが壊れた後）は `s` 自身が上書きされるから、
反対側が有効ならそれは同じ内容でなければならない。
-/

namespace Fsx

/-- `open` した journal の見え方。 -/
structure JournalView where
  identity : JournalIdentity
  phase : OperationPhase
  records : List JournalRecord
  deriving DecidableEq

/-- 記録された transaction id の最大。 -/
def JournalView.lastTransactionId (v : JournalView) : UInt64 :=
  v.records.foldl (fun m r => max m r.transactionId) 0

namespace TransactionJournal

/-- journal から `(identity, phase, records())` を取る。 -/
def view (j : TransactionJournal) : Result JournalView := do
  let rs ← records j
  return { identity := j.status.identity, phase := j.status.phase, records := rs }

/-- slot `s` の header。 -/
def slotHeader (img : Image) (s : Nat) : Result DecodedHeader :=
  decodeHeader (img.read (s * headerBytes) 4096)

/-- 二つの slot のうち、`s` が最新の header `h` を持つ。 -/
structure Slots (img : Image) (h : DecodedHeader) (s : Nat) : Prop where
  slot_lt : s < 2
  current : slotHeader img s = .ok h
  other : ∀ h', slotHeader img (1 - s) = .ok h' → h'.id = h.id ∧ h'.sequence < h.sequence ∧
    ((h.sequence &&& 1).toNat ≠ s → h'.phase = h.phase ∧ h'.recordCount = h.recordCount)

/-- 像が record の列を先頭から持つ。 -/
structure Held (size : Nat) (img : Image) (recs : List JournalRecord) : Prop where
  room : recordsOffset ≤ size
  size_lt : size < 2 ^ 63
  fits : recs.length ≤ capacityRecords size
  encoded : ∀ i r, recs[i]? = some r →
    img.read (recordsOffset + i * recordBytes) 128 = encodeRecord r
  contiguous : ∀ i r, recs[i]? = some r → r.sequence = UInt64.ofNat (i + 1)

/-- 像が header `h` と record の列 `recs` を保持する。 -/
structure Stored (size : Nat) (img : Image) (h : DecodedHeader) (recs : List JournalRecord)
    (s : Nat) : Prop where
  slots : Slots img h s
  held : Held size img recs
  count : h.recordCount.toNat = recs.length
  seq_le : h.sequence.toNat ≤ 2 * recs.length + 1

/-! ## `open` が読み出すもの -/

/-- `load` は二つの slot から header を選び、record を数える。 -/
theorem load_eq {d : Disk} (hroom : recordsOffset ≤ d.sizeBytes) :
    load d = (chooseHeader (slotHeader d.data 0) (slotHeader d.data 1) >>= fun h =>
      if h.recordCount.toNat > capacityRecords d.sizeBytes then
        .error { code := .corrupt, message := "journal record count exceeds journal capacity" }
      else loadRecords d h.recordCount.toNat 0 {
        identity := h.id
        phase := h.phase
        headerSequence := h.sequence
        recordCount := h.recordCount
        headerAValid := (slotHeader d.data 0).isOk
        headerBValid := (slotHeader d.data 1).isOk
        recordsValid := true }) := by
  have hsize : 8192 ≤ d.sizeBytes := hroom
  have ha : d.readExact 0 4096 = .ok (d.data.read 0 4096) := Disk.readExact_ok (by omega)
  have hb : d.readExact headerBytes 4096 = .ok (d.data.read headerBytes 4096) :=
    Disk.readExact_ok (by simp only [headerBytes]; omega)
  unfold load slotHeader
  rw [ha, hb, Result.ok_bind, Result.ok_bind, Nat.zero_mul, Nat.one_mul]
  rfl

theorem Slots.chooseHeader_eq {img : Image} {h : DecodedHeader} {s : Nat} (hs : Slots img h s) :
    chooseHeader (slotHeader img 0) (slotHeader img 1) = .ok h := by
  obtain ⟨hlt, hcur, hoth⟩ := hs
  obtain rfl | rfl : s = 0 ∨ s = 1 := by omega
  · rw [hcur]
    cases hb : slotHeader img 1 with
    | error e => rfl
    | ok b =>
      obtain ⟨hid, hseq, _⟩ := hoth b hb
      have hge : h.sequence ≥ b.sequence := UInt64.le_of_lt hseq
      simp only [chooseHeader, hid, ne_eq, not_true_eq_false, if_false, if_pos hge]
  · rw [hcur]
    cases ha : slotHeader img 0 with
    | error e => rfl
    | ok a =>
      obtain ⟨hid, hseq, _⟩ := hoth a ha
      have hnge : ¬ a.sequence ≥ h.sequence := UInt64.not_le.mpr hseq
      simp only [chooseHeader, hid, ne_eq, not_true_eq_false, if_false, if_neg hnge]

/-- 保持している record は一つずつ読める。 -/
theorem Held.readRecord {d : Disk} {recs : List JournalRecord} (hh : Held d.sizeBytes d.data recs)
    {i : Nat} {r : JournalRecord} (hi : recs[i]? = some r) :
    d.readExact (recordsOffset + i * recordBytes) 128 = .ok (encodeRecord r) := by
  have hlt : i < recs.length := (List.getElem?_eq_some_iff.mp hi).1
  have hfit := records_fit hh.room hh.fits
  have hroom : recordsOffset + i * recordBytes + 128 ≤ d.sizeBytes := by
    simp only [recordBytes] at hfit ⊢
    omega
  rw [Disk.readExact_ok hroom, hh.encoded i r hi]

theorem Held.loadRecords_eq {d : Disk} {recs : List JournalRecord}
    (hh : Held d.sizeBytes d.data recs) : ∀ (k i : Nat) (st : JournalStatus),
    i + k = recs.length → loadRecords d k i st = .ok ((recs.drop i).foldl JournalStatus.account st)
  | 0, i, st, hk => by
    rw [List.drop_of_length_le (by omega)]
    rfl
  | k + 1, i, st, hk => by
    have hlt : i < recs.length := by omega
    have hi : recs[i]? = some recs[i] := List.getElem?_eq_getElem hlt
    have hseq := hh.contiguous i _ hi
    rw [loadRecords, hh.readRecord hi, Result.ok_bind, decodeRecord_encodeRecord, Result.ok_bind,
      if_neg (by rw [hseq]; simp), List.drop_eq_getElem_cons hlt]
    exact hh.loadRecords_eq k (i + 1) _ (by omega)

theorem Held.readRecords_eq {d : Disk} {recs : List JournalRecord}
    (hh : Held d.sizeBytes d.data recs) : ∀ (k i : Nat), i + k = recs.length →
    readRecords d k i = .ok (recs.drop i)
  | 0, i, hk => by
    rw [List.drop_of_length_le (by omega)]
    rfl
  | k + 1, i, hk => by
    have hlt : i < recs.length := by omega
    have hi : recs[i]? = some recs[i] := List.getElem?_eq_getElem hlt
    rw [readRecords, hh.readRecord hi, Result.ok_bind, decodeRecord_encodeRecord, Result.ok_bind,
      hh.readRecords_eq k (i + 1) (by omega), Result.ok_bind, List.drop_eq_getElem_cons hlt]
    rfl

@[simp] theorem foldl_account_header (rs : List JournalRecord) (st : JournalStatus) :
    (rs.foldl JournalStatus.account st).header = st.header := by
  induction rs generalizing st with
  | nil => rfl
  | cons r rs ih => exact ih _

theorem foldl_account_lastTransactionId (rs : List JournalRecord) (st : JournalStatus) :
    (rs.foldl JournalStatus.account st).lastTransactionId =
      rs.foldl (fun m r => max m r.transactionId) st.lastTransactionId := by
  induction rs generalizing st with
  | nil => rfl
  | cons r rs ih => exact ih _

/-- 開いている journal が `v` を見せる。 -/
structure Live (j : TransactionJournal) (v : JournalView) : Prop where
  writable : j.writable = true
  device_writable : j.device.writable = true
  stored : ∃ s, Stored j.device.sizeBytes j.device.data j.status.header v.records s
  identity : j.status.identity = v.identity
  phase : j.status.phase = v.phase
  lastTransactionId : j.status.lastTransactionId = v.lastTransactionId

/-- **保持されている journal は開けて、その内容を見せる。** -/
theorem openFile_of_stored {d : Disk} {h : DecodedHeader} {recs : List JournalRecord} {s : Nat}
    (hst : Stored d.sizeBytes d.data h recs s) :
    ∃ j, openFile d true = .ok j ∧ j.status.header = h ∧
      j.device.sizeBytes = d.sizeBytes ∧ j.device.data = d.data ∧
      Live j { identity := h.id, phase := h.phase, records := recs } := by
  have hroom := hst.held.room
  have hcap : ¬ h.recordCount.toNat > capacityRecords d.sizeBytes := by
    rw [hst.count]
    exact Nat.not_lt.mpr hst.held.fits
  let d' : Disk := { d with writable := true, events := [] }
  let st0 : JournalStatus := {
    identity := h.id, phase := h.phase, headerSequence := h.sequence, recordCount := h.recordCount
    headerAValid := (slotHeader d.data 0).isOk, headerBValid := (slotHeader d.data 1).isOk
    recordsValid := true }
  have hload : load d' = .ok (recs.foldl JournalStatus.account st0) := by
    have hrecs : loadRecords d' h.recordCount.toNat 0 st0 = .ok (recs.foldl JournalStatus.account st0) :=
      Held.loadRecords_eq (by exact hst.held) _ 0 st0 (by rw [hst.count]; omega)
    rw [load_eq (by exact hroom), hst.slots.chooseHeader_eq, Result.ok_bind, if_neg hcap]
    exact hrecs
  have hhdr : (recs.foldl JournalStatus.account st0).header = h := foldl_account_header recs st0
  refine ⟨{ device := d', status := recs.foldl JournalStatus.account st0, writable := true }, ?_,
    hhdr, rfl, rfl, ?_⟩
  · unfold openFile
    dsimp only
    rw [hload]
    rfl
  · refine ⟨rfl, rfl, ⟨s, ?_⟩, congrArg DecodedHeader.id hhdr, congrArg DecodedHeader.phase hhdr, ?_⟩
    · show Stored d.sizeBytes d.data (recs.foldl JournalStatus.account st0).header recs s
      rw [hhdr]
      exact hst
    · exact foldl_account_lastTransactionId recs st0

/-- 開いている journal の `records()` は、保持している列である。 -/
theorem Live.view_eq {j : TransactionJournal} {v : JournalView} (hl : Live j v) :
    j.view = .ok v := by
  obtain ⟨s, hst⟩ := hl.stored
  have hcount : j.status.recordCount.toNat = v.records.length := hst.count
  have hrecs : records j = .ok v.records := by
    have h := hst.held.readRecords_eq j.status.recordCount.toNat 0 (by omega)
    rwa [List.drop_zero] at h
  unfold view
  rw [hrecs, hl.identity, hl.phase]
  rfl

/-- 二つの slot がともに読めないとき、`open` は失敗する。 -/
theorem openFile_both_invalid {d : Disk} (hroom : recordsOffset ≤ d.sizeBytes) {ea eb : Error}
    (ha : slotHeader d.data 0 = .error ea) (hb : slotHeader d.data 1 = .error eb) :
    openFile d true =
      .error { code := .corrupt, message := "both journal headers are invalid" } := by
  have hch : chooseHeader (slotHeader d.data 0) (slotHeader d.data 1) =
      .error { code := .corrupt, message := "both journal headers are invalid" } := by
    rw [ha, hb]; rfl
  unfold openFile
  dsimp only
  rw [load_eq (by exact hroom)]
  dsimp only
  rw [hch]
  rfl

end TransactionJournal

end Fsx
