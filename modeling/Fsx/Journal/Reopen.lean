import Fsx.Journal.Crash

/-!
# journal の開き直し

開いている journal は、書くたびに status を少しずつ直す。`open` は二つの slot から header を選び、
record を先頭から数え直す。二つの道筋は同じ status に着く。

ここでは `create` の作った file に限らず、`open` を通ったどの file から始めてもよい。
そのような file では record の余白に何が書かれていてもよいので、像が持つのは encode した列そのものでなく、
decode すると record になる列である（`Shows`）。
-/

namespace Fsx

namespace TransactionJournal

open JournalState

/-! ## 選ばれる header -/

/-- 選ばれた header は、読めたどの header とも同じ identity を持ち、sequence では負けない。 -/
theorem le_of_chooseHeader {x y : Result DecodedHeader} {h g : DecodedHeader}
    (hch : chooseHeader x y = .ok h) (hg : x = .ok g ∨ y = .ok g) :
    g.id = h.id ∧ g.sequence ≤ h.sequence := by
  cases x with
  | error e =>
    cases y with
    | error e' => cases hch
    | ok b =>
      cases hch
      rcases hg with hg | hg
      · cases hg
      · cases hg
        exact ⟨rfl, UInt64.le_refl _⟩
  | ok a =>
    cases y with
    | error e' =>
      cases hch
      rcases hg with hg | hg
      · cases hg
        exact ⟨rfl, UInt64.le_refl _⟩
      · cases hg
    | ok b =>
      unfold chooseHeader at hch
      dsimp only at hch
      split at hch
      · cases hch
      · next hid =>
        have hid' : a.id = b.id := not_not.mp hid
        cases hch
        by_cases hge : a.sequence ≥ b.sequence
        · rw [if_pos hge]
          rcases hg with hg | hg
          · cases hg
            exact ⟨rfl, UInt64.le_refl _⟩
          · cases hg
            exact ⟨hid'.symm, hge⟩
        · rw [if_neg hge]
          rcases hg with hg | hg
          · cases hg
            exact ⟨hid', UInt64.le_of_lt (UInt64.not_le.mp hge)⟩
          · cases hg
            exact ⟨rfl, UInt64.le_refl _⟩

/-- **次の sequence の header を書けば、どちらの slot に書いても、それが選ばれる。** -/
theorem chooseHeader_write {img : Image} {h h' : DecodedHeader}
    (hch : chooseHeader (slotHeader img 0) (slotHeader img 1) = .ok h) (hid : h'.id = h.id)
    (hlt : h.sequence < h'.sequence) :
    chooseHeader (slotHeader (img.apply (headerWrite h')) 0) (slotHeader (img.apply (headerWrite h')) 1) =
      .ok h' := by
  have hbound : ∀ s < 2, ∀ g, slotHeader img s = .ok g → g.id = h'.id ∧ g.sequence < h'.sequence := by
    intro s hs g hg
    have hor : slotHeader img 0 = .ok g ∨ slotHeader img 1 = .ok g := by
      rcases Nat.lt_or_ge s 1 with h0 | h1
      · exact Or.inl (by rwa [show s = 0 by omega] at hg)
      · exact Or.inr (by rwa [show s = 1 by omega] at hg)
    obtain ⟨h1, h2⟩ := le_of_chooseHeader hch hor
    exact ⟨h1.trans hid.symm, UInt64.lt_of_le_of_lt h2 hlt⟩
  have hself : ∀ s, slotHeader (img.write (s * headerBytes) (encodeHeader h')) s = .ok h' := fun s => by
    rw [slotHeader_write_self _ _ (length_encodeHeader _), decodeHeader_encodeHeader]
  show chooseHeader (slotHeader (img.write _ _) 0) (slotHeader (img.write _ _) 1) = .ok h'
  have hs := slot_lt h'.sequence
  dsimp only [headerWrite]
  generalize (h'.sequence &&& 1).toNat = s at hs
  rcases Nat.lt_or_ge s 1 with h0 | h1
  · rw [show s = 0 by omega, hself,
      slotHeader_write_other _ (show 0 ≠ 1 by decide) (length_encodeHeader _)]
    cases hb : slotHeader img 1 with
    | error e => rfl
    | ok b =>
      obtain ⟨hbid, hblt⟩ := hbound 1 (by decide) b hb
      simp only [chooseHeader, hbid, ne_eq, not_true_eq_false, if_false,
        if_pos (show h'.sequence ≥ b.sequence from UInt64.le_of_lt hblt)]
  · rw [show s = 1 by omega, hself,
      slotHeader_write_other _ (show 1 ≠ 0 by decide) (length_encodeHeader _)]
    cases ha : slotHeader img 0 with
    | error e => rfl
    | ok a =>
      obtain ⟨haid, halt⟩ := hbound 0 (by decide) a ha
      simp only [chooseHeader, haid, ne_eq, not_true_eq_false, if_false,
        if_neg (show ¬ a.sequence ≥ h'.sequence from UInt64.not_le.mpr halt)]

/-! ## record の列 -/

/-- 像が、decode すると `recs` になる列を先頭から持つ。 -/
structure Decodes (img : Image) (recs : List JournalRecord) : Prop where
  decoded : ∀ i r, recs[i]? = some r →
    decodeRecord (img.read (recordsOffset + i * recordBytes) 128) = .ok r
  contiguous : ∀ i r, recs[i]? = some r → r.sequence = UInt64.ofNat (i + 1)

theorem Decodes.congr {img img' : Image} {recs : List JournalRecord} (h : Decodes img recs)
    (hsame : ∀ i < recs.length, img'.read (recordsOffset + i * recordBytes) 128 =
      img.read (recordsOffset + i * recordBytes) 128) : Decodes img' recs where
  contiguous := h.contiguous
  decoded i r hi := by
    rw [hsame i (List.getElem?_eq_some_iff.mp hi).1]
    exact h.decoded i r hi

theorem decodes_nil (img : Image) : Decodes img [] where
  decoded _ _ hi := by cases hi
  contiguous _ _ hi := by cases hi

/-- 続けて書いた record も、番号の付いた形で読める。 -/
theorem Decodes.append {img : Image} {recs : List JournalRecord} (h : Decodes img recs)
    (rs : List JournalRecord) : Decodes (img.applyAll (recordWrites recs.length rs))
      (recs ++ numbered recs.length rs) where
  decoded i r hi := by
    rcases Nat.lt_or_ge i recs.length with hlt | hge
    · rw [List.getElem?_append_left hlt] at hi
      rw [Image.read_applyAll_of_disjoint]
      · exact h.decoded i r hi
      · intro w hw
        obtain ⟨hoff, -⟩ := mem_recordWrites hw
        simp only [recordBytes] at hoff ⊢
        omega
    · rw [List.getElem?_append_right hge] at hi
      have hread := read_applyAll_recordWrites img hi
      rw [show recs.length + (i - recs.length) = i by omega] at hread
      rw [hread, decodeRecord_encodeRecord]
  contiguous i r hi := by
    rcases Nat.lt_or_ge i recs.length with hlt | hge
    · rw [List.getElem?_append_left hlt] at hi
      exact h.contiguous i r hi
    · rw [List.getElem?_append_right hge] at hi
      rw [numbered_sequence hi]
      congr 1
      omega

section Load

variable {d : Disk} {recs : List JournalRecord} (h : Decodes d.data recs)
  (hroom : recordsOffset + recs.length * recordBytes ≤ d.sizeBytes)
include h hroom

theorem Decodes.readRecord {i : Nat} (hi : i < recs.length) : ∃ b,
    d.readExact (recordsOffset + i * recordBytes) 128 = .ok b ∧ decodeRecord b = .ok recs[i] := by
  refine ⟨_, Disk.readExact_ok ?_, h.decoded i _ (List.getElem?_eq_getElem hi)⟩
  simp only [recordBytes] at hroom ⊢
  omega

/-- `load` のループは、持っている列をすべて数える。 -/
theorem Decodes.loadRecords_eq : ∀ (k i : Nat) (st : JournalStatus), i + k = recs.length →
    loadRecords d k i st = .ok ((recs.drop i).foldl JournalStatus.account st)
  | 0, i, st, hk => by
    rw [List.drop_of_length_le (by omega)]
    rfl
  | k + 1, i, st, hk => by
    have hlt : i < recs.length := by omega
    obtain ⟨b, hb, hdec⟩ := h.readRecord hroom hlt
    have hseq := h.contiguous i _ (List.getElem?_eq_getElem hlt)
    rw [loadRecords, hb, Result.ok_bind, hdec, Result.ok_bind, if_neg (by rw [hseq]; simp),
      List.drop_eq_getElem_cons hlt]
    exact Decodes.loadRecords_eq k (i + 1) _ (by omega)

theorem Decodes.readRecords_eq : ∀ (k i : Nat), i + k = recs.length →
    readRecords d k i = .ok (recs.drop i)
  | 0, i, hk => by
    rw [List.drop_of_length_le (by omega)]
    rfl
  | k + 1, i, hk => by
    have hlt : i < recs.length := by omega
    obtain ⟨b, hb, hdec⟩ := h.readRecord hroom hlt
    rw [readRecords, hb, Result.ok_bind, hdec, Result.ok_bind,
      Decodes.readRecords_eq k (i + 1) (by omega), Result.ok_bind, List.drop_eq_getElem_cons hlt]
    rfl

end Load

/-- `load` が通ったなら、像はそれだけの record を持つ。 -/
theorem decodes_of_loadRecords {d : Disk} : ∀ (k : Nat) (recs : List JournalRecord)
    (st st' : JournalStatus), Decodes d.data recs → loadRecords d k recs.length st = .ok st' →
    ∃ rest, rest.length = k ∧ Decodes d.data (recs ++ rest) ∧ st' = rest.foldl JournalStatus.account st
  | 0, recs, st, st', hd, h => by
    cases h
    exact ⟨[], rfl, by rwa [List.append_nil], rfl⟩
  | k + 1, recs, st, st', hd, h => by
    rw [loadRecords] at h
    obtain ⟨b, hb, hk⟩ := Result.bind_eq_ok h
    obtain ⟨r, hr, hk⟩ := Result.bind_eq_ok hk
    rw [Result.guard_bind_eq_ok_iff] at hk
    obtain ⟨hseq, hrec⟩ := hk
    obtain ⟨-, rfl⟩ := Disk.readExact_eq_ok_iff.mp hb
    have hd' : Decodes d.data (recs ++ [r]) := by
      have hat : ∀ i q, (recs ++ [r])[i]? = some q → recs[i]? = some q ∨ i = recs.length ∧ q = r := by
        intro i q hi
        rcases Nat.lt_or_ge i recs.length with hlt | hge
        · rw [List.getElem?_append_left hlt] at hi
          exact Or.inl hi
        · rw [List.getElem?_append_right hge] at hi
          obtain ⟨hlen, hq⟩ := List.getElem?_eq_some_iff.mp hi
          rw [List.length_singleton] at hlen
          refine Or.inr ⟨by omega, ?_⟩
          rw [← hq]
          simp
      refine ⟨fun i q hi => ?_, fun i q hi => ?_⟩
      · rcases hat i q hi with hi | ⟨rfl, rfl⟩
        · exact hd.decoded i q hi
        · exact hr
      · rcases hat i q hi with hi | ⟨rfl, rfl⟩
        · exact hd.contiguous i q hi
        · exact not_not.mp hseq
    obtain ⟨rest, hlen, hrest, hst⟩ := decodes_of_loadRecords k (recs ++ [r]) _ st' hd' (by
      rw [List.length_append, List.length_singleton]
      exact hrec)
    refine ⟨r :: rest, by rw [List.length_cons, hlen], ?_, hst⟩
    rwa [List.append_assoc, List.singleton_append] at hrest

/-! ## 開いている journal -/

/-- commit 済みの record の数。 -/
def committedCount (recs : List JournalRecord) : UInt64 :=
  recs.foldl (fun n r => if r.type = .metadataCommitted then n + 1 else n) 0

/-- 記録された transaction id の最大。 -/
def lastId (recs : List JournalRecord) : UInt64 := recs.foldl (fun m r => max m r.transactionId) 0

/-- status が、device の上の列 `recs` のものである。 -/
structure Shows (d : Disk) (st : JournalStatus) (recs : List JournalRecord) : Prop where
  room : recordsOffset ≤ d.sizeBytes
  header : chooseHeader (slotHeader d.data 0) (slotHeader d.data 1) = .ok st.header
  count : st.recordCount.toNat = recs.length
  fits : recs.length ≤ capacityRecords d.sizeBytes
  decodes : Decodes d.data recs
  lastTransactionId : st.lastTransactionId = lastId recs
  committedTransactions : st.committedTransactions = committedCount recs

/-- 公開された status。slot の有効な印は含まない。 -/
structure SameStatus (a b : JournalStatus) : Prop where
  identity : a.identity = b.identity
  phase : a.phase = b.phase
  headerSequence : a.headerSequence = b.headerSequence
  recordCount : a.recordCount = b.recordCount
  committedTransactions : a.committedTransactions = b.committedTransactions
  lastTransactionId : a.lastTransactionId = b.lastTransactionId

theorem foldl_account_committed (rs : List JournalRecord) (st : JournalStatus) :
    (rs.foldl JournalStatus.account st).committedTransactions =
      rs.foldl (fun n r => if r.type = .metadataCommitted then n + 1 else n)
        st.committedTransactions := by
  induction rs generalizing st with
  | nil => rfl
  | cons r rs ih => exact ih _

theorem lastId_numbered (recs rs : List JournalRecord) :
    lastId (recs ++ numbered recs.length rs) =
      rs.foldl (fun m r => max m r.transactionId) (lastId recs) := by
  unfold lastId
  rw [List.foldl_append, foldl_numbered fun _ _ _ => rfl]

theorem committedCount_numbered (recs rs : List JournalRecord) :
    committedCount (recs ++ numbered recs.length rs) =
      rs.foldl (fun n r => if r.type = .metadataCommitted then n + 1 else n) (committedCount recs) := by
  unfold committedCount
  rw [List.foldl_append, foldl_numbered fun _ _ _ => rfl]

section Shows

variable {d : Disk} {st : JournalStatus} {recs : List JournalRecord} (h : Shows d st recs)
include h

theorem Shows.records_fit : recordsOffset + recs.length * recordBytes ≤ d.sizeBytes :=
  TransactionJournal.records_fit h.room h.fits

theorem Shows.readRecords_eq : readRecords d st.recordCount.toNat 0 = .ok recs := by
  have hrecs := h.decodes.readRecords_eq h.records_fit st.recordCount.toNat 0 (by rw [h.count]; omega)
  rwa [List.drop_zero] at hrecs

/-- **開き直せば、同じ status と同じ列が見える。** -/
theorem Shows.reopen (w : Bool) : ∃ j, openFile d w = .ok j ∧ SameStatus j.status st ∧
    records j = .ok recs ∧ Shows j.device j.status recs ∧ j.writable = w ∧ j.device.writable = w := by
  let d' : Disk := { d with writable := w, events := [] }
  let st0 : JournalStatus := {
    identity := st.identity, phase := st.phase, headerSequence := st.headerSequence
    recordCount := st.recordCount
    headerAValid := (slotHeader d.data 0).isOk, headerBValid := (slotHeader d.data 1).isOk
    recordsValid := true }
  have hcap : ¬ st.header.recordCount.toNat > capacityRecords d.sizeBytes := by
    rw [show st.header.recordCount.toNat = recs.length from h.count]
    exact Nat.not_lt.mpr h.fits
  have hrecs : loadRecords d' st.recordCount.toNat 0 st0 = .ok (recs.foldl JournalStatus.account st0) :=
    Decodes.loadRecords_eq (by exact h.decodes) (by exact h.records_fit) _ 0 st0
      (by rw [h.count]; omega)
  have hload : load d' = .ok (recs.foldl JournalStatus.account st0) := by
    rw [load_eq (by exact h.room), h.header, Result.ok_bind, if_neg hcap]
    exact hrecs
  have hhdr : (recs.foldl JournalStatus.account st0).header = st.header := foldl_account_header recs st0
  have hcom : (recs.foldl JournalStatus.account st0).committedTransactions = committedCount recs :=
    foldl_account_committed recs st0
  have hlast : (recs.foldl JournalStatus.account st0).lastTransactionId = lastId recs :=
    foldl_account_lastTransactionId recs st0
  have hcount : (recs.foldl JournalStatus.account st0).recordCount = st.recordCount :=
    congrArg DecodedHeader.recordCount hhdr
  have hshows : Shows d' (recs.foldl JournalStatus.account st0) recs :=
    ⟨h.room, by rw [hhdr]; exact h.header, by rw [hcount]; exact h.count, h.fits, h.decodes, hlast, hcom⟩
  refine ⟨{ device := d', status := recs.foldl JournalStatus.account st0, writable := w }, ?_,
    ⟨congrArg DecodedHeader.id hhdr, congrArg DecodedHeader.phase hhdr,
      congrArg DecodedHeader.sequence hhdr, hcount, hcom.trans h.committedTransactions.symm,
      hlast.trans h.lastTransactionId.symm⟩, hshows.readRecords_eq, hshows, rfl, rfl⟩
  unfold openFile
  dsimp only
  rw [hload]
  rfl

end Shows

/-- `open` を通った file は、status のとおりの列を持つ。 -/
theorem shows_of_open {d : Disk} {w : Bool} {j : TransactionJournal} (h : openFile d w = .ok j) :
    ∃ recs, Shows j.device j.status recs ∧ records j = .ok recs ∧ j.writable = w ∧
      j.device.writable = w := by
  unfold openFile at h
  obtain ⟨st, hload, h⟩ := Result.bind_eq_ok h
  cases h
  have hroom : recordsOffset ≤ d.sizeBytes := by
    unfold load at hload
    obtain ⟨a, -, hb⟩ := Result.bind_eq_ok hload
    obtain ⟨b, hb, -⟩ := Result.bind_eq_ok hb
    exact (Disk.readExact_eq_ok_iff.mp hb).1
  rw [load_eq (by exact hroom)] at hload
  obtain ⟨g, hg, hload⟩ := Result.bind_eq_ok hload
  split at hload
  · cases hload
  · next hcap =>
    obtain ⟨recs, hlen, hdec, hst⟩ := decodes_of_loadRecords g.recordCount.toNat [] _ st
      (decodes_nil _) hload
    rw [List.nil_append] at hdec
    have hhdr : st.header = g := by
      rw [hst, foldl_account_header]
      rfl
    have hcount : st.recordCount = g.recordCount := congrArg DecodedHeader.recordCount hhdr
    have hshows : Shows { d with writable := w, events := [] } st recs :=
      ⟨hroom, by rw [hhdr]; exact hg, by rw [hcount, hlen], by rw [hlen]; exact Nat.not_lt.mp hcap, hdec,
        by rw [hst]; exact foldl_account_lastTransactionId recs _,
        by rw [hst]; exact foldl_account_committed recs _⟩
    exact ⟨recs, hshows, hshows.readRecords_eq, rfl, rfl⟩

theorem shows_created (id : JournalIdentity) {cap : Nat} (h : cap < 2 ^ 63)
    (hcap : recordsOffset + recordBytes * 16 ≤ cap) :
    Shows (created id cap h).device (created id cap h).status [] where
  room := le_trans (by decide) hcap
  header := by
    show chooseHeader (slotHeader (createdImage id) 0) (slotHeader (createdImage id) 1) = _
    rw [slotHeader_created_zero, slotHeader_created_one]
    unfold chooseHeader
    simp only [createdHeader, ne_eq, not_true_eq_false, if_false]
    rfl
  count := rfl
  fits := Nat.zero_le _
  decodes := decodes_nil _
  lastTransactionId := rfl
  committedTransactions := rfl

/-! ## 操作の一歩 -/

section Step

variable {j : TransactionJournal} {recs : List JournalRecord}

/-- header を一つ書いた device。 -/
theorem Shows.write_header {d : Disk} {st st' : JournalStatus} (h : Shows d st recs)
    (hid : st'.identity = st.identity) (hseq : st'.headerSequence = st.headerSequence + 1)
    (hwrap : st.headerSequence.toNat + 1 < 2 ^ 64) (hcount : st'.recordCount = st.recordCount)
    (hlast : st'.lastTransactionId = st.lastTransactionId)
    (hcom : st'.committedTransactions = st.committedTransactions) :
    Shows (d.emit [.write (headerWrite st'.header), .flush]) st' recs where
  room := by rw [Disk.emit_sizeBytes]; exact h.room
  header := by
    refine chooseHeader_write h.header hid ?_
    show st.headerSequence < st'.headerSequence
    rw [hseq, UInt64.lt_iff_toNat_lt, UInt64.toNat_add, show (1 : UInt64).toNat = 1 from rfl]
    omega
  count := by rw [hcount]; exact h.count
  fits := by rw [Disk.emit_sizeBytes]; exact h.fits
  decodes := by
    refine h.decodes.congr fun i _ => Image.read_write_of_disjoint (Or.inr ?_)
    have hs := slot_lt st'.header.sequence
    show (st'.header.sequence &&& 1).toNat * headerBytes + (encodeHeader st'.header).length ≤ _
    rw [length_encodeHeader]
    simp only [headerBytes, recordsOffset]
    omega
  lastTransactionId := hlast.trans h.lastTransactionId
  committedTransactions := hcom.trans h.committedTransactions

/-- 収まる `append_batch` の後。 -/
theorem Shows.appended (h : Shows j.device j.status recs) {rs : List JournalRecord}
    (hfit : recs.length + rs.length ≤ capacityRecords j.device.sizeBytes)
    (hwrap : j.status.headerSequence.toNat + 1 < 2 ^ 64) :
    Shows (appended j rs).device (appended j rs).status (recs ++ numbered recs.length rs) := by
  have hsmall : capacityRecords j.device.sizeBytes < 2 ^ 64 := by
    have := j.device.size_lt
    unfold capacityRecords recordBytes
    split <;> omega
  have hcount := h.count
  have hhdr : (TransactionJournal.appended j rs).status.header = appendHeader j.status.header rs :=
    foldl_account_header rs _
  -- record を並べたところでは、header はまだ古い
  have hslots : ∀ s < 2, slotHeader (j.device.data.applyAll (recordWrites recs.length rs)) s =
      slotHeader j.device.data s := fun s hs =>
    slotHeader_congr (Image.read_applyAll_of_disjoint _ _ _ _ fun w hw =>
      Or.inl (recordWrites_off_slots hs hw))
  have hdata : (TransactionJournal.appended j rs).device.data =
      (j.device.data.applyAll (recordWrites recs.length rs)).apply
        (headerWrite (appendHeader j.status.header rs)) := by
    show replay j.device.data (appendEvents j.status.header rs) = _
    rw [appendEvents, replay_append, replay_writes,
      show j.status.header.recordCount.toNat = recs.length from hcount]
    rfl
  have hsize : (TransactionJournal.appended j rs).device.sizeBytes = j.device.sizeBytes :=
    Disk.emit_sizeBytes _ _
  refine ⟨by rw [hsize]; exact h.room, ?_, ?_, ?_, ?_, ?_, ?_⟩
  · rw [hdata, hhdr]
    refine chooseHeader_write (h := j.status.header) ?_ rfl ?_
    · rw [hslots 0 (by decide), hslots 1 (by decide)]
      exact h.header
    · show j.status.headerSequence < j.status.headerSequence + 1
      rw [UInt64.lt_iff_toNat_lt, UInt64.toNat_add, show (1 : UInt64).toNat = 1 from rfl]
      omega
  · rw [show (TransactionJournal.appended j rs).status.recordCount = _ from
      congrArg DecodedHeader.recordCount hhdr]
    show (j.status.recordCount + UInt64.ofNat rs.length).toNat = _
    rw [UInt64.toNat_add, UInt64.toNat_ofNat', List.length_append, length_numbered]
    omega
  · rw [hsize, List.length_append, length_numbered]
    exact hfit
  · rw [hdata]
    refine (h.decodes.append rs).congr fun i _ => Image.read_write_of_disjoint (Or.inr ?_)
    have hs := slot_lt (appendHeader j.status.header rs).sequence
    show ((appendHeader j.status.header rs).sequence &&& 1).toNat * headerBytes +
      (encodeHeader _).length ≤ _
    rw [length_encodeHeader]
    simp only [headerBytes, recordsOffset]
    omega
  · rw [lastId_numbered, ← h.lastTransactionId]
    exact foldl_account_lastTransactionId rs _
  · rw [committedCount_numbered, ← h.committedTransactions]
    exact foldl_account_committed rs _

/-- 収まる `checkpoint` の後。 -/
theorem Shows.checkpointed (h : Shows j.device j.status recs) (phase : OperationPhase)
    (hfit : recs.length + 1 ≤ capacityRecords j.device.sizeBytes)
    (hwrap : j.status.headerSequence.toNat + 2 < 2 ^ 64) :
    Shows (checkpointed j phase).device (checkpointed j phase).status
      (recs ++ numbered recs.length [checkpointRecord j.status phase]) := by
  have happ := @Shows.appended _ _ h [checkpointRecord j.status phase] hfit (by omega)
  have hhdr : (TransactionJournal.appended j [checkpointRecord j.status phase]).status.header =
      appendHeader j.status.header [checkpointRecord j.status phase] :=
    foldl_account_header [checkpointRecord j.status phase] _
  have hseq : (TransactionJournal.appended j [checkpointRecord j.status phase]).status.headerSequence =
      j.status.headerSequence + 1 := congrArg DecodedHeader.sequence hhdr
  refine @Shows.write_header _ _ _ (TransactionJournal.checkpointed j phase).status happ rfl rfl ?_
    rfl rfl rfl
  rw [hseq, UInt64.toNat_add, show (1 : UInt64).toNat = 1 from rfl]
  omega

end Step

end TransactionJournal

/-! ## journal の使い方 -/

/-- 操作が書く header の数。 -/
def JournalOp.headerWrites : JournalOp → Nat
  | .appendBatch [] => 0
  | .appendBatch _ => 1
  | .checkpoint _ => 2

/-- 容量の足りないときの失敗。 -/
def journalFull : Error := { code := .io, message := "journal is full" }

/-- 使っている journal と、そこまでに成功した呼び出しが残すはずのもの。 -/
structure JournalUse where
  journal : TransactionJournal
  view : JournalView
  headerWrites : Nat := 0

namespace JournalUse

open TransactionJournal JournalState

/-- 使い始め。作りたてでも、どの file を開き直したものでもよい。 -/
inductive Opened : JournalUse → Prop
  | created {host : CreateHost} {id : JournalIdentity} {cap : Nat} {j : TransactionJournal} :
      create host id cap = .ok j → Opened ⟨j, { identity := id, phase := .prepared, records := [] }, 0⟩
  | reopened {d : Disk} {j : TransactionJournal} {v : JournalView} :
      openFile d true = .ok j → j.view = .ok v → Opened ⟨j, v, 0⟩

/-- 一歩。成功した呼び出しか、容量の足りない呼び出しか、開き直し。 -/
inductive Step : JournalUse → JournalUse → Prop
  | done {u : JournalUse} {j : TransactionJournal} (op : JournalOp) :
      Proc.run op.run u.journal = (.ok (), j) →
      Step u ⟨j, op.result u.view, u.headerWrites + op.headerWrites⟩
  | full {u : JournalUse} {j : TransactionJournal} (op : JournalOp) :
      Proc.run op.run u.journal = (.error journalFull, j) → Step u ⟨j, u.view, u.headerWrites⟩
  | reopen {u : JournalUse} {j : TransactionJournal} :
      openFile u.journal.device true = .ok j → Step u ⟨j, u.view, u.headerWrites⟩

abbrev Run : JournalUse → JournalUse → Prop := Relation.ReflTransGen Step

/-- `n` は使い始めの sequence である。 -/
structure Inv (n : Nat) (u : JournalUse) : Prop where
  shows : Shows u.journal.device u.journal.status u.view.records
  writable : u.journal.writable = true
  device_writable : u.journal.device.writable = true
  identity : u.journal.status.identity = u.view.identity
  phase : u.journal.status.phase = u.view.phase
  sequence : u.journal.status.headerSequence.toNat = n + u.headerWrites

theorem Opened.inv {u : JournalUse} (h : u.Opened) :
    u.Inv u.journal.status.headerSequence.toNat := by
  cases h with
  | created hc =>
    obtain ⟨h, hcap, rfl⟩ := create_eq_ok hc
    exact ⟨shows_created _ h hcap, rfl, rfl, rfl, rfl, rfl⟩
  | reopened ho hv =>
    obtain ⟨recs, hs, hrec, hw, hdw⟩ := shows_of_open ho
    unfold TransactionJournal.view at hv
    rw [hrec] at hv
    cases hv
    exact ⟨hs, hw, hdw, rfl, rfl, rfl⟩

variable {n : Nat} {u u' : JournalUse}

/-- 呼び出しは、収まらなければ何も変えず、収まれば閉じた形の journal になる。 -/
theorem Inv.call (h : u.Inv n) (op : JournalOp) :
    Proc.run op.run u.journal = (.error journalFull, u.journal) ∨
    ∃ j, Proc.run op.run u.journal = (.ok (), j) ∧
      (n + u.headerWrites + op.headerWrites < 2 ^ 64 →
        Inv n ⟨j, op.result u.view, u.headerWrites + op.headerWrites⟩) := by
  obtain ⟨hs, hw, hdw, hid, hphase, hseq⟩ := h
  have hcount := hs.count
  cases op with
  | appendBatch rs =>
    by_cases hne : rs = []
    · subst hne
      refine Or.inr ⟨u.journal, run_appendBatch_nil hw, fun _ => ?_⟩
      have hext : (JournalOp.appendBatch []).result u.view = u.view := by
        show { u.view with records := u.view.records ++ [] } = u.view
        rw [List.append_nil]
      rw [hext]
      exact ⟨hs, hw, hdw, hid, hphase, hseq⟩
    · have hone : (JournalOp.appendBatch rs).headerWrites = 1 := by
        cases rs with
        | nil => exact absurd rfl hne
        | cons r rs => rfl
      rcases Nat.lt_or_ge (capacityRecords u.journal.device.sizeBytes)
        (u.view.records.length + rs.length) with hfull | hfit
      · exact Or.inl (run_appendBatch_full hne hw (by omega))
      · refine Or.inr ⟨_, run_appendBatch hne hw hdw hs.room (by omega), fun hn => ?_⟩
        have hhdr : (appended u.journal rs).status.header = appendHeader u.journal.status.header rs :=
          foldl_account_header rs _
        refine ⟨hs.appended hfit (by omega), hw, hdw, (congrArg DecodedHeader.id hhdr).trans hid,
          (congrArg DecodedHeader.phase hhdr).trans hphase, ?_⟩
        rw [show (appended u.journal rs).status.headerSequence = u.journal.status.headerSequence + 1 from
          congrArg DecodedHeader.sequence hhdr, UInt64.toNat_add, show (1 : UInt64).toNat = 1 from rfl]
        dsimp only
        omega
  | checkpoint phase =>
    have htwo : (JournalOp.checkpoint phase).headerWrites = 2 := rfl
    rcases Nat.lt_or_ge (capacityRecords u.journal.device.sizeBytes)
      (u.view.records.length + 1) with hfull | hfit
    · exact Or.inl (run_checkpoint_full hw (by omega))
    · refine Or.inr ⟨_, run_checkpoint hw hdw hs.room (by omega), fun hn => ?_⟩
      have hhdr : (appended u.journal [checkpointRecord u.journal.status phase]).status.header =
          appendHeader u.journal.status.header [checkpointRecord u.journal.status phase] :=
        foldl_account_header [checkpointRecord u.journal.status phase] _
      have hseq1 : (appended u.journal [checkpointRecord u.journal.status phase]).status.headerSequence =
          u.journal.status.headerSequence + 1 := congrArg DecodedHeader.sequence hhdr
      have hrecs : ((JournalOp.checkpoint phase).result u.view).records =
          u.view.records ++ numbered u.view.records.length [checkpointRecord u.journal.status phase] := by
        unfold checkpointRecord
        rw [hs.lastTransactionId]
        rfl
      refine ⟨?_, hw, hdw, (congrArg DecodedHeader.id hhdr).trans hid, rfl, ?_⟩
      · dsimp only
        rw [hrecs]
        exact hs.checkpointed phase hfit (by omega)
      · show ((appended u.journal _).status.headerSequence + 1).toNat = _
        rw [hseq1, UInt64.toNat_add, UInt64.toNat_add, show (1 : UInt64).toNat = 1 from rfl]
        dsimp only
        omega

theorem Step.headerWrites_le (h : Step u u') : u.headerWrites ≤ u'.headerWrites := by
  cases h with
  | done op _ => exact Nat.le_add_right _ _
  | full op _ => exact le_refl _
  | reopen _ => exact le_refl _

/-- 一歩で不変条件は保たれる。 -/
theorem Inv.step (h : u.Inv n) (hs : Step u u') (hn : n + u'.headerWrites < 2 ^ 64) : u'.Inv n := by
  cases hs with
  | done op hrun =>
    rcases h.call op with hfull | ⟨j, hok, hinv⟩
    · rw [hfull] at hrun
      cases hrun
    · rw [hok] at hrun
      cases hrun
      exact hinv (by rw [Nat.add_assoc]; exact hn)
  | full op hrun =>
    rcases h.call op with hfull | ⟨j, hok, -⟩
    · rw [hfull] at hrun
      cases hrun
      exact h
    · rw [hok] at hrun
      cases hrun
  | reopen hopen =>
    obtain ⟨j, hj, hsame, -, hshows, hw, hdw⟩ := h.shows.reopen true
    rw [hj] at hopen
    cases hopen
    exact ⟨hshows, hw, hdw, hsame.identity.trans h.identity, hsame.phase.trans h.phase, by
      rw [hsame.headerSequence]; exact h.sequence⟩

theorem Inv.run (h : u.Inv n) (hr : Run u u') (hn : n + u'.headerWrites < 2 ^ 64) : u'.Inv n := by
  induction hr with
  | refl => exact h
  | tail _ hs ih => exact (ih (by have := hs.headerWrites_le; omega)).step hs hn

/--
**journal は、使っていたとおりに開き直せる。** 開き直した status は、開いている間に直し続けた
status と同じで、`records()` は成功した呼び出しの record を順に並べたものである。
容量の足りない呼び出しは何も変えない。
-/
theorem reopens_to_what_it_was (h0 : u.Opened) (hr : Run u u')
    (hn : u.journal.status.headerSequence.toNat + u'.headerWrites < 2 ^ 64) :
    (∃ j, openFile u'.journal.device true = .ok j ∧ SameStatus j.status u'.journal.status ∧
      records j = .ok u'.view.records) ∧
    records u'.journal = .ok u'.view.records ∧
    u'.journal.status.identity = u'.view.identity ∧ u'.journal.status.phase = u'.view.phase ∧
    (∀ i r, u'.view.records[i]? = some r → r.sequence = UInt64.ofNat (i + 1)) ∧
    ∀ op j, Proc.run (JournalOp.run op) u'.journal = (.error journalFull, j) → j = u'.journal := by
  have h := h0.inv.run hr hn
  obtain ⟨j, hopen, hsame, hrec, -⟩ := h.shows.reopen true
  refine ⟨⟨j, hopen, hsame, hrec⟩, h.shows.readRecords_eq, h.identity, h.phase,
    h.shows.decodes.contiguous, fun op j' hrun => ?_⟩
  rcases h.call op with hfull | ⟨j, hok, -⟩
  · rw [hfull] at hrun
    cases hrun
    rfl
  · rw [hok] at hrun
    cases hrun

/-- 二つの transaction の意図と、一つ目の写しの検証。 -/
def firstRecords : List JournalRecord := [
  { type := .relocationIntent, transactionId := 1, sourceBlock := 100, destinationBlock := 200
    blockCount := 4 },
  { type := .relocationIntent, transactionId := 2, sourceBlock := 300, destinationBlock := 400
    blockCount := 8 },
  { type := .copyVerified, transactionId := 1, sourceBlock := 100, destinationBlock := 200
    blockCount := 4 }]

/-- `firstRecords` と `checkpoint` を置いた journal。 -/
def checkedJournal : TransactionJournal := checkpointed (appended smallJournal firstRecords) .relocating

/-- `firstRecords` と `checkpoint` を置いてから、収まらない列を断る。 -/
theorem run_checkedJournal : Run
    ⟨smallJournal, { identity := zeroIdentity, phase := .prepared, records := [] }, 0⟩
    ⟨checkedJournal, (JournalOp.checkpoint .relocating).result ((JournalOp.appendBatch
      firstRecords).result { identity := zeroIdentity, phase := .prepared, records := [] }), 3⟩ := by
  have happend : Proc.run (JournalOp.appendBatch firstRecords).run smallJournal =
      (.ok (), appended smallJournal firstRecords) :=
    run_appendBatch (by decide) rfl rfl (by decide) (by decide)
  have hcheck : Proc.run (JournalOp.checkpoint .relocating).run (appended smallJournal firstRecords) =
      (.ok (), checkedJournal) := run_checkpoint rfl rfl (by decide) (by decide)
  have hfull : Proc.run (JournalOp.appendBatch (List.replicate 13 {})).run checkedJournal =
      (.error journalFull, checkedJournal) := run_appendBatch_full (by decide) rfl (by decide)
  exact ((Relation.ReflTransGen.single (.done _ happend)).tail (.done _ hcheck)).tail (.full _ hfull)

/-- 三つの record と `checkpoint` を置き、収まらない列を断った journal を開き直す。 -/
theorem reopens_after_checkpoint : ∃ j, openFile checkedJournal.device true = .ok j ∧
      SameStatus j.status checkedJournal.status ∧
      records j = .ok (numbered 0 (firstRecords ++
        [{ type := .checkpoint, transactionId := 2, aux := 2 }])) :=
  (reopens_to_what_it_was (.created (create_quiet zeroIdentity (by decide) (by decide)))
    run_checkedJournal (by decide)).1

end JournalUse

end Fsx
