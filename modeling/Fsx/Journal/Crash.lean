import Mathlib.Logic.Relation
import Fsx.Journal.Stored

/-!
# journal の crash 安全性

`create` から始まり、append_batch・checkpoint・crash・open を任意の順に重ねた run を考える。
crash は操作の途中のどこでも起こり、flush されていない書き込みは、残る・残らない・
decode が拒む byte 列になる、のどれかである。

header の書き込みが壊れるのは、反対側の slot が読めるときに限るなら、
どの crash の後も `open` は成功し、最後に成功を返した操作の状態か、
途中だった操作が書く状態のどれかを見せる（`run_sound`）。

この限定は外せない。`create` は偶奇を逆にして二つの header を書くので、最初の header の
書き込みが壊れると、次の書き込み先は唯一読める slot になる。
-/

namespace Fsx

namespace TransactionJournal

/-! ## 壊れ方 -/

/-- 書き込み `w` が途中で止まって `t` が残る。decode は `t` を拒む。 -/
def TornWrite (w : Write) (t : Bytes) : Prop :=
  if w.off < recordsOffset then ∃ e, decodeHeader t = .error e
  else ∃ e, decodeRecord t = .error e

/-- header の書き込み `w` が当たらない方の slot。 -/
def spareSlot (w : Write) : Nat := if w.off < headerBytes then 1 else 0

/-- 壊れるのが header のとき、もう一方の slot が読める。 -/
def SpareDecodes (img : Image) (w : Write) : Prop :=
  w.off < recordsOffset → ∃ h, slotHeader img (spareSlot w) = .ok h

/-- 媒体がどう壊れてもよい。 -/
def AnyTorn : Image → Write → Bytes → Prop := fun _ w t => TornWrite w t

/-- 唯一読める header への書き込みだけは壊れない。 -/
def SpareTorn : Image → Write → Bytes → Prop := fun img w t => TornWrite w t ∧ SpareDecodes img w

/-! ## header の書き込み -/

theorem slotHeader_congr {img img' : Image} {s : Nat}
    (h : img'.read (s * headerBytes) 4096 = img.read (s * headerBytes) 4096) :
    slotHeader img' s = slotHeader img s := by
  unfold slotHeader
  rw [h]

/-- slot `s` への 4096 byte の書き込みの後の slot `s`。 -/
theorem slotHeader_write_self (img : Image) (s : Nat) {t : Bytes} (ht : t.length = 4096) :
    slotHeader (img.write (s * headerBytes) t) s = decodeHeader t := by
  unfold slotHeader
  rw [Image.read_write_self img _ t ht]

theorem slotHeader_write_other (img : Image) {s s' : Nat} (hne : s ≠ s') {t : Bytes}
    (ht : t.length = 4096) :
    slotHeader (img.write (s * headerBytes) t) s' = slotHeader img s' := by
  refine slotHeader_congr (Image.read_write_of_disjoint ?_)
  rw [ht]
  simp only [headerBytes]
  omega

theorem Held.congr {size : Nat} {img img' : Image} {recs : List JournalRecord}
    (hh : Held size img recs)
    (h : ∀ i, i < recs.length → img'.read (recordsOffset + i * recordBytes) 128
      = img.read (recordsOffset + i * recordBytes) 128) : Held size img' recs where
  room := hh.room
  size_lt := hh.size_lt
  fits := hh.fits
  contiguous := hh.contiguous
  encoded i r hi := by
    rw [h i (List.getElem?_eq_some_iff.mp hi).1]
    exact hh.encoded i r hi

/-- slot への書き込みは record に触れない。 -/
theorem Held.write_slot {size : Nat} {img : Image} {recs : List JournalRecord}
    (hh : Held size img recs) {s : Nat} (hs : s < 2) {t : Bytes} (ht : t.length = 4096) :
    Held size (img.write (s * headerBytes) t) recs := by
  refine hh.congr fun i _ => Image.read_write_of_disjoint (Or.inr ?_)
  rw [ht]
  simp only [headerBytes, recordsOffset]
  omega

/-- 次の header。sequence が一つ進み、record は伸びるだけである。 -/
structure Next (h h' : DecodedHeader) (recs recs' : List JournalRecord) : Prop where
  id : h'.id = h.id
  sequence : h'.sequence = h.sequence + 1
  count : h'.recordCount.toNat = recs'.length
  seq_le : h'.sequence.toNat ≤ 2 * recs'.length + 1
  no_wrap : h.sequence.toNat + 1 < 2 ^ 64

theorem Next.sequence_lt {h h' : DecodedHeader} {recs recs' : List JournalRecord}
    (hn : Next h h' recs recs') : h.sequence < h'.sequence := by
  rw [hn.sequence, UInt64.lt_iff_toNat_lt, UInt64.toNat_add]
  have := hn.no_wrap
  rw [Nat.mod_eq_of_lt (by simpa using this)]
  simp

/-- 偶奇は一つ進むと入れ替わる。 -/
theorem parity_succ (q : UInt64) (s : Nat) (hs : s < 2) :
    ((q + 1) &&& 1).toNat = s ↔ (q &&& 1).toNat ≠ s := by
  have h1 : ((q + 1) &&& 1).toNat = (q.toNat + 1) % 2 := by
    rw [UInt64.toNat_and, UInt64.toNat_add, show (1 : UInt64).toNat = 1 from rfl, Nat.and_one_is_mod]
    omega
  have h0 : (q &&& 1).toNat = q.toNat % 2 := by
    rw [UInt64.toNat_and, show (1 : UInt64).toNat = 1 from rfl, Nat.and_one_is_mod]
  rw [h1, h0]
  omega

/-- **header が書けたとき。** 新しい header が最新になり、偶奇も合う。 -/
theorem Stored.header_kept {size : Nat} {img : Image} {h h' : DecodedHeader}
    {recs recs' : List JournalRecord} {s : Nat} (hs : Slots img h s) (hh : Held size img recs')
    (hn : Next h h' recs recs') :
    Stored size (img.apply (headerWrite h')) h' recs' (h'.sequence &&& 1).toNat := by
  have hlt := slot_lt h'.sequence
  have hlen := length_encodeHeader h'
  refine ⟨⟨hlt, ?_, ?_⟩, hh.write_slot hlt hlen, hn.count, hn.seq_le⟩
  · exact (slotHeader_write_self img _ hlen).trans (decodeHeader_encodeHeader h')
  · intro g hg
    have hg' : slotHeader img (1 - (h'.sequence &&& 1).toNat) = .ok g := by
      rw [← hg]
      exact (slotHeader_write_other img (by omega) hlen).symm
    refine ⟨?_, ?_, fun hc => absurd rfl hc⟩
    -- 残った slot は、古い最新かその反対側である
    all_goals
      by_cases hcur : 1 - (h'.sequence &&& 1).toNat = s
      · rw [hcur, hs.current] at hg'
        cases hg'
        first | exact hn.id.symm | exact hn.sequence_lt
      · have hoth : 1 - (h'.sequence &&& 1).toNat = 1 - s := by have := hs.slot_lt; omega
        rw [hoth] at hg'
        obtain ⟨hid, hseq, _⟩ := hs.other g hg'
        first
          | exact hid.trans hn.id.symm
          | exact UInt64.lt_trans hseq hn.sequence_lt

/-- **header の書き込みが壊れたとき。** 反対側が読めるなら、record を失わずに古い状態が残る。 -/
theorem Stored.header_torn {size : Nat} {img : Image} {h h' : DecodedHeader}
    {recs recs' : List JournalRecord} {s : Nat} (hst : Stored size img h recs s)
    (hn : Next h h' recs recs') {t : Bytes} (ht : t.length = 4096)
    (htorn : SpareTorn img (headerWrite h') t) :
    ∃ g s', Stored size (img.apply ⟨(headerWrite h').off, t⟩) g recs s' ∧
      g.id = h.id ∧ g.phase = h.phase := by
  obtain ⟨hslots, hheld, hcount, hseqle⟩ := hst
  have hslt := hslots.slot_lt
  have hlt := slot_lt h'.sequence
  have hoff : (headerWrite h').off < recordsOffset := by
    show (h'.sequence &&& 1).toNat * headerBytes < recordsOffset
    simp only [headerBytes, recordsOffset]
    omega
  have hspare : spareSlot (headerWrite h') = 1 - (h'.sequence &&& 1).toNat := by
    obtain h0 | h1 : (h'.sequence &&& 1).toNat = 0 ∨ (h'.sequence &&& 1).toNat = 1 := by omega
    · simp only [spareSlot, headerWrite, h0]; rfl
    · simp only [spareSlot, headerWrite, h1]; rfl
  obtain ⟨htorn, hsp⟩ := htorn
  obtain ⟨e, hdec⟩ : ∃ e, decodeHeader t = .error e := by rwa [TornWrite, if_pos hoff] at htorn
  have hbad : slotHeader (img.apply ⟨(headerWrite h').off, t⟩) (h'.sequence &&& 1).toNat = .error e :=
    (slotHeader_write_self img _ ht).trans hdec
  have hheld' : Held size (img.apply ⟨(headerWrite h').off, t⟩) recs := hheld.write_slot hlt ht
  have hpar := parity_succ h.sequence s hslt
  rw [← hn.sequence] at hpar
  by_cases hov : (h'.sequence &&& 1).toNat = s
  · -- 最新の slot が壊れた。反対側は同じ内容を持つ
    obtain ⟨g, hg⟩ := hsp hoff
    rw [hspare, hov] at hg
    obtain ⟨hid, hseq, hsame⟩ := hslots.other g hg
    obtain ⟨hphase, hcnt⟩ := hsame (hpar.mp hov)
    have hseq' : g.sequence.toNat < h.sequence.toNat := UInt64.lt_iff_toNat_lt.mp hseq
    refine ⟨g, 1 - s, ⟨⟨by omega, ?_, ?_⟩, hheld', ?_, by omega⟩, hid, hphase⟩
    · rw [← hg]
      exact slotHeader_write_other img (by omega) ht
    · intro g' hg'
      rw [show 1 - (1 - s) = (h'.sequence &&& 1).toNat by omega, hbad] at hg'
      cases hg'
    · rw [hcnt]; exact hcount
  · -- 壊れたのは反対側である
    refine ⟨h, s, ⟨⟨hslt, ?_, ?_⟩, hheld', hcount, hseqle⟩, rfl, rfl⟩
    · rw [← hslots.current]
      exact slotHeader_write_other img hov ht
    · intro g hg
      rw [show 1 - s = (h'.sequence &&& 1).toNat by omega, hbad] at hg
      cases hg

/-- 一つの header の書き込みと、その flush の途中で止まったとき。 -/
theorem Stored.header_crash {size : Nat} {img img' : Image} {h h' : DecodedHeader}
    {recs recs' : List JournalRecord} {s : Nat} (hst : Stored size img h recs s)
    (hh : Held size img recs') (hn : Next h h' recs recs')
    (hc : CrashImage SpareTorn img [.write (headerWrite h'), .flush] img') :
    (∃ g s', Stored size img' g recs s' ∧ g.id = h.id ∧ g.phase = h.phase) ∨
      ∃ s', Stored size img' h' recs' s' := by
  obtain ⟨p, hp, hset⟩ := hc
  simp only [crashPoints, List.mem_cons, List.nil_append, Image.applyAll_cons, Image.applyAll_nil,
    List.not_mem_nil, or_false] at hp
  have hold : ∃ g s', Stored size img g recs s' ∧ g.id = h.id ∧ g.phase = h.phase :=
    ⟨h, s, hst, rfl, rfl⟩
  obtain rfl | rfl | rfl := hp
  · rw [settle_nil_iff.mp hset]
    exact Or.inl hold
  · obtain rfl | rfl | ⟨t, ht, hlen, rfl⟩ := settle_singleton_iff.mp hset
    · exact Or.inr ⟨_, Stored.header_kept hst.slots hh hn⟩
    · exact Or.inl hold
    · exact Or.inl (hst.header_torn hn (hlen.trans (length_encodeHeader h')) ht)
  · rw [settle_nil_iff.mp hset]
    exact Or.inr ⟨_, Stored.header_kept hst.slots hh hn⟩

/-! ## record の書き込み -/

theorem length_numbered (n : Nat) (rs : List JournalRecord) : (numbered n rs).length = rs.length := by
  induction rs generalizing n with
  | nil => rfl
  | cons r rs ih => simp only [numbered, List.length_cons, ih]

/-- sequence を見ない畳み込みは、番号を付けても変わらない。 -/
theorem foldl_numbered {α : Type} {f : α → JournalRecord → α}
    (hf : ∀ a r q, f a { r with sequence := q } = f a r) (rs : List JournalRecord) (n : Nat) (a : α) :
    (numbered n rs).foldl f a = rs.foldl f a := by
  induction rs generalizing n a with
  | nil => rfl
  | cons r rs ih => rw [numbered, List.foldl_cons, List.foldl_cons, hf, ih]

theorem numbered_sequence {n : Nat} {rs : List JournalRecord} {i : Nat} {r : JournalRecord}
    (h : (numbered n rs)[i]? = some r) : r.sequence = UInt64.ofNat (n + i + 1) := by
  induction rs generalizing n i with
  | nil => cases h
  | cons q rs ih =>
    cases i with
    | zero => cases h; rfl
    | succ i =>
      rw [ih h]
      congr 1
      omega

/-- record の書き込みの位置。 -/
theorem mem_recordWrites {n : Nat} {rs : List JournalRecord} {w : Write}
    (h : w ∈ recordWrites n rs) :
    recordsOffset + n * recordBytes ≤ w.off ∧ w.bytes.length = recordBytes := by
  induction rs generalizing n with
  | nil => cases h
  | cons r rs ih =>
    obtain rfl | h := List.mem_cons.mp h
    · exact ⟨le_refl _, length_encodeRecord _⟩
    · obtain ⟨hoff, hlen⟩ := ih h
      refine ⟨?_, hlen⟩
      simp only [recordBytes] at hoff ⊢
      omega

/-- 書き終えた record は、書いた位置にそのまま読める。 -/
theorem read_applyAll_recordWrites {rs : List JournalRecord} {n i : Nat} {r : JournalRecord}
    (img : Image) (h : (numbered n rs)[i]? = some r) :
    (img.applyAll (recordWrites n rs)).read (recordsOffset + (n + i) * recordBytes) 128
      = encodeRecord r := by
  induction rs generalizing n i img with
  | nil => cases h
  | cons q rs ih =>
    rw [recordWrites, Image.applyAll_cons]
    cases i with
    | zero =>
      cases h
      rw [Image.read_applyAll_of_disjoint]
      · exact Image.read_write_self img _ _ (length_encodeRecord _)
      · intro w hw
        obtain ⟨hoff, _⟩ := mem_recordWrites hw
        simp only [recordBytes] at hoff ⊢
        omega
    | succ i =>
      rw [show n + (i + 1) = n + 1 + i by omega]
      exact ih _ h

/-- record の書き込みは、並んでいる record の手前にも header にも触れない。 -/
theorem Held.append_records {size : Nat} {img : Image} {recs rs : List JournalRecord}
    (hh : Held size img recs) (hfit : recs.length + rs.length ≤ capacityRecords size) :
    Held size (img.applyAll (recordWrites recs.length rs))
      (recs ++ numbered recs.length rs) where
  room := hh.room
  size_lt := hh.size_lt
  fits := by rw [List.length_append, length_numbered]; exact hfit
  encoded i r hi := by
    rcases Nat.lt_or_ge i recs.length with hlt | hge
    · rw [List.getElem?_append_left hlt] at hi
      rw [Image.read_applyAll_of_disjoint]
      · exact hh.encoded i r hi
      · intro w hw
        obtain ⟨hoff, _⟩ := mem_recordWrites hw
        simp only [recordBytes] at hoff ⊢
        omega
    · rw [List.getElem?_append_right hge] at hi
      have hread := read_applyAll_recordWrites img hi
      rwa [show recs.length + (i - recs.length) = i by omega] at hread
  contiguous i r hi := by
    rcases Nat.lt_or_ge i recs.length with hlt | hge
    · rw [List.getElem?_append_left hlt] at hi
      exact hh.contiguous i r hi
    · rw [List.getElem?_append_right hge] at hi
      rw [numbered_sequence hi]
      congr 1
      omega

theorem recordWrites_off_slots {n : Nat} {rs : List JournalRecord} {s : Nat} (hs : s < 2)
    {w : Write} (hw : w ∈ recordWrites n rs) : s * headerBytes + 4096 ≤ w.off := by
  obtain ⟨hoff, _⟩ := mem_recordWrites hw
  simp only [headerBytes, recordsOffset] at hoff ⊢
  omega

/-- header が変わらなければ slot の条件も変わらない。 -/
theorem Slots.congr {img img' : Image} {h : DecodedHeader} {s : Nat} (hs : Slots img h s)
    (h' : ∀ s', s' < 2 → slotHeader img' s' = slotHeader img s') : Slots img' h s where
  slot_lt := hs.slot_lt
  current := by rw [h' s hs.slot_lt]; exact hs.current
  other g hg := hs.other g (by rwa [h' (1 - s) (by omega)] at hg)

/-- 並べ終えた record の後ろへの書き込みは、途中で止まっても何も変えない。 -/
theorem Stored.records_settle {Torn : Write → Bytes → Prop} {size : Nat} {img img' : Image}
    {h : DecodedHeader} {recs : List JournalRecord} {s : Nat} (hst : Stored size img h recs s)
    {ws : List Write} {rs : List JournalRecord} (hsub : ∀ w ∈ ws, w ∈ recordWrites recs.length rs)
    (hset : Settle Torn img ws img') : Stored size img' h recs s := by
  obtain ⟨hslots, hheld, hcount, hseqle⟩ := hst
  refine ⟨hslots.congr fun s' hs' => ?_, hheld.congr fun i hi => ?_, hcount, hseqle⟩
  · refine slotHeader_congr (hset.read_of_disjoint fun w hw => Or.inl ?_)
    exact recordWrites_off_slots hs' (hsub w hw)
  · refine hset.read_of_disjoint fun w hw => Or.inl ?_
    obtain ⟨hoff, _⟩ := mem_recordWrites (hsub w hw)
    simp only [recordBytes] at hoff ⊢
    omega

/-! ## 操作の途中 -/

/-- `append_batch` の次の header。 -/
theorem next_appendHeader {size : Nat} {img : Image} {h : DecodedHeader}
    {recs rs : List JournalRecord} {s : Nat} (hst : Stored size img h recs s) (hne : rs ≠ [])
    (hfit : recs.length + rs.length ≤ capacityRecords size) :
    Next h (appendHeader h rs) recs (recs ++ numbered recs.length rs) := by
  have hpos : 0 < rs.length := List.length_pos_of_ne_nil hne
  have hcap : capacityRecords size < 2 ^ 56 := by
    have := hst.held.size_lt
    unfold capacityRecords recordBytes
    split <;> omega
  have hcount := hst.count
  have hseq := hst.seq_le
  refine ⟨rfl, rfl, ?_, ?_, by omega⟩
  · show (h.recordCount + UInt64.ofNat rs.length).toNat = _
    rw [UInt64.toNat_add, UInt64.toNat_ofNat', List.length_append, length_numbered]
    omega
  · show (h.sequence + 1).toNat ≤ _
    rw [UInt64.toNat_add, List.length_append, length_numbered,
      show (1 : UInt64).toNat = 1 from rfl]
    omega

/-- record を並べ終えて flush した像。header はまだ古い。 -/
theorem Stored.records_done {size : Nat} {img : Image} {h : DecodedHeader}
    {recs : List JournalRecord} {s : Nat} (hst : Stored size img h recs s)
    (rs : List JournalRecord) :
    Stored size (img.applyAll (recordWrites recs.length rs)) h recs s := by
  exact hst.records_settle (fun w hw => hw) (Settle.keepAll (fun _ _ => False) _ _)

/-- **`append_batch` の途中で止まったとき。** -/
theorem Stored.append_crash {size : Nat} {img img' : Image} {h : DecodedHeader}
    {recs rs : List JournalRecord} {s : Nat} (hst : Stored size img h recs s) (hne : rs ≠ [])
    (hfit : recs.length + rs.length ≤ capacityRecords size)
    (hc : CrashImage SpareTorn img (appendEvents h rs) img') :
    (∃ g s', Stored size img' g recs s' ∧ g.id = h.id ∧ g.phase = h.phase) ∨
      ∃ s', Stored size img' (appendHeader h rs) (recs ++ numbered recs.length rs) s' := by
  obtain ⟨p, hp, hset⟩ := hc
  rw [appendEvents, hst.count, mem_crashPoints_append] at hp
  obtain hp | hp := hp
  · obtain ⟨hbase, hmem⟩ := mem_crashPoints_writes hp
    rw [hbase] at hset
    exact Or.inl ⟨h, s, hst.records_settle hmem hset, rfl, rfl⟩
  · rw [crashEnd_writes, List.nil_append, crashPoints, List.mem_cons] at hp
    obtain rfl | hp := hp
    · exact Or.inl ⟨h, s, hst.records_settle (fun w hw => hw) hset, rfl, rfl⟩
    · exact (hst.records_done rs).header_crash (hst.held.append_records hfit)
        (next_appendHeader hst hne hfit) ⟨p, hp, hset⟩

/-- `append_batch` を終えた像。 -/
theorem Stored.append_done {size : Nat} {img : Image} {h : DecodedHeader}
    {recs rs : List JournalRecord} {s : Nat} (hst : Stored size img h recs s) (hne : rs ≠ [])
    (hfit : recs.length + rs.length ≤ capacityRecords size) :
    ∃ s', Stored size (replay img (appendEvents h rs)) (appendHeader h rs)
      (recs ++ numbered recs.length rs) s' := by
  rw [appendEvents, hst.count, replay_append, replay_writes]
  exact ⟨_, Stored.header_kept (hst.records_done rs).slots (hst.held.append_records hfit)
    (next_appendHeader hst hne hfit)⟩

/-- `append_batch` は flush で終わる。 -/
theorem crashEnd_appendEvents (img : Image) (h : DecodedHeader) (rs : List JournalRecord) :
    crashEnd img [] (appendEvents h rs) = (replay img (appendEvents h rs), []) := by
  rw [appendEvents, crashEnd_append, crashEnd_writes, replay_append, replay_writes]
  rfl

/-- `checkpoint` の後半の header。 -/
theorem next_phaseHeader {size : Nat} {img : Image} {h : DecodedHeader}
    {recs : List JournalRecord} {s : Nat} (hst : Stored size img h recs s)
    (hseq : h.sequence.toNat ≤ 2 * recs.length) (phase : OperationPhase) :
    Next h (phaseHeader h phase) recs recs := by
  have hcap : capacityRecords size < 2 ^ 56 := by
    have := hst.held.size_lt
    unfold capacityRecords recordBytes
    split <;> omega
  have hfits := hst.held.fits
  refine ⟨rfl, rfl, hst.count, ?_, by omega⟩
  show (h.sequence + 1).toNat ≤ _
  rw [UInt64.toNat_add, show (1 : UInt64).toNat = 1 from rfl]
  omega

/-! ## run -/

end TransactionJournal

/-- journal への操作。 -/
inductive JournalOp where
  | appendBatch (records : List JournalRecord)
  | checkpoint (phase : OperationPhase)

/-- record を続けた見え方。 -/
def JournalView.extend (v : JournalView) (rs : List JournalRecord) : JournalView :=
  { v with records := v.records ++ TransactionJournal.numbered v.records.length rs }

namespace JournalOp

open TransactionJournal

/-- 操作が走らせる手続き。 -/
def run : JournalOp → JournalM Unit
  | .appendBatch rs => TransactionJournal.appendBatch rs
  | .checkpoint phase => TransactionJournal.checkpoint phase

/-- 操作が媒体に残す event。 -/
def events (op : JournalOp) (j : TransactionJournal) : List Event :=
  (Proc.run op.run j).2.device.events.drop j.device.events.length

/-- 操作の record を書き終えたときの見え方。 -/
def recorded (v : JournalView) : JournalOp → JournalView
  | .appendBatch rs => v.extend rs
  | .checkpoint phase => v.extend [{
      type := .checkpoint
      transactionId := v.lastTransactionId
      aux := UInt64.ofNat phase.code }]

/-- 操作を終えたときの見え方。 -/
def result (v : JournalView) : JournalOp → JournalView
  | .appendBatch rs => recorded v (.appendBatch rs)
  | .checkpoint phase => { recorded v (.checkpoint phase) with phase }

/-- 操作が書く状態。`checkpoint` は二つ書く。 -/
def states (v : JournalView) (op : JournalOp) : List JournalView := [op.recorded v, op.result v]

end JournalOp

/-- run の状態。`v` は最後に成功を返した操作の見え方（開き直した直後はそのとき見えたもの）。 -/
inductive JournalState where
  | up (j : TransactionJournal) (v : JournalView)
  | down (d : Disk) (v : JournalView) (op : JournalOp)

namespace JournalState

open TransactionJournal

/-- 失われてはならない見え方。 -/
def acknowledged : JournalState → JournalView
  | .up _ v => v
  | .down _ v _ => v

/-- 一歩。crash は走っている操作のどこでも起こる。 -/
inductive Step (Torn : Image → Write → Bytes → Prop) : JournalState → JournalState → Prop
  | done {j j' : TransactionJournal} {v : JournalView} (op : JournalOp) :
      Proc.run op.run j = (.ok (), j') → Step Torn (.up j v) (.up j' (op.result v))
  | failed {j j' : TransactionJournal} {v : JournalView} {e : Error} (op : JournalOp) :
      Proc.run op.run j = (.error e, j') → Step Torn (.up j v) (.up j' v)
  | crash {j : TransactionJournal} {v : JournalView} {img : Image} (op : JournalOp) :
      CrashImage Torn j.device.data (op.events j) img →
      Step Torn (.up j v) (.down (j.device.reboot img) v op)
  | reopen {d : Disk} {v v' : JournalView} {op : JournalOp} {j : TransactionJournal} :
      openFile d true = .ok j → j.view = .ok v' → Step Torn (.down d v op) (.up j v')

/-- 何歩でも。 -/
abbrev Run (Torn : Image → Write → Bytes → Prop) : JournalState → JournalState → Prop :=
  Relation.ReflTransGen (Step Torn)

/-- `create` の直後。 -/
def start (j : TransactionJournal) (id : JournalIdentity) : JournalState :=
  .up j { identity := id, phase := .prepared, records := [] }

/-- どちらかの slot は読める。 -/
def SomeSlot (img : Image) : Prop := ∃ s, s < 2 ∧ ∃ h, slotHeader img s = .ok h

/--
安全な状態。止まった後は `open` が成功し、`v` か途中の操作が書く状態を見せ、
`v` の record は先頭に残っている。
-/
def Sound : JournalState → Prop
  | .up j v => j.view = .ok v ∧ SomeSlot j.device.data
  | .down d v op => SomeSlot d.data ∧ ∃ j v', openFile d true = .ok j ∧ j.view = .ok v' ∧
      v' ∈ v :: op.states v ∧ v.records <+: v'.records

/-- 媒体が `v` を保持する。 -/
def Keeps (d : Disk) (v : JournalView) : Prop :=
  ∃ h s, Stored d.sizeBytes d.data h v.records s ∧ h.id = v.identity ∧ h.phase = v.phase

/-- run の不変条件。 -/
def Inv : JournalState → Prop
  | .up j v => Live j v
  | .down d v op => ∃ v' ∈ v :: op.states v, Keeps d v'

/-! ## 操作の一歩 -/

theorem lastTransactionId_extend (v : JournalView) (rs : List JournalRecord) :
    (v.extend rs).lastTransactionId =
      rs.foldl (fun m r => max m r.transactionId) v.lastTransactionId := by
  show (v.records ++ numbered v.records.length rs).foldl _ 0 = _
  rw [List.foldl_append, foldl_numbered fun _ _ _ => rfl]
  rfl

/-- 収まる `append_batch` の後も、journal は続きを見せる。 -/
theorem live_appended {j : TransactionJournal} {v : JournalView} (hl : Live j v)
    {rs : List JournalRecord} (hne : rs ≠ [])
    (hfit : v.records.length + rs.length ≤ capacityRecords j.device.sizeBytes) :
    Live (appended j rs) (v.extend rs) := by
  obtain ⟨s, hst⟩ := hl.stored
  have hhdr : (appended j rs).status.header = appendHeader j.status.header rs :=
    foldl_account_header rs _
  refine ⟨hl.writable, hl.device_writable, ?_, ?_, ?_, ?_⟩
  · rw [hhdr]
    exact hst.append_done hne hfit
  · exact (congrArg DecodedHeader.id hhdr).trans hl.identity
  · exact (congrArg DecodedHeader.phase hhdr).trans hl.phase
  · rw [lastTransactionId_extend, ← hl.lastTransactionId]
    exact foldl_account_lastTransactionId rs _

/-- `append_batch` の後の header の sequence。 -/
theorem appended_sequence_le {j : TransactionJournal} {v : JournalView} (hl : Live j v)
    (r : JournalRecord) :
    (appended j [r]).status.header.sequence.toNat ≤ 2 * (v.extend [r]).records.length := by
  obtain ⟨s, hst⟩ := hl.stored
  have hseq := hst.seq_le
  have hhdr : (appended j [r]).status.header = appendHeader j.status.header [r] :=
    foldl_account_header [r] _
  rw [hhdr]
  show (j.status.header.sequence + 1).toNat ≤ 2 * (v.records ++ numbered v.records.length [r]).length
  rw [UInt64.toNat_add, List.length_append, length_numbered, List.length_singleton,
    show (1 : UInt64).toNat = 1 from rfl]
  omega

/-- `checkpoint` の record は、見え方から決まる。 -/
theorem recorded_checkpoint {j : TransactionJournal} {v : JournalView} (hl : Live j v)
    (phase : OperationPhase) :
    (JournalOp.checkpoint phase).recorded v = v.extend [checkpointRecord j.status phase] := by
  rw [checkpointRecord, hl.lastTransactionId]
  rfl

/-- 開いている journal が見せるものは、媒体が保持している。 -/
theorem keeps_of_live {j : TransactionJournal} {v : JournalView} (hl : Live j v) :
    Keeps j.device v := by
  obtain ⟨s, hst⟩ := hl.stored
  exact ⟨_, s, hst, hl.identity, hl.phase⟩

/-- `append_batch` の event の途中で止まった媒体は、前か後の状態を保持する。 -/
theorem keeps_of_append_crash {j : TransactionJournal} {v : JournalView} (hl : Live j v)
    {rs : List JournalRecord} (hne : rs ≠ [])
    (hfit : v.records.length + rs.length ≤ capacityRecords j.device.sizeBytes) {img : Image}
    (hc : CrashImage SpareTorn j.device.data (appendEvents j.status.header rs) img) :
    Keeps (j.device.reboot img) v ∨ Keeps (j.device.reboot img) (v.extend rs) := by
  obtain ⟨s, hst⟩ := hl.stored
  obtain ⟨g, s', hst', hid, hphase⟩ | ⟨s', hst'⟩ := hst.append_crash hne hfit hc
  · exact Or.inl ⟨g, s', hst', hid.trans hl.identity, hphase.trans hl.phase⟩
  · exact Or.inr ⟨_, s', hst', hl.identity, hl.phase⟩

/-- `checkpoint` の後半の途中で止まった媒体。 -/
theorem keeps_of_phase_crash {j : TransactionJournal} {v : JournalView} (hl : Live j v)
    (hseq : j.status.header.sequence.toNat ≤ 2 * v.records.length) (phase : OperationPhase)
    {img : Image}
    (hc : CrashImage SpareTorn j.device.data (phaseEvents j.status.header phase) img) :
    Keeps (j.device.reboot img) v ∨ Keeps (j.device.reboot img) { v with phase } := by
  obtain ⟨s, hst⟩ := hl.stored
  have hn := next_phaseHeader hst hseq phase
  obtain ⟨g, s', hst', hid, hphase⟩ | ⟨s', hst'⟩ := hst.header_crash hst.held hn hc
  · exact Or.inl ⟨g, s', hst', hid.trans hl.identity, hphase.trans hl.phase⟩
  · exact Or.inr ⟨_, s', hst', hl.identity, rfl⟩

/-- `checkpoint` の後半の後も、phase だけが変わる。 -/
theorem live_phase {j : TransactionJournal} {v : JournalView} (hl : Live j v)
    (hseq : j.status.header.sequence.toNat ≤ 2 * v.records.length) (phase : OperationPhase) :
    Live { j with
      device := j.device.emit (phaseEvents j.status.header phase)
      status := { j.status with headerSequence := j.status.headerSequence + 1, phase } }
      { v with phase } := by
  obtain ⟨s, hst⟩ := hl.stored
  exact ⟨hl.writable, hl.device_writable,
    ⟨_, Stored.header_kept hst.slots hst.held (next_phaseHeader hst hseq phase)⟩,
    hl.identity, rfl, hl.lastTransactionId⟩

/-- 操作の一歩。失敗なら何も残らず、成功なら終えた状態になり、途中なら書く状態のどれかになる。 -/
theorem op_cases {j : TransactionJournal} {v : JournalView} (hl : Live j v) (op : JournalOp) :
    (∃ e, Proc.run op.run j = (.error e, j)) ∨
    ∃ j', Proc.run op.run j = (.ok (), j') ∧ Live j' (op.result v) ∧
      ∀ img, CrashImage SpareTorn j.device.data (op.events j) img →
        ∃ v' ∈ v :: op.states v, Keeps (j.device.reboot img) v' := by
  obtain ⟨s, hst⟩ := hl.stored
  have hcount : j.status.recordCount.toNat = v.records.length := hst.count
  cases op with
  | appendBatch rs =>
    by_cases hne : rs = []
    · subst hne
      have hrun : Proc.run (JournalOp.appendBatch []).run j = (.ok (), j) :=
        run_appendBatch_nil hl.writable
      have hext : v.extend [] = v := by
        show { v with records := v.records ++ [] } = v
        rw [List.append_nil]
      refine Or.inr ⟨j, hrun, ?_, fun img hc => ⟨v, List.mem_cons_self, ?_⟩⟩
      · show Live j (v.extend [])
        rw [hext]; exact hl
      · have hev : (JournalOp.appendBatch []).events j = [] := by
          rw [JournalOp.events, hrun]
          exact List.drop_length
        rw [hev] at hc
        obtain ⟨p, hp, hset⟩ := hc
        rw [List.mem_singleton.mp hp] at hset
        rw [settle_nil_iff.mp hset]
        exact keeps_of_live hl
    · rcases Nat.lt_or_ge (capacityRecords j.device.sizeBytes)
        (j.status.recordCount.toNat + rs.length) with hfull | hfit
      · exact Or.inl ⟨_, run_appendBatch_full hne hl.writable hfull⟩
      · have hrun : Proc.run (JournalOp.appendBatch rs).run j = (.ok (), appended j rs) :=
          run_appendBatch hne hl.writable hl.device_writable hst.held.room hfit
        rw [hcount] at hfit
        refine Or.inr ⟨_, hrun, live_appended hl hne hfit, fun img hc => ?_⟩
        have hev : (JournalOp.appendBatch rs).events j = appendEvents j.status.header rs := by
          rw [JournalOp.events, hrun]
          exact List.drop_left
        rw [hev] at hc
        obtain hk | hk := keeps_of_append_crash hl hne hfit hc
        · exact ⟨v, List.mem_cons_self, hk⟩
        · exact ⟨v.extend rs, by simp [JournalOp.states, JournalOp.recorded], hk⟩
  | checkpoint phase =>
    rcases Nat.lt_or_ge (capacityRecords j.device.sizeBytes)
      (j.status.recordCount.toNat + 1) with hfull | hfit
    · exact Or.inl ⟨_, run_checkpoint_full hl.writable hfull⟩
    · have hrun : Proc.run (JournalOp.checkpoint phase).run j = (.ok (), checkpointed j phase) :=
        run_checkpoint hl.writable hl.device_writable hst.held.room hfit
      rw [hcount] at hfit
      have hrec := recorded_checkpoint hl phase
      have hl1 : Live (appended j [checkpointRecord j.status phase])
          ((JournalOp.checkpoint phase).recorded v) := by
        rw [hrec]
        exact live_appended hl (by simp) hfit
      have hseq1 : (appended j [checkpointRecord j.status phase]).status.header.sequence.toNat
          ≤ 2 * ((JournalOp.checkpoint phase).recorded v).records.length := by
        rw [hrec]
        exact appended_sequence_le hl _
      refine Or.inr ⟨_, hrun, live_phase hl1 hseq1 phase, fun img hc => ?_⟩
      have hev : (JournalOp.checkpoint phase).events j =
          appendEvents j.status.header [checkpointRecord j.status phase] ++
            phaseEvents (appended j [checkpointRecord j.status phase]).status.header phase := by
        rw [JournalOp.events, hrun]
        show ((j.device.events ++ _) ++ _).drop _ = _
        rw [List.append_assoc]
        exact List.drop_left
      rw [hev] at hc
      -- record の append の途中か、その後の phase の header の途中か
      obtain hc | hc := hc.of_append (crashEnd_appendEvents _ _ _)
      · obtain hk | hk := keeps_of_append_crash hl (List.cons_ne_nil _ _) (by exact hfit) hc
        · exact ⟨v, List.mem_cons_self, hk⟩
        · rw [← hrec] at hk
          exact ⟨_, by simp [JournalOp.states], hk⟩
      · obtain hk | hk := keeps_of_phase_crash hl1 hseq1 phase hc
        · exact ⟨_, by simp [JournalOp.states], hk⟩
        · exact ⟨_, by simp [JournalOp.states, JournalOp.result], hk⟩

/-! ## run の安全性 -/

/-- 操作は record を伸ばすだけである。 -/
theorem prefix_of_mem_states {v v' : JournalView} {op : JournalOp} (h : v' ∈ v :: op.states v) :
    v.records <+: v'.records := by
  have hrec : v.records <+: (op.recorded v).records := by
    cases op <;> exact List.prefix_append _ _
  have hres : (op.result v).records = (op.recorded v).records := by cases op <;> rfl
  simp only [JournalOp.states, List.mem_cons, List.not_mem_nil, or_false] at h
  obtain rfl | rfl | rfl := h
  · exact List.prefix_rfl
  · exact hrec
  · rw [hres]; exact hrec

theorem someSlot_of_stored {size : Nat} {img : Image} {h : DecodedHeader}
    {recs : List JournalRecord} {s : Nat} (hst : Stored size img h recs s) : SomeSlot img :=
  ⟨s, hst.slots.slot_lt, h, hst.slots.current⟩

/-- 保持されている媒体は開けて、その見え方になる。 -/
theorem open_of_keeps {d : Disk} {v : JournalView} (hk : Keeps d v) :
    ∃ j, openFile d true = .ok j ∧ Live j v := by
  obtain ⟨h, s, hst, hid, hphase⟩ := hk
  obtain ⟨j, hopen, _, _, _, hl⟩ := openFile_of_stored hst
  rw [hid, hphase] at hl
  exact ⟨j, hopen, hl⟩

theorem Inv.sound {s : JournalState} (h : s.Inv) : s.Sound := by
  cases s with
  | up j v =>
    obtain ⟨s, hst⟩ := Live.stored h
    exact ⟨Live.view_eq h, someSlot_of_stored hst⟩
  | down d v op =>
    obtain ⟨v', hmem, hk⟩ := h
    obtain ⟨j, hopen, hl⟩ := open_of_keeps hk
    obtain ⟨_, _, hst, _⟩ := hk
    exact ⟨someSlot_of_stored hst, j, v', hopen, hl.view_eq, hmem, prefix_of_mem_states hmem⟩

/-- 一歩で不変条件は保たれ、record は失われない。 -/
theorem Inv.step {s s' : JournalState} (h : s.Inv) (hs : Step SpareTorn s s') :
    s'.Inv ∧ s.acknowledged.records <+: s'.acknowledged.records := by
  cases hs with
  | @done j j' v op hrun =>
    obtain ⟨e, he⟩ | ⟨j'', hok, hl, _⟩ := op_cases h op
    · rw [he] at hrun; cases hrun
    · rw [hok] at hrun
      cases hrun
      have hmem : op.result v ∈ v :: op.states v := by simp [JournalOp.states]
      exact ⟨hl, prefix_of_mem_states hmem⟩
  | @failed j j' v e op hrun =>
    obtain ⟨e', he⟩ | ⟨j'', hok, _⟩ := op_cases h op
    · rw [he] at hrun
      cases hrun
      exact ⟨h, List.prefix_rfl⟩
    · rw [hok] at hrun; cases hrun
  | @crash j v img op hc =>
    refine ⟨?_, List.prefix_rfl⟩
    obtain ⟨e, he⟩ | ⟨_, _, _, hcrash⟩ := op_cases h op
    · -- 失敗した操作は何も書かない
      have hev : op.events j = [] := by
        rw [JournalOp.events, he]
        exact List.drop_length
      rw [hev] at hc
      obtain ⟨p, hp, hset⟩ := hc
      rw [List.mem_singleton.mp hp] at hset
      rw [settle_nil_iff.mp hset]
      exact ⟨v, List.mem_cons_self, keeps_of_live h⟩
    · exact hcrash img hc
  | @reopen d v v' op j hopen hview =>
    obtain ⟨w, hmem, hk⟩ := h
    obtain ⟨j', hopen', hl⟩ := open_of_keeps hk
    rw [hopen] at hopen'
    cases hopen'
    rw [hl.view_eq] at hview
    cases hview
    exact ⟨hl, prefix_of_mem_states hmem⟩

theorem Inv.run {s s' : JournalState} (h : s.Inv) (hr : Run SpareTorn s s') :
    s'.Inv ∧ s.acknowledged.records <+: s'.acknowledged.records := by
  induction hr with
  | refl => exact ⟨h, List.prefix_rfl⟩
  | tail _ hstep ih =>
    obtain ⟨hinv, hpre⟩ := ih
    obtain ⟨hinv', hpre'⟩ := hinv.step hstep
    exact ⟨hinv', hpre.trans hpre'⟩

/-! ## create -/

/-- `create` が書く header。 -/
def createdHeader (id : JournalIdentity) (seq : UInt64) : DecodedHeader :=
  { id, sequence := seq, phase := .prepared, recordCount := 0 }

/-- `create` が書いた像。slot 0 に sequence 1、slot 1 に sequence 0 がある。 -/
def createdImage (id : JournalIdentity) : Image :=
  (Image.write (fun _ => 0) (0 * headerBytes) (encodeHeader (createdHeader id 1))).write
    (1 * headerBytes) (encodeHeader (createdHeader id 0))

/-- `create` が返す journal。 -/
def created (id : JournalIdentity) (cap : Nat) (h : cap < 2 ^ 63) : TransactionJournal where
  device := { freshFile cap h with data := createdImage id }
  status := {
    identity := id, phase := .prepared, headerSequence := 1, recordsValid := true
    headerAValid := true, headerBValid := true }
  writable := true

theorem run_writeInitialHeaders {j : TransactionJournal} (hroom : 8192 ≤ j.device.sizeBytes)
    (hj : j.writable = true) (hw : j.device.writable = true) :
    Proc.run writeInitialHeaders j = (.ok (), { j with
      device := j.device.emit [
        .write ⟨0 * headerBytes, encodeHeader (createdHeader j.status.identity 1)⟩,
        .write ⟨1 * headerBytes, encodeHeader (createdHeader j.status.identity 0)⟩, .flush] }) := by
  have h0 : (0 + 1) * headerBytes ≤ j.device.sizeBytes := by simp only [headerBytes]; omega
  have h1 : (1 + 1) * headerBytes ≤ j.device.sizeBytes := by simp only [headerBytes]; omega
  let w (slot : Nat) (seq : UInt64) : Write :=
    ⟨slot * headerBytes, encodeHeader (createdHeader j.status.identity seq)⟩
  let j1 : TransactionJournal := { j with device := j.device.emit [.write (w 0 1)] }
  let j2 : TransactionJournal := { j with device := j1.device.emit [.write (w 1 0)] }
  have hfirst : Proc.run (writeHeader 0 1 .prepared 0) j = (.ok (), j1) := run_writeHeader hj hw h0
  have hsecond : Proc.run (writeHeader 1 0 .prepared 0) j1 = (.ok (), j2) :=
    run_writeHeader (j := j1) hj ((Disk.emit_writable j.device _).trans hw)
      (h1.trans_eq (Disk.emit_sizeBytes j.device _).symm)
  unfold writeInitialHeaders
  rw [Proc.run_bind_ok hfirst, Proc.run_bind_ok hsecond, run_onDevice_flush]
  simp only [j1, j2, w, Disk.emit_emit, List.cons_append, List.nil_append]

theorem create_eq_ok {host : CreateHost} {id : JournalIdentity} {cap : Nat}
    {j : TransactionJournal} (hc : create host id cap = .ok j) :
    ∃ h : cap < 2 ^ 63, recordsOffset + recordBytes * 16 ≤ cap ∧ j = created id cap h := by
  unfold create at hc
  by_cases hcap : cap < recordsOffset + recordBytes * 16
  · rw [if_pos hcap] at hc; cases hc
  have hcap' : recordsOffset + recordBytes * 16 ≤ cap := Nat.not_lt.mp hcap
  have hroom : 8192 ≤ cap := le_trans (by decide) hcap'
  rw [if_neg hcap] at hc
  cases hex : host.pathExists with
  | error e => simp only [hex] at hc; cases hc
  | ok b =>
    cases b with
    | true => simp only [hex] at hc; cases hc
    | false =>
      simp only [hex] at hc
      by_cases hlt : cap < 2 ^ 63
      · rw [dif_pos hlt] at hc
        refine ⟨hlt, hcap', ?_⟩
        obtain ⟨_, _, hc⟩ := Result.bind_eq_ok hc
        rw [run_writeInitialHeaders hroom rfl rfl] at hc
        obtain ⟨_, _, hc⟩ := Result.bind_eq_ok hc
        obtain ⟨_, _, hc⟩ := Result.bind_eq_ok hc
        cases hc
        rfl
      · rw [dif_neg hlt] at hc; cases hc

theorem slotHeader_created_zero (id : JournalIdentity) :
    slotHeader (createdImage id) 0 = .ok (createdHeader id 1) := by
  unfold createdImage
  rw [slotHeader_write_other _ (by decide) (length_encodeHeader _),
    slotHeader_write_self _ _ (length_encodeHeader _), decodeHeader_encodeHeader]

theorem slotHeader_created_one (id : JournalIdentity) :
    slotHeader (createdImage id) 1 = .ok (createdHeader id 0) := by
  unfold createdImage
  rw [slotHeader_write_self _ _ (length_encodeHeader _), decodeHeader_encodeHeader]

/-- 作りたての journal は、空の列を見せる。 -/
theorem live_created (id : JournalIdentity) {cap : Nat} (h : cap < 2 ^ 63)
    (hcap : recordsOffset + recordBytes * 16 ≤ cap) :
    Live (created id cap h) { identity := id, phase := .prepared, records := [] } := by
  have hslots : Slots (createdImage id) (createdHeader id 1) 0 := by
    refine ⟨by decide, slotHeader_created_zero id, fun g hg => ?_⟩
    rw [slotHeader_created_one] at hg
    cases hg
    exact ⟨rfl, show (0 : UInt64) < 1 by decide, fun _ => ⟨rfl, rfl⟩⟩
  have hheld : Held cap (createdImage id) [] :=
    { room := le_trans (by decide) hcap
      size_lt := h
      fits := Nat.zero_le _
      encoded := fun i r hi => by cases hi
      contiguous := fun i r hi => by cases hi }
  exact ⟨rfl, rfl, ⟨0, hslots, hheld, rfl, show (1 : UInt64).toNat ≤ 1 by decide⟩, rfl, rfl, rfl⟩

/--
**journal の crash 安全性。** `create` から始まる run で、唯一読める header への書き込みが
壊れないなら、到達したどの状態も安全であり、どの時点の record もその後失われない。
-/
theorem run_sound {host : CreateHost} {id : JournalIdentity} {cap : Nat} {j : TransactionJournal}
    (hc : create host id cap = .ok j) {s s' : JournalState}
    (hs : Run SpareTorn (start j id) s) (hs' : Run SpareTorn s s') :
    s'.Sound ∧ s.acknowledged.records <+: s'.acknowledged.records := by
  obtain ⟨h, hcap, rfl⟩ := create_eq_ok hc
  have hstart : (start (created id cap h) id).Inv := live_created id h hcap
  obtain ⟨hinv, _⟩ := hstart.run hs
  obtain ⟨hinv', hpre⟩ := hinv.run hs'
  exact ⟨hinv'.sound, hpre⟩

/-! ## 唯一読める header が壊れるとき -/

/-- 零は header として読めない。 -/
theorem decodeHeader_zeros : ∃ e, decodeHeader (zeros 4096) = .error e := by
  have hmagic : slice (zeros 4096) 0 8 ≠ headerMagic := by
    rw [slice, zeros, List.drop_zero, List.take_replicate]
    decide
  refine ⟨{ code := .corrupt, message := "journal header magic mismatch" }, ?_⟩
  unfold decodeHeader
  rw [if_neg (by rw [length_zeros]; decide)]
  dsimp only
  rw [if_pos hmagic]
  rfl

/-- `append_batch` の header の書き込みが壊れて、零が残った像。 -/
def tornAppend (j : TransactionJournal) (rs : List JournalRecord) : Image :=
  (j.device.data.applyAll (recordWrites j.status.header.recordCount.toNat rs)).apply
    ⟨(headerWrite (appendHeader j.status.header rs)).off, zeros 4096⟩

/-- その像は、`Torn` が許すなら、`append_batch` の途中の crash で残りうる。 -/
theorem step_tornAppend {Torn : Image → Write → Bytes → Prop} {j : TransactionJournal}
    {v : JournalView} (hl : Live j v) {rs : List JournalRecord} (hne : rs ≠ [])
    (hfit : v.records.length + rs.length ≤ capacityRecords j.device.sizeBytes)
    (htorn : Torn (j.device.data.applyAll (recordWrites j.status.header.recordCount.toNat rs))
      (headerWrite (appendHeader j.status.header rs)) (zeros 4096)) :
    Step Torn (.up j v) (.down (j.device.reboot (tornAppend j rs)) v (.appendBatch rs)) := by
  obtain ⟨s, hst⟩ := hl.stored
  have hcount : j.status.recordCount.toNat = v.records.length := hst.count
  have hrun : Proc.run (JournalOp.appendBatch rs).run j = (.ok (), appended j rs) :=
    run_appendBatch hne hl.writable hl.device_writable hst.held.room (by rw [hcount]; exact hfit)
  have hev : (JournalOp.appendBatch rs).events j = appendEvents j.status.header rs := by
    rw [JournalOp.events, hrun]
    exact List.drop_left
  refine .crash _
    ⟨(j.device.data.applyAll (recordWrites j.status.header.recordCount.toNat rs),
      [headerWrite (appendHeader j.status.header rs)]), ?_, .tear (zeros 4096) htorn ?_ (.nil _)⟩
  · rw [hev, appendEvents, mem_crashPoints_append, crashEnd_writes]
    right
    simp only [List.nil_append, crashPoints, List.mem_cons, true_or, or_true]
  · rw [length_zeros]
    exact (length_encodeHeader _).symm

theorem tornWrite_header_zeros (h : DecodedHeader) : TornWrite (headerWrite h) (zeros 4096) := by
  have hlt := slot_lt h.sequence
  have hoff : (headerWrite h).off < recordsOffset := by
    show (h.sequence &&& 1).toNat * headerBytes < recordsOffset
    simp only [headerBytes, recordsOffset]
    omega
  rw [TornWrite, if_pos hoff]
  exact decodeHeader_zeros

/-- 書き込み先の slot は零になり、反対側は前のままである。 -/
theorem slotHeader_tornAppend {j : TransactionJournal} {rs : List JournalRecord} {s : Nat}
    (hs : s < 2) (hslot : (j.status.headerSequence + 1 &&& 1).toNat = s) :
    (∃ e, slotHeader (tornAppend j rs) s = .error e) ∧
      slotHeader (tornAppend j rs) (1 - s) = slotHeader j.device.data (1 - s) := by
  have hlen : (zeros 4096).length = 4096 := length_zeros _
  have hne : s ≠ 1 - s := by omega
  have hs' : 1 - s < 2 := by omega
  subst hslot
  constructor
  · obtain ⟨e, he⟩ := decodeHeader_zeros
    exact ⟨e, (slotHeader_write_self _ _ hlen).trans he⟩
  · refine (slotHeader_write_other _ hne hlen).trans (slotHeader_congr ?_)
    exact Image.read_applyAll_of_disjoint _ _ _ _ fun w hw =>
      Or.inl (recordWrites_off_slots hs' hw)

/--
**書き込み先が唯一読める slot なら、その書き込みが壊れた journal は開けない。**
`SpareTorn` の限定はこの場合だけを除く。
-/
theorem lost_of_no_spare {j : TransactionJournal} {v : JournalView} (hl : Live j v)
    {rs : List JournalRecord} (hne : rs ≠ [])
    (hfit : v.records.length + rs.length ≤ capacityRecords j.device.sizeBytes) {s : Nat} (hs : s < 2)
    (hslot : (j.status.headerSequence + 1 &&& 1).toNat = s) {e : Error}
    (hspare : slotHeader j.device.data (1 - s) = .error e) :
    Step AnyTorn (.up j v) (.down (j.device.reboot (tornAppend j rs)) v (.appendBatch rs)) ∧
      openFile (j.device.reboot (tornAppend j rs)) true =
        .error { code := .corrupt, message := "both journal headers are invalid" } := by
  obtain ⟨_, hst⟩ := hl.stored
  refine ⟨step_tornAppend hl hne hfit (tornWrite_header_zeros _), ?_⟩
  obtain ⟨⟨e', hbad⟩, hother⟩ := @slotHeader_tornAppend j rs s hs hslot
  rw [hspare] at hother
  obtain rfl | rfl : s = 0 ∨ s = 1 := by omega
  · exact openFile_both_invalid hst.held.room hbad hother
  · exact openFile_both_invalid hst.held.room hother hbad

/-! ## 作りたての journal -/

/-- 何も失敗しない host。 -/
def quietHost : CreateHost where
  pathExists := .ok false
  createFile := .ok ()
  publish := .ok ()
  reopen := .ok ()

theorem create_quiet (id : JournalIdentity) {cap : Nat} (h : cap < 2 ^ 63)
    (hcap : recordsOffset + recordBytes * 16 ≤ cap) :
    create quietHost id cap = .ok (created id cap h) := by
  have hroom : 8192 ≤ cap := le_trans (by decide) hcap
  unfold create quietHost
  rw [if_neg (Nat.not_lt.mpr hcap)]
  dsimp only
  rw [dif_pos h, Result.ok_bind, run_writeInitialHeaders hroom rfl rfl]
  rfl

/-- 二つの UUID も大きさも零の identity。 -/
def zeroIdentity : JournalIdentity where
  operationUuid := Uuid.ofBytes []
  filesystemUuid := Uuid.ofBytes []
  deviceSize := 0
  targetSize := 0

theorem smallJournal_lt : 10240 < 9223372036854775808 := by decide

/-- record が 16 個入る、作りたての journal。 -/
def smallJournal : TransactionJournal := created zeroIdentity 10240 smallJournal_lt

theorem live_smallJournal :
    Live smallJournal { identity := zeroIdentity, phase := .prepared, records := [] } :=
  live_created zeroIdentity _ (by decide)

/-- 最初の `append` の header の書き込みが壊れた媒体。 -/
def wornDisk : Disk := smallJournal.device.reboot (tornAppend smallJournal [{}])

theorem step_wornDisk : Step SpareTorn (start smallJournal zeroIdentity)
    (.down wornDisk { identity := zeroIdentity, phase := .prepared, records := [] }
      (.appendBatch [{}])) := by
  refine step_tornAppend live_smallJournal (List.cons_ne_nil _ _) (by decide)
    ⟨tornWrite_header_zeros _, fun _ => ⟨createdHeader zeroIdentity 0, ?_⟩⟩
  rw [show spareSlot (headerWrite (appendHeader smallJournal.status.header [{}])) = 1 from rfl,
    ← slotHeader_created_one zeroIdentity]
  exact slotHeader_congr (Image.read_applyAll_of_disjoint _ _ _ _ fun w hw =>
    Or.inl (recordWrites_off_slots (by decide) hw))

/-- 最初の書き込みが壊れた journal は、まだ開ける。 -/
theorem run_sound_wornDisk :
    (JournalState.down wornDisk { identity := zeroIdentity, phase := .prepared, records := [] }
      (.appendBatch [{}])).Sound :=
  (run_sound (create_quiet zeroIdentity (by decide) (by decide)) .refl (.single step_wornDisk)).1

/-- 壊れた後に読めるのは、slot 1 の sequence 0 の header だけである。 -/
theorem slotHeader_wornDisk : (∃ e, slotHeader wornDisk.data 0 = .error e) ∧
    slotHeader wornDisk.data 1 = .ok (createdHeader zeroIdentity 0) := by
  obtain ⟨hbad, hother⟩ := @slotHeader_tornAppend smallJournal [{}] 0 (by decide) rfl
  rw [wornDisk, Disk.reboot_data]
  refine ⟨hbad, hother.trans ?_⟩
  exact slotHeader_created_one zeroIdentity

/-- 開き直した journal の sequence は 0 に戻っている。 -/
theorem open_wornDisk : ∃ j v, openFile wornDisk true = .ok j ∧ j.view = .ok v ∧ Live j v ∧
    j.status.headerSequence = 0 ∧ v.records.length = 0 ∧
    j.device.sizeBytes = 10240 ∧ j.device.data = wornDisk.data := by
  obtain ⟨⟨e, hzero⟩, hone⟩ := slotHeader_wornDisk
  have hinv := (Inv.step (s := start smallJournal zeroIdentity) live_smallJournal step_wornDisk).1
  obtain ⟨v, _, g, s, hst, hid, hphase⟩ := hinv
  have hs : s = 1 := by
    have hlt := hst.slots.slot_lt
    have hne : s ≠ 0 := by
      rintro rfl
      have hcur := hst.slots.current
      rw [hzero] at hcur
      cases hcur
    omega
  have hg : g = createdHeader zeroIdentity 0 := by
    have hcur := hst.slots.current
    rw [hs, hone] at hcur
    cases hcur
    rfl
  obtain ⟨j, hopen, hhdr, hsize, hdata, hl⟩ := openFile_of_stored hst
  rw [hg] at hhdr
  refine ⟨j, _, hopen, hl.view_eq, hl, congrArg DecodedHeader.sequence hhdr, ?_, hsize, hdata⟩
  have hcount := hst.count
  rw [hg] at hcount
  exact hcount.symm

/--
作りたての journal の最初の header の書き込みが壊れ、開き直して次の header の書き込みも
壊れると、どちらの slot も読めず `open` は失敗する。
-/
theorem run_loses_both_headers : ∃ d v op,
    create quietHost zeroIdentity 10240 = .ok smallJournal ∧
    Run AnyTorn (start smallJournal zeroIdentity) (.down d v op) ∧
    openFile d true =
      .error { code := .corrupt, message := "both journal headers are invalid" } ∧
    ¬ (JournalState.down d v op).Sound := by
  obtain ⟨j, v, hopen, hview, hl, hseq, hlen, hsize, hdata⟩ := open_wornDisk
  obtain ⟨e, hzero⟩ := slotHeader_wornDisk.1
  have hfit : v.records.length + [({} : JournalRecord)].length ≤ capacityRecords j.device.sizeBytes := by
    rw [hlen, hsize]; decide
  have hfirst : Step AnyTorn (start smallJournal zeroIdentity)
      (.down wornDisk { identity := zeroIdentity, phase := .prepared, records := [] }
        (.appendBatch [{}])) :=
    step_tornAppend live_smallJournal (List.cons_ne_nil _ _) (by decide) (tornWrite_header_zeros _)
  obtain ⟨hstep, hlost⟩ := lost_of_no_spare hl (List.cons_ne_nil _ _) hfit (s := 1) (by decide)
    (by rw [hseq]; rfl) (by rw [hdata]; exact hzero)
  refine ⟨_, v, .appendBatch [{}], create_quiet zeroIdentity (by decide) (by decide),
    ((Relation.ReflTransGen.single hfirst).tail (.reopen hopen hview)).tail hstep, hlost, ?_⟩
  rintro ⟨_, j', v', hopen', _⟩
  rw [hlost] at hopen'
  cases hopen'

end JournalState

end Fsx
