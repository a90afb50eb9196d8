import Fsx.ImageFile.Scan

/-!
# 復元の二つの pass

書き込みの pass は、読めた chunk の内容をそのまま target に書く。chunk の置き場所は互いに重ならないので、
読み戻しの pass はどの chunk でも書いたとおりの内容を見る。
-/

namespace Fsx.ImageFile

/-! ## chunk の置き場所 -/

/-- chunk の target への書き込み。 -/
def Chunk.write (c : Chunk) : Write := ⟨c.record.sourceOffset, c.content⟩

section Placement

variable {file : Bytes} {info : ImageInfo}

theorem length_content {p : ParsedRecord} {i pos : Nat} (h : RecordOk p info i)
    (hin : pos + p.storedLen ≤ file.length) :
    (Chunk.content ⟨p, slice file pos p.storedLen⟩).length = p.logicalLen := by
  unfold Chunk.content
  dsimp only
  cases hz : p.isZero with
  | true => exact length_zeros _
  | false =>
    rw [if_neg (by decide), length_slice hin]
    exact h.stored hz

/-- 読めた chunk は、順番どおりの場所の、順番どおりの長さの内容である。 -/
theorem Scans.placed {i pos e : Nat} {cs : List Chunk} (h : Scans file info i pos cs e) :
    ∀ c ∈ cs, ∃ k, i ≤ k ∧ k < i + cs.length ∧ RecordOk c.record info k ∧
      c.content.length = c.record.logicalLen := by
  induction h with
  | nil i pos =>
    intro c hc
    cases hc
  | @cons i pos e p cs hp hin hsum hs ih =>
    have hrec := recordOk_of_parseRecord hp
    intro c hc
    rw [List.length_cons]
    rcases List.mem_cons.mp hc with rfl | hc
    · exact ⟨i, Nat.le_refl i, by omega, hrec, length_content hrec hin⟩
    · obtain ⟨k, h1, h2, h3, h4⟩ := ih c hc
      exact ⟨k, by omega, by omega, h3, h4⟩

/-- どの番号の chunk も読めている。 -/
theorem Scans.exists_index {i pos e : Nat} {cs : List Chunk} (h : Scans file info i pos cs e) :
    ∀ k, i ≤ k → k < i + cs.length → ∃ c ∈ cs, RecordOk c.record info k := by
  induction h with
  | nil i pos =>
    intro k h1 h2
    rw [List.length_nil] at h2
    omega
  | @cons i pos e p cs hp hin hsum hs ih =>
    intro k h1 h2
    rw [List.length_cons] at h2
    by_cases hk : k = i
    · subst hk
      exact ⟨_, List.mem_cons_self, recordOk_of_parseRecord hp⟩
    · obtain ⟨c, hc, hrec⟩ := ih k (by omega) (by omega)
      exact ⟨c, List.mem_cons_of_mem _ hc, hrec⟩

/-- 書き込みは互いに重ならない。 -/
theorem Scans.pairwise {i pos e : Nat} {cs : List Chunk} (h : Scans file info i pos cs e) :
    (cs.map Chunk.write).Pairwise Write.Apart := by
  induction h with
  | nil i pos => exact List.Pairwise.nil
  | @cons i pos e p cs hp hin hsum hs ih =>
    have hrec := recordOk_of_parseRecord hp
    rw [List.map_cons, List.pairwise_cons]
    refine ⟨fun w hw => ?_, ih⟩
    obtain ⟨c, hc, rfl⟩ := List.mem_map.mp hw
    obtain ⟨k, hk, -, hrec', -⟩ := hs.placed c hc
    have hoff := hrec.offset
    have hoff' := hrec'.offset
    have hlen := hrec.len_le
    have hmul := Nat.mul_le_mul_right info.chunkBytes hk
    rw [Nat.succ_mul] at hmul
    left
    show p.sourceOffset + (Chunk.content _).length ≤ c.record.sourceOffset
    rw [length_content hrec hin]
    omega

end Placement

/-! ## 書き込みの pass -/

section Write

variable {cancelled : Nat → Bool} {file : Bytes} {info : ImageInfo}

/-- 成功した書き込みの pass は、chunk の列を読み終えている。 -/
theorem scans_of_restoreChunks : ∀ {n i pos : Nat} {d d' : Disk} {e : Nat},
    Proc.run (restoreChunks cancelled file info n i pos) d = (.ok e, d') →
    ∃ cs, Scans file info i pos cs e ∧ cs.length = n
  | 0, i, pos, d, d', e, h => by
    cases h
    exact ⟨[], .nil i pos, rfl⟩
  | n + 1, i, pos, d, d', e, h => by
    rw [restoreChunks] at h
    by_cases hc : cancelled i = true
    · rw [if_pos hc] at h
      cases h
    rw [if_neg hc] at h
    obtain ⟨raw, d1, hraw, h⟩ := Proc.run_bind_eq_ok h
    obtain ⟨hraw, -⟩ := Prod.mk.inj hraw
    obtain ⟨hin, rfl⟩ := (readAt_eq_ok_iff (by decide)).mp hraw
    obtain ⟨p, d2, hp, h⟩ := Proc.run_bind_eq_ok h
    obtain ⟨hp, -⟩ := Prod.mk.inj hp
    have hrec := recordOk_of_parseRecord hp
    by_cases hz : p.flags &&& chunkZero ≠ 0
    · have hz' := isZero_iff.mpr hz
      have hst := (hrec.zeroed hz').1
      rw [if_pos hz] at h
      obtain ⟨_, d3, -, h⟩ := Proc.run_bind_eq_ok h
      obtain ⟨cs, hs, hlen⟩ := scans_of_restoreChunks h
      refine ⟨_, .cons hp (by omega) (fun hc => ?_) (by rw [hst]; exact hs), ?_⟩
      · rw [hz'] at hc
        cases hc
      · rw [List.length_cons, hlen]
    · have hz' : p.isZero = false := by rw [← Bool.not_eq_true, isZero_iff]; exact hz
      have hst := hrec.stored hz'
      rw [if_neg hz] at h
      obtain ⟨payload, d3, hpay, h⟩ := Proc.run_bind_eq_ok h
      obtain ⟨hpay, -⟩ := Prod.mk.inj hpay
      obtain ⟨hin', rfl⟩ := (readAt_eq_ok_iff hrec.len_pos).mp hpay
      by_cases hsum : checksum (slice file (pos + recordSize) p.logicalLen) ≠ p.payloadCrc
      · rw [if_pos hsum] at h
        cases h
      rw [if_neg hsum] at h
      obtain ⟨_, d4, -, h⟩ := Proc.run_bind_eq_ok h
      obtain ⟨cs, hs, hlen⟩ := scans_of_restoreChunks h
      refine ⟨_, .cons hp (by omega) (fun _ => ?_) (by rw [hst]; exact hs), ?_⟩
      · rw [hst]
        exact not_not.mp hsum
      · rw [List.length_cons, hlen]

/-- 書き込みの pass は、読めた chunk の内容を順に書く。 -/
theorem run_restoreChunks {i pos e : Nat} {cs : List Chunk} (h : Scans file info i pos cs e)
    (hc : ∀ i, cancelled i = false) : ∀ {d : Disk}, d.writable = true →
    info.sourceBytes ≤ d.sizeBytes →
    Proc.run (restoreChunks cancelled file info cs.length i pos) d =
      (.ok e, d.emit ((cs.map Chunk.write).map .write)) := by
  induction h with
  | nil i pos =>
    intro d _ _
    rw [List.map_nil, List.map_nil, Disk.emit_nil]
    rfl
  | @cons i pos e p cs hp hin hsum hs ih =>
    intro d hw hsize
    have hrec := recordOk_of_parseRecord hp
    have hend := hrec.end_le
    have hlen := @length_content file _ _ _ (pos + recordSize) hrec hin
    have hwrite : Proc.run (DevM.write p.sourceOffset
        (Chunk.content ⟨p, slice file (pos + recordSize) p.storedLen⟩)) d =
        (.ok (), d.emit [.write (Chunk.write ⟨p, slice file (pos + recordSize) p.storedLen⟩)]) :=
      DevM.run_write_ok hw (by omega)
    have hrest := ih (d := d.emit [.write (Chunk.write ⟨p, slice file (pos + recordSize) p.storedLen⟩)])
      hw hsize
    rw [Disk.emit_emit] at hrest
    unfold Chunk.content at hwrite
    dsimp only at hwrite
    rw [List.length_cons, restoreChunks, if_neg (by rw [hc]; decide),
      Proc.run_bind_ok (Proc.run_reading _ d |>.trans (by rw [readAt_ok (by omega)])),
      Proc.run_bind_ok (Proc.run_reading _ d |>.trans (by rw [hp]))]
    cases hz : p.isZero with
    | true =>
      rw [hz, if_pos rfl] at hwrite
      rw [(hrec.zeroed hz).1, Nat.add_zero] at hrest
      rw [if_pos (isZero_iff.mp hz), Proc.run_bind_ok hwrite, (hrec.zeroed hz).1]
      exact hrest
    | false =>
      have hz' : ¬ p.flags &&& chunkZero ≠ 0 := by rw [← isZero_iff, hz]; decide
      have hst := hrec.stored hz
      rw [hz, if_neg (by decide)] at hwrite
      have hsum := hsum hz
      rw [hst] at hwrite hsum hin hrest ⊢
      rw [if_neg hz', Proc.run_bind_ok (Proc.run_reading _ d |>.trans (by rw [readAt_ok hin])),
        if_neg (not_not.mpr hsum), Proc.run_bind_ok hwrite]
      exact hrest

end Write

/-! ## 読み戻しの pass -/

/-- target に内容がそろっていれば、読み戻しの pass は成功して何も変えない。 -/
theorem run_readBackChunks {cancelled : Nat → Bool} {file : Bytes} {info : ImageInfo} {d : Disk}
    {i pos e : Nat} {cs : List Chunk} (h : Scans file info i pos cs e)
    (hc : ∀ i, cancelled i = false) (hsize : info.sourceBytes ≤ d.sizeBytes)
    (hdata : ∀ c ∈ cs, d.data.read c.record.sourceOffset c.record.logicalLen = c.content) :
    Proc.run (readBackChunks cancelled file info cs.length i pos) d = (.ok (), d) := by
  induction h with
  | nil i pos => rfl
  | @cons i pos e p cs hp hin hsum hs ih =>
    have hrec := recordOk_of_parseRecord hp
    have hend := hrec.end_le
    have hhead := hdata _ List.mem_cons_self
    unfold Chunk.content at hhead
    dsimp only at hhead
    have hread : d.readExact p.sourceOffset p.logicalLen =
        .ok (d.data.read p.sourceOffset p.logicalLen) := Disk.readExact_ok (by omega)
    have hrest := ih fun c hc => hdata c (List.mem_cons_of_mem _ hc)
    rw [List.length_cons, readBackChunks, if_neg (by rw [hc]; decide),
      Proc.run_bind_ok (Proc.run_reading _ d |>.trans (by rw [readAt_ok (by omega)])),
      Proc.run_bind_ok (Proc.run_reading _ d |>.trans (by rw [hp]))]
    unfold DevM.read
    rw [Proc.run_bind_ok (Proc.run_reading _ d |>.trans (by rw [hread]))]
    cases hz : p.isZero with
    | true =>
      rw [hz, if_pos rfl] at hhead
      rw [(hrec.zeroed hz).1, Nat.add_zero] at hrest
      rw [if_pos (isZero_iff.mp hz), hhead, if_neg (by rw [allZero_zeros]; decide)]
      exact hrest
    | false =>
      have hz' : ¬ p.flags &&& chunkZero ≠ 0 := by rw [← isZero_iff, hz]; decide
      rw [hz, if_neg (by decide)] at hhead
      rw [if_neg hz', hhead, if_neg (not_not.mpr (hsum hz))]
      exact hrest

end Fsx.ImageFile
