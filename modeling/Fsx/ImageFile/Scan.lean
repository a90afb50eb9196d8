import Fsx.ImageFile.Model

/-!
# file に並ぶ chunk

`walk_image` のループと、`restore` の二つのループは、別々に書かれているが同じ file を同じ順に読む。
そこで「位置 `pos` から chunk の列が読める」という関係 `Scans` を一つ定め、三つのループをそれぞれ
この関係で言い切る。
-/

namespace Fsx.ImageFile

/-- file の中の一つの chunk。零の chunk の `payload` は空である。 -/
structure Chunk where
  record : ParsedRecord
  payload : Bytes
  deriving DecidableEq

/-- chunk の表す内容。 -/
def Chunk.content (c : Chunk) : Bytes :=
  if c.record.isZero then zeros c.record.logicalLen else c.payload

/-- `pos` から `i` 番目以降の chunk の列が読め、`e` で終わる。 -/
inductive Scans (file : Bytes) (info : ImageInfo) : Nat → Nat → List Chunk → Nat → Prop
  | nil (i pos : Nat) : Scans file info i pos [] pos
  | cons {i pos e : Nat} {p : ParsedRecord} {cs : List Chunk} :
      parseRecord (slice file pos recordSize) info i = .ok p →
      pos + recordSize + p.storedLen ≤ file.length →
      (p.isZero = false → checksum (slice file (pos + recordSize) p.storedLen) = p.payloadCrc) →
      Scans file info (i + 1) (pos + recordSize + p.storedLen) cs e →
      Scans file info i pos (⟨p, slice file (pos + recordSize) p.storedLen⟩ :: cs) e

/-- chunk を一つ数える。 -/
def Totals.add (t : Totals) (c : Chunk) : Totals :=
  if c.record.isZero then { t with zeroChunks := t.zeroChunks + 1 }
  else { t with
    dataChunks := t.dataChunks + 1, payloadBytes := t.payloadBytes + c.record.storedLen }

theorem readAt_ok {file : Bytes} {pos n : Nat} (h : pos + n ≤ file.length) :
    readAt file pos n = .ok (slice file pos n) := by
  unfold readAt
  rw [if_neg (by omega)]

theorem readAt_eq_ok_iff {file : Bytes} {pos n : Nat} {b : Bytes} (hn : 0 < n) :
    readAt file pos n = .ok b ↔ pos + n ≤ file.length ∧ b = slice file pos n := by
  unfold readAt
  by_cases h : 0 < n ∧ file.length < pos + n
  · rw [if_pos h]
    constructor
    · intro hc
      cases hc
    · rintro ⟨hle, -⟩
      omega
  · rw [if_neg h]
    constructor
    · intro hc
      cases hc
      exact ⟨by omega, rfl⟩
    · rintro ⟨-, rfl⟩
      rfl

theorem isZero_iff {p : ParsedRecord} : p.isZero = true ↔ p.flags &&& chunkZero ≠ 0 := by
  unfold ParsedRecord.isZero
  simp

section Record

variable {p : ParsedRecord} {info : ImageInfo} {i : Nat} (h : RecordOk p info i)
include h

theorem RecordOk.len_le : p.logicalLen ≤ info.chunkBytes := by
  have := h.len
  omega

theorem RecordOk.end_le : p.sourceOffset + p.logicalLen ≤ info.sourceBytes := by
  have := h.len
  have := h.inside
  omega

theorem RecordOk.stored_le : p.storedLen ≤ p.logicalLen := by
  cases hz : p.isZero with
  | true =>
    rw [(h.zeroed hz).1]
    exact Nat.zero_le _
  | false => exact Nat.le_of_eq (h.stored hz)

end Record

/-! ## `walk_image` のループ -/

section Walk

variable {file : Bytes} {info : ImageInfo}

/-- 読んだ chunk の内容の和は、読み終えた範囲を超えない。 -/
theorem Totals.add_le {t : Totals} {p : ParsedRecord} {b : Bytes} {i : Nat} (h : RecordOk p info i)
    (ht : t.payloadBytes ≤ i * info.chunkBytes) :
    (t.add ⟨p, b⟩).payloadBytes ≤ (i + 1) * info.chunkBytes := by
  have hstored := h.stored_le
  have hlen := h.len_le
  rw [Nat.succ_mul]
  unfold Totals.add
  dsimp only
  split
  · exact Nat.le_add_right_of_le ht
  · exact Nat.add_le_add ht (by omega)

/-- 一つの chunk を調べる。 -/
theorem walkChunks_succ {n i pos : Nat} {t : Totals} {r : Nat × Totals}
    (ht : t.payloadBytes ≤ i * info.chunkBytes) :
    walkChunks (fun _ => false) true file info (n + 1) i pos t = .ok r ↔
      ∃ p, parseRecord (slice file pos recordSize) info i = .ok p ∧
        pos + recordSize + p.storedLen ≤ file.length ∧
        (p.isZero = false → checksum (slice file (pos + recordSize) p.storedLen) = p.payloadCrc) ∧
        walkChunks (fun _ => false) true file info n (i + 1) (pos + recordSize + p.storedLen)
          (t.add ⟨p, slice file (pos + recordSize) p.storedLen⟩) = .ok r := by
  rw [walkChunks, if_neg (by decide)]
  constructor
  · intro h
    obtain ⟨raw, hraw, h⟩ := Result.bind_eq_ok h
    obtain ⟨hin, rfl⟩ := (readAt_eq_ok_iff (by decide)).mp hraw
    obtain ⟨p, hp, h⟩ := Result.bind_eq_ok h
    have hrec := recordOk_of_parseRecord hp
    refine ⟨p, hp, ?_⟩
    by_cases hz : p.flags &&& chunkZero ≠ 0
    · have hz' := isZero_iff.mpr hz
      have hst := (hrec.zeroed hz').1
      rw [if_pos hz] at h
      rw [hst]
      refine ⟨by omega, fun hc => ?_, ?_⟩
      · rw [hz'] at hc
        cases hc
      · unfold Totals.add
        rw [if_pos hz']
        exact h
    · have hz' : p.isZero = false := by rw [← Bool.not_eq_true, isZero_iff]; exact hz
      have hpos : 0 < p.storedLen := by rw [hrec.stored hz']; exact hrec.len_pos
      rw [if_neg hz, Result.guard_bind_eq_ok_iff] at h
      obtain ⟨-, h⟩ := h
      obtain ⟨payload, hpay, h⟩ := Result.bind_eq_ok h
      obtain ⟨hin', rfl⟩ := (readAt_eq_ok_iff hpos).mp hpay
      rw [Result.guard_bind_eq_ok_iff] at h
      obtain ⟨hsum, h⟩ := h
      refine ⟨hin', fun _ => by simpa using hsum, ?_⟩
      unfold Totals.add
      rw [if_neg (by rw [hz']; decide)]
      exact h
  · rintro ⟨p, hp, hin, hsum, h⟩
    have hrec := recordOk_of_parseRecord hp
    rw [readAt_ok (by omega), Result.ok_bind, hp, Result.ok_bind]
    unfold Totals.add at h
    by_cases hz : p.flags &&& chunkZero ≠ 0
    · have hz' := isZero_iff.mpr hz
      have hst := (hrec.zeroed hz').1
      rw [if_pos hz', hst] at h
      rw [if_pos hz]
      exact h
    · have hz' : p.isZero = false := by rw [← Bool.not_eq_true, isZero_iff]; exact hz
      have hend := hrec.end_le
      have hoff := hrec.offset
      have hst := hrec.stored hz'
      rw [if_neg (by rw [hz']; decide)] at h
      -- 会計のあふれの検査は、順に並んだ chunk では通らないことがない
      rw [if_neg hz, if_neg (by omega), readAt_ok (by omega), Result.ok_bind,
        if_neg (by simp [hsum hz'])]
      exact h

/-- **`walk_image` のループが成功するのは、chunk の列が読めるときである。** -/
theorem walkChunks_eq_ok_iff : ∀ {n i pos : Nat} {t : Totals} {e : Nat} {t' : Totals},
    t.payloadBytes ≤ i * info.chunkBytes →
    (walkChunks (fun _ => false) true file info n i pos t = .ok (e, t') ↔
      ∃ cs, Scans file info i pos cs e ∧ cs.length = n ∧ t' = cs.foldl Totals.add t)
  | 0, i, pos, t, e, t', _ => by
    constructor
    · intro h
      cases h
      exact ⟨[], .nil i pos, rfl, rfl⟩
    · rintro ⟨cs, hs, hlen, rfl⟩
      rw [List.length_eq_zero_iff] at hlen
      subst hlen
      cases hs
      rfl
  | n + 1, i, pos, t, e, t', ht => by
    rw [walkChunks_succ ht]
    constructor
    · rintro ⟨p, hp, hin, hsum, h⟩
      have hle := Totals.add_le (b := slice file (pos + recordSize) p.storedLen)
        (recordOk_of_parseRecord hp) ht
      obtain ⟨cs, hs, hlen, rfl⟩ := (walkChunks_eq_ok_iff hle).mp h
      exact ⟨_, .cons hp hin hsum hs, by rw [List.length_cons, hlen], rfl⟩
    · rintro ⟨cs, hs, hlen, rfl⟩
      cases hs with
      | nil => cases hlen
      | @cons _ _ _ p cs hp hin hsum hs =>
        have hle := Totals.add_le (b := slice file (pos + recordSize) p.storedLen)
          (recordOk_of_parseRecord hp) ht
        refine ⟨p, hp, hin, hsum, (walkChunks_eq_ok_iff hle).mpr ⟨cs, hs, ?_, rfl⟩⟩
        simpa using hlen

end Walk

end Fsx.ImageFile
