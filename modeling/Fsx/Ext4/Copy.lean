import Fsx.Core.CrcDetect
import Fsx.Ext4.Stage

/-!
# 写しの範囲と checksum

`copy_one` と `verify_one` は範囲を chunk に区切って順に読む。区切りは範囲を隙間なく覆い、
CRC は区切り方によらないので、`verify_one` の値は destination の内容だけで決まる。
-/

namespace Fsx.Ext4

/-! ## 区切り -/

/-- `cs` は `[pos, stop)` を順に隙間なく覆う区切りである。 -/
def Tiles : List (Nat × Nat) → Nat → Nat → Prop
  | [], pos, stop => pos = stop
  | (p, n) :: rest, pos, stop => p = pos ∧ Tiles rest (pos + n) stop

theorem Tiles.le : ∀ {cs : List (Nat × Nat)} {pos stop : Nat}, Tiles cs pos stop → pos ≤ stop
  | [], _, _, h => Nat.le_of_eq h
  | (_, _) :: _, _, _, h => (Nat.le_add_right _ _).trans (Tiles.le h.2)

/-- 区切りの長さが正なら、残りを尽くすまで区切れる。 -/
theorem tiles_chunks {size : Nat} (hsize : 0 < size) : ∀ {fuel pos left : Nat}, left ≤ fuel →
    Tiles (chunks size fuel pos left) pos (pos + left)
  | 0, pos, left, h => by
    rw [Nat.le_zero.mp h]
    rfl
  | fuel + 1, pos, left, h => by
    rw [chunks]
    split
    · next h0 =>
      rw [h0]
      rfl
    · refine ⟨rfl, ?_⟩
      have hrest := @tiles_chunks size hsize fuel (pos + min size left) (left - min size left)
        (by omega)
      rwa [show pos + min size left + (left - min size left) = pos + left by omega] at hrest

/-- 区切って読んだ CRC は、続けて読んだ CRC である。 -/
theorem crcChunks_eq {d : Disk} {start : Nat} : ∀ {cs : List (Nat × Nat)} {pos stop : Nat}
    {crc : UInt32}, Tiles cs pos stop → start + stop ≤ d.sizeBytes →
    crcChunks d start cs crc = .ok (crc32c (d.data.read (start + pos) (stop - pos)) crc)
  | [], pos, stop, crc, h, _ => by
    rw [show stop - pos = 0 by have : pos = stop := h; omega]
    rfl
  | (p, n) :: rest, pos, stop, crc, h, hfit => by
    obtain ⟨rfl, hrest⟩ := h
    have hle := hrest.le
    rw [crcChunks, Disk.readExact_ok (by omega), Result.ok_bind, crcChunks_eq hrest hfit,
      ← crc32c_append, ← Nat.add_assoc, ← Image.read_append,
      show n + (stop - (p + n)) = stop - p by omega]

/-! ## 範囲 -/

/-- 空でない範囲が device に収まる。 -/
structure RangeIn (d : Disk) (bs block count : Nat) : Prop where
  bs_pos : 0 < bs
  count_pos : 0 < count
  fits : (block + count) * bs ≤ d.sizeBytes

theorem RangeIn.fits' {d : Disk} {bs block count : Nat} (h : RangeIn d bs block count) :
    block * bs + count * bs ≤ d.sizeBytes := by
  rw [← Nat.add_mul]
  exact h.fits

theorem byteRange_eq {d : Disk} {bs block count : Nat} (h : RangeIn d bs block count) :
    byteRange d block count bs = .ok (block * bs, count * bs) := by
  have h1 := h.bs_pos
  have h2 := h.count_pos
  have h3 := h.fits'
  have h4 := d.size_lt
  have hblock : block ≤ u64Max / bs := (Nat.le_div_iff_mul_le h1).mpr (by unfold u64Max; omega)
  have hcount : count ≤ u64Max / bs := (Nat.le_div_iff_mul_le h1).mpr (by unfold u64Max; omega)
  unfold byteRange
  dsimp only
  rw [if_neg (by omega), if_neg (by omega), if_neg (by omega)]
  rfl

/-- 検証で読む CRC。unwritten の移動は何も読まない。 -/
def stagedCrc (img : Image) (bs : Nat) (m : OwnerMove) : UInt32 :=
  if m.unwritten then 0 else crc32cFinal (img.read (m.destinationBlock * bs) (m.blockCount * bs))

/-- **`verify_one` の値は、destination の内容だけで決まる。** -/
theorem verifyOne_eq {d : Disk} {bs chunk : Nat} {m : OwnerMove}
    (h : RangeIn d bs m.destinationBlock m.blockCount) :
    verifyOne d bs chunk m = .ok (stagedCrc d.data bs m) := by
  unfold verifyOne stagedCrc
  split
  · rfl
  · have hpos := h.bs_pos
    have htiles := @tiles_chunks (max bs chunk) (by omega) (m.blockCount * bs) 0 (m.blockCount * bs)
      (le_refl _)
    rw [Nat.zero_add] at htiles
    rw [byteRange_eq h, Result.ok_bind]
    dsimp only
    rw [crcChunks_eq htiles h.fits', Result.ok_bind, Nat.add_zero, Nat.sub_zero]
    rfl

/-! ## batch -/

/-- `takeBatch` が分けたもの。 -/
structure TakenBatch (verified : List Nat) (ms bs rs : List OwnerMove) : Prop where
  batch : bs.Sublist ms
  rest : rs.Sublist ms
  fresh : ∀ m ∈ bs, m.transactionId ∉ verified
  covers : ∀ m ∈ ms, m ∈ bs ∨ m ∈ rs ∨ m.transactionId ∈ verified

theorem takeBatch_spec (verified : List Nat) : ∀ (n : Nat) (ms : List OwnerMove),
    TakenBatch verified ms (takeBatch verified n ms).1 (takeBatch verified n ms).2
  | 0, ms => by
    rw [takeBatch]
    exact ⟨List.nil_sublist _, List.Sublist.refl _, fun m hm => (by cases hm),
      fun _ hm => Or.inr (Or.inl hm)⟩
  | _ + 1, [] => ⟨List.Sublist.refl _, List.Sublist.refl _, fun m hm => (by cases hm),
      fun m hm => (by cases hm)⟩
  | n + 1, m :: ms => by
    rw [takeBatch]
    split
    · next hv =>
      have ih := takeBatch_spec verified (n + 1) ms
      refine ⟨ih.batch.cons _, ih.rest.cons _, ih.fresh, fun x hx => ?_⟩
      rcases List.mem_cons.mp hx with rfl | hx
      · exact Or.inr (Or.inr hv)
      · exact ih.covers x hx
    · next hv =>
      have ih := takeBatch_spec verified n ms
      refine ⟨ih.batch.cons_cons _, ih.rest.cons _, fun x hx => ?_, fun x hx => ?_⟩
      · rcases List.mem_cons.mp hx with rfl | hx
        · exact hv
        · exact ih.fresh x hx
      · rcases List.mem_cons.mp hx with rfl | hx
        · exact Or.inl List.mem_cons_self
        · rcases ih.covers x hx with h | h
          · exact Or.inl (List.mem_cons_of_mem _ h)
          · exact Or.inr h

/-- 先頭が検証済みでなければ、残りは必ず減る。 -/
theorem length_takeBatch_lt {verified : List Nat} {n : Nat} {m : OwnerMove} {ms : List OwnerMove}
    (hn : 0 < n) (hm : m.transactionId ∉ verified) :
    (takeBatch verified n (m :: ms)).2.length < (m :: ms).length := by
  obtain ⟨n, rfl⟩ := Nat.exists_eq_succ_of_ne_zero (Nat.pos_iff_ne_zero.mp hn)
  rw [takeBatch, if_neg hm]
  exact Nat.lt_succ_of_le (takeBatch_spec verified n ms).rest.length_le

end Fsx.Ext4
