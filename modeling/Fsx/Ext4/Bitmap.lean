import Fsx.Ext4.Commit
import Fsx.Ext4.Geometry

/-!
# block bitmap の読み書き

bit の更新、group ごとの区切り、`allocation_state` と `rewrite_group_bitmap` が読み書きする範囲。

block `b` の印は、group `groupOf b` の bitmap の `indexOf b` 番目の bit である。
-/

namespace Fsx.Ext4

/-! ## bit の更新 -/

theorem testBit_or_mask (v : UInt8) {k j : Nat} (hk : k < 8) :
    (v ||| 1 <<< UInt8.ofNat k).toNat.testBit j = (v.toNat.testBit j || decide (k = j)) := by
  have hall : ∀ k < 8, (1 <<< UInt8.ofNat k : UInt8).toNat = 2 ^ k := by decide
  have hmask := hall k hk
  rw [UInt8.toNat_or, Nat.testBit_or, hmask, Nat.testBit_two_pow]

theorem testBit_and_not_mask (v : UInt8) {k j : Nat} (hk : k < 8) (hj : j < 8) :
    (v &&& ~~~(1 <<< UInt8.ofNat k)).toNat.testBit j = (v.toNat.testBit j && !decide (k = j)) := by
  have hall : ∀ k < 8, (~~~(1 <<< UInt8.ofNat k) : UInt8).toNat = 2 ^ 8 - (2 ^ k + 1) := by decide
  have hlt : 2 ^ k < 2 ^ 8 := Nat.pow_lt_pow_right (by decide) hk
  rw [UInt8.toNat_and, Nat.testBit_and, hall k hk, Nat.testBit_two_pow_sub_succ hlt,
    Nat.testBit_two_pow, decide_eq_true hj, Bool.true_and]

@[simp] theorem length_setBitmapBit (bm : Bytes) (k : Nat) (v : Bool) :
    (setBitmapBit bm k v).length = bm.length := by
  simp [setBitmapBit]

/-- 一つの bit の更新は、ほかの bit を変えない。 -/
theorem bitSet_setBitmapBit {bm : Bytes} {k : Nat} (hk : k / 8 < bm.length) (v : Bool) (i : Nat) :
    bitSet (setBitmapBit bm k v) i = if i = k then v else bitSet bm i := by
  unfold bitSet
  rw [length_setBitmapBit]
  by_cases hbyte : i / 8 = k / 8
  · -- 同じ byte の中では、bit の番号だけで決まる
    have hsame : i = k ↔ k % 8 = i % 8 := by omega
    have hget : (setBitmapBit bm k v).getD (i / 8) 0 =
        if v then bm.getD (k / 8) 0 ||| 1 <<< UInt8.ofNat (k % 8)
        else bm.getD (k / 8) 0 &&& ~~~(1 <<< UInt8.ofNat (k % 8)) := by
      unfold setBitmapBit
      rw [hbyte, List.getD_eq_getElem?_getD, List.getElem?_set_self hk, Option.getD_some]
    rw [hget, hbyte, decide_eq_true hk, Bool.true_and, Bool.true_and]
    cases v with
    | true =>
      rw [if_pos rfl, testBit_or_mask _ (by omega)]
      by_cases h : i = k
      · rw [if_pos h, decide_eq_true (hsame.mp h), Bool.or_true]
      · rw [if_neg h, decide_eq_false (fun hc => h (hsame.mpr hc)), Bool.or_false]
    | false =>
      rw [if_neg Bool.false_ne_true, testBit_and_not_mask _ (by omega) (by omega)]
      by_cases h : i = k
      · rw [if_pos h, decide_eq_true (hsame.mp h), Bool.not_true, Bool.and_false]
      · rw [if_neg h, decide_eq_false (fun hc => h (hsame.mpr hc)), Bool.not_false, Bool.and_true]
  · have hne : i ≠ k := fun h => hbyte (by rw [h])
    have hget : (setBitmapBit bm k v).getD (i / 8) 0 = bm.getD (i / 8) 0 := by
      unfold setBitmapBit
      rw [List.getD_eq_getElem?_getD, List.getElem?_set_ne (Ne.symm hbyte),
        List.getD_eq_getElem?_getD]
    rw [hget, if_neg hne]

@[simp] theorem length_setBitmapRange (bm : Bytes) (first : Nat) (v : Bool) :
    ∀ n, (setBitmapRange bm first n v).length = bm.length
  | 0 => rfl
  | n + 1 => by rw [setBitmapRange, length_setBitmapBit, length_setBitmapRange bm first v n]

/-- 範囲の更新は、範囲の外の bit を変えない。 -/
theorem bitSet_setBitmapRange {bm : Bytes} {first : Nat} {v : Bool} :
    ∀ {n : Nat}, first + n ≤ bm.length * 8 → ∀ i,
      bitSet (setBitmapRange bm first n v) i =
        if first ≤ i ∧ i < first + n then v else bitSet bm i
  | 0, _, i => by rw [setBitmapRange, if_neg (by omega)]
  | n + 1, h, i => by
    rw [setBitmapRange, bitSet_setBitmapBit (by rw [length_setBitmapRange]; omega),
      bitSet_setBitmapRange (by omega)]
    by_cases hi : i = first + n
    · rw [if_pos hi, if_pos (by omega)]
    · rw [if_neg hi]
      by_cases hr : first ≤ i ∧ i < first + n
      · rw [if_pos hr, if_pos (by omega)]
      · rw [if_neg hr, if_neg (by omega)]

/-! ## group ごとの区切り -/

/-- 区切り `s` が block `b` を含む。 -/
def GroupSpan.Covers (sb : Superblock) (s : GroupSpan) (b : Nat) : Prop :=
  sb.firstDataBlock ≤ b ∧ sb.groupOf b = s.group ∧ s.first ≤ sb.indexOf b ∧
    sb.indexOf b < s.first + s.count

/-- 区切りが group に収まる。 -/
def GroupSpan.Fits (sb : Superblock) (s : GroupSpan) : Prop :=
  s.group < sb.groupsCount ∧ s.first + s.count ≤ sb.groupBlockCount s.group

/-- 区切った部分の group は、範囲の block のどれかの group である。 -/
theorem group_of_mem_groupSpans {sb : Superblock} : ∀ {fuel pos left : Nat} {s : GroupSpan},
    s ∈ groupSpans sb fuel pos left → ∃ b, pos ≤ b ∧ b < pos + left ∧ s.group = sb.groupOf b
  | 0, _, _, _, hs => by cases hs
  | fuel + 1, pos, left, s, hs => by
    rw [groupSpans] at hs
    split at hs
    · cases hs
    · next hleft =>
      rcases List.mem_cons.mp hs with rfl | hs
      · exact ⟨pos, Nat.le_refl _, by omega, rfl⟩
      · obtain ⟨b, h1, h2, hg⟩ := group_of_mem_groupSpans hs
        exact ⟨b, by omega, by omega, hg⟩

section Spans

variable {size : Nat} {sb : Superblock}

/-- はじめの区切り。 -/
theorem head_span (h : sb.Accepted size) (hsize : size < 2 ^ 63) {pos left : Nat}
    (hpos : sb.firstDataBlock ≤ pos) (hleft : 0 < left) (hend : pos + left ≤ sb.blocksCount) :
    ∃ n, 0 < n ∧ n ≤ left ∧
      min left (sb.groupBlockCount ((pos - sb.firstDataBlock) / sb.blocksPerGroup) -
        (pos - sb.groupStartBlock ((pos - sb.firstDataBlock) / sb.blocksPerGroup))) = n ∧
      pos - sb.groupStartBlock ((pos - sb.firstDataBlock) / sb.blocksPerGroup) = sb.indexOf pos ∧
      GroupSpan.Fits sb ⟨sb.groupOf pos, sb.indexOf pos, n⟩ ∧
      ∀ b, GroupSpan.Covers sb ⟨sb.groupOf pos, sb.indexOf pos, n⟩ b ↔ pos ≤ b ∧ b < pos + n := by
  have hg := h.groupOf_lt hpos (by omega)
  have hidx := h.indexOf_lt_count hsize hpos (by omega)
  have hsum := Superblock.start_add_index hpos
  have hstart : pos - sb.groupStartBlock ((pos - sb.firstDataBlock) / sb.blocksPerGroup) =
      sb.indexOf pos := by
    show pos - sb.groupStartBlock (sb.groupOf pos) = _
    rw [h.groupStartBlock_eq hsize hg]
    omega
  have hcount := h.groupBlockCount_eq hsize hg
  have hn : sb.indexOf pos + min left (sb.groupBlockCount (sb.groupOf pos) - sb.indexOf pos) ≤
      sb.blocksPerGroup := by omega
  refine ⟨min left (sb.groupBlockCount (sb.groupOf pos) - sb.indexOf pos), ?_,
    Nat.min_le_left _ _, by rw [hstart]; rfl, hstart, ⟨hg, ?_⟩, fun b => ?_⟩
  · exact Nat.lt_min.mpr ⟨hleft, Nat.sub_pos_of_lt hidx⟩
  · dsimp only
    omega
  · unfold GroupSpan.Covers
    dsimp only
    generalize min left (sb.groupBlockCount (sb.groupOf pos) - sb.indexOf pos) = n at hn ⊢
    constructor
    · rintro ⟨hb, hgrp, hlo, hhi⟩
      have := Superblock.start_add_index hb
      rw [hgrp] at this
      omega
    · rintro ⟨hlo, hhi⟩
      obtain ⟨h1, h2⟩ := h.groupOf_indexOf_of_eq (b := b) (g := sb.groupOf pos)
        (i := sb.indexOf pos + (b - pos)) (by omega) (by omega)
      rw [h1, h2]
      omega

/-- **区切りは範囲をちょうど覆い、どれも group に収まる。** -/
theorem groupSpans_spec (h : sb.Accepted size) (hsize : size < 2 ^ 63) :
    ∀ {fuel pos left : Nat}, sb.firstDataBlock ≤ pos → pos + left ≤ sb.blocksCount → left ≤ fuel →
      (∀ s ∈ groupSpans sb fuel pos left, s.Fits sb) ∧
      ∀ b, (∃ s ∈ groupSpans sb fuel pos left, s.Covers sb b) ↔ pos ≤ b ∧ b < pos + left
  | 0, pos, left, _, _, hfuel => by
    refine ⟨fun s hs => (by cases hs), fun b => ⟨?_, fun hb => absurd hb (by omega)⟩⟩
    rintro ⟨s, hs, -⟩
    cases hs
  | fuel + 1, pos, left, hpos, hend, hfuel => by
    rw [groupSpans]
    by_cases hleft : left = 0
    · rw [if_pos hleft]
      refine ⟨fun s hs => (by cases hs), fun b => ⟨?_, fun hb => absurd hb (by omega)⟩⟩
      rintro ⟨s, hs, -⟩
      cases hs
    · obtain ⟨n, hn, hnl, hmin, hstart, hfits, hcov⟩ :=
        head_span h hsize hpos (Nat.pos_of_ne_zero hleft) hend
      rw [if_neg hleft]
      dsimp only
      rw [hmin, hstart]
      obtain ⟨ih1, ih2⟩ := @groupSpans_spec h hsize fuel (pos + n) (left - n) (by omega) (by omega)
        (by omega)
      refine ⟨fun s hs => ?_, fun b => ?_⟩
      · rcases List.mem_cons.mp hs with rfl | hs
        · exact hfits
        · exact ih1 s hs
      · simp only [List.mem_cons, exists_eq_or_imp, ih2]
        have := hcov b
        unfold Superblock.groupOf at this
        rw [this]
        omega

end Spans

end Fsx.Ext4
