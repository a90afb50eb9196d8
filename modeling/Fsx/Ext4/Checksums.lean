import Fsx.Core.Seal
import Fsx.Ext4.DeepVerify
import Fsx.Ext4.TailRewrite

/-!
# 更新と検査の組（`src/ext4/metadata.cpp`）

superblock・group descriptor・二つの bitmap・inode・extent block の checksum には、それぞれ更新の関数と
検査の関数がある。計算は二度書かれていて、零にする欄、飛ばす欄、上位の欄があるかどうかを、
それぞれが自分で決めている。

どの組も `Sealing` になっていることを示し、`Seals` を得る。入れ子になった三つの更新
（二つの bitmap と descriptor）については、続けて行った後に三つの検査がすべて通ることを示す。
-/

namespace Fsx.Ext4

/-! ## 下位と上位に分けた欄 -/

/-- 下位の欄は `lo` に、上位の欄は byte 列が届くときだけ `hi` にある。 -/
def HalvesField (raw : Bytes) (lo hi i : Nat) : Prop :=
  lo ≤ i ∧ i < lo + 2 ∨ hi + 2 ≤ raw.length ∧ hi ≤ i ∧ i < hi + 2

theorem getElem?_setHalves {raw : Bytes} {lo hi v i : Nat} (h : ¬ HalvesField raw lo hi i) :
    (setHalves raw lo hi v)[i]? = raw[i]? := by
  unfold HalvesField at h
  unfold setHalves
  split
  · rw [getElem?_writeLe_of_disjoint (by omega), getElem?_writeLe_of_disjoint (by omega)]
  · rw [getElem?_writeLe_of_disjoint (by omega)]

theorem sealing_setHalves {raw : Bytes} {lo hi c : Nat} (h : lo + 2 ≤ hi) :
    Sealing (fun b v => setHalves b lo hi v) (fun _ => c) (HalvesField raw lo hi) raw where
  length v := length_setHalves raw lo hi v
  frame _ _ hi := getElem?_setHalves hi
  again v := setHalves_setHalves v h
  sum_write _ := rfl

section Pairs

variable (ctx : MetadataContext)

/-! ## superblock -/

theorem seals_superblock {raw : Bytes} (hlen : raw.length = 1024) :
    Seals updateSuperblockChecksum (fun b => .ok (verifySuperblockChecksum b))
      (fun i => 0x3fc ≤ i ∧ i < 0x3fc + 4) raw := by
  have hver := congrArg (Except.ok (ε := Error)) (verifySuperblockChecksum_sealedSuper hlen)
  by_cases hc : readLe 4 raw 0x64 &&& roCompatMetadataCsum = 0
  · have hself : sealedSuper raw = raw := if_pos hc
    rw [hself] at hver
    exact Seals.skip (by rw [updateSuperblockChecksum_eq hlen, hself]) hver
  · -- checksum は欄の手前だけから計算する
    have hseal : ∀ b : Bytes, readLe 4 b 0x64 = readLe 4 raw 0x64 →
        sealedSuper b = writeLe 4 b 0x3fc (crc32c (b.take 0x3fc) crcInit).toNat := by
      intro b hb
      unfold sealedSuper
      rw [hb, if_neg hc]
    have hs := @sealing_writeLe raw 4 0x3fc (fun b => (crc32c (b.take 0x3fc) crcInit).toNat)
      fun v => by
        unfold writeLe
        rw [take_patch_of_le (Nat.le_refl _)]
    have hself := hseal raw rfl
    refine hs.seals ?_ ?_ ?_
    · rw [updateSuperblockChecksum_eq hlen, hself]
    · rw [updateSuperblockChecksum_eq (by rw [length_writeLe]; exact hlen), hseal]
      exact readLe_writeLe_of_disjoint (by omega)
    · rw [← hself]
      exact hver

/-! ## group descriptor -/

theorem seals_groupDescriptor (g : Nat) {raw : Bytes} (hlen : 32 ≤ raw.length) :
    Seals (updateGroupDescriptorChecksum ctx g) (verifyGroupDescriptorChecksum ctx g)
      (fun i => 0x1e ≤ i ∧ i < 0x1e + 2) raw := by
  by_cases hg : ctx.gdtCsum = false
  · refine Seals.skip ?_ ?_
    · unfold updateGroupDescriptorChecksum
      rw [if_pos hg]
    · unfold verifyGroupDescriptorChecksum
      rw [if_pos hg]
  · have hseal : ∀ b : Bytes, sealedDesc ctx g b = writeLe 2 b 0x1e (groupDescriptorSum ctx g b) := by
      intro b
      unfold sealedDesc
      rw [if_neg hg, writeLe_writeLe]
    have hs := @sealing_writeLe raw 2 0x1e (groupDescriptorSum ctx g)
      fun v => groupDescriptorSum_write ctx g raw v
    refine hs.seals ?_ ?_ ?_
    · rw [updateGroupDescriptorChecksum_eq hlen, hseal]
    · rw [updateGroupDescriptorChecksum_eq (by rw [length_writeLe]; exact hlen), hseal]
    · unfold verifyGroupDescriptorChecksum
      rw [← hseal, if_neg hg, length_sealedDesc, if_neg (by omega),
        readLe_sealedDesc_sum hlen (by simpa using hg)]
      exact congrArg Except.ok (decide_eq_true rfl)

/-! ## bitmap -/

theorem updateInodeBitmapChecksum_eq (raw bm : Bytes) :
    updateInodeBitmapChecksum ctx raw bm = if ctx.metadataCsum = false then raw
      else setHalves raw 0x1a 0x3a (bitmapChecksum ctx bm ((ctx.sb.inodesPerGroup + 7) / 8)) := rfl

/-- 二つの bitmap に共通の形。 -/
theorem seals_bitmap {update : Bytes → Bytes} {bm raw : Bytes} {perGroup lo hi : Nat}
    (hup : ∀ b, update b = if ctx.metadataCsum = false then b
      else setHalves b lo hi (bitmapChecksum ctx bm ((perGroup + 7) / 8)))
    (hlo : lo + 2 ≤ raw.length) (hap : lo + 2 ≤ hi) :
    Seals (fun b => .ok (update b)) (fun b => .ok (verifyBitmapChecksum ctx perGroup lo hi b bm))
      (HalvesField raw lo hi) raw := by
  by_cases hm : ctx.metadataCsum = false
  · have hself : ∀ b, update b = b := fun b => by rw [hup b, if_pos hm]
    refine Seals.skip (by rw [hself]) ?_
    unfold verifyBitmapChecksum
    rw [if_pos hm]
  · have hset : ∀ b, update b =
        setHalves b lo hi (bitmapChecksum ctx bm ((perGroup + 7) / 8)) := fun b => by
      rw [hup b, if_neg hm]
    refine (sealing_setHalves hap).seals (by rw [hset]) (by rw [hset]) (congrArg Except.ok ?_)
    exact verifyBitmapChecksum_of_halves (fun _ => readLe_setHalves_lo hlo hap) fun _ hl =>
      readLe_setHalves_hi (by rwa [length_setHalves] at hl)

/-! ## inode -/

/-- inode の checksum の欄。上位の欄は `extra_isize` が 4 以上のときだけある。 -/
def InodeField (raw : Bytes) (i : Nat) : Prop :=
  0x7c ≤ i ∧ i < 0x7c + 2 ∨ inodeHasHiChecksum raw = true ∧ 0x82 ≤ i ∧ i < 0x82 + 2

/-- inode の欄に値を納める。 -/
def sealInode (raw : Bytes) (v : Nat) : Bytes :=
  if inodeHasHiChecksum raw then writeLe 2 (writeLe 2 raw 0x7c v) 0x82 (v >>> 16)
  else writeLe 2 raw 0x7c v

section Inode

variable {raw : Bytes} {v : Nat}

/-- `extra_isize` を避けた書き込みは、上位の欄があるかどうかを変えない。 -/
theorem inodeHasHiChecksum_writeLe {off : Nat} (h : off + 2 ≤ 0x80 ∨ 0x82 ≤ off) :
    inodeHasHiChecksum (writeLe 2 raw off v) = inodeHasHiChecksum raw := by
  unfold inodeHasHiChecksum
  rw [length_writeLe, readLe_writeLe_of_disjoint (by omega)]

@[simp] theorem length_sealInode : (sealInode raw v).length = raw.length := by
  unfold sealInode
  split <;> simp

theorem inodeHasHiChecksum_sealInode :
    inodeHasHiChecksum (sealInode raw v) = inodeHasHiChecksum raw := by
  unfold sealInode
  split
  · rw [inodeHasHiChecksum_writeLe (by omega), inodeHasHiChecksum_writeLe (by omega)]
  · rw [inodeHasHiChecksum_writeLe (by omega)]

/-- checksum の計算では、二つの欄を零にする。 -/
theorem computeInodeChecksum_sealInode (ino : Nat) (hlen : 128 ≤ raw.length) :
    computeInodeChecksum ctx ino (sealInode raw v) = computeInodeChecksum ctx ino raw := by
  have hzero : (if inodeHasHiChecksum (sealInode raw v) then
      writeLe 2 (writeLe 2 (sealInode raw v) 0x7c 0) 0x82 0
      else writeLe 2 (sealInode raw v) 0x7c 0) =
      if inodeHasHiChecksum raw then writeLe 2 (writeLe 2 raw 0x7c 0) 0x82 0
      else writeLe 2 raw 0x7c 0 := by
    rw [inodeHasHiChecksum_sealInode]
    unfold sealInode
    split
    · rw [writeLe_comm (b := writeLe 2 raw 0x7c v) (by omega), writeLe_writeLe, writeLe_writeLe]
    · rw [writeLe_writeLe]
  unfold computeInodeChecksum
  rw [length_sealInode, if_pos (by omega), if_pos (by omega)]
  dsimp only
  rw [hzero]

theorem sealing_inode (ino : Nat) (hlen : 128 ≤ raw.length) :
    Sealing sealInode (computeInodeChecksum ctx ino) (InodeField raw) raw where
  length v := length_sealInode
  frame v i hi := by
    unfold InodeField at hi
    unfold sealInode
    split
    · next h =>
      rw [h] at hi
      simp only [true_and] at hi
      rw [getElem?_writeLe_of_disjoint (by omega), getElem?_writeLe_of_disjoint (by omega)]
    · rw [getElem?_writeLe_of_disjoint (by omega)]
  again v := by
    have hhi := @inodeHasHiChecksum_sealInode raw v
    rw [sealInode, hhi]
    unfold sealInode
    split
    · rw [writeLe_comm (b := writeLe 2 raw 0x7c v) (by omega), writeLe_writeLe, writeLe_writeLe]
    · rw [writeLe_writeLe]
  sum_write v := computeInodeChecksum_sealInode ctx ino hlen

theorem updateInodeChecksum_eq (ino : Nat) (hm : ctx.metadataCsum ≠ false) (hlen : 128 ≤ raw.length) :
    updateInodeChecksum ctx ino raw = .ok (sealInode raw (computeInodeChecksum ctx ino raw)) := by
  unfold updateInodeChecksum sealInode
  rw [if_neg hm, if_neg (by omega)]
  dsimp only
  rw [inodeHasHiChecksum_writeLe (by omega)]

theorem seals_inode (ino : Nat) (hlen : 128 ≤ raw.length) :
    Seals (updateInodeChecksum ctx ino) (verifyInodeChecksum ctx ino) (InodeField raw) raw := by
  by_cases hm : ctx.metadataCsum = false
  · refine Seals.skip ?_ ?_
    · unfold updateInodeChecksum
      rw [if_pos hm]
    · unfold verifyInodeChecksum
      rw [if_pos hm]
      rfl
  · refine (sealing_inode ctx ino hlen).seals (updateInodeChecksum_eq ctx ino hm hlen)
      (updateInodeChecksum_eq ctx ino hm (by rw [length_sealInode]; exact hlen)) ?_
    have hlt : computeInodeChecksum ctx ino raw < 2 ^ 32 := UInt32.toNat_lt _
    unfold verifyInodeChecksum
    rw [if_neg hm, length_sealInode, if_neg (by omega)]
    dsimp only
    rw [inodeHasHiChecksum_sealInode, computeInodeChecksum_sealInode ctx ino hlen]
    refine congrArg Except.ok ?_
    by_cases hhi : inodeHasHiChecksum raw = true
    · -- 上位の欄は byte 列の中にある
      have hin : 0x82 + 2 ≤ raw.length := by
        unfold inodeHasHiChecksum at hhi
        split at hhi
        · cases hhi
        · omega
      rw [if_pos hhi, if_pos hhi]
      unfold sealInode
      rw [if_pos hhi, readLe_writeLe_of_disjoint (by omega), readLe_writeLe_self (by omega),
        readLe_writeLe_self (by rw [length_writeLe]; exact hin), or_halves hlt]
      exact decide_eq_true rfl
    · rw [if_neg hhi, if_neg hhi]
      unfold sealInode
      rw [if_neg hhi, readLe_writeLe_self (by omega), Nat.zero_shiftLeft, Nat.or_zero]
      refine decide_eq_true ?_
      rw [show (0xffff : Nat) = 2 ^ 16 - 1 from rfl, Nat.and_two_pow_sub_one_eq_mod,
        Nat.and_two_pow_sub_one_eq_mod]
      exact Nat.mod_mod _ _

end Inode

/-! ## extent block -/

/-- extent block の checksum は、entry を最大数まで並べた後にある。 -/
def extentTail (block : Bytes) : Nat := 12 + readLe 2 block 4 * 12

section Extent

variable {block : Bytes}

/-- 末尾の欄は、magic も entry の最大数も変えない。 -/
theorem readLe_writeLe_tail {n off v : Nat} (h : off + n ≤ 12) :
    readLe n (writeLe 4 block (extentTail block) v) off = readLe n block off := by
  unfold extentTail
  exact readLe_writeLe_of_disjoint (by omega)

theorem extentTail_writeLe (v : Nat) :
    extentTail (writeLe 4 block (extentTail block) v) = extentTail block := by
  rw [extentTail, readLe_writeLe_tail (by omega)]
  rfl

/-- checksum の値。 -/
def extentSum (ino generation : Nat) (block : Bytes) : Nat :=
  (crc32c (block.take (extentTail block))
    (crc32c (leBytes 4 generation) (crc32c (leBytes 4 ino) ctx.checksumSeed))).toNat

/-- 値を納められる extent block。 -/
structure ExtentBlock (block : Bytes) : Prop where
  magic : readLe 2 block 0 = 0xf30a
  fits : extentTail block + 4 ≤ block.length

theorem ExtentBlock.writeLe (h : ExtentBlock block) (v : Nat) :
    ExtentBlock (writeLe 4 block (extentTail block) v) := by
  refine ⟨?_, ?_⟩
  · rw [readLe_writeLe_tail (by omega)]
    exact h.magic
  · rw [extentTail_writeLe, length_writeLe]
    exact h.fits

theorem computeExtentChecksum_eq (ino generation : Nat) (h : ExtentBlock block) :
    computeExtentChecksum ctx ino generation block = .ok (extentSum ctx ino generation block) := by
  have hfits : 12 + readLe 2 block 4 * 12 + 4 ≤ block.length := h.fits
  unfold computeExtentChecksum
  rw [if_neg (by omega), if_neg (by rw [h.magic]; decide)]
  dsimp only
  rw [if_neg (by omega)]
  rfl

theorem seals_extentBlock (ino generation : Nat) (h : ExtentBlock block) :
    Seals (updateExtentBlockChecksum ctx ino generation)
      (verifyExtentBlockChecksum ctx ino generation)
      (fun i => extentTail block ≤ i ∧ i < extentTail block + 4) block := by
  by_cases hm : ctx.metadataCsum = false
  · refine Seals.skip ?_ ?_
    · unfold updateExtentBlockChecksum
      rw [if_pos hm]
      rfl
    · unfold verifyExtentBlockChecksum
      rw [if_pos hm]
      rfl
  · have hsum : ∀ v, extentSum ctx ino generation (writeLe 4 block (extentTail block) v) =
        extentSum ctx ino generation block := by
      intro v
      unfold extentSum
      rw [extentTail_writeLe]
      unfold Fsx.writeLe
      rw [take_patch_of_le (Nat.le_refl _)]
    have hup : ∀ b, ExtentBlock b → updateExtentBlockChecksum ctx ino generation b =
        .ok (writeLe 4 b (extentTail b) (extentSum ctx ino generation b)) := by
      intro b hb
      unfold updateExtentBlockChecksum
      rw [if_neg hm]
      rw [computeExtentChecksum_eq ctx ino generation hb, Result.ok_bind]
      rfl
    have hb' := h.writeLe (extentSum ctx ino generation block)
    refine (sealing_writeLe hsum).seals (hup block h) ?_ ?_
    · rw [hup _ hb', extentTail_writeLe]
    · unfold verifyExtentBlockChecksum
      rw [if_neg hm]
      rw [computeExtentChecksum_eq ctx ino generation hb', Result.ok_bind, hsum]
      show Except.ok (decide (readLe 4 _ (extentTail _) = _)) = _
      rw [extentTail_writeLe, readLe_writeLe_self h.fits,
        Nat.mod_eq_of_lt (show extentSum ctx ino generation block < 256 ^ 4 from UInt32.toNat_lt _)]
      exact congrArg Except.ok (decide_eq_true rfl)

end Extent

/-! ## 入れ子の三つ -/

section Nested

variable (g : Nat) {raw bb ib : Bytes}

/-- 二つの bitmap の更新は、順によらない。 -/
theorem updateBitmapChecksums_comm :
    updateBlockBitmapChecksum ctx (updateInodeBitmapChecksum ctx raw ib) bb =
      updateInodeBitmapChecksum ctx (updateBlockBitmapChecksum ctx raw bb) ib := by
  simp only [updateBlockBitmapChecksum_eq, updateInodeBitmapChecksum_eq]
  split
  · rfl
  · exact setHalves_comm (by omega) (by omega) (by omega) (by omega)

/-- bitmap の checksum の欄は、続く二つの更新で変わらない。 -/
theorem verifies_nested (hlen : 32 ≤ raw.length) :
    ∃ b, updateGroupDescriptorChecksum ctx g
        (updateInodeBitmapChecksum ctx (updateBlockBitmapChecksum ctx raw bb) ib) = .ok b ∧
      verifyGroupDescriptorChecksum ctx g b = .ok true ∧
      verifyBlockBitmapChecksum ctx b bb = true ∧ verifyInodeBitmapChecksum ctx b ib = true := by
  have hlen' : 32 ≤
      (updateInodeBitmapChecksum ctx (updateBlockBitmapChecksum ctx raw bb) ib).length := by
    rw [updateInodeBitmapChecksum_eq]
    split <;> simpa [length_updateBlockBitmapChecksum] using hlen
  obtain ⟨b, hup, hver, -, hlenb, -⟩ := seals_groupDescriptor ctx g hlen'
  have hb : b = sealedDesc ctx g
      (updateInodeBitmapChecksum ctx (updateBlockBitmapChecksum ctx raw bb) ib) := by
    rw [updateGroupDescriptorChecksum_eq hlen'] at hup
    exact (Except.ok.inj hup).symm
  -- descriptor の checksum の欄を避けた読み出し
  have hread : ctx.metadataCsum = true → ∀ off, off + 2 ≤ 0x1e ∨ 0x20 ≤ off →
      readLe 2 b off = readLe 2 (setHalves (setHalves raw 0x18 0x38
        (bitmapChecksum ctx bb ((ctx.sb.blocksPerGroup + 7) / 8))) 0x1a 0x3a
        (bitmapChecksum ctx ib ((ctx.sb.inodesPerGroup + 7) / 8))) off := by
    intro hm off hoff
    rw [hb, readLe_sealedDesc_of_disjoint hoff, updateInodeBitmapChecksum_eq,
      updateBlockBitmapChecksum_eq, if_neg (by simp [hm]), if_neg (by simp [hm])]
  have hlenraw : b.length = raw.length := by
    rw [hlenb, updateInodeBitmapChecksum_eq]
    split <;> simp [length_updateBlockBitmapChecksum]
  refine ⟨b, hup, hver, verifyBitmapChecksum_of_halves (fun hm => ?_) (fun hm hl => ?_),
    verifyBitmapChecksum_of_halves (fun hm => ?_) fun hm hl => ?_⟩
  · rw [hread hm 0x18 (by omega), readLe_setHalves_of_disjoint (by omega) (by omega),
      readLe_setHalves_lo (by omega) (by omega)]
  · rw [hread hm 0x38 (by omega), readLe_setHalves_of_disjoint (by omega) (by omega),
      readLe_setHalves_hi (by omega)]
  · rw [hread hm 0x1a (by omega), readLe_setHalves_lo (by rw [length_setHalves]; omega) (by omega)]
  · rw [hread hm 0x3a (by omega), readLe_setHalves_hi (by rw [length_setHalves]; omega)]

end Nested

/-! ## すべての組 -/

/--
**どの更新も、対応する検査に通る結果を与える。**

更新はべき等で、checksum の欄の外の byte を変えない。二つの bitmap の checksum をどちらの順で更新しても、
続けて descriptor の checksum を更新すれば、三つの検査がすべて通る。
-/
theorem checksums_seal :
    (∀ raw : Bytes, raw.length = 1024 →
      Seals updateSuperblockChecksum (fun b => .ok (verifySuperblockChecksum b))
        (fun i => 0x3fc ≤ i ∧ i < 0x3fc + 4) raw) ∧
    (∀ g (raw : Bytes), 32 ≤ raw.length →
      Seals (updateGroupDescriptorChecksum ctx g) (verifyGroupDescriptorChecksum ctx g)
        (fun i => 0x1e ≤ i ∧ i < 0x1e + 2) raw) ∧
    (∀ raw bm : Bytes, 32 ≤ raw.length →
      Seals (fun b => .ok (updateBlockBitmapChecksum ctx b bm))
        (fun b => .ok (verifyBlockBitmapChecksum ctx b bm)) (HalvesField raw 0x18 0x38) raw) ∧
    (∀ raw bm : Bytes, 32 ≤ raw.length →
      Seals (fun b => .ok (updateInodeBitmapChecksum ctx b bm))
        (fun b => .ok (verifyInodeBitmapChecksum ctx b bm)) (HalvesField raw 0x1a 0x3a) raw) ∧
    (∀ ino (raw : Bytes), 128 ≤ raw.length →
      Seals (updateInodeChecksum ctx ino) (verifyInodeChecksum ctx ino) (InodeField raw) raw) ∧
    (∀ ino generation (block : Bytes), ExtentBlock block →
      Seals (updateExtentBlockChecksum ctx ino generation)
        (verifyExtentBlockChecksum ctx ino generation)
        (fun i => extentTail block ≤ i ∧ i < extentTail block + 4) block) ∧
    ∀ g (raw bb ib : Bytes), 32 ≤ raw.length →
      ∃ b, updateGroupDescriptorChecksum ctx g
          (updateInodeBitmapChecksum ctx (updateBlockBitmapChecksum ctx raw bb) ib) = .ok b ∧
        updateGroupDescriptorChecksum ctx g
          (updateBlockBitmapChecksum ctx (updateInodeBitmapChecksum ctx raw ib) bb) = .ok b ∧
        verifyGroupDescriptorChecksum ctx g b = .ok true ∧
        verifyBlockBitmapChecksum ctx b bb = true ∧ verifyInodeBitmapChecksum ctx b ib = true := by
  refine ⟨fun raw h => seals_superblock h, fun g raw h => seals_groupDescriptor ctx g h,
    fun raw bm h => seals_bitmap ctx (fun b => updateBlockBitmapChecksum_eq ctx b bm) (by omega)
      (by omega),
    fun raw bm h => seals_bitmap ctx (fun b => updateInodeBitmapChecksum_eq ctx b bm) (by omega)
      (by omega),
    fun ino raw h => seals_inode ctx ino h, fun ino gen block h => seals_extentBlock ctx ino gen h,
    fun g raw bb ib h => ?_⟩
  obtain ⟨b, h1, h2, h3, h4⟩ := @verifies_nested ctx g raw bb ib h
  refine ⟨b, h1, ?_, h2, h3, h4⟩
  rw [updateBitmapChecksums_comm]
  exact h1

end Pairs

/-- checksum を使う context。 -/
def Tiny.summed : MetadataContext :=
  { contextAt (Tiny.disk (Tiny.image 1 [])) with metadataCsum := true, gdtCsum := true }

/-- 上位の欄のある descriptor と、零で埋めた bitmap。 -/
theorem checksums_seal_wide : ∃ b, updateGroupDescriptorChecksum Tiny.summed 3
      (updateInodeBitmapChecksum Tiny.summed
        (updateBlockBitmapChecksum Tiny.summed (zeros 64) (zeros 2048)) (zeros 2048)) = .ok b ∧
    verifyGroupDescriptorChecksum Tiny.summed 3 b = .ok true := by
  obtain ⟨-, -, -, -, -, -, h⟩ := checksums_seal Tiny.summed
  obtain ⟨b, h1, -, h2, -, -⟩ := h 3 (zeros 64) (zeros 2048) (zeros 2048)
    (by rw [length_zeros]; decide)
  exact ⟨b, h1, h2⟩

end Fsx.Ext4
