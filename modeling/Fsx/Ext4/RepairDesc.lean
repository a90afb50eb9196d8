import Fsx.Ext4.Repair
import Fsx.Ext4.ShrinkCrash

/-!
# 書き直した descriptor と superblock

修復が作る descriptor は、決まった位置の欄に決まった値を上書きし、最後に checksum を合わせたものである。
欄の値がすでに合っている（`DescSettled`）なら、書き直しても変わらない。
superblock についても同じである。
-/

namespace Fsx.Ext4

/-! ## descriptor -/

/-- checksum を合わせた descriptor。 -/
def sealedDesc (ctx : MetadataContext) (g : Nat) (raw : Bytes) : Bytes :=
  if ctx.gdtCsum = false then raw
  else writeLe 2 (writeLe 2 raw 0x1e 0) 0x1e (groupDescriptorSum ctx g raw)

theorem updateGroupDescriptorChecksum_eq {ctx : MetadataContext} {g : Nat} {raw : Bytes}
    (h : 32 ≤ raw.length) : updateGroupDescriptorChecksum ctx g raw = .ok (sealedDesc ctx g raw) := by
  unfold updateGroupDescriptorChecksum sealedDesc
  split
  · rfl
  · rw [if_neg (by omega)]

/-- 空きの数と bitmap の checksum を入れた descriptor。 -/
def countedDesc (ctx : MetadataContext) (g : Nat) (raw bb ib : Bytes) : Bytes :=
  updateInodeBitmapChecksum ctx (updateBlockBitmapChecksum ctx
    (setDescFreeInodes (setDescFreeBlocks raw (zeroBits bb (ctx.sb.groupBlockCount g)))
      (zeroBits ib (ctx.sb.groupInodeCount g))) bb) ib

/-- 修復が書く descriptor。 -/
def fixedDesc (ctx : MetadataContext) (g : Nat) (raw bb ib : Bytes) : Bytes :=
  sealedDesc ctx g (countedDesc ctx g raw bb ib)

/-- 欄の値がすべて合っている descriptor。 -/
structure DescSettled (ctx : MetadataContext) (g : Nat) (bb ib raw : Bytes) : Prop where
  blocks : readLe 2 raw 12 = zeroBits bb (ctx.sb.groupBlockCount g) % 256 ^ 2
  blocksHi : 46 ≤ raw.length →
    readLe 2 raw 44 = (zeroBits bb (ctx.sb.groupBlockCount g) >>> 16) % 256 ^ 2
  inodes : readLe 2 raw 14 = zeroBits ib (ctx.sb.groupInodeCount g) % 256 ^ 2
  inodesHi : 48 ≤ raw.length →
    readLe 2 raw 46 = (zeroBits ib (ctx.sb.groupInodeCount g) >>> 16) % 256 ^ 2
  blockSum : ctx.metadataCsum = true →
    readLe 2 raw 0x18 = bitmapChecksum ctx bb ((ctx.sb.blocksPerGroup + 7) / 8) % 256 ^ 2
  blockSumHi : ctx.metadataCsum = true → 0x38 + 2 ≤ raw.length →
    readLe 2 raw 0x38 = (bitmapChecksum ctx bb ((ctx.sb.blocksPerGroup + 7) / 8) >>> 16) % 256 ^ 2
  inodeSum : ctx.metadataCsum = true →
    readLe 2 raw 0x1a = bitmapChecksum ctx ib ((ctx.sb.inodesPerGroup + 7) / 8) % 256 ^ 2
  inodeSumHi : ctx.metadataCsum = true → 0x3a + 2 ≤ raw.length →
    readLe 2 raw 0x3a = (bitmapChecksum ctx ib ((ctx.sb.inodesPerGroup + 7) / 8) >>> 16) % 256 ^ 2
  sum : ctx.gdtCsum = true → readLe 2 raw 0x1e = groupDescriptorSum ctx g raw

/-! ### 一つの欄の書き換え -/

/-- 下位の欄と、届くときだけ上位の欄を書く。四つの欄の更新はどれもこの形である。 -/
def setHalves (raw : Bytes) (lo hi v : Nat) : Bytes :=
  if raw.length ≥ hi + 2 then writeLe 2 (writeLe 2 raw lo v) hi (v >>> 16) else writeLe 2 raw lo v

@[simp] theorem length_setHalves (raw : Bytes) (lo hi v : Nat) :
    (setHalves raw lo hi v).length = raw.length := by
  unfold setHalves
  split <;> simp

theorem readLe_setHalves_of_disjoint {raw : Bytes} {lo hi v n off : Nat}
    (h1 : off + n ≤ lo ∨ lo + 2 ≤ off) (h2 : off + n ≤ hi ∨ hi + 2 ≤ off) :
    readLe n (setHalves raw lo hi v) off = readLe n raw off := by
  unfold setHalves
  split
  · rw [readLe_writeLe_of_disjoint h2, readLe_writeLe_of_disjoint h1]
  · rw [readLe_writeLe_of_disjoint h1]

theorem readLe_setHalves_lo {raw : Bytes} {lo hi v : Nat} (hlo : lo + 2 ≤ raw.length)
    (hap : lo + 2 ≤ hi) : readLe 2 (setHalves raw lo hi v) lo = v % 256 ^ 2 := by
  unfold setHalves
  split
  · rw [readLe_writeLe_of_disjoint (Or.inl hap), readLe_writeLe_self hlo]
  · rw [readLe_writeLe_self hlo]

theorem readLe_setHalves_hi {raw : Bytes} {lo hi v : Nat} (hhi : hi + 2 ≤ raw.length) :
    readLe 2 (setHalves raw lo hi v) hi = (v >>> 16) % 256 ^ 2 := by
  unfold setHalves
  rw [if_pos hhi, readLe_writeLe_self (by rw [length_writeLe]; exact hhi)]

/-- 値が合っていれば、書いても変わらない。 -/
theorem setHalves_eq_self {raw : Bytes} {lo hi v : Nat} (hlo : lo + 2 ≤ raw.length)
    (h1 : readLe 2 raw lo = v % 256 ^ 2)
    (h2 : hi + 2 ≤ raw.length → readLe 2 raw hi = (v >>> 16) % 256 ^ 2) :
    setHalves raw lo hi v = raw := by
  unfold setHalves
  rw [writeLe_eq_self hlo h1]
  split
  · next h => exact writeLe_eq_self h (h2 h)
  · rfl

theorem countedDesc_eq (ctx : MetadataContext) (g : Nat) (raw bb ib : Bytes) :
    countedDesc ctx g raw bb ib =
      let counted := setHalves (setHalves raw 12 44 (zeroBits bb (ctx.sb.groupBlockCount g))) 14 46
        (zeroBits ib (ctx.sb.groupInodeCount g))
      if ctx.metadataCsum = false then counted
      else setHalves (setHalves counted 0x18 0x38
        (bitmapChecksum ctx bb ((ctx.sb.blocksPerGroup + 7) / 8))) 0x1a 0x3a
        (bitmapChecksum ctx ib ((ctx.sb.inodesPerGroup + 7) / 8)) := by
  unfold countedDesc updateInodeBitmapChecksum updateBlockBitmapChecksum
  split
  · rfl
  · rfl

@[simp] theorem length_countedDesc (ctx : MetadataContext) (g : Nat) (raw bb ib : Bytes) :
    (countedDesc ctx g raw bb ib).length = raw.length := by
  rw [countedDesc_eq]
  dsimp only
  split <;> simp

@[simp] theorem length_sealedDesc (ctx : MetadataContext) (g : Nat) (raw : Bytes) :
    (sealedDesc ctx g raw).length = raw.length := by
  unfold sealedDesc
  split <;> simp

@[simp] theorem length_fixedDesc (ctx : MetadataContext) (g : Nat) (raw bb ib : Bytes) :
    (fixedDesc ctx g raw bb ib).length = raw.length := by
  unfold fixedDesc
  rw [length_sealedDesc, length_countedDesc]

/-- checksum の欄のほかは変わらない。 -/
theorem readLe_sealedDesc_of_disjoint {ctx : MetadataContext} {g : Nat} {raw : Bytes} {n off : Nat}
    (h : off + n ≤ 0x1e ∨ 0x20 ≤ off) : readLe n (sealedDesc ctx g raw) off = readLe n raw off := by
  unfold sealedDesc
  split
  · rfl
  · rw [readLe_writeLe_of_disjoint h, readLe_writeLe_of_disjoint h]

/-- 修復が触れない欄は変わらない。 -/
theorem readLe_fixedDesc_of_disjoint {ctx : MetadataContext} {g : Nat} {raw bb ib : Bytes}
    {n off : Nat} (h1 : off + n ≤ 12 ∨ 16 ≤ off) (h2 : off + n ≤ 0x18 ∨ 0x20 ≤ off)
    (h3 : off + n ≤ 44 ∨ 48 ≤ off) (h4 : off + n ≤ 0x38 ∨ 0x3c ≤ off) :
    readLe n (fixedDesc ctx g raw bb ib) off = readLe n raw off := by
  unfold fixedDesc
  rw [readLe_sealedDesc_of_disjoint (by omega), countedDesc_eq]
  dsimp only
  split
  · rw [readLe_setHalves_of_disjoint (by omega) (by omega),
      readLe_setHalves_of_disjoint (by omega) (by omega)]
  · rw [readLe_setHalves_of_disjoint (by omega) (by omega),
      readLe_setHalves_of_disjoint (by omega) (by omega),
      readLe_setHalves_of_disjoint (by omega) (by omega),
      readLe_setHalves_of_disjoint (by omega) (by omega)]

/-! ### 書き直しの後 -/

theorem groupDescriptorSum_lt (ctx : MetadataContext) (g : Nat) (raw : Bytes) :
    groupDescriptorSum ctx g raw < 256 ^ 2 := by
  unfold groupDescriptorSum
  dsimp only
  split
  · exact Nat.mod_lt _ (by decide)
  · exact UInt16.toNat_lt _

/-- checksum は、その欄の値によらない。 -/
theorem groupDescriptorSum_write (ctx : MetadataContext) (g : Nat) (raw : Bytes) (v : Nat) :
    groupDescriptorSum ctx g (writeLe 2 raw 0x1e v) = groupDescriptorSum ctx g raw := by
  unfold groupDescriptorSum
  rw [writeLe_writeLe]

theorem readLe_sealedDesc_sum {ctx : MetadataContext} {g : Nat} {raw : Bytes} (hlen : 32 ≤ raw.length)
    (hg : ctx.gdtCsum = true) :
    readLe 2 (sealedDesc ctx g raw) 0x1e = groupDescriptorSum ctx g (sealedDesc ctx g raw) := by
  unfold sealedDesc
  rw [if_neg (by rw [hg]; decide), readLe_writeLe_self (by rw [length_writeLe]; omega),
    groupDescriptorSum_write, groupDescriptorSum_write,
    Nat.mod_eq_of_lt (groupDescriptorSum_lt ctx g raw)]

theorem sealedDesc_eq_self {ctx : MetadataContext} {g : Nat} {raw : Bytes} (hlen : 32 ≤ raw.length)
    (h : ctx.gdtCsum = true → readLe 2 raw 0x1e = groupDescriptorSum ctx g raw) :
    sealedDesc ctx g raw = raw := by
  unfold sealedDesc
  split
  · rfl
  · next hg =>
    rw [writeLe_writeLe]
    refine writeLe_eq_self (by omega) ?_
    rw [Nat.mod_eq_of_lt (groupDescriptorSum_lt ctx g raw)]
    exact h (by simpa using hg)

/-- 書き直した descriptor の欄は、すべて合っている。 -/
theorem descSettled_fixedDesc {ctx : MetadataContext} {g : Nat} {raw bb ib : Bytes}
    (hlen : 32 ≤ raw.length) : DescSettled ctx g bb ib (fixedDesc ctx g raw bb ib) := by
  have hread : ∀ off, off + 2 ≤ 0x1e ∨ 0x20 ≤ off →
      readLe 2 (fixedDesc ctx g raw bb ib) off = readLe 2 (countedDesc ctx g raw bb ib) off :=
    fun off h => readLe_sealedDesc_of_disjoint h
  -- 空きの数の欄は、checksum の欄の書き込みで変わらない
  have hcount : ∀ off, off + 2 ≤ 0x18 ∨ (0x1c ≤ off ∧ off + 2 ≤ 0x38) → (off + 2 ≤ 0x1e ∨ 0x20 ≤ off) →
      readLe 2 (fixedDesc ctx g raw bb ib) off = readLe 2 (setHalves (setHalves raw 12 44
        (zeroBits bb (ctx.sb.groupBlockCount g))) 14 46 (zeroBits ib (ctx.sb.groupInodeCount g))) off := by
    intro off h1 h2
    rw [hread off h2, countedDesc_eq]
    dsimp only
    split
    · rfl
    · rw [readLe_setHalves_of_disjoint (by omega) (by omega),
        readLe_setHalves_of_disjoint (by omega) (by omega)]
  refine ⟨?_, ?_, ?_, ?_, ?_, ?_, ?_, ?_, ?_⟩
  · rw [hcount 12 (by omega) (by omega), readLe_setHalves_of_disjoint (by omega) (by omega),
      readLe_setHalves_lo (by omega) (by omega)]
  · intro h
    rw [length_fixedDesc] at h
    rw [hcount 44 (by omega) (by omega), readLe_setHalves_of_disjoint (by omega) (by omega),
      readLe_setHalves_hi (by omega)]
  · rw [hcount 14 (by omega) (by omega),
      readLe_setHalves_lo (by rw [length_setHalves]; omega) (by omega)]
  · intro h
    rw [length_fixedDesc] at h
    rw [hcount 46 (by omega) (by omega), readLe_setHalves_hi (by rw [length_setHalves]; omega)]
  · intro hm
    rw [hread 0x18 (by omega), countedDesc_eq]
    dsimp only
    rw [if_neg (by rw [hm]; decide), readLe_setHalves_of_disjoint (by omega) (by omega),
      readLe_setHalves_lo (by simp only [length_setHalves]; omega) (by omega)]
  · intro hm h
    rw [length_fixedDesc] at h
    rw [hread 0x38 (by omega), countedDesc_eq]
    dsimp only
    rw [if_neg (by rw [hm]; decide), readLe_setHalves_of_disjoint (by omega) (by omega),
      readLe_setHalves_hi (by simp only [length_setHalves]; omega)]
  · intro hm
    rw [hread 0x1a (by omega), countedDesc_eq]
    dsimp only
    rw [if_neg (by rw [hm]; decide),
      readLe_setHalves_lo (by simp only [length_setHalves]; omega) (by omega)]
  · intro hm h
    rw [length_fixedDesc] at h
    rw [hread 0x3a (by omega), countedDesc_eq]
    dsimp only
    rw [if_neg (by rw [hm]; decide), readLe_setHalves_hi (by simp only [length_setHalves]; omega)]
  · intro hg
    exact readLe_sealedDesc_sum (by rw [length_countedDesc]; exact hlen) hg

/-- 欄の合っている descriptor は、書き直しても変わらない。 -/
theorem fixedDesc_eq_self {ctx : MetadataContext} {g : Nat} {raw bb ib : Bytes}
    (hlen : 32 ≤ raw.length) (h : DescSettled ctx g bb ib raw) : fixedDesc ctx g raw bb ib = raw := by
  have hcount : countedDesc ctx g raw bb ib = raw := by
    rw [countedDesc_eq]
    dsimp only
    rw [@setHalves_eq_self raw _ _ _ (by omega) h.blocks h.blocksHi,
      setHalves_eq_self (by omega) h.inodes h.inodesHi]
    split
    · rfl
    · next hm =>
      have hm : ctx.metadataCsum = true := by simpa using hm
      rw [@setHalves_eq_self raw _ _ _ (by omega) (h.blockSum hm) (h.blockSumHi hm),
        setHalves_eq_self (by omega) (h.inodeSum hm) (h.inodeSumHi hm)]
  unfold fixedDesc
  rw [hcount]
  exact sealedDesc_eq_self hlen h.sum

/-! ### 検査に通ること -/

theorem bitmapChecksum_lt (ctx : MetadataContext) (bitmap : Bytes) (n : Nat) :
    bitmapChecksum ctx bitmap n < 2 ^ 32 := UInt32.toNat_lt _

/-- 下位と上位に分けた 32 bit の値は、合わせればもとに戻る。 -/
theorem or_halves {v : Nat} (hv : v < 2 ^ 32) :
    v % 256 ^ 2 ||| ((v >>> 16) % 256 ^ 2) <<< 16 = v := by
  have hlow : v % 256 ^ 2 < 2 ^ 16 := Nat.mod_lt _ (by decide)
  rw [Nat.or_comm, ← Nat.shiftLeft_add_eq_or_of_lt hlow, Nat.shiftLeft_eq, Nat.shiftRight_eq_div_pow,
    Nat.mod_eq_of_lt (show v / 2 ^ 16 < 256 ^ 2 by omega)]
  omega

/-- 欄の値が合っていれば、bitmap の checksum の検査に通る。 -/
theorem verifyBitmapChecksum_of_halves {ctx : MetadataContext} {perGroup lo hi : Nat}
    {gd bitmap : Bytes}
    (h1 : ctx.metadataCsum = true →
      readLe 2 gd lo = bitmapChecksum ctx bitmap ((perGroup + 7) / 8) % 256 ^ 2)
    (h2 : ctx.metadataCsum = true → hi + 2 ≤ gd.length →
      readLe 2 gd hi = (bitmapChecksum ctx bitmap ((perGroup + 7) / 8) >>> 16) % 256 ^ 2) :
    verifyBitmapChecksum ctx perGroup lo hi gd bitmap = true := by
  unfold verifyBitmapChecksum descriptorBitmapChecksum
  split
  · rfl
  · next hm =>
    have hm : ctx.metadataCsum = true := by simpa using hm
    dsimp only
    rw [h1 hm]
    split
    · next hlen =>
      rw [h2 hm hlen, or_halves (bitmapChecksum_lt _ _ _)]
      exact decide_eq_true rfl
    · rw [Nat.or_zero]
      exact decide_eq_true (Nat.mod_mod _ _)

theorem DescSettled.verifies {ctx : MetadataContext} {g : Nat} {bb ib raw : Bytes}
    (h : DescSettled ctx g bb ib raw) (hlen : 32 ≤ raw.length) :
    verifyGroupDescriptorChecksum ctx g raw = .ok true ∧
      verifyBlockBitmapChecksum ctx raw bb = true ∧ verifyInodeBitmapChecksum ctx raw ib = true := by
  refine ⟨?_, verifyBitmapChecksum_of_halves h.blockSum h.blockSumHi,
    verifyBitmapChecksum_of_halves h.inodeSum h.inodeSumHi⟩
  unfold verifyGroupDescriptorChecksum
  split
  · rfl
  · next hg =>
    rw [if_neg (by omega), h.sum (by simpa using hg)]
    exact congrArg Except.ok (decide_eq_true rfl)

/-! ### 読み戻した空きの数 -/

/-- `read_group_desc` が空きの数の上位の欄を読むか。 -/
def Superblock.wideDesc (sb : Superblock) : Bool :=
  decide (sb.descBytes ≥ 64) && sb.hasIncompat incompat64bit

/-- descriptor に入れて読み戻した空きの数。上位の欄を読まなければ 16 bit に切り詰まる。 -/
def Superblock.stored (sb : Superblock) (v : Nat) : Nat := if sb.wideDesc then v else v % 2 ^ 16

theorem DescSettled.decoded {ctx : MetadataContext} {g : Nat} {bb ib raw : Bytes} {sb : Superblock}
    (h : DescSettled ctx g bb ib raw) (hlen : raw.length = sb.descBytes)
    (hb : zeroBits bb (ctx.sb.groupBlockCount g) < 2 ^ 32)
    (hi : zeroBits ib (ctx.sb.groupInodeCount g) < 2 ^ 32) :
    (decodeGroupDesc sb raw).freeBlocks = sb.stored (zeroBits bb (ctx.sb.groupBlockCount g)) ∧
      (decodeGroupDesc sb raw).freeInodes = sb.stored (zeroBits ib (ctx.sb.groupInodeCount g)) := by
  unfold Superblock.stored decodeGroupDesc
  dsimp only
  cases hw : sb.wideDesc with
  | false =>
    unfold Superblock.wideDesc at hw
    rw [hw]
    simp only [Bool.false_eq_true, if_false, Nat.or_zero]
    exact ⟨h.blocks, h.inodes⟩
  | true =>
    have hds : 64 ≤ raw.length := by
      unfold Superblock.wideDesc at hw
      rw [Bool.and_eq_true, decide_eq_true_eq] at hw
      omega
    unfold Superblock.wideDesc at hw
    rw [hw]
    simp only [if_true]
    rw [h.blocks, h.blocksHi (by omega), h.inodes, h.inodesHi (by omega), or_halves hb, or_halves hi]
    exact ⟨rfl, rfl⟩

/-- 空きの数のほかの欄は、書き直しても同じに読める。 -/
theorem decodeGroupDesc_fixedDesc {ctx : MetadataContext} {g : Nat} {raw bb ib : Bytes}
    {sb : Superblock} :
    (decodeGroupDesc sb (fixedDesc ctx g raw bb ib)).blockBitmap =
        (decodeGroupDesc sb raw).blockBitmap ∧
      (decodeGroupDesc sb (fixedDesc ctx g raw bb ib)).inodeBitmap =
        (decodeGroupDesc sb raw).inodeBitmap ∧
      (decodeGroupDesc sb (fixedDesc ctx g raw bb ib)).inodeTable =
        (decodeGroupDesc sb raw).inodeTable := by
  unfold decodeGroupDesc
  dsimp only
  rw [readLe_fixedDesc_of_disjoint (by omega) (by omega) (by omega) (by omega),
    readLe_fixedDesc_of_disjoint (by omega) (by omega) (by omega) (by omega),
    readLe_fixedDesc_of_disjoint (by omega) (by omega) (by omega) (by omega),
    readLe_fixedDesc_of_disjoint (by omega) (by omega) (by omega) (by omega),
    readLe_fixedDesc_of_disjoint (by omega) (by omega) (by omega) (by omega),
    readLe_fixedDesc_of_disjoint (by omega) (by omega) (by omega) (by omega)]
  exact ⟨rfl, rfl, rfl⟩

/-! ## superblock -/

/-- checksum を合わせた superblock。 -/
def sealedSuper (raw : Bytes) : Bytes :=
  if readLe 4 raw 0x64 &&& roCompatMetadataCsum = 0 then raw
  else writeLe 4 raw 0x3fc (crc32c (raw.take 0x3fc) crcInit).toNat

theorem updateSuperblockChecksum_eq {raw : Bytes} (h : raw.length = 1024) :
    updateSuperblockChecksum raw = .ok (sealedSuper raw) := by
  unfold updateSuperblockChecksum sealedSuper
  rw [if_neg (by omega)]
  split <;> rfl

@[simp] theorem length_sealedSuper (raw : Bytes) : (sealedSuper raw).length = raw.length := by
  unfold sealedSuper
  split <;> simp

theorem slice_sealedSuper {raw : Bytes} {n off : Nat} (h : off + n ≤ 0x3fc) :
    slice (sealedSuper raw) off n = slice raw off n := by
  unfold sealedSuper
  split
  · rfl
  · exact slice_writeLe_of_disjoint (Or.inl h)

theorem readLe_sealedSuper {raw : Bytes} {n off : Nat} (h : off + n ≤ 0x3fc) :
    readLe n (sealedSuper raw) off = readLe n raw off := congrArg leNat (slice_sealedSuper h)

theorem take_sealedSuper (raw : Bytes) : (sealedSuper raw).take 0x3fc = raw.take 0x3fc := by
  have h : slice (sealedSuper raw) 0 0x3fc = slice raw 0 0x3fc := slice_sealedSuper (by omega)
  simpa [slice] using h

theorem verifySuperblockChecksum_sealedSuper {raw : Bytes} (h : raw.length = 1024) :
    verifySuperblockChecksum (sealedSuper raw) = true := by
  unfold verifySuperblockChecksum
  rw [length_sealedSuper, if_neg (by omega), readLe_sealedSuper (by omega), take_sealedSuper]
  by_cases hc : readLe 4 raw 0x64 &&& roCompatMetadataCsum = 0
  · rw [if_pos hc]
  · rw [if_neg hc]
    unfold sealedSuper
    rw [if_neg hc, readLe_writeLe_self (by omega)]
    exact decide_eq_true (Nat.mod_eq_of_lt (UInt32.toNat_lt _))

/-- 修復が書く superblock。 -/
def fixedSuper (raw : Bytes) (freeBlocks freeInodes : Nat) : Bytes :=
  sealedSuper (writeLe 4 (setLoHi raw 0x0c 0x158 freeBlocks) 0x10 freeInodes)

section FixedSuper

variable {raw : Bytes} {fb fi : Nat}

@[simp] theorem length_fixedSuper (raw : Bytes) (fb fi : Nat) :
    (fixedSuper raw fb fi).length = raw.length := by
  unfold fixedSuper
  rw [length_sealedSuper, length_writeLe, length_setLoHi]

theorem repairedSuper_eq (h : raw.length = 1024) :
    repairedSuper raw fb fi = .ok (fixedSuper raw fb fi) :=
  updateSuperblockChecksum_eq (by rw [length_writeLe, length_setLoHi, h])

/-- 修復が触れない欄は変わらない。 -/
theorem slice_fixedSuper {n off : Nat} (h0 : off + n ≤ 0x3fc) (h1 : off + n ≤ 0x0c ∨ 0x14 ≤ off)
    (h2 : off + n ≤ 0x158 ∨ 0x15c ≤ off) : slice (fixedSuper raw fb fi) off n = slice raw off n := by
  unfold fixedSuper setLoHi
  rw [slice_sealedSuper h0, slice_writeLe_of_disjoint (by omega), slice_writeLe_of_disjoint (by omega),
    slice_writeLe_of_disjoint (by omega)]

theorem readLe_fixedSuper {n off : Nat} (h0 : off + n ≤ 0x3fc) (h1 : off + n ≤ 0x0c ∨ 0x14 ≤ off)
    (h2 : off + n ≤ 0x158 ∨ 0x15c ≤ off) :
    readLe n (fixedSuper raw fb fi) off = readLe n raw off :=
  congrArg leNat (slice_fixedSuper h0 h1 h2)

/-- 空きの数のほかは、同じ superblock に読める。 -/
theorem decodeSuperblock_fixedSuper (hlen : raw.length = 1024) (hfb : fb < 2 ^ 64)
    (hnarrow : readLe 4 raw 0x60 &&& incompat64bit = 0 → fb < 2 ^ 32) (hfi : fi < 2 ^ 32) :
    decodeSuperblock (fixedSuper raw fb fi) =
      { decodeSuperblock raw with freeBlocks := fb, freeInodes := fi } := by
  have hr : ∀ n off, off + n ≤ 0x3fc → (off + n ≤ 0x0c ∨ 0x14 ≤ off) →
      (off + n ≤ 0x158 ∨ 0x15c ≤ off) → readLe n (fixedSuper raw fb fi) off = readLe n raw off :=
    fun n off h0 h1 h2 => readLe_fixedSuper h0 h1 h2
  have hfree : ∀ wide : Bool, (wide = false → fb < 2 ^ 32) →
      readLoHi (fixedSuper raw fb fi) wide 0x0c 0x158 = fb := by
    intro wide hw
    have hset : readLoHi (setLoHi raw 0x0c 0x158 fb) wide 0x0c 0x158 = fb :=
      readLoHi_setLoHi (by decide) (by omega) hfb hw
    unfold readLoHi at hset ⊢
    unfold fixedSuper
    rw [readLe_sealedSuper (by omega), readLe_sealedSuper (by omega),
      readLe_writeLe_of_disjoint (by omega), readLe_writeLe_of_disjoint (by omega)]
    exact hset
  have hinodes : readLe 4 (fixedSuper raw fb fi) 0x10 = fi := by
    unfold fixedSuper
    rw [readLe_sealedSuper (by omega), readLe_writeLe_self (by rw [length_setLoHi]; omega)]
    exact Nat.mod_eq_of_lt hfi
  have huuid : slice (fixedSuper raw fb fi) 0x68 16 = slice raw 0x68 16 :=
    slice_fixedSuper (by omega) (by omega) (by omega)
  unfold decodeSuperblock
  dsimp only
  rw [hr 4 0x60 (by omega) (by omega) (by omega), hfree _ (fun hw => hnarrow (by simpa using hw)),
    hinodes, huuid]
  unfold readLoHi
  simp only [hr 4 0x00 (by omega) (by omega) (by omega), hr 4 0x04 (by omega) (by omega) (by omega),
    hr 4 0x150 (by omega) (by omega) (by omega), hr 4 0x08 (by omega) (by omega) (by omega),
    hr 4 0x154 (by omega) (by omega) (by omega), hr 4 0x14 (by omega) (by omega) (by omega),
    hr 4 0x18 (by omega) (by omega) (by omega), hr 4 0x20 (by omega) (by omega) (by omega),
    hr 4 0x28 (by omega) (by omega) (by omega), hr 2 0x3a (by omega) (by omega) (by omega),
    hr 2 0x58 (by omega) (by omega) (by omega), hr 4 0x64 (by omega) (by omega) (by omega),
    hr 2 0xfe (by omega) (by omega) (by omega), hr 2 0x38 (by omega) (by omega) (by omega)]

/-- 同じ数での書き直しは、一度で落ち着く。 -/
theorem fixedSuper_fixedSuper (hlen : raw.length = 1024) :
    fixedSuper (fixedSuper raw fb fi) fb fi = fixedSuper raw fb fi := by
  generalize hx : writeLe 4 (setLoHi raw 0x0c 0x158 fb) 0x10 fi = x
  have hxlen : x.length = 1024 := by rw [← hx, length_writeLe, length_setLoHi, hlen]
  have hslen : (sealedSuper x).length = 1024 := by rw [length_sealedSuper, hxlen]
  have hfirst : fixedSuper raw fb fi = sealedSuper x := by rw [fixedSuper, hx]
  -- 欄の値はすでに入っている
  have hlo : readLe 4 (sealedSuper x) 0x0c = fb % 256 ^ 4 := by
    rw [readLe_sealedSuper (by omega), ← hx, readLe_writeLe_of_disjoint (by omega), setLoHi,
      readLe_writeLe_of_disjoint (by omega), readLe_writeLe_self (by omega)]
  have hhi : readLe 4 (sealedSuper x) 0x158 = (fb >>> 32) % 256 ^ 4 := by
    rw [readLe_sealedSuper (by omega), ← hx, readLe_writeLe_of_disjoint (by omega), setLoHi,
      readLe_writeLe_self (by rw [length_writeLe]; omega)]
  have hino : readLe 4 (sealedSuper x) 0x10 = fi % 256 ^ 4 := by
    rw [readLe_sealedSuper (by omega), ← hx, readLe_writeLe_self (by rw [length_setLoHi]; omega)]
  have hwrite : writeLe 4 (setLoHi (sealedSuper x) 0x0c 0x158 fb) 0x10 fi = sealedSuper x := by
    unfold setLoHi
    rw [writeLe_eq_self (b := sealedSuper x) (by omega) hlo,
      writeLe_eq_self (b := sealedSuper x) (by omega) hhi,
      writeLe_eq_self (b := sealedSuper x) (by omega) hino]
  rw [hfirst, fixedSuper, hwrite]
  show sealedSuper (sealedSuper x) = sealedSuper x
  by_cases hc : readLe 4 x 0x64 &&& roCompatMetadataCsum = 0
  · have hs : sealedSuper x = x := if_pos hc
    rw [hs, hs]
  · rw [sealedSuper, readLe_sealedSuper (by omega), if_neg hc, take_sealedSuper]
    refine writeLe_eq_self (by omega) ?_
    rw [sealedSuper, if_neg hc, readLe_writeLe_self (by omega)]

end FixedSuper

end Fsx.Ext4
