import Fsx.Ext4.Group

/-!
# 受け入れられた superblock の幾何

`read_superblock` の検査から、block size・group・descriptor についての事実をまとめて取り出す。
どの block 番号も byte 番地にして 64 bit に収まり、group の区間は filesystem を隙間なく覆う。
-/

namespace Fsx.Ext4

/-- `read_superblock` の検査に通るための条件。 -/
structure Superblock.Checks (devBytes : Nat) (sb : Superblock) : Prop where
  magic : sb.magic = extMagic
  blockSize : 1024 ≤ sb.blockSize ∧ sb.blockSize ≤ 65536 ∧ sb.blockSize &&& (sb.blockSize - 1) = 0
  counts : sb.blocksPerGroup ≠ 0 ∧ sb.inodesPerGroup ≠ 0 ∧ sb.blocksCount ≠ 0 ∧ sb.inodesCount ≠ 0
  first_lt : sb.firstDataBlock < sb.blocksCount
  perGroup_le : sb.blocksPerGroup ≤ sb.blockSize * 8 ∧ sb.inodesPerGroup ≤ sb.blockSize * 8
  inodeSize : 128 ≤ sb.inodeSize ∧ sb.inodeSize ≤ sb.blockSize ∧
    sb.inodeSize &&& (sb.inodeSize - 1) = 0
  free_le : sb.freeBlocks ≤ sb.blocksCount ∧ sb.freeInodes ≤ sb.inodesCount ∧
    sb.reservedBlocks ≤ sb.blocksCount
  wide : sb.hasIncompat incompat64bit = true →
    64 ≤ sb.descBytes ∧ sb.descBytes ≤ sb.blockSize ∧ sb.descBytes &&& 7 = 0
  narrow : sb.hasIncompat incompat64bit = false → sb.descSize ≠ 0 →
    32 ≤ sb.descSize ∧ sb.descSize ≤ sb.blockSize ∧ sb.descSize &&& 7 = 0
  groups_pos : sb.groupsCount ≠ 0
  inodeGroups : sb.inodesCount / sb.inodesPerGroup
    + (if sb.inodesCount % sb.inodesPerGroup ≠ 0 then 1 else 0) ≤ sb.groupsCount
  fits : devBytes ≠ 0 → sb.blocksCount ≤ devBytes / sb.blockSize

theorem checkSuperblock_eq_ok_iff {devBytes : Nat} {sb : Superblock} :
    checkSuperblock devBytes sb = .ok () ↔ sb.Checks devBytes := by
  unfold checkSuperblock
  simp only [Result.guard_bind_eq_ok_iff, Result.guard_eq_ok_iff, not_or, not_and, not_not, not_lt,
    ge_iff_le, not_le, gt_iff_lt, Bool.not_eq_true]
  constructor
  · rintro ⟨h1, h2, h3, h4, h5, h6, h7, h8, h9, h10, h11, h12⟩
    exact ⟨h1, h2, h3, h4, h5, h6, h7, h8, h9, h10, h11, h12.1⟩
  · rintro ⟨h1, h2, h3, h4, h5, h6, h7, h8, h9, h10, h11, h12⟩
    exact ⟨h1, h2, h3, h4, h5, h6, h7, h8, h9, h10, h11, h12, rfl⟩

/-- `read_superblock` が受け入れた superblock。`size` は device の大きさである。 -/
structure Superblock.Accepted (size : Nat) (sb : Superblock) : Prop where
  blockSize_ge : 1024 ≤ sb.blockSize
  blockSize_le : sb.blockSize ≤ 65536
  perGroup_pos : 0 < sb.blocksPerGroup
  inodesPerGroup_pos : 0 < sb.inodesPerGroup
  first_lt : sb.firstDataBlock < sb.blocksCount
  perGroup_le : sb.blocksPerGroup ≤ sb.blockSize * 8
  inodesPerGroup_le : sb.inodesPerGroup ≤ sb.blockSize * 8
  inodeSize_ge : 128 ≤ sb.inodeSize
  inodeSize_le : sb.inodeSize ≤ sb.blockSize
  free_le : sb.freeBlocks ≤ sb.blocksCount
  groups_pos : sb.groupsCount ≠ 0
  inodeGroups : sb.inodesCount / sb.inodesPerGroup
    + (if sb.inodesCount % sb.inodesPerGroup ≠ 0 then 1 else 0) ≤ sb.groupsCount
  fits : sb.blocksCount * sb.blockSize ≤ size

/-- inode の数は 32 bit の欄である。 -/
theorem inodesCount_decodeSuperblock_lt (b : Bytes) : (decodeSuperblock b).inodesCount < 2 ^ 32 :=
  readLe_lt 4 b 0

/-- 読めた superblock は、1024 から読んだもので、検査に通っている。 -/
theorem readSuperblock_eq_ok_iff {d : Disk} {sb : Superblock} :
    readSuperblock d = .ok sb ↔ 2048 ≤ d.sizeBytes ∧
      decodeSuperblock (d.data.read 1024 1024) = sb ∧ sb.Checks d.sizeBytes := by
  unfold readSuperblock
  constructor
  · intro h
    obtain ⟨b, hb, h⟩ := Result.bind_eq_ok h
    obtain ⟨_, hc, h⟩ := Result.bind_eq_ok h
    cases h
    obtain ⟨hsize, hb⟩ := Disk.readExact_eq_ok_iff.mp hb
    exact ⟨hsize, congrArg decodeSuperblock hb.symm, checkSuperblock_eq_ok_iff.mp hc⟩
  · rintro ⟨hsize, rfl, hc⟩
    rw [Disk.readExact_ok (show 1024 + 1024 ≤ d.sizeBytes from hsize), Result.ok_bind]
    dsimp only
    rw [checkSuperblock_eq_ok_iff.mpr hc]
    rfl

theorem Superblock.Checks.accepted {size : Nat} {sb : Superblock} (h : sb.Checks size)
    (hsize : size ≠ 0) : sb.Accepted size := by
  obtain ⟨hge, hle, -⟩ := h.blockSize
  obtain ⟨hgroup, hinode, -, -⟩ := h.counts
  refine ⟨hge, hle, Nat.pos_of_ne_zero hgroup, Nat.pos_of_ne_zero hinode, h.first_lt,
    h.perGroup_le.1, h.perGroup_le.2, h.inodeSize.1, h.inodeSize.2.1, h.free_le.1, h.groups_pos,
    h.inodeGroups, ?_⟩
  exact (Nat.le_div_iff_mul_le (by omega)).mp (h.fits hsize)

theorem accepted_of_readSuperblock {d : Disk} {sb : Superblock} (h : readSuperblock d = .ok sb) :
    sb.Accepted d.sizeBytes := by
  obtain ⟨hsize, -, hc⟩ := readSuperblock_eq_ok_iff.mp h
  exact hc.accepted (by omega)

theorem readSuperblock_of_loadMetadataContext {d : Disk} {ctx : MetadataContext}
    (h : loadMetadataContext d = .ok ctx) : readSuperblock d = .ok ctx.sb := by
  unfold loadMetadataContext at h
  obtain ⟨sb, hsb, h⟩ := Result.bind_eq_ok h
  obtain ⟨raw, -, h⟩ := Result.bind_eq_ok h
  simp only [Result.guard_bind_eq_ok_iff, Result.pure_eq_ok_iff] at h
  rw [h.2]
  exact hsb

/-- block `b` の属する group。 -/
def Superblock.groupOf (sb : Superblock) (b : Nat) : Nat :=
  (b - sb.firstDataBlock) / sb.blocksPerGroup

/-- block `b` の、group の中での番号。 -/
def Superblock.indexOf (sb : Superblock) (b : Nat) : Nat :=
  (b - sb.firstDataBlock) % sb.blocksPerGroup

/-- block は、group の先頭に番号を足したところにある。 -/
theorem Superblock.start_add_index {sb : Superblock} {b : Nat} (hb : sb.firstDataBlock ≤ b) :
    sb.firstDataBlock + sb.groupOf b * sb.blocksPerGroup + sb.indexOf b = b := by
  unfold Superblock.groupOf Superblock.indexOf
  have := Nat.div_add_mod (b - sb.firstDataBlock) sb.blocksPerGroup
  rw [Nat.mul_comm] at this
  omega

/-- group `g` からの列は、`g` のものに `g + 1` からの列を続けたものである。 -/
theorem map_range_from_succ {α : Type} (f : Nat → α) (g n : Nat) :
    ((List.range (n + 1)).map fun i => f (g + i)) =
      f g :: (List.range n).map fun i => f (g + 1 + i) := by
  rw [List.range_succ_eq_map, List.map_cons, List.map_map, Nat.add_zero]
  refine congrArg _ (List.map_congr_left fun i _ => ?_)
  rw [Function.comp_apply, Nat.succ_eq_add_one, Nat.add_comm i 1, Nat.add_assoc]

namespace Superblock.Accepted

variable {size : Nat} {sb : Superblock} (h : sb.Accepted size)
include h

theorem sizeBytes_eq (hsize : size < 2 ^ 63) : sb.sizeBytes = sb.blocksCount * sb.blockSize := by
  have h1 := h.blockSize_ge
  have h2 := h.fits
  unfold Superblock.sizeBytes
  rw [if_neg]
  rw [not_or, Nat.not_lt, Nat.le_div_iff_mul_le (by omega)]
  unfold u64Max
  omega

theorem blocks_lt (hsize : size < 2 ^ 63) : sb.blocksCount < 2 ^ 63 := by
  have h1 := h.blockSize_ge
  have h2 := h.fits
  have h3 : sb.blocksCount * 1 ≤ sb.blocksCount * sb.blockSize := Nat.mul_le_mul_left _ (by omega)
  omega

/-- group の番号は、その先頭が filesystem の中にあるものまでである。 -/
theorem lt_groupsCount_iff {g : Nat} :
    g < sb.groupsCount ↔ g * sb.blocksPerGroup < sb.blocksCount - sb.firstDataBlock := by
  have hpos := h.perGroup_pos
  unfold Superblock.groupsCount
  dsimp only
  rw [if_neg (by omega)]
  generalize sb.blocksCount - sb.firstDataBlock = n
  generalize sb.blocksPerGroup = k at hpos
  have hdm := Nat.div_add_mod n k
  have hmod := Nat.mod_lt n hpos
  rw [Nat.mul_comm] at hdm
  constructor
  · intro hg
    rcases Nat.lt_or_ge g (n / k) with hlt | hge
    · have := Nat.mul_le_mul_right k (Nat.succ_le_of_lt hlt)
      rw [Nat.succ_mul] at this
      omega
    · split at hg
      · have : g = n / k := by omega
        subst this
        omega
      · omega
  · intro hg
    by_contra hc
    rcases Nat.lt_or_ge g (n / k + 1) with hlt | hge
    · have hle := Nat.mul_le_mul_right k (show n / k ≤ g by split at hc <;> omega)
      split at hc
      · omega
      · omega
    · have hle := Nat.mul_le_mul_right k hge
      rw [Nat.add_mul] at hle
      omega

theorem groupStartBlock_eq (hsize : size < 2 ^ 63) {g : Nat} (hg : g < sb.groupsCount) :
    sb.groupStartBlock g = sb.firstDataBlock + g * sb.blocksPerGroup := by
  have hlt := h.lt_groupsCount_iff.mp hg
  have hblocks := h.blocks_lt hsize
  have hpos := h.perGroup_pos
  unfold Superblock.groupStartBlock
  rw [if_neg (by omega), if_neg]
  rw [Nat.not_lt, Nat.le_div_iff_mul_le hpos]
  unfold u64Max
  omega

theorem groupBlockCount_eq (hsize : size < 2 ^ 63) {g : Nat} (hg : g < sb.groupsCount) :
    sb.groupBlockCount g = min sb.blocksPerGroup
      (sb.blocksCount - (sb.firstDataBlock + g * sb.blocksPerGroup)) := by
  have hlt := h.lt_groupsCount_iff.mp hg
  unfold Superblock.groupBlockCount
  dsimp only
  rw [h.groupStartBlock_eq hsize hg, if_pos (by omega)]

theorem indexOf_lt (b : Nat) : sb.indexOf b < sb.blocksPerGroup := Nat.mod_lt _ h.perGroup_pos

theorem groupOf_lt {b : Nat} (hb : sb.firstDataBlock ≤ b) (hlt : b < sb.blocksCount) :
    sb.groupOf b < sb.groupsCount := by
  rw [h.lt_groupsCount_iff]
  have := Superblock.start_add_index hb
  omega

/-- group と番号の組は、block を一つに決める。 -/
theorem groupOf_indexOf_of_eq {b g i : Nat} (hi : i < sb.blocksPerGroup)
    (hb : b = sb.firstDataBlock + g * sb.blocksPerGroup + i) :
    sb.groupOf b = g ∧ sb.indexOf b = i := by
  have hpos := h.perGroup_pos
  have hsub : b - sb.firstDataBlock = i + sb.blocksPerGroup * g := by
    rw [hb, Nat.mul_comm g]
    omega
  unfold Superblock.groupOf Superblock.indexOf
  rw [hsub, Nat.add_mul_div_left _ _ hpos, Nat.div_eq_of_lt hi, Nat.add_mul_mod_self_left,
    Nat.mod_eq_of_lt hi, Nat.zero_add]
  exact ⟨rfl, rfl⟩

theorem indexOf_lt_count (hsize : size < 2 ^ 63) {b : Nat} (hb : sb.firstDataBlock ≤ b)
    (hlt : b < sb.blocksCount) : sb.indexOf b < sb.groupBlockCount (sb.groupOf b) := by
  rw [h.groupBlockCount_eq hsize (h.groupOf_lt hb hlt)]
  have h1 := h.indexOf_lt b
  have h2 := Superblock.start_add_index hb
  omega

end Superblock.Accepted

/-! ## descriptor の読み出し -/

theorem Superblock.descBytes_ge (sb : Superblock) : 32 ≤ sb.descBytes := by
  unfold Superblock.descBytes
  split <;> omega

/-- group `g` の descriptor の番地の検査。読み書きの三つの関数が同じことを調べる。 -/
structure Superblock.DescChecks (sb : Superblock) (g : Nat) : Prop where
  blockSize : ¬ sb.blockSize = 0
  group : ¬ g ≥ sb.groupsCount
  size : ¬ (sb.descBytes > sb.blockSize ∨ sb.descBytes > 1024)
  offset : ¬ g > u64Max / sb.descBytes
  metaBg : ¬ (sb.hasIncompat incompatMetaBg = true ∧ g * sb.descBytes ≥ sb.blockSize)
  address : ¬ g * sb.descBytes > u64Max - sb.tableOffset

/-- `read_group_desc` の、指す先の検査。 -/
structure GroupDesc.Within (sb : Superblock) (gd : GroupDesc) : Prop where
  pointers : ¬ (gd.blockBitmap ≥ sb.blocksCount ∨ gd.inodeBitmap ≥ sb.blocksCount
    ∨ gd.inodeTable ≥ sb.blocksCount)
  table : ¬ (sb.inodesPerGroup * sb.inodeSize / sb.blockSize
      + (if sb.inodesPerGroup * sb.inodeSize % sb.blockSize ≠ 0 then 1 else 0) = 0
    ∨ sb.inodesPerGroup * sb.inodeSize / sb.blockSize
      + (if sb.inodesPerGroup * sb.inodeSize % sb.blockSize ≠ 0 then 1 else 0)
        > sb.blocksCount - gd.inodeTable)

section GroupDesc

variable {d : Disk} {sb : Superblock} {ctx : MetadataContext} {g addr : Nat} {gd : GroupDesc}
  {raw bm : Bytes}

theorem GroupDesc.Within.blockBitmap_lt (h : gd.Within sb) : gd.blockBitmap < sb.blocksCount := by
  have := h.pointers
  omega

theorem GroupDesc.Within.inodeBitmap_lt (h : gd.Within sb) : gd.inodeBitmap < sb.blocksCount := by
  have := h.pointers
  omega

/-- 指す先の検査が見るのは、三つの欄だけである。 -/
theorem GroupDesc.Within.congr {gd' : GroupDesc} (h : gd.Within sb)
    (hb : gd'.blockBitmap = gd.blockBitmap) (hi : gd'.inodeBitmap = gd.inodeBitmap)
    (ht : gd'.inodeTable = gd.inodeTable) : gd'.Within sb where
  pointers := by
    rw [hb, hi, ht]
    exact h.pointers
  table := by
    rw [ht]
    exact h.table

/-- **descriptor が読めるのは、番地の検査を通り、device の中にあり、指す先が正しいときである。** -/
theorem readGroupDesc_eq_ok_iff : readGroupDesc d sb g = .ok gd ↔
    sb.DescChecks g ∧ sb.descOffset g + sb.descBytes ≤ d.sizeBytes ∧
      gd = decodeGroupDesc sb (d.data.read (sb.descOffset g) sb.descBytes) ∧ gd.Within sb := by
  unfold readGroupDesc
  simp only [Result.guard_bind_eq_ok_iff, Result.bind_eq_ok_iff, Result.pure_eq_ok_iff]
  constructor
  · rintro ⟨h1, h2, h3, h4, h5, h6, buf, hbuf, h7, h8, rfl⟩
    obtain ⟨hroom, rfl⟩ := Disk.readExact_eq_ok_iff.mp hbuf
    exact ⟨⟨h1, h2, h3, h4, h5, h6⟩, hroom, rfl, h7, h8⟩
  · rintro ⟨h, hroom, rfl, hin⟩
    exact ⟨h.blockSize, h.group, h.size, h.offset, h.metaBg, h.address, _,
      Disk.readExact_ok hroom, hin.pointers, hin.table, rfl⟩

/-- 生の descriptor は、番地の検査を通れば読める。 -/
theorem Superblock.DescChecks.readGroupDescriptorRaw (h : ctx.sb.DescChecks g)
    (hroom : ctx.sb.descOffset g + ctx.sb.descBytes ≤ d.sizeBytes) :
    readGroupDescriptorRaw d ctx g =
      .ok (d.data.read (ctx.sb.descOffset g) ctx.sb.descBytes) := by
  have hds := ctx.sb.descBytes_ge
  have hsize := h.size
  have hbs := h.blockSize
  unfold Ext4.readGroupDescriptorRaw
  dsimp only
  rw [if_neg h.group, if_neg (by omega), if_neg h.offset, if_neg h.metaBg, if_neg h.address]
  exact Disk.readExact_ok hroom

theorem Superblock.DescChecks.groupDescriptorAddress (h : ctx.sb.DescChecks g)
    (hlen : raw.length = ctx.sb.descBytes) :
    groupDescriptorAddress ctx g raw = .ok (ctx.sb.descOffset g) := by
  have hds := ctx.sb.descBytes_ge
  have hsize := h.size
  have hbs := h.blockSize
  unfold Ext4.groupDescriptorAddress
  dsimp only
  rw [if_neg (by omega), if_neg (not_not.mpr hlen), if_neg h.group, if_neg h.offset,
    if_neg h.metaBg, if_neg h.address]
  rfl

/-- descriptor を書く番地は、番号だけで決まる。 -/
theorem groupDescriptorAddress_eq_ok (h : groupDescriptorAddress ctx g raw = .ok addr) :
    raw.length = ctx.sb.descBytes ∧ ctx.sb.descBytes ≤ ctx.sb.blockSize ∧
      addr = ctx.sb.descOffset g := by
  unfold groupDescriptorAddress at h
  simp only [Result.guard_bind_eq_ok_iff, Result.pure_eq_ok_iff] at h
  obtain ⟨hgeometry, hlen, -, -, -, -, haddr⟩ := h
  exact ⟨not_not.mp hlen, by omega, haddr⟩

/-- 読めた bitmap は、descriptor の指す block の内容である。 -/
theorem readBlockBitmap_eq_ok (h : readBlockBitmap d sb gd = .ok bm) :
    gd.blockBitmap < sb.blocksCount ∧
      bm = d.data.read (gd.blockBitmap * sb.blockSize) sb.blockSize := by
  unfold readBlockBitmap at h
  simp only [Result.guard_bind_eq_ok_iff] at h
  exact ⟨Nat.not_le.mp h.2.1, (Disk.readExact_eq_ok_iff.mp h.2.2.2).2⟩

theorem readInodeBitmap_eq_ok (h : readInodeBitmap d sb gd = .ok bm) :
    gd.inodeBitmap < sb.blocksCount ∧
      bm = d.data.read (gd.inodeBitmap * sb.blockSize) sb.blockSize := by
  unfold readInodeBitmap at h
  simp only [Result.guard_bind_eq_ok_iff] at h
  exact ⟨Nat.not_le.mp h.2.1, (Disk.readExact_eq_ok_iff.mp h.2.2.2).2⟩

namespace Superblock.Accepted

variable (h : sb.Accepted d.sizeBytes)
include h

/-- filesystem の中の block は device の中にあり、byte 番地もあふれない。 -/
theorem block_fits {b : Nat} (hb : b < sb.blocksCount) :
    ¬ b > u64Max / sb.blockSize ∧ b * sb.blockSize + sb.blockSize ≤ d.sizeBytes := by
  have hge := h.blockSize_ge
  have hfits := h.fits
  have hlt := d.size_lt
  have hmul := Nat.mul_le_mul_right sb.blockSize (Nat.succ_le_of_lt hb)
  rw [Nat.succ_mul] at hmul
  refine ⟨?_, by omega⟩
  rw [Nat.not_lt, Nat.le_div_iff_mul_le (by omega)]
  unfold u64Max
  omega

theorem readBlockBitmap_ok (hb : gd.blockBitmap < sb.blocksCount) : readBlockBitmap d sb gd =
    .ok (d.data.read (gd.blockBitmap * sb.blockSize) sb.blockSize) := by
  have hge := h.blockSize_ge
  obtain ⟨hfit, hroom⟩ := h.block_fits hb
  unfold readBlockBitmap
  dsimp only
  rw [if_neg (by omega), if_neg (Nat.not_le.mpr hb), if_neg hfit]
  exact Disk.readExact_ok hroom

theorem readInodeBitmap_ok (hb : gd.inodeBitmap < sb.blocksCount) : readInodeBitmap d sb gd =
    .ok (d.data.read (gd.inodeBitmap * sb.blockSize) sb.blockSize) := by
  have hge := h.blockSize_ge
  obtain ⟨hfit, hroom⟩ := h.block_fits hb
  unfold readInodeBitmap
  dsimp only
  rw [if_neg (by omega), if_neg (Nat.not_le.mpr hb), if_neg hfit]
  exact Disk.readExact_ok hroom

end Superblock.Accepted

end GroupDesc

end Fsx.Ext4
