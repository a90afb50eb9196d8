import Fsx.Core.Count
import Fsx.Ext4.GeometryArith

/-!
# block group の敷き詰め

`read_superblock` の検査は一つの関数の中に散らばっているが、合わせると、block group の区間が
`first_data_block` から `blocks_count` までを隙間なく重なりなく覆うことが決まる。

どの block も一つの group の一つの番号だけに対応し、番号は一つの block に収まる bitmap の中にある。
末尾の group は短いことがあるが、空にはならない。範囲の外の番号の group は空である。
-/

namespace Fsx.Ext4

open Finset

/-- block `b` は group `g` の区間に入る。 -/
def Superblock.InGroup (sb : Superblock) (g b : Nat) : Prop :=
  sb.groupStartBlock g ≤ b ∧ b < sb.groupStartBlock g + sb.groupBlockCount g

namespace Superblock.Accepted

variable {size : Nat} {sb : Superblock} (h : sb.Accepted size) (hsize : size < 2 ^ 63)
include h hsize

/-- 範囲の外の番号では、先頭が filesystem の外にあるか、64 bit の最大の値になる。 -/
theorem groupBlockCount_eq_zero {g : Nat} (hg : sb.groupsCount ≤ g) : sb.groupBlockCount g = 0 := by
  have hblocks := h.blocks_lt hsize
  have hpos := h.perGroup_pos
  have hge := mt h.lt_groupsCount_iff.mpr (Nat.not_lt.mpr hg)
  have hstart : sb.blocksCount ≤ sb.groupStartBlock g := by
    unfold Superblock.groupStartBlock
    rw [if_neg (by omega)]
    split
    · unfold u64Max
      omega
    · omega
  unfold Superblock.groupBlockCount
  exact if_neg (Nat.not_lt.mpr hstart)

/-- 空でない group の番号は、範囲の中にあるものに限る。 -/
theorem groupBlockCount_pos_iff {g : Nat} : 0 < sb.groupBlockCount g ↔ g < sb.groupsCount := by
  constructor
  · intro hpos
    by_contra hg
    rw [h.groupBlockCount_eq_zero hsize (Nat.not_lt.mp hg)] at hpos
    cases hpos
  · intro hg
    have hlt := h.lt_groupsCount_iff.mp hg
    have hpos := h.perGroup_pos
    rw [h.groupBlockCount_eq hsize hg]
    omega

/-- **block が区間に入る group は、`groupOf` だけである。** -/
theorem inGroup_iff {g b : Nat} :
    sb.InGroup g b ↔ sb.firstDataBlock ≤ b ∧ b < sb.blocksCount ∧ g = sb.groupOf b := by
  unfold Superblock.InGroup
  constructor
  · rintro ⟨hle, hlt⟩
    have hg : g < sb.groupsCount := (h.groupBlockCount_pos_iff hsize).mp (by omega)
    rw [h.groupStartBlock_eq hsize hg] at hle hlt
    rw [h.groupBlockCount_eq hsize hg] at hlt
    obtain ⟨i, rfl⟩ := Nat.exists_eq_add_of_le hle
    exact ⟨by omega, by omega, (h.groupOf_indexOf_of_eq (by omega) rfl).1.symm⟩
  · rintro ⟨hfirst, hlt, rfl⟩
    have hg := h.groupOf_lt hfirst hlt
    have hadd := Superblock.start_add_index hfirst
    have hindex := h.indexOf_lt_count hsize hfirst hlt
    rw [h.groupStartBlock_eq hsize hg]
    omega

/-- group の block の数を合わせると、管理する block の数になる。 -/
theorem sum_groupBlockCount :
    ∑ g ∈ range sb.groupsCount, sb.groupBlockCount g = sb.blocksCount - sb.firstDataBlock := by
  have hcover : sb.blocksCount - sb.firstDataBlock ≤ sb.groupsCount * sb.blocksPerGroup :=
    Nat.not_lt.mp fun hlt => Nat.lt_irrefl _ (h.lt_groupsCount_iff.mpr hlt)
  rw [← sum_min_tile_of_le hcover]
  refine sum_congr rfl fun g hg => ?_
  rw [h.groupBlockCount_eq hsize (mem_range.mp hg), Nat.sub_sub]

omit hsize in
theorem inodeGroup_lt {i : Nat} (hpos : 1 ≤ i) (hle : i ≤ sb.inodesCount) :
    (i - 1) / sb.inodesPerGroup < sb.groupsCount := by
  have hper := h.inodesPerGroup_pos
  have hdm := Nat.div_add_mod sb.inodesCount sb.inodesPerGroup
  refine lt_of_lt_of_le ?_ h.inodeGroups
  -- `inodes_count` を割り切れないときは、最後の group の番号が一つ増える
  rw [Nat.div_lt_iff_lt_mul hper, Nat.add_mul, Nat.mul_comm]
  have hmod := Nat.mod_lt sb.inodesCount hper
  split <;> omega

end Superblock.Accepted

/-- 幾何の計算は 64 bit であふれず、飽和した値にもならない。 -/
structure NoWrap (d : Disk) (sb : Superblock) : Prop where
  /-- `group_start_block` と `group_block_count` は、どの番号でもあふれない。 -/
  groupStartBlock : ∀ g, Arith.Exact (Arith.groupStartBlock sb g) (.ok (sb.groupStartBlock g))
  groupBlockCount : ∀ g, Arith.Exact (Arith.groupBlockCount sb g) (.ok (sb.groupBlockCount g))
  /-- 範囲にある group の先頭は、飽和しない。 -/
  groupStart : ∀ g < sb.groupsCount,
    sb.groupStartBlock g = sb.firstDataBlock + g * sb.blocksPerGroup
  product : sb.blocksCount * sb.blockSize < 2 ^ 64
  sizeBytes : Arith.Exact (Arith.sizeBytes sb) (.ok (sb.blocksCount * sb.blockSize))
  /-- descriptor と inode の位置の計算は、どの入力でもあふれない。 -/
  readGroupDesc : ∀ g, Arith.Exact (Arith.readGroupDesc d sb g) (readGroupDesc d sb g)
  inodeOffset : ∀ (ctx : MetadataContext) (inode : Nat), ctx.sb = sb → inode < 2 ^ 64 →
    Arith.Exact (Arith.inodeOffset d ctx inode) (Ext4.inodeOffset d ctx inode)
  /-- 受け入れられた descriptor の inode table の中の位置は、filesystem の中にある。 -/
  inodeTable : ∀ (g index : Nat) (gd : GroupDesc), Ext4.readGroupDesc d sb g = .ok gd →
    index < sb.inodesPerGroup →
      gd.inodeTable * sb.blockSize + index * sb.inodeSize + sb.inodeSize
        ≤ sb.blocksCount * sb.blockSize

theorem noWrap_of_readSuperblock {d : Disk} {sb : Superblock} (hsb : readSuperblock d = .ok sb) :
    NoWrap d sb where
  groupStartBlock := Arith.groupStartBlock_exact (accepted_of_readSuperblock hsb) d.size_lt
  groupBlockCount := Arith.groupBlockCount_exact (accepted_of_readSuperblock hsb) d.size_lt
  groupStart := fun g hg => (accepted_of_readSuperblock hsb).groupStartBlock_eq d.size_lt hg
  product := by
    have hfits := (accepted_of_readSuperblock hsb).fits
    have hsize := d.size_lt
    omega
  sizeBytes := Arith.sizeBytes_exact (accepted_of_readSuperblock hsb) d.size_lt
  readGroupDesc := Arith.readGroupDesc_exact (accepted_of_readSuperblock hsb) d.size_lt
  inodeOffset := by
    rintro ctx inode rfl hinode
    exact Arith.inodeOffset_exact (accepted_of_readSuperblock hsb) hinode
  inodeTable := fun g index gd hgd hindex =>
    Arith.inodeEntry_le (accepted_of_readSuperblock hsb) hgd hindex

/--
**block group は filesystem を敷き詰める。**

`read_superblock` が受け入れた superblock では、`[first_data_block, blocks_count)` のどの block も
ただ一つの group の区間に入り、bit の番号は一つの block の bitmap に収まる。どの group も空でなく、
block の数の和は全体に等しい。どの inode の group も範囲にある。計算は 64 bit であふれない。
-/
theorem groups_tile {d : Disk} {sb : Superblock} (hsb : readSuperblock d = .ok sb) :
    (∀ b, sb.firstDataBlock ≤ b → b < sb.blocksCount →
      (b - sb.firstDataBlock) / sb.blocksPerGroup < sb.groupsCount ∧
      (∀ g, sb.InGroup g b ↔ g = (b - sb.firstDataBlock) / sb.blocksPerGroup) ∧
      (b - sb.firstDataBlock) % sb.blocksPerGroup < 8 * sb.blockSize) ∧
    (∀ g < sb.groupsCount, 0 < sb.groupBlockCount g) ∧
    ∑ g ∈ range sb.groupsCount, sb.groupBlockCount g = sb.blocksCount - sb.firstDataBlock ∧
    (∀ i, 1 ≤ i → i ≤ sb.inodesCount → (i - 1) / sb.inodesPerGroup < sb.groupsCount) ∧
    NoWrap d sb := by
  have h := accepted_of_readSuperblock hsb
  have hsize := d.size_lt
  refine ⟨fun b hfirst hlt => ⟨h.groupOf_lt hfirst hlt, fun g => ?_, ?_⟩,
    fun g => (h.groupBlockCount_pos_iff hsize).mpr, h.sum_groupBlockCount hsize,
    fun i => h.inodeGroup_lt, noWrap_of_readSuperblock hsb⟩
  · rw [h.inGroup_iff hsize]
    exact ⟨fun hg => hg.2.2, fun hg => ⟨hfirst, hlt, hg⟩⟩
  · have hper := h.perGroup_le
    exact lt_of_lt_of_le (h.indexOf_lt b) (by omega)

namespace ThreeGroups

/-- 1 KiB の block が 20 個あり、block 1 から 8 個ずつの group に分かれる。末尾の group は 3 個である。 -/
def disk : Disk where
  sizeBytes := 20480
  logicalSector := 512
  isBlockDevice := false
  writable := true
  data := Image.applyAll (fun _ => 0) [
    ⟨1024, leBytes 4 24 ++ leBytes 4 20⟩, ⟨1024 + 0x14, leBytes 4 1⟩,
    ⟨1024 + 0x20, leBytes 4 8⟩, ⟨1024 + 0x28, leBytes 4 8⟩,
    ⟨1024 + 0x38, leBytes 2 extMagic ++ leBytes 2 1⟩, ⟨1024 + 0x58, leBytes 2 128⟩]
  events := []
  size_lt := by decide

def sb : Superblock := decodeSuperblock (disk.data.read 1024 1024)

theorem readSuperblock_eq : readSuperblock disk = .ok sb := by decide +kernel

end ThreeGroups

theorem groups_tile_three : ThreeGroups.sb.groupsCount = 3 ∧
    (∀ b, 1 ≤ b → b < 20 → ∀ g, ThreeGroups.sb.InGroup g b ↔ g = (b - 1) / 8) ∧
    ∑ g ∈ range 3, ThreeGroups.sb.groupBlockCount g = 19 := by
  have hgroups : ThreeGroups.sb.groupsCount = 3 := by decide +kernel
  have hfields : ThreeGroups.sb.firstDataBlock = 1 ∧ ThreeGroups.sb.blocksCount = 20 ∧
    ThreeGroups.sb.blocksPerGroup = 8 := by decide +kernel
  obtain ⟨hblocks, -, hsum, -⟩ := groups_tile ThreeGroups.readSuperblock_eq
  rw [hgroups, hfields.1, hfields.2.1] at hsum
  simp only [hfields.1, hfields.2.1, hfields.2.2] at hblocks
  exact ⟨hgroups, fun b hfirst hlt => (hblocks b hfirst hlt).2.1, hsum⟩

end Fsx.Ext4
