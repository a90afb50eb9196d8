import Fsx.Ext4.WritePlaces
import Fsx.Io.Machine

/-!
# 幾何の 64 bit の計算（`include/fsx/ext4.hpp`・`src/ext4/{ext4,internal,metadata}.cpp`）

`Superblock.sizeBytes`・`groupStartBlock`・`readGroupDesc`・`inodeOffset` は、正確な値の計算として
書いてある。ここでは同じ関数を、切り詰める前の値を記録に残す `Machine` で書く。

受け入れられた superblock では、どの計算も 64 bit に収まり、結果は正確な値の計算と一致する。
-/

namespace Fsx.Ext4

/-- 計算の記録を見るだけなので、読み出しを区別しない。 -/
abbrev ArithM := Machine Unit

namespace Arith

open Machine

/-- `block_size()`。 -/
def blockSize (sb : Superblock) : ArithM Nat :=
  if sb.logBlockSize ≤ 6 then mul 64 1024 (2 ^ sb.logBlockSize) else pure 0

/-- `size_bytes()`。 -/
def sizeBytes (sb : Superblock) : ArithM Nat := do
  let bs ← blockSize sb
  if bs = 0 ∨ sb.blocksCount > u64Max / bs then pure u64Max else mul 64 sb.blocksCount bs

/-- `groups_count()`。 -/
def groupsCount (sb : Superblock) : ArithM Nat := do
  let dataBlocks ←
    if sb.blocksCount > sb.firstDataBlock then sub 64 sb.blocksCount sb.firstDataBlock else pure 0
  if sb.blocksPerGroup = 0 then pure 0
  else
    add 64 (dataBlocks / sb.blocksPerGroup) (if dataBlocks % sb.blocksPerGroup ≠ 0 then 1 else 0)

/-- `group_start_block`。 -/
def groupStartBlock (sb : Superblock) (g : Nat) : ArithM Nat :=
  if sb.blocksPerGroup = 0 then pure u64Max
  else do
    let room ← sub 64 u64Max sb.firstDataBlock
    if g > room / sb.blocksPerGroup then pure u64Max
    else do
      let offset ← mul 64 g sb.blocksPerGroup
      add 64 sb.firstDataBlock offset

/-- `group_block_count`。 -/
def groupBlockCount (sb : Superblock) (g : Nat) : ArithM Nat := do
  let start ← groupStartBlock sb g
  if start < sb.blocksCount then do
    let rest ← sub 64 sb.blocksCount start
    pure (min sb.blocksPerGroup rest)
  else pure 0

/-- `read_group_desc`。 -/
def readGroupDesc (d : Disk) (sb : Superblock) (group : Nat) : ArithM GroupDesc := do
  let bs ← blockSize sb
  if bs = 0 then throw { code := .corrupt, message := "invalid ext4 block size" }
  let groups ← groupsCount sb
  if group ≥ groups then
    throw { code := .corrupt, message := "ext4 group descriptor index is outside filesystem" }
  let ds := sb.descBytes
  if ds > bs ∨ ds > 1024 then
    throw { code := .corrupt, message := "invalid ext4 group descriptor size" }
  if group > u64Max / ds then
    throw { code := .corrupt, message := "ext4 group descriptor offset overflows" }
  let descOff ← mul 64 group ds
  let tableBlock := if bs = 1024 then 2 else 1
  if sb.hasIncompat incompatMetaBg ∧ descOff ≥ bs then
    throw { code := .unsupported
            message := "ext4 meta_bg descriptor placement is not implemented yet" }
  if tableBlock > u64Max / bs then
    throw { code := .corrupt, message := "ext4 group descriptor table offset overflows" }
  let tableOff ← mul 64 tableBlock bs
  let room ← sub 64 u64Max tableOff
  if descOff > room then
    throw { code := .corrupt, message := "ext4 group descriptor address overflows" }
  let off ← add 64 tableOff descOff
  let buf ← read d () off ds
  let g := decodeGroupDesc sb buf
  if g.blockBitmap ≥ sb.blocksCount ∨ g.inodeBitmap ≥ sb.blocksCount
      ∨ g.inodeTable ≥ sb.blocksCount then
    throw { code := .corrupt, message := "ext4 group metadata points outside filesystem" }
  let inodeBytes ← mul 64 sb.inodesPerGroup sb.inodeSize
  let tableBlocks ← add 64 (inodeBytes / bs) (if inodeBytes % bs ≠ 0 then 1 else 0)
  let rest ← sub 64 sb.blocksCount g.inodeTable
  if tableBlocks = 0 ∨ tableBlocks > rest then
    throw { code := .corrupt, message := "ext4 inode table extends beyond filesystem" }
  return g

/-- `inode_offset`。 -/
def inodeOffset (d : Disk) (ctx : MetadataContext) (inode : Nat) : ArithM Nat := do
  if inode = 0 ∨ inode > ctx.sb.inodesCount then
    throw { code := .invalidArgument, message := "inode number outside filesystem" }
  let z ← sub 64 inode 1
  let index := z % ctx.sb.inodesPerGroup
  let gd ← readGroupDesc d ctx.sb (z / ctx.sb.inodesPerGroup)
  let bs ← blockSize ctx.sb
  if bs = 0 ∨ gd.inodeTable > u64Max / bs then
    throw { code := .corrupt, message := "inode table byte offset overflows" }
  let tableOff ← mul 64 gd.inodeTable bs
  if index > u64Max / ctx.sb.inodeSize then
    throw { code := .corrupt, message := "inode entry offset overflows" }
  let rel ← mul 64 index ctx.sb.inodeSize
  let room ← sub 64 u64Max tableOff
  if rel > room then
    throw { code := .corrupt, message := "inode absolute offset overflows" }
  let off ← add 64 tableOff rel
  let fsBytes ← sizeBytes ctx.sb
  -- `||` の右の差は、左が偽のときにだけ計算される
  if off > fsBytes then
    throw { code := .corrupt, message := "inode table entry lies beyond filesystem" }
  let rest ← sub 64 fsBytes off
  if ctx.sb.inodeSize > rest then
    throw { code := .corrupt, message := "inode table entry lies beyond filesystem" }
  return off

/-! ## あふれない -/

/-- 計算があふれず、結果が `r` である。 -/
abbrev Exact {α : Type} (p : ArithM α) (r : Result α) : Prop := Machine.Runs (fun _ _ _ => True) p r

theorem blockSize_exact (sb : Superblock) : Exact (blockSize sb) (.ok sb.blockSize) := by
  unfold blockSize Superblock.blockSize
  by_cases hlog : sb.logBlockSize ≤ 6
  · rw [if_pos hlog, if_pos hlog, Nat.shiftLeft_eq]
    have := Nat.pow_le_pow_right (Nat.zero_lt_two) hlog
    exact Machine.Runs.mul (by omega)
  · rw [if_neg hlog, if_neg hlog]
    exact Machine.Runs.pure 0

section Accepted

variable {size : Nat} {sb : Superblock} (h : sb.Accepted size) (hsize : size < 2 ^ 63)
include h hsize

theorem sizeBytes_exact : Exact (sizeBytes sb) (.ok (sb.blocksCount * sb.blockSize)) := by
  have hge := h.blockSize_ge
  have hfits := h.fits
  refine Machine.Runs.bind (blockSize_exact sb) ?_
  rw [if_neg]
  · exact Machine.Runs.mul (by omega)
  · rw [not_or, Nat.not_lt, Nat.le_div_iff_mul_le (by omega)]
    unfold u64Max
    omega

theorem groupsCount_exact : Exact (groupsCount sb) (.ok sb.groupsCount) := by
  have hfirst := h.first_lt
  have hblocks := h.blocks_lt hsize
  have hpos := h.perGroup_pos
  unfold groupsCount Superblock.groupsCount
  rw [if_pos hfirst]
  refine Machine.Runs.bind (Machine.Runs.sub hfirst.le (by omega)) ?_
  rw [if_neg (by omega)]
  dsimp only
  rw [if_neg (by omega)]
  have := Nat.div_le_self (sb.blocksCount - sb.firstDataBlock) sb.blocksPerGroup
  exact Machine.Runs.add (by split <;> omega)

/-- どの 64 bit の番号でも、あふれる前に検査で止まる。 -/
theorem groupStartBlock_exact (g : Nat) :
    Exact (groupStartBlock sb g) (.ok (sb.groupStartBlock g)) := by
  have hfirst := h.first_lt
  have hblocks := h.blocks_lt hsize
  have hpos := h.perGroup_pos
  unfold groupStartBlock Superblock.groupStartBlock
  rw [if_neg (by omega), if_neg (by omega)]
  refine Machine.Runs.bind (Machine.Runs.sub (by unfold u64Max; omega) (by decide)) ?_
  by_cases hg : g > (u64Max - sb.firstDataBlock) / sb.blocksPerGroup
  · rw [if_pos hg, if_pos hg]
    exact Machine.Runs.pure _
  · rw [if_neg hg, if_neg hg]
    rw [Nat.not_lt, Nat.le_div_iff_mul_le hpos] at hg
    unfold u64Max at hg
    exact Machine.Runs.bind (Machine.Runs.mul (by omega)) (Machine.Runs.add (by omega))

theorem groupBlockCount_exact (g : Nat) :
    Exact (groupBlockCount sb g) (.ok (sb.groupBlockCount g)) := by
  have hblocks := h.blocks_lt hsize
  refine Machine.Runs.bind (groupStartBlock_exact h hsize g) ?_
  unfold Superblock.groupBlockCount
  dsimp only
  by_cases hg : sb.groupStartBlock g < sb.blocksCount
  · rw [if_pos hg, if_pos hg]
    exact Machine.Runs.bind (Machine.Runs.sub hg.le (by omega)) (Machine.Runs.pure _)
  · rw [if_neg hg, if_neg hg]
    exact Machine.Runs.pure _

/-- **受け入れられた superblock での descriptor の読み出しは、あふれずに正確な値で進む。** -/
theorem readGroupDesc_exact {d : Disk} (group : Nat) :
    Exact (readGroupDesc d sb group) (Ext4.readGroupDesc d sb group) := by
  have hge := h.blockSize_ge
  have hle := h.blockSize_le
  have hblocks := h.blocks_lt hsize
  have hinodes := Nat.mul_le_mul h.inodesPerGroup_le (h.inodeSize_le.trans hle)
  have htable : (if sb.blockSize = 1024 then 2 else 1) * sb.blockSize ≤ 2 * 65536 :=
    Nat.mul_le_mul (by split <;> omega) hle
  unfold readGroupDesc Ext4.readGroupDesc
  refine Machine.Runs.bind (blockSize_exact sb) (Machine.Runs.guard_both Iff.rfl fun hbs => ?_)
  refine Machine.Runs.bind (groupsCount_exact h hsize) ?_
  refine Machine.Runs.guard_both Iff.rfl fun hgroup => ?_
  refine Machine.Runs.guard_both Iff.rfl fun hds => Machine.Runs.guard_both Iff.rfl fun hfit => ?_
  have hdesc : group * sb.descBytes ≤ u64Max := by
    have hpos : 0 < sb.descBytes := by unfold Superblock.descBytes; split <;> omega
    exact (Nat.le_div_iff_mul_le hpos).mp (Nat.not_lt.mp hfit)
  unfold u64Max at hdesc
  refine Machine.Runs.bind (Machine.Runs.mul (by omega)) ?_
  refine Machine.Runs.guard_both Iff.rfl fun hmeta => ?_
  -- table の先頭は 128 KiB までにあるので、先頭の番地の検査は通る
  refine Machine.Runs.guard ?_ (Machine.Runs.bind (Machine.Runs.mul (by omega)) ?_)
  · rw [Nat.not_lt, Nat.le_div_iff_mul_le (by omega)]
    unfold u64Max
    omega
  refine Machine.Runs.bind (Machine.Runs.sub (by unfold u64Max; omega) (by decide)) ?_
  refine Machine.Runs.guard_both Iff.rfl fun hroom => ?_
  unfold u64Max Superblock.tableOffset at hroom
  refine Machine.Runs.bind (Machine.Runs.add (by omega)) ?_
  refine Machine.Runs.bind_both (Machine.Runs.readExact trivial) fun buf _ => ?_
  refine Machine.Runs.guard_both Iff.rfl fun hin => ?_
  refine Machine.Runs.bind (Machine.Runs.mul (by omega)) ?_
  refine Machine.Runs.bind (Machine.Runs.add ?_) ?_
  · have := Nat.div_le_self (sb.inodesPerGroup * sb.inodeSize) sb.blockSize
    split <;> omega
  refine Machine.Runs.bind (Machine.Runs.sub (by omega) (by omega)) ?_
  exact Machine.Runs.guard_both Iff.rfl fun _ => Machine.Runs.pure _

end Accepted

/-! ## inode の位置 -/

/-- descriptor を読めた group の inode は、filesystem の中にある。 -/
theorem inodeEntry_le {d : Disk} {sb : Superblock} {g index : Nat} {gd : GroupDesc}
    (h : sb.Accepted d.sizeBytes) (hgd : Ext4.readGroupDesc d sb g = .ok gd)
    (hindex : index < sb.inodesPerGroup) :
    gd.inodeTable * sb.blockSize + index * sb.inodeSize + sb.inodeSize
      ≤ sb.blocksCount * sb.blockSize := by
  have hend := inodeTable_end h hgd
  have hmul := Nat.mul_le_mul_right sb.inodeSize (Nat.succ_le_of_lt hindex)
  rw [Nat.succ_mul] at hmul
  omega

section Inode

variable {d : Disk} {ctx : MetadataContext} (h : ctx.sb.Accepted d.sizeBytes)
include h

/-- **`inode_offset` は、どの番号でもあふれない。** -/
theorem inodeOffset_exact {inode : Nat} (hinode : inode < 2 ^ 64) :
    Exact (inodeOffset d ctx inode) (Ext4.inodeOffset d ctx inode) := by
  have hfits := h.fits
  have hsize := d.size_lt
  unfold inodeOffset Ext4.inodeOffset
  refine Machine.Runs.guard_both Iff.rfl fun hin => ?_
  refine Machine.Runs.bind (Machine.Runs.sub (by omega) hinode) ?_
  refine Machine.Runs.bind_both (readGroupDesc_exact h hsize _) fun gd hgd => ?_
  have hentry := inodeEntry_le h hgd (Nat.mod_lt (inode - 1) h.inodesPerGroup_pos)
  refine Machine.Runs.bind (blockSize_exact ctx.sb) (Machine.Runs.guard_both Iff.rfl fun _ => ?_)
  refine Machine.Runs.bind (Machine.Runs.mul (by omega)) ?_
  refine Machine.Runs.guard_both Iff.rfl fun _ => ?_
  refine Machine.Runs.bind (Machine.Runs.mul (by omega)) ?_
  refine Machine.Runs.bind (Machine.Runs.sub ?_ (by decide)) ?_
  · unfold u64Max
    omega
  refine Machine.Runs.guard_both Iff.rfl fun _ => Machine.Runs.bind (Machine.Runs.add (by omega)) ?_
  refine Machine.Runs.bind (sizeBytes_exact h hsize) ?_
  -- 位置は filesystem の中にあるので、最後の検査は両側とも通る
  rw [h.sizeBytes_eq hsize]
  dsimp only
  rw [if_neg (show ¬ (_ ∨ _) by omega)]
  refine Machine.Runs.guard (by omega) ?_
  refine Machine.Runs.bind (Machine.Runs.sub (by omega) (by omega)) ?_
  exact Machine.Runs.guard (by omega) (Machine.Runs.pure _)

/-- 受け入れられた descriptor の inode の位置は、inode table の先頭から数えたところである。 -/
theorem inodeOffset_eq_ok {inode : Nat} {gd : GroupDesc} (hpos : 1 ≤ inode)
    (hle : inode ≤ ctx.sb.inodesCount)
    (hgd : Ext4.readGroupDesc d ctx.sb ((inode - 1) / ctx.sb.inodesPerGroup) = .ok gd) :
    Ext4.inodeOffset d ctx inode = .ok (gd.inodeTable * ctx.sb.blockSize
      + (inode - 1) % ctx.sb.inodesPerGroup * ctx.sb.inodeSize) := by
  have hge := h.blockSize_ge
  have hfits := h.fits
  have hsize := d.size_lt
  have hentry := inodeEntry_le h hgd (Nat.mod_lt (inode - 1) h.inodesPerGroup_pos)
  have htable : gd.inodeTable ≤ u64Max / ctx.sb.blockSize := by
    rw [Nat.le_div_iff_mul_le (by omega)]
    unfold u64Max
    omega
  have hindex : (inode - 1) % ctx.sb.inodesPerGroup ≤ u64Max / ctx.sb.inodeSize := by
    rw [Nat.le_div_iff_mul_le (by have := h.inodeSize_ge; omega)]
    unfold u64Max
    omega
  unfold Ext4.inodeOffset
  simp only [Result.guard_bind_eq_ok_iff]
  refine ⟨by omega, ?_⟩
  rw [hgd, Result.ok_bind]
  simp only [Result.guard_bind_eq_ok_iff, h.sizeBytes_eq hsize]
  refine ⟨by omega, by omega, ?_, by omega, rfl⟩
  unfold u64Max
  omega

end Inode

end Arith

end Fsx.Ext4
