import Fsx.Core.Count
import Fsx.Ext4.Geometry

/-!
# `verify_metadata` の判定

`verify_metadata`（inode は調べない）が clean と答えるのはいつかを、image の内容で言い切る。

group の descriptor と bitmap は、受け入れられた image では失敗なく読める。そこで読み出しの失敗を
除いた見え方（`rawDesc`・`descAt`・`blockBitmapAt`・`inodeBitmapAt`）を先に定め、判定をその上の
等式と和に直す。
-/

namespace Fsx.Ext4

open Finset

/-! ## 失敗のない見え方 -/

/-- 生の superblock。 -/
def rawSuper (d : Disk) : Bytes := d.data.read 1024 1024

/-- superblock から決まる context。checksum の合否によらない。 -/
def contextAt (d : Disk) : MetadataContext where
  sb := decodeSuperblock (rawSuper d)
  uuid := slice (rawSuper d) 0x68 16
  checksumSeed := metadataSeed (rawSuper d)
  metadataCsum := (decodeSuperblock (rawSuper d)).hasRoCompat roCompatMetadataCsum
  gdtCsum := (decodeSuperblock (rawSuper d)).hasRoCompat roCompatGdtCsum
    || (decodeSuperblock (rawSuper d)).hasRoCompat roCompatMetadataCsum

section Views

variable (d : Disk) (sb : Superblock) (g : Nat)

/-- group `g` の生の descriptor。 -/
def rawDesc : Bytes := d.data.read (sb.descOffset g) sb.descBytes

/-- group `g` の descriptor。 -/
def descAt : GroupDesc := decodeGroupDesc sb (rawDesc d sb g)

def blockBitmapAt : Bytes := d.data.read ((descAt d sb g).blockBitmap * sb.blockSize) sb.blockSize

def inodeBitmapAt : Bytes := d.data.read ((descAt d sb g).inodeBitmap * sb.blockSize) sb.blockSize

end Views

/-- 受け入れられた image。どの group の descriptor も `read_group_desc` を通る。 -/
structure Readable (d : Disk) (sb : Superblock) : Prop where
  super : readSuperblock d = .ok sb
  desc : ∀ g < sb.groupsCount, ∃ gd, readGroupDesc d sb g = .ok gd

/-- bitmap のはじめの `n` bit のうち、零の個数。 -/
def zeroBits (b : Bytes) (n : Nat) : Nat := (List.range n).countP fun i => !bitSet b i

theorem popcount_add_zeroBits (b : Bytes) (n : Nat) : popcountBitmap b n + zeroBits b n = n :=
  countP_range_add_not (bitSet b) n

/-- group `g` の block の数。 -/
def Superblock.blocksIn (sb : Superblock) (g : Nat) : Nat :=
  min sb.blocksPerGroup (sb.blocksCount - sb.firstDataBlock - g * sb.blocksPerGroup)

/-- group `g` の inode の数。 -/
def Superblock.inodesIn (sb : Superblock) (g : Nat) : Nat :=
  min sb.inodesPerGroup (sb.inodesCount - g * sb.inodesPerGroup)

theorem readSuperblock_eq {d : Disk} {sb : Superblock} (h : readSuperblock d = .ok sb) :
    sb = (contextAt d).sb ∧ readRawSuperblock d = .ok (rawSuper d) ∧
      sb.freeInodes ≤ sb.inodesCount ∧ sb.inodesCount < 2 ^ 32 := by
  obtain ⟨hsize, rfl, hc⟩ := readSuperblock_eq_ok_iff.mp h
  exact ⟨rfl, Disk.readExact_ok hsize, hc.free_le.2.1, inodesCount_decodeSuperblock_lt _⟩

/-- context を作れないのは、checksum の合わない superblock だけである。 -/
theorem loadMetadataContext_eq {d : Disk} {sb : Superblock} (h : readSuperblock d = .ok sb) :
    loadMetadataContext d =
      if sb.hasRoCompat roCompatMetadataCsum = true ∧ verifySuperblockChecksum (rawSuper d) = false
        then .error { code := .corrupt, message := "ext4 superblock checksum mismatch" }
      else .ok (contextAt d) := by
  obtain ⟨rfl, hraw, -, -⟩ := readSuperblock_eq h
  unfold loadMetadataContext
  rw [h, Result.ok_bind, hraw, Result.ok_bind]
  by_cases hc : ((contextAt d).sb.hasRoCompat roCompatMetadataCsum = true ∧
      verifySuperblockChecksum (rawSuper d) = false)
  · rw [if_pos hc, if_pos (by simpa using hc)]
    rfl
  · rw [if_neg hc, if_neg (by simpa using hc)]
    rfl

/-- `read_group_desc` を通る group の descriptor と bitmap は、見え方のとおりに読める。 -/
theorem reads_of_readGroupDesc {d : Disk} {ctx : MetadataContext} {g : Nat} {gd : GroupDesc}
    (ha : ctx.sb.Accepted d.sizeBytes) (hgd : readGroupDesc d ctx.sb g = .ok gd) :
    readGroupDesc d ctx.sb g = .ok (descAt d ctx.sb g) ∧
      readGroupDescriptorRaw d ctx g = .ok (rawDesc d ctx.sb g) ∧
      readBlockBitmap d ctx.sb (descAt d ctx.sb g) = .ok (blockBitmapAt d ctx.sb g) ∧
      readInodeBitmap d ctx.sb (descAt d ctx.sb g) = .ok (inodeBitmapAt d ctx.sb g) := by
  obtain ⟨hchecks, hroom, rfl, hin⟩ := readGroupDesc_eq_ok_iff.mp hgd
  exact ⟨hgd, hchecks.readGroupDescriptorRaw hroom,
    ha.readBlockBitmap_ok hin.blockBitmap_lt, ha.readInodeBitmap_ok hin.inodeBitmap_lt⟩

section Readable

variable {d : Disk} {sb : Superblock} (h : Readable d sb)
include h

theorem Readable.accepted : sb.Accepted d.sizeBytes := accepted_of_readSuperblock h.super

theorem Readable.sb_eq : sb = (contextAt d).sb := (readSuperblock_eq h.super).1

/-- descriptor と bitmap は、見え方のとおりに読める。 -/
theorem Readable.reads {g : Nat} (hg : g < sb.groupsCount) :
    readGroupDesc d sb g = .ok (descAt d sb g) ∧
      readGroupDescriptorRaw d (contextAt d) g = .ok (rawDesc d sb g) ∧
      readBlockBitmap d sb (descAt d sb g) = .ok (blockBitmapAt d sb g) ∧
      readInodeBitmap d sb (descAt d sb g) = .ok (inodeBitmapAt d sb g) := by
  obtain ⟨gd, hgd⟩ := h.desc g hg
  have ha := h.accepted
  rw [h.sb_eq] at hgd ha ⊢
  exact reads_of_readGroupDesc ha hgd

theorem Readable.groupBlockCount_eq {g : Nat} (hg : g < sb.groupsCount) :
    sb.groupBlockCount g = sb.blocksIn g := by
  rw [h.accepted.groupBlockCount_eq d.size_lt hg, Superblock.blocksIn, Nat.sub_sub]

/-- group の block の数の和。 -/
theorem Readable.sum_blocksIn :
    ∑ g ∈ range sb.groupsCount, sb.blocksIn g = sb.blocksCount - sb.firstDataBlock := by
  refine sum_min_tile_of_le (Nat.not_lt.mp fun hlt => ?_)
  exact Nat.lt_irrefl _ (h.accepted.lt_groupsCount_iff.mpr hlt)

/-- group の inode の数の和。 -/
theorem Readable.sum_inodesIn : ∑ g ∈ range sb.groupsCount, sb.inodesIn g = sb.inodesCount := by
  have ha := h.accepted
  have hpos := ha.inodesPerGroup_pos
  have hgroups := ha.inodeGroups
  refine sum_min_tile_of_le ?_
  have hdm := Nat.div_add_mod sb.inodesCount sb.inodesPerGroup
  have hmod := Nat.mod_lt sb.inodesCount hpos
  rw [Nat.mul_comm] at hdm
  by_cases hz : sb.inodesCount % sb.inodesPerGroup = 0
  · rw [if_neg (not_not.mpr hz), Nat.add_zero] at hgroups
    have := Nat.mul_le_mul_right sb.inodesPerGroup hgroups
    omega
  · rw [if_pos hz] at hgroups
    have := Nat.mul_le_mul_right sb.inodesPerGroup hgroups
    rw [Nat.succ_mul] at this
    omega

/-- 64 bit で数えた inode の数は、足りなくなることはない。 -/
theorem Readable.inodesIn_le (g : Nat) : sb.inodesIn g ≤ sb.groupInodeCount g := by
  obtain ⟨-, -, -, hcount⟩ := readSuperblock_eq h.super
  unfold Superblock.inodesIn Superblock.groupInodeCount
  dsimp only
  generalize g * sb.inodesPerGroup = k
  rcases Nat.lt_or_ge (k + 1) (2 ^ 64) with hk | hk
  · rw [u64_of_lt hk]
    split <;> omega
  · rw [Nat.sub_eq_zero_of_le (by omega), Nat.min_zero]
    exact Nat.zero_le _

end Readable

/-! ## group のループ -/

/-- group 一つ分の検査が言う異常。 -/
def groupErrors (d : Disk) (ctx : MetadataContext) (g : Nat) : List String :=
  (if verifyGroupDescriptorChecksum ctx g (rawDesc d ctx.sb g) = .ok true then []
    else ["group " ++ toString g ++ " descriptor checksum mismatch"])
  ++ (if verifyBlockBitmapChecksum ctx (rawDesc d ctx.sb g) (blockBitmapAt d ctx.sb g) then []
    else ["group " ++ toString g ++ " block bitmap checksum mismatch"])
  ++ (if verifyInodeBitmapChecksum ctx (rawDesc d ctx.sb g) (inodeBitmapAt d ctx.sb g) then []
    else ["group " ++ toString g ++ " inode bitmap checksum mismatch"])
  ++ (if (descAt d ctx.sb g).freeBlocks =
      zeroBits (blockBitmapAt d ctx.sb g) (ctx.sb.groupBlockCount g) then []
    else ["group " ++ toString g ++ " free-block count mismatch"])
  ++ (if (descAt d ctx.sb g).freeInodes =
      zeroBits (inodeBitmapAt d ctx.sb g) (ctx.sb.groupInodeCount g) then []
    else ["group " ++ toString g ++ " free-inode count mismatch"])

/-- 一つの group を調べた後の報告。 -/
def addGroup (d : Disk) (ctx : MetadataContext) (g : Nat) (out : MetadataIntegrityReport) :
    MetadataIntegrityReport where
  allocatedBlocks := out.allocatedBlocks
    + popcountBitmap (blockBitmapAt d ctx.sb g) (ctx.sb.groupBlockCount g)
  allocatedInodes := out.allocatedInodes
    + popcountBitmap (inodeBitmapAt d ctx.sb g) (ctx.sb.groupInodeCount g)
  errors := out.errors ++ groupErrors d ctx g

theorem verifyGroupDescriptorChecksum_total {ctx : MetadataContext} {g : Nat} {raw : Bytes}
    (h : 32 ≤ raw.length) : ∃ ok, verifyGroupDescriptorChecksum ctx g raw = .ok ok := by
  unfold verifyGroupDescriptorChecksum
  split
  · exact ⟨true, rfl⟩
  · rw [if_neg (by omega)]
    exact ⟨_, rfl⟩

theorem length_rawDesc (d : Disk) (sb : Superblock) (g : Nat) :
    (rawDesc d sb g).length = sb.descBytes := Image.length_read _ _ _

theorem Readable.verifyGroup_eq {d : Disk} {sb : Superblock} (h : Readable d sb) {g : Nat}
    (hg : g < sb.groupsCount) (out : MetadataIntegrityReport) :
    verifyGroup d (contextAt d) g out = .ok (addGroup d (contextAt d) g out) := by
  obtain ⟨h1, h2, h3, h4⟩ := h.reads hg
  obtain ⟨ok, hok⟩ := @verifyGroupDescriptorChecksum_total (contextAt d) g (rawDesc d sb g)
    (by rw [length_rawDesc]; exact sb.descBytes_ge)
  have hfree : ∀ b n m, n - popcountBitmap b n = m ↔ m = zeroBits b n := by
    intro b n m
    have := popcount_add_zeroBits b n
    omega
  unfold verifyGroup
  rw [h2, Result.ok_bind, hok, Result.ok_bind, ← h.sb_eq, h1, Result.ok_bind, h3, Result.ok_bind, h4,
    Result.ok_bind]
  unfold addGroup groupErrors
  rw [← h.sb_eq, hok]
  simp only [hfree, Except.ok.injEq]
  rw [← List.append_assoc, ← List.append_assoc, ← List.append_assoc, ← List.append_assoc]
  rfl

/-- ループを終えたときの報告は、group ごとの和である。 -/
theorem Readable.verifyGroups_eq {d : Disk} {sb : Superblock} (h : Readable d sb) :
    ∀ (n g : Nat) (out : MetadataIntegrityReport), g + n ≤ sb.groupsCount →
    ∃ r, verifyGroups (fun _ => false) d (contextAt d) n g out = .ok r ∧
      r.allocatedBlocks = out.allocatedBlocks + ∑ i ∈ range n,
        popcountBitmap (blockBitmapAt d sb (g + i)) (sb.groupBlockCount (g + i)) ∧
      r.allocatedInodes = out.allocatedInodes + ∑ i ∈ range n,
        popcountBitmap (inodeBitmapAt d sb (g + i)) (sb.groupInodeCount (g + i)) ∧
      (r.errors = [] ↔ out.errors = [] ∧ ∀ i < n, groupErrors d (contextAt d) (g + i) = [])
  | 0, g, out, _ => ⟨out, rfl, by simp, by simp, by simp⟩
  | n + 1, g, out, hg => by
    obtain ⟨r, hr, hb, hi, he⟩ := h.verifyGroups_eq n (g + 1) (addGroup d (contextAt d) g out) (by omega)
    refine ⟨r, ?_, ?_, ?_, ?_⟩
    · unfold verifyGroups
      rw [if_neg (by decide), h.verifyGroup_eq (by omega)]
      exact hr
    · rw [hb, sum_range_succ']
      simp only [addGroup, ← h.sb_eq, Nat.add_zero, Nat.add_right_comm, ← Nat.add_assoc]
    · rw [hi, sum_range_succ']
      simp only [addGroup, ← h.sb_eq, Nat.add_zero, Nat.add_right_comm, ← Nat.add_assoc]
    · rw [he]
      simp only [addGroup, List.append_eq_nil_iff]
      constructor
      · rintro ⟨⟨h1, h2⟩, h3⟩
        refine ⟨h1, fun i hi => ?_⟩
        cases i with
        | zero => exact h2
        | succ i =>
          have := h3 i (by omega)
          rwa [show g + 1 + i = g + (i + 1) by omega] at this
      · rintro ⟨h1, h2⟩
        refine ⟨⟨h1, h2 0 (by omega)⟩, fun i hi => ?_⟩
        rw [show g + 1 + i = g + (i + 1) by omega]
        exact h2 (i + 1) (by omega)

/-! ## 判定の言い換え -/

/-- 中断なしの `verify_metadata` が clean と答える。 -/
def VerifiesClean (d : Disk) : Prop :=
  ∃ r, verifyMetadata (fun _ => false) d = .ok r ∧ r.clean = true

/-- checksum と、group ごとの空き block 数。数え方が一通りに決まるものである。 -/
structure SumsOk (d : Disk) (sb : Superblock) : Prop where
  super : verifySuperblockChecksum (rawSuper d) = true
  desc : ∀ g < sb.groupsCount,
    verifyGroupDescriptorChecksum (contextAt d) g (rawDesc d sb g) = .ok true
  blockBitmap : ∀ g < sb.groupsCount,
    verifyBlockBitmapChecksum (contextAt d) (rawDesc d sb g) (blockBitmapAt d sb g) = true
  inodeBitmap : ∀ g < sb.groupsCount,
    verifyInodeBitmapChecksum (contextAt d) (rawDesc d sb g) (inodeBitmapAt d sb g) = true
  freeBlocks : ∀ g < sb.groupsCount,
    (descAt d sb g).freeBlocks = zeroBits (blockBitmapAt d sb g) (sb.blocksIn g)

/-- 全 group の block bitmap の、零の bit の数。 -/
def freeBlockBits (d : Disk) (sb : Superblock) : Nat :=
  ∑ g ∈ range sb.groupsCount, zeroBits (blockBitmapAt d sb g) (sb.blocksIn g)

/-- group の inode の数を `count` としたときの、空き inode 数の一致。 -/
structure InodesOk (d : Disk) (sb : Superblock) (count : Nat → Nat) : Prop where
  groups : ∀ g < sb.groupsCount,
    (descAt d sb g).freeInodes = zeroBits (inodeBitmapAt d sb g) (count g)
  total : sb.inodesCount = sb.freeInodes +
    ∑ g ∈ range sb.groupsCount, popcountBitmap (inodeBitmapAt d sb g) (count g)

/-- image の checksum と数がすべて合っている。 -/
structure MetadataExact (d : Disk) (sb : Superblock) : Prop where
  sums : SumsOk d sb
  freeInodes : ∀ g < sb.groupsCount,
    (descAt d sb g).freeInodes = zeroBits (inodeBitmapAt d sb g) (sb.inodesIn g)
  totalBlocks : sb.freeBlocks = freeBlockBits d sb
  totalInodes : sb.freeInodes =
    ∑ g ∈ range sb.groupsCount, zeroBits (inodeBitmapAt d sb g) (sb.inodesIn g)

section Verdict

variable {d : Disk} {sb : Superblock} (h : Readable d sb)
include h

theorem Readable.sum_popcount_blocks :
    (∑ g ∈ range sb.groupsCount, popcountBitmap (blockBitmapAt d sb g) (sb.groupBlockCount g))
      + freeBlockBits d sb = sb.blocksCount - sb.firstDataBlock := by
  rw [← h.sum_blocksIn, freeBlockBits, ← sum_add_distrib]
  refine sum_congr rfl fun g hg => ?_
  rw [h.groupBlockCount_eq (mem_range.mp hg)]
  exact popcount_add_zeroBits _ _

/-- 空き inode 数の総和は、使用中の数の総和で言い換えられる。 -/
theorem Readable.inodesOk_iff : InodesOk d sb sb.inodesIn ↔
    (∀ g < sb.groupsCount,
      (descAt d sb g).freeInodes = zeroBits (inodeBitmapAt d sb g) (sb.inodesIn g)) ∧
    sb.freeInodes = ∑ g ∈ range sb.groupsCount, zeroBits (inodeBitmapAt d sb g) (sb.inodesIn g) := by
  have hsum : (∑ g ∈ range sb.groupsCount, popcountBitmap (inodeBitmapAt d sb g) (sb.inodesIn g))
      + ∑ g ∈ range sb.groupsCount, zeroBits (inodeBitmapAt d sb g) (sb.inodesIn g)
        = sb.inodesCount := by
    rw [← h.sum_inodesIn, ← sum_add_distrib]
    exact sum_congr rfl fun g _ => popcount_add_zeroBits _ _
  constructor
  · rintro ⟨h1, h2⟩
    exact ⟨h1, by omega⟩
  · rintro ⟨h1, h2⟩
    exact ⟨h1, by omega⟩

theorem Readable.metadataExact_iff : MetadataExact d sb ↔
    SumsOk d sb ∧ InodesOk d sb sb.inodesIn ∧ sb.freeBlocks = freeBlockBits d sb := by
  rw [h.inodesOk_iff]
  constructor
  · rintro ⟨h1, h2, h3, h4⟩
    exact ⟨h1, ⟨h2, h4⟩, h3⟩
  · rintro ⟨h1, ⟨h2, h4⟩, h3⟩
    exact ⟨h1, h2, h3, h4⟩

theorem Readable.groupErrors_eq_nil {g : Nat} (hg : g < sb.groupsCount) :
    groupErrors d (contextAt d) g = [] ↔
      verifyGroupDescriptorChecksum (contextAt d) g (rawDesc d sb g) = .ok true ∧
      verifyBlockBitmapChecksum (contextAt d) (rawDesc d sb g) (blockBitmapAt d sb g) = true ∧
      verifyInodeBitmapChecksum (contextAt d) (rawDesc d sb g) (inodeBitmapAt d sb g) = true ∧
      (descAt d sb g).freeBlocks = zeroBits (blockBitmapAt d sb g) (sb.blocksIn g) ∧
      (descAt d sb g).freeInodes = zeroBits (inodeBitmapAt d sb g) (sb.groupInodeCount g) := by
  unfold groupErrors
  rw [← h.sb_eq, h.groupBlockCount_eq hg]
  simp only [List.append_eq_nil_iff, ite_eq_left_iff, imp_false, not_not, and_assoc,
    List.cons_ne_nil]

/--
**`verify_metadata` の判定。** superblock の空き block 数は、`first_data_block` の手前の block も
空きに数えた値と比べられる。
-/
theorem Readable.verifiesClean_iff : VerifiesClean d ↔
    SumsOk d sb ∧ InodesOk d sb sb.groupInodeCount ∧
      sb.freeBlocks = sb.firstDataBlock + freeBlockBits d sb := by
  obtain ⟨-, hraw, hfree, -⟩ := readSuperblock_eq h.super
  have ha := h.accepted
  have hfirst := ha.first_lt
  have hle := ha.free_le
  have hblocks := h.sum_popcount_blocks
  have hload := loadMetadataContext_eq h.super
  unfold VerifiesClean verifyMetadata
  rw [hraw, Result.ok_bind, h.super, Result.ok_bind, hload]
  by_cases hbad : sb.hasRoCompat roCompatMetadataCsum = true ∧
      verifySuperblockChecksum (rawSuper d) = false
  · -- checksum の合わない superblock では、報告でなく失敗が返る
    rw [if_pos hbad]
    constructor
    · rintro ⟨r, hr, -⟩
      cases hr
    · rintro ⟨hs, -, -⟩
      rw [hs.super] at hbad
      cases hbad.2
  rw [if_neg hbad, Result.ok_bind, ← h.sb_eq]
  obtain ⟨r, hr, hb, hi, he⟩ := h.verifyGroups_eq sb.groupsCount 0 {
    allocatedBlocks := 0
    allocatedInodes := 0
    errors := if verifySuperblockChecksum (rawSuper d) then [] else ["superblock checksum mismatch"] }
    (by omega)
  rw [hr]
  simp only [Nat.zero_add] at hb hi he
  rw [← hb] at hblocks
  constructor
  · rintro ⟨out, hout, hclean⟩
    cases hout
    simp only [MetadataIntegrityReport.clean, List.isEmpty_iff, List.append_eq_nil_iff,
      ite_eq_left_iff, imp_false, not_not, List.cons_ne_nil, he] at hclean
    obtain ⟨⟨⟨hsuper, hgroups⟩, htb⟩, hti⟩ := hclean
    have hg := fun g hg => (h.groupErrors_eq_nil hg).mp (hgroups g hg)
    refine ⟨⟨hsuper, fun g k => (hg g k).1, fun g k => (hg g k).2.1, fun g k => (hg g k).2.2.1,
      fun g k => (hg g k).2.2.2.1⟩, ⟨fun g k => (hg g k).2.2.2.2, ?_⟩, by omega⟩
    rw [← hi]
    omega
  · rintro ⟨hs, hin, htb⟩
    refine ⟨_, rfl, ?_⟩
    simp only [MetadataIntegrityReport.clean, List.isEmpty_iff, List.append_eq_nil_iff,
      ite_eq_left_iff, imp_false, not_not, List.cons_ne_nil, he]
    have hti := hin.total
    rw [← hi] at hti
    refine ⟨⟨⟨hs.super, fun g hg => (h.groupErrors_eq_nil hg).mpr ⟨hs.desc g hg, hs.blockBitmap g hg,
      hs.inodeBitmap g hg, hs.freeBlocks g hg, hin.groups g hg⟩⟩, by omega⟩, by omega⟩

end Verdict

/-! ## 判定が正確なとき -/

/-- 64 bit で数えた inode の数が、どこかの group で本当の数と違う。 -/
def CountWraps (sb : Superblock) : Prop := ∃ g < sb.groupsCount, sb.groupInodeCount g ≠ sb.inodesIn g

/--
判定が正確になる条件。

`first_data_block` が 0 なら判定は正確である。0 でなければ、空き block 数がどちらの数え方とも違うか、
ほかの検査で落ちる image に限られる。inode の数があふれる image では、どちらの数え方でも落ちるときに限る。
-/
def VerifyExactWhen (d : Disk) (sb : Superblock) : Prop :=
  ¬ SumsOk d sb ∨
  (¬ CountWraps sb ∧ (sb.firstDataBlock = 0 ∨ ¬ InodesOk d sb sb.inodesIn ∨
    (sb.freeBlocks ≠ freeBlockBits d sb ∧
      sb.freeBlocks ≠ sb.firstDataBlock + freeBlockBits d sb))) ∨
  (CountWraps sb ∧ ¬ (InodesOk d sb sb.inodesIn ∧ sb.freeBlocks = freeBlockBits d sb) ∧
    ¬ (InodesOk d sb sb.groupInodeCount ∧
      sb.freeBlocks = sb.firstDataBlock + freeBlockBits d sb))

theorem inodesOk_congr {d : Disk} {sb : Superblock} {f k : Nat → Nat}
    (h : ∀ g < sb.groupsCount, f g = k g) : InodesOk d sb f ↔ InodesOk d sb k := by
  have hone : ∀ {f k : Nat → Nat}, (∀ g < sb.groupsCount, f g = k g) →
      InodesOk d sb f → InodesOk d sb k := by
    intro f k hfk hf
    refine ⟨fun g hg => ?_, ?_⟩
    · rw [hf.groups g hg, hfk g hg]
    · rw [hf.total]
      congr 1
      exact sum_congr rfl fun g hg => by rw [hfk g (mem_range.mp hg)]
  exact ⟨hone h, hone fun g hg => (h g hg).symm⟩

/-- 二つの数え方がともに合うなら、あふれていない。 -/
theorem Readable.not_wraps_of_both {d : Disk} {sb : Superblock} (h : Readable d sb)
    (ht : InodesOk d sb sb.inodesIn) (hc : InodesOk d sb sb.groupInodeCount) : ¬ CountWraps sb := by
  rintro ⟨g, hg, hne⟩
  have hle : ∀ g ∈ range sb.groupsCount, popcountBitmap (inodeBitmapAt d sb g) (sb.inodesIn g) ≤
      popcountBitmap (inodeBitmapAt d sb g) (sb.groupInodeCount g) := fun g _ =>
    countP_range_mono _ (h.inodesIn_le g)
  have hsum := ht.total.symm.trans hc.total
  have heq := (sum_eq_sum_iff_of_le hle).mp (Nat.add_left_cancel hsum) g (mem_range.mpr hg)
  have hzero := (ht.groups g hg).symm.trans (hc.groups g hg)
  have h1 := popcount_add_zeroBits (inodeBitmapAt d sb g) (sb.inodesIn g)
  have h2 := popcount_add_zeroBits (inodeBitmapAt d sb g) (sb.groupInodeCount g)
  omega

/-- **`verify_metadata` の判定が正確なのは、`VerifyExactWhen` のときであり、そのときに限る。** -/
theorem verify_exact_iff {d : Disk} {sb : Superblock} (h : Readable d sb) :
    (VerifiesClean d ↔ MetadataExact d sb) ↔ VerifyExactWhen d sb := by
  rw [h.verifiesClean_iff, h.metadataExact_iff]
  unfold VerifyExactWhen
  by_cases hs : SumsOk d sb
  · by_cases hw : CountWraps sb
    · have hboth : ¬ (InodesOk d sb sb.inodesIn ∧ InodesOk d sb sb.groupInodeCount) :=
        fun hb => h.not_wraps_of_both hb.1 hb.2 hw
      tauto
    · have hcount : InodesOk d sb sb.groupInodeCount ↔ InodesOk d sb sb.inodesIn := by
        refine inodesOk_congr fun g hg => ?_
        by_contra hne
        exact hw ⟨g, hg, hne⟩
      rw [hcount]
      -- 空き block 数の二つの等式は、`first_data_block` が 0 のときだけ両立する
      by_cases hin : InodesOk d sb sb.inodesIn
      · simp only [hs, hin, hw, true_and, not_true_eq_false, false_or, not_false_eq_true, false_and,
          or_false]
        omega
      · tauto
  · tauto

/-! ## block が 1024 byte の image -/

namespace OneKib

/-- 16 block の健全な filesystem。block 1 から 5 が metadata で、`first_data_block` は 1 である。 -/
def disk : Disk where
  sizeBytes := 16384
  logicalSector := 512
  isBlockDevice := false
  writable := true
  data := Image.applyAll (fun _ => 0) [
    ⟨1024, leBytes 4 8 ++ leBytes 4 16⟩, ⟨1024 + 0x0c, leBytes 4 10⟩, ⟨1024 + 0x14, leBytes 4 1⟩,
    ⟨1024 + 0x20, leBytes 4 8192⟩, ⟨1024 + 0x28, leBytes 4 8⟩, ⟨1024 + 0x38, leBytes 2 extMagic⟩,
    ⟨1024 + 0x3a, leBytes 2 1⟩, ⟨1024 + 0x58, leBytes 2 128⟩,
    ⟨2048, leBytes 4 3 ++ leBytes 4 4 ++ leBytes 4 5 ++ leBytes 2 10⟩,
    ⟨3072, [0x1f]⟩, ⟨4096, [0xff]⟩]
  events := []
  size_lt := by decide

def sb : Superblock := decodeSuperblock (rawSuper disk)

/-- 計算で確かめること。 -/
theorem facts : readSuperblock disk = .ok sb ∧ sb.groupsCount = 1 ∧ sb.firstDataBlock = 1 ∧
    readGroupDesc disk sb 0 = .ok (descAt disk sb 0) := by decide +kernel

theorem groupsCount : sb.groupsCount = 1 := facts.2.1

theorem firstDataBlock : sb.firstDataBlock = 1 := facts.2.2.1

theorem readable : Readable disk sb := by
  refine ⟨facts.1, fun g hg => ?_⟩
  rw [groupsCount, Nat.lt_one_iff] at hg
  subst hg
  exact ⟨descAt disk sb 0, facts.2.2.2⟩

theorem metadataExact : MetadataExact disk sb := by
  rw [readable.metadataExact_iff]
  refine ⟨⟨by decide +kernel, ?_, ?_, ?_, ?_⟩, ⟨?_, by decide +kernel⟩, by decide +kernel⟩
  all_goals
    rw [groupsCount]
    decide +kernel

end OneKib

theorem verify_exact_oneKib : ∃ d sb, Readable d sb ∧
    ((VerifiesClean d ↔ MetadataExact d sb) ↔ VerifyExactWhen d sb) :=
  ⟨OneKib.disk, OneKib.sb, OneKib.readable, verify_exact_iff OneKib.readable⟩

/-- block 0 が空きに数えられ、健全な filesystem が clean でないと判定される。 -/
theorem healthy_not_clean : ∃ d sb, Readable d sb ∧ sb.firstDataBlock = 1 ∧ MetadataExact d sb ∧
    ¬ VerifiesClean d := by
  have hfirst := OneKib.firstDataBlock
  have hfree := OneKib.metadataExact.totalBlocks
  refine ⟨OneKib.disk, OneKib.sb, OneKib.readable, hfirst, OneKib.metadataExact, ?_⟩
  rw [OneKib.readable.verifiesClean_iff]
  rintro ⟨-, -, h⟩
  omega

end Fsx.Ext4
