import Fsx.Ext4.RepairRun
import Mathlib.Tactic.MkIffOfInductiveProp

/-!
# 修復の後の image

修復を終えた image を、はじめの image の言葉で言い切る。descriptor は数え直した値で落ち着き、
bitmap は変わらず、superblock は空きの数だけが変わる。もう一度直しても同じものを書くだけである。
-/

namespace Fsx.Ext4

open Finset

/-! ## 空きの数だけを変えた superblock -/

/-- 空きの数を入れ替えた superblock。 -/
def Superblock.withCounts (sb : Superblock) (fb fi : Nat) : Superblock :=
  { sb with freeBlocks := fb, freeInodes := fi }

/-- 修復の後の superblock。 -/
def countedSuper (d : Disk) (sb : Superblock) : Superblock :=
  sb.withCounts (countedBlocks d sb) (countedInodes d sb)

section WithCounts

variable {sb : Superblock} {fb fi : Nat}

@[simp] theorem withCounts_blockSize : (sb.withCounts fb fi).blockSize = sb.blockSize := rfl
@[simp] theorem withCounts_descBytes : (sb.withCounts fb fi).descBytes = sb.descBytes := rfl
@[simp] theorem withCounts_groupsCount : (sb.withCounts fb fi).groupsCount = sb.groupsCount := rfl
@[simp] theorem withCounts_descOffset (g : Nat) :
    (sb.withCounts fb fi).descOffset g = sb.descOffset g := rfl

/-- 数が収まるかぎり、空きの数を書き換えても検査に通る。 -/
theorem Superblock.Checks.withCounts {size : Nat} (h : sb.Checks size)
    (hb : fb ≤ sb.blocksCount) (hi : fi ≤ sb.inodesCount) : (sb.withCounts fb fi).Checks size :=
  { h with free_le := ⟨hb, hi, h.free_le.2.2⟩ }

/-- descriptor の書き直しは、superblock の空きの数によらない。 -/
theorem fixedDesc_withCounts (ctx : MetadataContext) {g : Nat} {raw bb ib : Bytes} :
    fixedDesc { ctx with sb := ctx.sb.withCounts fb fi } g raw bb ib = fixedDesc ctx g raw bb ib := rfl

end WithCounts

/-! ## 書き込みは互いに重ならない -/

section After

variable {d : Disk} {sb : Superblock}

theorem superWrite_length {raw : Bytes} (hlen : raw.length = 1024) (k : Nat) :
    (superWrite sb raw k).bytes.length = 1024 := by
  unfold superWrite
  dsimp only
  split
  · exact hlen
  · rw [length_sealedSuper, length_writeLe, hlen]

variable (h : Readable d sb) (hl : Layout d sb)
include h hl

theorem Layout.pairwise_repairWrites : (repairWrites d sb).Pairwise Write.Apart := by
  have hnodup := nodup_copyGroups sb (rawSuper d)
  have hlen := length_newSuper d sb
  unfold repairWrites superWrites descWrites groupWrites
  rw [copyGroups_newSuper]
  refine List.pairwise_append.mpr ⟨List.pairwise_flatMap.mpr ⟨?_, ?_⟩, ?_, ?_⟩
  · -- 同じ group の、異なる table の欄
    intro g hg
    rw [List.pairwise_map]
    refine hnodup.imp_of_mem fun {k m} hk hm hne => ?_
    unfold Write.Apart slotWrite
    dsimp only
    rw [length_newDesc]
    exact hl.slot_apart h (List.mem_range.mp hg) (List.mem_range.mp hg) hk hm (Or.inr hne)
  · -- 異なる group の欄
    refine List.nodup_range.imp_of_mem fun {i j} hi hj hne => ?_
    intro x hx y hy
    obtain ⟨k, hk, rfl⟩ := List.mem_map.mp hx
    obtain ⟨m, hm, rfl⟩ := List.mem_map.mp hy
    unfold Write.Apart slotWrite
    dsimp only
    rw [length_newDesc, length_newDesc]
    exact hl.slot_apart h (List.mem_range.mp hi) (List.mem_range.mp hj) hk hm (Or.inl hne)
  · -- 異なる group の superblock
    rw [List.pairwise_map]
    refine hnodup.imp_of_mem fun {k m} hk hm hne => ?_
    unfold Write.Apart
    rw [superWrite_length hlen, superWrite_length hlen]
    exact hl.disjoint (p := .super k) (q := .super m) (mem_copyGroups.mp hk) (mem_copyGroups.mp hm)
      (fun heq => hne (Place.super.inj heq)) (holds_super h.accepted k) (holds_super h.accepted m)
  · -- 欄と superblock
    intro x hx y hy
    obtain ⟨g, hg, hx⟩ := List.mem_flatMap.mp hx
    obtain ⟨k, hk, rfl⟩ := List.mem_map.mp hx
    obtain ⟨m, hm, rfl⟩ := List.mem_map.mp hy
    unfold Write.Apart slotWrite
    dsimp only
    rw [length_newDesc, superWrite_length hlen]
    exact hl.disjoint (p := .table k) (q := .super m) (mem_copyGroups.mp hk) (mem_copyGroups.mp hm)
      (by simp) (holds_slot h.accepted (List.mem_range.mp hg)) (holds_super h.accepted m)

omit h hl in
theorem repaired_data : (repaired d sb).data = d.data.applyAll (repairWrites d sb) := by
  unfold repaired
  rw [Disk.emit_data, replay_append, replay_writes]
  rfl

/-- 書いたものは、そのまま残る。 -/
theorem Layout.read_repaired {w : Write} (hw : w ∈ repairWrites d sb) :
    (repaired d sb).data.read w.off w.bytes.length = w.bytes := by
  rw [repaired_data]
  exact Image.read_applyAll_of_mem (hl.pairwise_repairWrites h) hw _

/-- superblock と table の外は変わらない。 -/
theorem Layout.read_repaired_outside {p : Place} {o len : Nat} (hp : p.Present sb (rawSuper d))
    (ht : ∀ k, p ≠ .table k) (hs : ∀ k, p ≠ .super k) (hh : p.Holds d sb o len) :
    (repaired d sb).data.read o len = d.data.read o len := by
  rw [repaired_data, repairWrites, Image.applyAll_append,
    Image.read_applyAll_of_disjoint, hl.read_descWrites h (Nat.le_refl _) hp ht hh]
  intro w hw
  unfold superWrites at hw
  rw [copyGroups_newSuper] at hw
  obtain ⟨k, hk, rfl⟩ := List.mem_map.mp hw
  rw [superWrite_length (length_newSuper d sb)]
  exact hl.disjoint (q := .super k) hp (mem_copyGroups.mp hk) (hs k) hh (holds_super h.accepted k)

/-! ## 修復の後に見えるもの -/

omit hl in
theorem Readable.zero_mem_copyGroups : 0 ∈ copyGroups sb (rawSuper d) := by
  rw [copyGroups_eq (Nat.pos_of_ne_zero h.accepted.groups_pos)]
  exact List.mem_cons_self

theorem Layout.rawSuper_repaired : rawSuper (repaired d sb) = newSuper d sb := by
  have hmem : superWrite sb (newSuper d sb) 0 ∈ repairWrites d sb := by
    refine List.mem_append_right _ (List.mem_map.mpr ⟨0, ?_, rfl⟩)
    rw [copyGroups_newSuper]
    exact h.zero_mem_copyGroups
  have hread := hl.read_repaired h hmem
  rw [superWrite_length (length_newSuper d sb)] at hread
  exact hread

theorem Layout.rawDesc_repaired {g : Nat} (hg : g < sb.groupsCount) :
    rawDesc (repaired d sb) sb g = newDesc d sb g := by
  have hmem : slotWrite d sb g 0 ∈ repairWrites d sb :=
    List.mem_append_left _ (mem_descWrites.mpr ⟨g, hg, 0, h.zero_mem_copyGroups, rfl⟩)
  have hread := hl.read_repaired h hmem
  unfold slotWrite at hread
  dsimp only at hread
  rw [length_newDesc] at hread
  exact hread

theorem Layout.bitmaps_repaired {g : Nat} (hg : g < sb.groupsCount) :
    blockBitmapAt (repaired d sb) sb g = blockBitmapAt d sb g ∧
      inodeBitmapAt (repaired d sb) sb g = inodeBitmapAt d sb g := by
  obtain ⟨hb, hi, -⟩ := @decodeGroupDesc_fixedDesc (contextAt d) g (rawDesc d sb g)
    (blockBitmapAt d sb g) (inodeBitmapAt d sb g) sb
  have hdesc := hl.rawDesc_repaired h hg
  unfold blockBitmapAt inodeBitmapAt descAt at *
  rw [hdesc]
  unfold newDesc blockBitmapAt inodeBitmapAt descAt
  rw [hb, hi]
  exact ⟨hl.read_repaired_outside h (p := .blockBitmap g) hg (by simp) (by simp) (holds_block rfl),
    hl.read_repaired_outside h (p := .inodeBitmap g) hg (by simp) (by simp) (holds_block rfl)⟩

/-! ## 数え直した数 -/

omit hl in
theorem Readable.countedBlocks_eq : countedBlocks d sb = freeBlockBits d sb :=
  sum_congr rfl fun g hg => by rw [h.groupBlockCount_eq (mem_range.mp hg)]

omit hl in
theorem Readable.countedBlocks_le : countedBlocks d sb ≤ sb.blocksCount - sb.firstDataBlock := by
  have := h.sum_popcount_blocks
  rw [h.countedBlocks_eq]
  omega

/-- inode table が重ならずに収まるので、inode の番号は 64 bit を溢れない。 -/
theorem Layout.groupInodeCount_eq {g : Nat} (hg : g < sb.groupsCount) :
    sb.groupInodeCount g = sb.inodesIn g := by
  have ha := h.accepted
  have hbs := ha.blockSize_ge
  have hsize := ha.inodeSize_ge
  have hfits := ha.fits
  have hlt := d.size_lt
  have htables : sb.groupsCount * sb.inodeTableBlocks ≤ sb.blocksCount := by
    refine @mul_le_of_disjoint_intervals _ _ _ (fun i => (descAt d sb i).inodeTable)
      (fun i hi => hl.inside (.inodeTable i) hi) fun i hi j hj hne => ?_
    exact hl.apart (.inodeTable i) (.inodeTable j) hi hj fun heq => hne (Place.inodeTable.inj heq)
  have htable : sb.inodesPerGroup * sb.inodeSize ≤ sb.inodeTableBlocks * sb.blockSize := by
    unfold Superblock.inodeTableBlocks
    generalize sb.inodesPerGroup * sb.inodeSize = n
    have hdm := Nat.div_add_mod (n + sb.blockSize - 1) sb.blockSize
    have hmod := Nat.mod_lt (n + sb.blockSize - 1) (show 0 < sb.blockSize by omega)
    rw [Nat.mul_comm] at hdm
    omega
  have hnum : g * sb.inodesPerGroup + 1 < 2 ^ 64 := by
    have h1 : sb.inodesPerGroup * 1 ≤ sb.inodesPerGroup * sb.inodeSize :=
      Nat.mul_le_mul_left _ (by omega)
    have h2 : g * sb.inodesPerGroup ≤ sb.groupsCount * (sb.inodeTableBlocks * sb.blockSize) :=
      Nat.mul_le_mul (Nat.le_of_lt hg) (by omega)
    have h3 := Nat.mul_le_mul_right sb.blockSize htables
    rw [Nat.mul_assoc] at h3
    omega
  unfold Superblock.groupInodeCount Superblock.inodesIn
  dsimp only
  rw [u64_of_lt hnum]
  split <;> omega

theorem Layout.countedInodes_eq :
    countedInodes d sb = ∑ g ∈ range sb.groupsCount, zeroBits (inodeBitmapAt d sb g) (sb.inodesIn g) :=
  sum_congr rfl fun g hg => by rw [hl.groupInodeCount_eq h (mem_range.mp hg)]

theorem Layout.countedInodes_le : countedInodes d sb ≤ sb.inodesCount := by
  rw [hl.countedInodes_eq h, ← h.sum_inodesIn]
  exact sum_le_sum fun g _ => zeroBits_le _ _

/-! ## 修復の後の superblock と context -/

/-- superblock は、空きの数だけが変わる。 -/
theorem Layout.decode_newSuper : decodeSuperblock (newSuper d sb) = countedSuper d sb := by
  have ha := h.accepted
  obtain ⟨hsb, -, -, hinodes⟩ := readSuperblock_eq h.super
  have hblocks := ha.blocks_lt d.size_lt
  have hb := h.countedBlocks_le
  have hi := hl.countedInodes_le h
  unfold newSuper
  rw [decodeSuperblock_fixedSuper (length_rawSuper d) (by omega) ?_ (by omega)]
  · unfold countedSuper Superblock.withCounts
    rw [← show sb = decodeSuperblock (rawSuper d) from hsb]
  · -- `64bit` でなければ、block の数が 32 bit に収まっている
    intro hnarrow
    have hcount : sb.blocksCount = readLe 4 (rawSuper d) 0x04 := by
      rw [hsb]
      show readLoHi (rawSuper d) (decide (readLe 4 (rawSuper d) 0x60 &&& incompat64bit ≠ 0)) 0x04 0x150 = _
      unfold readLoHi
      rw [hnarrow]
      exact Nat.or_zero _
    have := readLe_lt 4 (rawSuper d) 0x04
    omega

theorem Layout.contextAt_repaired :
    contextAt (repaired d sb) = { contextAt d with sb := countedSuper d sb } := by
  have hraw := hl.rawSuper_repaired h
  have hdec := hl.decode_newSuper h
  have huuid : slice (newSuper d sb) 0x68 16 = slice (rawSuper d) 0x68 16 :=
    slice_fixedSuper (by omega) (by omega) (by omega)
  have hseed : metadataSeed (newSuper d sb) = metadataSeed (rawSuper d) := by
    unfold metadataSeed
    rw [huuid]
    unfold newSuper
    rw [readLe_fixedSuper (by omega) (by omega) (by omega),
      readLe_fixedSuper (by omega) (by omega) (by omega)]
  have hfeature : ∀ bit, (countedSuper d sb).hasRoCompat bit =
      (decodeSuperblock (rawSuper d)).hasRoCompat bit := by
    intro bit
    rw [← show sb = decodeSuperblock (rawSuper d) from h.sb_eq]
    rfl
  unfold contextAt
  rw [hraw, hdec, huuid, hseed, hfeature, hfeature]

theorem Layout.readSuperblock_repaired :
    readSuperblock (repaired d sb) = .ok (countedSuper d sb) := by
  obtain ⟨hsize, -, hc⟩ := readSuperblock_eq_ok_iff.mp h.super
  refine readSuperblock_eq_ok_iff.mpr ⟨hsize, ?_, ?_⟩
  · rw [show (repaired d sb).data.read 1024 1024 = newSuper d sb from hl.rawSuper_repaired h]
    exact hl.decode_newSuper h
  · exact hc.withCounts (Nat.le_trans h.countedBlocks_le (Nat.sub_le _ _)) (hl.countedInodes_le h)

/-- descriptor の指す先は変わらない。 -/
theorem Layout.descAt_repaired {g : Nat} (hg : g < sb.groupsCount) :
    (descAt (repaired d sb) sb g).blockBitmap = (descAt d sb g).blockBitmap ∧
      (descAt (repaired d sb) sb g).inodeBitmap = (descAt d sb g).inodeBitmap ∧
      (descAt (repaired d sb) sb g).inodeTable = (descAt d sb g).inodeTable := by
  unfold descAt
  rw [hl.rawDesc_repaired h hg]
  exact decodeGroupDesc_fixedDesc

theorem Layout.readable_repaired : Readable (repaired d sb) (countedSuper d sb) := by
  refine ⟨hl.readSuperblock_repaired h, fun g hg => ?_⟩
  have hg' : g < sb.groupsCount := hg
  obtain ⟨gd, hgd⟩ := h.desc g hg'
  obtain ⟨hb, hi, ht⟩ := hl.descAt_repaired h hg'
  obtain ⟨hchecks, hroom, rfl, hin⟩ := readGroupDesc_eq_ok_iff.mp hgd
  have hin' := hin.congr hb hi ht
  exact ⟨descAt (repaired d sb) sb g,
    readGroupDesc_eq_ok_iff.mpr ⟨⟨hchecks.blockSize, hchecks.group, hchecks.size, hchecks.offset,
      hchecks.metaBg, hchecks.address⟩, hroom, rfl, hin'.pointers, hin'.table⟩⟩

/-- 置き場所も変わらない。 -/
theorem Layout.layout_repaired : Layout (repaired d sb) (countedSuper d sb) := by
  have hraw : groupHasSuper (rawSuper (repaired d sb)) = groupHasSuper (rawSuper d) := by
    rw [hl.rawSuper_repaired h]
    exact groupHasSuper_fixedSuper
  have hpres : ∀ p : Place, p.Present (countedSuper d sb) (rawSuper (repaired d sb)) →
      p.Present sb (rawSuper d) := by
    intro p hp
    cases p with
    | super k => exact ⟨hp.1, by rw [← hraw]; exact hp.2⟩
    | table k => exact ⟨hp.1, by rw [← hraw]; exact hp.2⟩
    | blockBitmap g => exact hp
    | inodeBitmap g => exact hp
    | inodeTable g => exact hp
  have hstart : ∀ p : Place, p.Present sb (rawSuper d) →
      p.start (repaired d sb) (countedSuper d sb) = p.start d sb := by
    intro p hp
    cases p with
    | super k => rfl
    | table k => rfl
    | blockBitmap g => exact (hl.descAt_repaired h hp).1
    | inodeBitmap g => exact (hl.descAt_repaired h hp).2.1
    | inodeTable g => exact (hl.descAt_repaired h hp).2.2
  refine ⟨fun p hp => ?_, fun p q hp hq hne => ?_⟩
  · rw [hstart p (hpres p hp)]
    exact hl.inside p (hpres p hp)
  · rw [hstart p (hpres p hp), hstart q (hpres q hq)]
    exact hl.apart p q (hpres p hp) (hpres q hq) hne

/-! ## もう一度の修復 -/

/-- 直した descriptor は、もう一度直しても変わらない。 -/
theorem Layout.newDesc_repaired {g : Nat} (hg : g < sb.groupsCount) :
    newDesc (repaired d sb) (countedSuper d sb) g = newDesc d sb g := by
  have hold : rawDesc (repaired d sb) (countedSuper d sb) g = newDesc d sb g :=
    hl.rawDesc_repaired h hg
  have hb : blockBitmapAt (repaired d sb) (countedSuper d sb) g = blockBitmapAt d sb g :=
    (hl.bitmaps_repaired h hg).1
  have hi : inodeBitmapAt (repaired d sb) (countedSuper d sb) g = inodeBitmapAt d sb g :=
    (hl.bitmaps_repaired h hg).2
  have hlen : 32 ≤ (rawDesc d sb g).length := by
    rw [length_rawDesc]
    exact sb.descBytes_ge
  unfold newDesc at hold ⊢
  rw [hl.contextAt_repaired h, hold, hb, hi, countedSuper]
  nth_rewrite 1 [h.sb_eq]
  rw [fixedDesc_withCounts]
  exact fixedDesc_eq_self (by rw [length_fixedDesc]; exact hlen) (descSettled_fixedDesc hlen)

/-- 直した image をもう一度直しても、同じものを書く。 -/
theorem Layout.repairWrites_repaired :
    repairWrites (repaired d sb) (countedSuper d sb) = repairWrites d sb := by
  have hraw := hl.rawSuper_repaired h
  have hbits : ∀ g < sb.groupsCount,
      blockBitmapAt (repaired d sb) (countedSuper d sb) g = blockBitmapAt d sb g ∧
      inodeBitmapAt (repaired d sb) (countedSuper d sb) g = inodeBitmapAt d sb g :=
    fun g hg => hl.bitmaps_repaired h hg
  have hb : countedBlocks (repaired d sb) (countedSuper d sb) = countedBlocks d sb :=
    sum_congr rfl fun g hg => by
      rw [(hbits g (mem_range.mp hg)).1]
      rfl
  have hi : countedInodes (repaired d sb) (countedSuper d sb) = countedInodes d sb :=
    sum_congr rfl fun g hg => by
      rw [(hbits g (mem_range.mp hg)).2]
      rfl
  have hsuper : newSuper (repaired d sb) (countedSuper d sb) = newSuper d sb := by
    unfold newSuper at hraw ⊢
    rw [hb, hi, hraw]
    exact fixedSuper_fixedSuper (length_rawSuper d)
  have hcopies : copyGroups (countedSuper d sb) (rawSuper (repaired d sb)) =
      copyGroups sb (rawSuper d) := by
    rw [hraw]
    exact copyGroups_newSuper
  have hgroups : descWrites (repaired d sb) (countedSuper d sb) sb.groupsCount =
      descWrites d sb sb.groupsCount := by
    unfold descWrites
    refine List.flatMap_congr fun g hg => ?_
    unfold groupWrites
    rw [hcopies]
    refine List.map_congr_left fun k _ => ?_
    unfold slotWrite
    rw [hl.newDesc_repaired h (List.mem_range.mp hg)]
    rfl
  have hsupers : superWrites (countedSuper d sb) (newSuper d sb) = superWrites sb (newSuper d sb) := rfl
  show descWrites _ _ sb.groupsCount ++ superWrites _ _ = descWrites d sb sb.groupsCount ++ _
  rw [hsuper, hgroups, hsupers]

/-- だから、もう一度直しても byte は変わらない。 -/
theorem Layout.data_repaired_twice :
    (repaired (repaired d sb) (countedSuper d sb)).data = (repaired d sb).data := by
  rw [repaired_data (d := repaired d sb), hl.repairWrites_repaired h]
  exact Image.applyAll_eq_self fun w hw => hl.read_repaired h hw

/-! ## 修復の後の判定 -/

/-- 直した descriptor の欄は、すべて合っている。 -/
theorem Layout.settled_repaired {g : Nat} (hg : g < sb.groupsCount) :
    DescSettled (contextAt (repaired d sb)) g (blockBitmapAt (repaired d sb) (countedSuper d sb) g)
      (inodeBitmapAt (repaired d sb) (countedSuper d sb) g)
      (rawDesc (repaired d sb) (countedSuper d sb) g) := by
  have hlen : 32 ≤ (rawDesc (repaired d sb) (countedSuper d sb) g).length := by
    rw [length_rawDesc]
    exact sb.descBytes_ge
  have hself : fixedDesc (contextAt (repaired d sb)) g (rawDesc (repaired d sb) (countedSuper d sb) g)
      (blockBitmapAt (repaired d sb) (countedSuper d sb) g)
      (inodeBitmapAt (repaired d sb) (countedSuper d sb) g) =
      rawDesc (repaired d sb) (countedSuper d sb) g :=
    (hl.newDesc_repaired h hg).trans (hl.rawDesc_repaired h hg).symm
  have hset := @descSettled_fixedDesc (contextAt (repaired d sb)) g _
    (blockBitmapAt (repaired d sb) (countedSuper d sb) g)
    (inodeBitmapAt (repaired d sb) (countedSuper d sb) g) hlen
  rwa [hself] at hset

/-- `read_group_desc` が読み戻す空きの数。 -/
theorem Layout.decoded_repaired {g : Nat} (hg : g < sb.groupsCount) :
    (descAt (repaired d sb) (countedSuper d sb) g).freeBlocks =
        sb.stored (zeroBits (blockBitmapAt d sb g) (sb.blocksIn g)) ∧
      (descAt (repaired d sb) (countedSuper d sb) g).freeInodes =
        sb.stored (zeroBits (inodeBitmapAt d sb g) (sb.inodesIn g)) := by
  have hr := hl.readable_repaired h
  obtain ⟨hb, hi⟩ := @DescSettled.decoded _ _ _ _ _ (countedSuper d sb) (hl.settled_repaired h hg)
    (length_rawDesc _ _ _) (by rw [← hr.sb_eq]; exact (hr.zeroBits_lt _ g).1)
    (by rw [← hr.sb_eq]; exact (hr.zeroBits_lt _ g).2)
  rw [← hr.sb_eq] at hb hi
  have hbits := hl.bitmaps_repaired h hg
  rw [← h.groupBlockCount_eq hg, ← hl.groupInodeCount_eq h hg, ← hbits.1, ← hbits.2]
  exact ⟨hb, hi⟩

end After

/-- 空きの数がどれも、descriptor に入れて読み戻せる。 -/
def CountsFit (d : Disk) (sb : Superblock) : Prop :=
  sb.wideDesc = false → ∀ g < sb.groupsCount,
    zeroBits (blockBitmapAt d sb g) (sb.blocksIn g) < 2 ^ 16 ∧
      zeroBits (inodeBitmapAt d sb g) (sb.inodesIn g) < 2 ^ 16

theorem Superblock.stored_eq_self_iff {sb : Superblock} {v : Nat} :
    sb.stored v = v ↔ (sb.wideDesc = false → v < 2 ^ 16) := by
  unfold Superblock.stored
  cases sb.wideDesc with
  | true => simp
  | false =>
    simp only [Bool.false_eq_true, if_false, forall_const]
    exact ⟨fun hv => hv ▸ Nat.mod_lt _ (by decide), Nat.mod_eq_of_lt⟩

theorem countsFit_iff {d : Disk} {sb : Superblock} : CountsFit d sb ↔ ∀ g < sb.groupsCount,
    sb.stored (zeroBits (blockBitmapAt d sb g) (sb.blocksIn g)) =
        zeroBits (blockBitmapAt d sb g) (sb.blocksIn g) ∧
      sb.stored (zeroBits (inodeBitmapAt d sb g) (sb.inodesIn g)) =
        zeroBits (inodeBitmapAt d sb g) (sb.inodesIn g) := by
  simp only [Superblock.stored_eq_self_iff]
  constructor
  · intro hfit g hg
    exact ⟨fun hw => (hfit hw g hg).1, fun hw => (hfit hw g hg).2⟩
  · intro hfit hw g hg
    exact ⟨(hfit g hg).1 hw, (hfit g hg).2 hw⟩

/--
修復の後の検証が通るのは、`first_data_block` が 0 で、空きの数がどれも descriptor に収まるときである。
checksum と bitmap の検査は、いつも通る。
-/
theorem Layout.verifiesClean_repaired {d : Disk} {sb : Superblock} (h : Readable d sb)
    (hl : Layout d sb) : VerifiesClean (repaired d sb) ↔ sb.firstDataBlock = 0 ∧ CountsFit d sb := by
  have hr := hl.readable_repaired h
  have hbits : ∀ g < sb.groupsCount,
      blockBitmapAt (repaired d sb) (countedSuper d sb) g = blockBitmapAt d sb g ∧
      inodeBitmapAt (repaired d sb) (countedSuper d sb) g = inodeBitmapAt d sb g :=
    fun g hg => hl.bitmaps_repaired h hg
  have hfree : freeBlockBits (repaired d sb) (countedSuper d sb) = freeBlockBits d sb :=
    sum_congr rfl fun g hg => by
      rw [(hbits g (mem_range.mp hg)).1]
      rfl
  rw [hr.verifiesClean_iff, hfree, countsFit_iff]
  constructor
  · rintro ⟨hs, hin, hb⟩
    have hb : countedBlocks d sb = sb.firstDataBlock + freeBlockBits d sb := hb
    rw [h.countedBlocks_eq] at hb
    refine ⟨by omega, fun g hg => ?_⟩
    have h1 : _ = zeroBits _ (sb.blocksIn g) := hs.freeBlocks g hg
    have h2 : _ = zeroBits _ (sb.groupInodeCount g) := hin.groups g hg
    obtain ⟨e1, e2⟩ := hl.decoded_repaired h hg
    rw [e1, (hbits g hg).1] at h1
    rw [e2, (hbits g hg).2, hl.groupInodeCount_eq h hg] at h2
    exact ⟨h1, h2⟩
  · rintro ⟨hzero, hfit⟩
    have hverifies := fun g (hg : g < sb.groupsCount) => (hl.settled_repaired h hg).verifies
      (by rw [length_rawDesc]; exact sb.descBytes_ge)
    refine ⟨⟨?_, fun g hg => (hverifies g hg).1, fun g hg => (hverifies g hg).2.1,
      fun g hg => (hverifies g hg).2.2, fun g hg => ?_⟩, ⟨fun g hg => ?_, ?_⟩, ?_⟩
    · rw [hl.rawSuper_repaired h]
      exact verifySuperblockChecksum_sealedSuper (by rw [length_writeLe, length_setLoHi, length_rawSuper])
    · rw [(hl.decoded_repaired h hg).1, (hfit g hg).1, (hbits g hg).1]
      rfl
    · rw [(hl.decoded_repaired h hg).2, (hfit g hg).2, (hbits g hg).2]
      show _ = zeroBits _ (sb.groupInodeCount g)
      rw [hl.groupInodeCount_eq h hg]
    · -- 使用中の数と空きの数の和は、inode の数になる
      have hsum : (∑ g ∈ range sb.groupsCount, popcountBitmap
          (inodeBitmapAt (repaired d sb) (countedSuper d sb) g) (sb.groupInodeCount g)) +
          countedInodes d sb = sb.inodesCount := by
        unfold countedInodes
        rw [← sum_add_distrib, ← h.sum_inodesIn]
        refine sum_congr rfl fun g hg => ?_
        rw [(hbits g (mem_range.mp hg)).2, popcount_add_zeroBits,
          hl.groupInodeCount_eq h (mem_range.mp hg)]
      show sb.inodesCount = countedInodes d sb + _
      rw [Nat.add_comm]
      exact hsum.symm
    · show countedBlocks d sb = sb.firstDataBlock + freeBlockBits d sb
      rw [h.countedBlocks_eq, hzero, Nat.zero_add]

/-! ## 修復の約束 -/

/--
修復の約束。修復は成功し、その後の検証は clean と答え、どの group でも `read_group_desc` は
bitmap の零の bit の数を答え、もう一度修復しても device の byte は変わらない。
-/
def Heals (host : Host) (cancelled : Nat → Bool) (opts : RepairOptions) (d : Disk) : Prop :=
  ∃ report d' sb',
    Proc.run (repairMetadataCounters host cancelled opts) d = (.ok report, d') ∧
    VerifiesClean d' ∧ readSuperblock d' = .ok sb' ∧
    (∀ g < sb'.groupsCount, ∃ gd bb ib, readGroupDesc d' sb' g = .ok gd ∧
      readBlockBitmap d' sb' gd = .ok bb ∧ readInodeBitmap d' sb' gd = .ok ib ∧
      gd.freeBlocks = zeroBits bb (sb'.blocksIn g) ∧
      gd.freeInodes = zeroBits ib (sb'.inodesIn g)) ∧
    (Proc.run (repairMetadataCounters host cancelled opts) d').2.data = d'.data

section Heals

variable {host : Host} {cancelled : Nat → Bool} {opts : RepairOptions} {d : Disk} {sb : Superblock}

theorem Heals.clean (hh : Heals host cancelled opts d) (h : Repairable host cancelled opts d sb) :
    VerifiesClean (repaired d sb) := by
  obtain ⟨report, d', sb', hrun, hclean, -⟩ := hh
  have hend := h.run_eq.1
  rw [hrun] at hend
  rw [← hend]
  exact hclean

/-- 直した後も、修復は断らない。 -/
theorem Repairable.again (h : Repairable host cancelled opts d sb) :
    Repairable host cancelled opts (repaired d sb) (countedSuper d sb) where
  readable := h.layout.readable_repaired h.readable
  layout := h.layout.layout_repaired h.readable
  safe := h.safe
  noMetaBg := h.noMetaBg
  noBigalloc := h.noBigalloc
  noRecover := h.noRecover
  writable := h.writable
  notCancelled := h.notCancelled
  verifyNotCancelled := h.verifyNotCancelled

/--
**修復が約束を守るのは、`first_data_block` が 0 で、空きの数がどれも descriptor に収まるときであり、
そのときに限る。**
-/
theorem heals_iff (h : Repairable host cancelled opts d sb) :
    Heals host cancelled opts d ↔ sb.firstDataBlock = 0 ∧ CountsFit d sb := by
  have hr := h.layout.readable_repaired h.readable
  constructor
  · intro hh
    exact (h.layout.verifiesClean_repaired h.readable).mp (hh.clean h)
  · intro hcond
    have hclean := (h.layout.verifiesClean_repaired h.readable).mpr hcond
    obtain ⟨hend, hok⟩ := h.run_eq
    obtain ⟨report, hreport⟩ := hok.mpr fun _ => hclean
    refine ⟨report, repaired d sb, countedSuper d sb, Prod.ext hreport hend, hclean, hr.super,
      fun g hg => ?_, ?_⟩
    · obtain ⟨h1, -, h3, h4⟩ := hr.reads hg
      obtain ⟨e1, e2⟩ := h.layout.decoded_repaired h.readable hg
      obtain ⟨f1, f2⟩ := countsFit_iff.mp hcond.2 g hg
      obtain ⟨b1, b2⟩ : blockBitmapAt (repaired d sb) (countedSuper d sb) g = blockBitmapAt d sb g ∧
        inodeBitmapAt (repaired d sb) (countedSuper d sb) g = inodeBitmapAt d sb g :=
        h.layout.bitmaps_repaired h.readable hg
      refine ⟨_, _, _, h1, h3, h4, ?_, ?_⟩
      · rw [e1, f1, b1]
        rfl
      · rw [e2, f2, b2]
        rfl
    · rw [h.again.run_eq.1]
      exact h.layout.data_repaired_twice h.readable

end Heals

/-! ## 一つの group の image -/

/-- group が一つだけの filesystem の置き場所。 -/
def onePlaces : List Place := [.super 0, .table 0, .blockBitmap 0, .inodeBitmap 0, .inodeTable 0]

/-- 一つの group の filesystem を、計算だけで修復できるものと確かめる条件。 -/
@[mk_iff]
structure OneGroup (d : Disk) (sb : Superblock) : Prop where
  super : readSuperblock d = .ok sb
  one : sb.groupsCount = 1
  desc : readGroupDesc d sb 0 = .ok (descAt d sb 0)
  inside : ∀ p ∈ onePlaces, p.start d sb + p.blocks sb ≤ sb.blocksCount
  apart : ∀ p ∈ onePlaces, ∀ q ∈ onePlaces, p ≠ q →
    p.start d sb + p.blocks sb ≤ q.start d sb ∨ q.start d sb + q.blocks sb ≤ p.start d sb
  noMetaBg : sb.hasIncompat incompatMetaBg = false
  noBigalloc : sb.hasRoCompat roCompatBigalloc = false
  noRecover : sb.hasIncompat incompatRecover = false

instance (d : Disk) (sb : Superblock) : Decidable (OneGroup d sb) :=
  decidable_of_iff' _ (oneGroup_iff d sb)

namespace OneGroup

variable {d : Disk} {sb : Superblock}

theorem readable (h : OneGroup d sb) : Readable d sb := by
  refine ⟨h.super, fun g hg => ?_⟩
  rw [h.one, Nat.lt_one_iff] at hg
  subst hg
  exact ⟨descAt d sb 0, h.desc⟩

theorem layout (h : OneGroup d sb) : Layout d sb := by
  have hmem : ∀ p : Place, p.Present sb (rawSuper d) → p ∈ onePlaces := by
    intro p hp
    have hzero : ∀ g < sb.groupsCount, g = 0 := fun g hlt => by
      rw [h.one] at hlt
      exact Nat.lt_one_iff.mp hlt
    unfold onePlaces
    cases p with
    | super g =>
      rw [hzero g hp.1]
      simp
    | table g =>
      rw [hzero g hp.1]
      simp
    | blockBitmap g =>
      rw [hzero g hp]
      simp
    | inodeBitmap g =>
      rw [hzero g hp]
      simp
    | inodeTable g =>
      rw [hzero g hp]
      simp
  exact ⟨fun p hp => h.inside p (hmem p hp), fun p q hp hq => h.apart p (hmem p hp) q (hmem q hq)⟩

/-- 断らない host の上では、そのまま修復できる。 -/
theorem repairable (h : OneGroup d sb) (hw : d.writable = true) :
    Repairable Tiny.host (fun _ => false) {} d sb where
  readable := h.readable
  layout := h.layout
  safe := rfl
  noMetaBg := h.noMetaBg
  noBigalloc := h.noBigalloc
  noRecover := h.noRecover
  writable := hw
  notCancelled := fun _ => rfl
  verifyNotCancelled := fun _ => rfl

end OneGroup

namespace Tiny

/-- 空きの数が壊れた image。 -/
def miscounted : Disk :=
  disk ((image 1 []).applyAll [⟨1024 + 0x0c, leBytes 4 7⟩, ⟨2048 + 12, leBytes 2 3⟩])

def miscountedSb : Superblock := decodeSuperblock (rawSuper miscounted)

theorem miscounted_oneGroup : OneGroup miscounted miscountedSb := by decide +kernel

end Tiny

/-- 2048 byte の block の filesystem では、壊れた空きの数が直る。 -/
theorem heals_tiny : ∃ d sb, Repairable Tiny.host (fun _ => false) {} d sb ∧ ¬ VerifiesClean d ∧
    Heals Tiny.host (fun _ => false) {} d := by
  have hrepairable := Tiny.miscounted_oneGroup.repairable rfl
  refine ⟨Tiny.miscounted, Tiny.miscountedSb, hrepairable, ?_,
    (heals_iff hrepairable).mpr ⟨by decide +kernel, fun _ g hg => ?_⟩⟩
  · rw [hrepairable.readable.verifiesClean_iff]
    rintro ⟨hs, -, -⟩
    have := hs.freeBlocks 0 (by decide +kernel)
    revert this
    decide +kernel
  · rw [Tiny.miscounted_oneGroup.one, Nat.lt_one_iff] at hg
    subst hg
    decide +kernel

theorem OneKib.oneGroup : OneGroup OneKib.disk OneKib.sb := by decide +kernel

/-- 1024 byte の block の filesystem では、修復は健全な image の上でも失敗する。 -/
theorem healthy_not_healed : ∃ d sb, Repairable Tiny.host (fun _ => false) {} d sb ∧
    sb.firstDataBlock = 1 ∧ MetadataExact d sb ∧ ¬ Heals Tiny.host (fun _ => false) {} d := by
  have hfirst := OneKib.firstDataBlock
  have hrepairable := OneKib.oneGroup.repairable rfl
  refine ⟨OneKib.disk, OneKib.sb, hrepairable, hfirst, OneKib.metadataExact, fun hh => ?_⟩
  have hclean := hh.clean hrepairable
  rw [hrepairable.layout.verifiesClean_repaired OneKib.readable] at hclean
  omega

end Fsx.Ext4
