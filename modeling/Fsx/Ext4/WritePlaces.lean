import Fsx.Io.Within
import Fsx.Ext4.Refusal
import Fsx.Ext4.RepairDesc
import Fsx.Ext4.TreeOrder

/-!
# metadata の書き込みの置き場所

修復・名前の付け替え・移動の確定・縮小・拡大の五つの呼び出しについて、device への書き込みが
filesystem の中に収まるのはいつかを調べる。

bitmap と inode の番地は、読み出すときの検査で filesystem の中に限られている。superblock の写しは
group の先頭の block に収まる。残るのは group descriptor とその写しで、置き場所は group の番号から
決まり、filesystem の終わりとは比べられない。
-/

namespace Fsx.Ext4

open Proc Engine

/-! ## 呼び出し -/

/-- metadata を書く呼び出し。 -/
inductive MetadataCall where
  | repair (cancelled : Nat → Bool) (opts : RepairOptions)
  | label (text : Bytes) (allowBlockDevice : Bool)
  | change (c : SizeChange)

namespace MetadataCall

/-- 呼び出しの成否と、終えたところの device。 -/
def run (host : Host) (d : Disk) (j : Option JournalFile) : MetadataCall → Result Unit × Disk
  | .repair cancelled opts =>
    let r := Proc.run (repairMetadataCounters host cancelled opts) d
    (r.1.map fun _ => (), r.2)
  | .label text allowBlockDevice => Proc.run (setVolumeLabel host text allowBlockDevice) d
  | .change c =>
    let r := Proc.run (c.call host) ⟨d, j, []⟩
    (r.1, r.2.disk)

/-- 呼び出しが device に行う操作。 -/
def events (host : Host) (d : Disk) (j : Option JournalFile) (c : MetadataCall) : List Event :=
  d.since (c.run host d j).2

/-- 呼び出しが目指す block 数。 -/
def newBlocks (sb : Superblock) : MetadataCall → Nat
  | .repair _ _ | .label _ _ | .change (.commit _ _) => sb.blocksCount
  | .change (.shrink _ targetBytes _) | .change (.grow targetBytes _) => targetBytes / sb.blockSize

/-- 前後の filesystem の、後ろの方の終わり。 -/
def limit (sb : Superblock) (c : MetadataCall) : Nat :=
  max sb.blocksCount (c.newBlocks sb) * sb.blockSize

theorem le_limit (sb : Superblock) (c : MetadataCall) :
    sb.blocksCount * sb.blockSize ≤ c.limit sb := Nat.mul_le_mul_right _ (Nat.le_max_left _ _)

end MetadataCall

/-! ## 収まるための条件 -/

/-- 書き込みが `limit` の手前で終わる。 -/
def EndsBy (limit : Nat) (x : Write) : Prop := x.off + x.bytes.length ≤ limit

/-- group `g` の descriptor の置き場所が、写しも含めて `limit` に収まる。`raw` は superblock である。 -/
structure DescRoom (sb : Superblock) (raw : Bytes) (limit g : Nat) : Prop where
  primary : sb.descOffset g + sb.descBytes ≤ limit
  copies : ∀ k, k ≠ 0 → k < sb.groupsCount → groupHasSuper raw k = true →
    (sb.groupStartBlock k + 1) * sb.blockSize + g * sb.descBytes + sb.descBytes ≤ limit

/-- `m` が動かす block。移る前と移った後の両方を言う。 -/
def OwnerMove.Touches (m : OwnerMove) (b : Nat) : Prop :=
  (m.sourceBlock ≤ b ∧ b < m.sourceBlock + m.blockCount) ∨
    (m.destinationBlock ≤ b ∧ b < m.destinationBlock + m.blockCount)

/-- device の superblock が読めるなら、その block の数と大きさは `sb` のものである。 -/
def SameGeometry (sb : Superblock) (d : Disk) : Prop :=
  ∀ sb', readSuperblock d = .ok sb' → sb'.blocksCount = sb.blocksCount ∧ sb'.blockSize = sb.blockSize

namespace MetadataCall

/-- descriptor についての条件。移動の確定では、確定の途中で superblock の幾何が変わらないことも言う。 -/
def DescFits (host : Host) (d : Disk) (j : Option JournalFile) (sb : Superblock) :
    MetadataCall → Prop
  | .repair cancelled opts => ∀ g < sb.groupsCount,
      DescRoom sb (d.data.read 1024 1024) ((repair cancelled opts).limit sb) g
  | .label _ _ => True
  | .change (.commit plan opts) =>
      (∀ m ∈ plan.moves, ∀ b, m.Touches b →
        sb.descOffset (sb.groupOf b) + sb.descBytes ≤ (change (.commit plan opts)).limit sb) ∧
      ∀ pre, pre <+: (change (.commit plan opts)).events host d j → SameGeometry sb (d.emit pre)
  | .change (.shrink missing targetBytes opts) => DescRoom sb (d.data.read 1024 1024)
      ((change (.shrink missing targetBytes opts)).limit sb) (sb.groupsCount - 1)
  | .change (.grow targetBytes opts) => DescRoom sb (d.data.read 1024 1024)
      ((change (.grow targetBytes opts)).limit sb) (sb.groupsCount - 1)

/-- 書き込みが filesystem に収まるための条件。superblock の後ろの端も収まっていなければならない。 -/
structure Fits (host : Host) (d : Disk) (j : Option JournalFile) (sb : Superblock)
    (c : MetadataCall) : Prop where
  super : 2048 ≤ c.limit sb
  desc : c.DescFits host d j sb

end MetadataCall

/-! ## 番地の計算 -/

theorem descBytes_le_of_readSuperblock {d : Disk} {sb : Superblock} (h : readSuperblock d = .ok sb) :
    sb.descBytes ≤ sb.blockSize := by
  obtain ⟨-, -, hc⟩ := readSuperblock_eq_ok_iff.mp h
  have hge := hc.blockSize.1
  by_cases hw : sb.hasIncompat incompat64bit = true
  · exact (hc.wide hw).2.1
  · unfold Superblock.descBytes
    split
    · exact (hc.narrow (Bool.not_eq_true _ ▸ hw) (by omega)).2.1
    · omega

/--
書き込みに至る番地の計算は、どれも 64 bit に収まる。

順に、group の先頭、superblock の写し、group `k` の table の中の group `g` の descriptor、
primary の table の中の descriptor、block の番地、inode の番地である。
-/
structure OffsetsFit (sb : Superblock) : Prop where
  start : ∀ g < sb.groupsCount, sb.firstDataBlock + g * sb.blocksPerGroup < 2 ^ 64 ∧
    sb.groupStartBlock g = sb.firstDataBlock + g * sb.blocksPerGroup
  super : ∀ g < sb.groupsCount, sb.groupStartBlock g * sb.blockSize + 1024 < 2 ^ 64
  copy : ∀ g < sb.groupsCount, ∀ k < sb.groupsCount,
    (sb.groupStartBlock k + 1) * sb.blockSize + g * sb.descBytes + sb.descBytes < 2 ^ 64
  desc : ∀ g < sb.groupsCount, sb.descOffset g + sb.descBytes < 2 ^ 64
  block : ∀ b < sb.blocksCount, b * sb.blockSize + sb.blockSize < 2 ^ 64
  inode : ∀ t < sb.blocksCount, ∀ i < sb.inodesPerGroup,
    t * sb.blockSize + i * sb.inodeSize + sb.inodeSize < 2 ^ 64

theorem offsetsFit_of_readSuperblock {d : Disk} {sb : Superblock} (h : readSuperblock d = .ok sb) :
    OffsetsFit sb := by
  have ha := accepted_of_readSuperblock h
  have hds := descBytes_le_of_readSuperblock h
  have hsize := d.size_lt
  have hfits := ha.fits
  have hge := ha.blockSize_ge
  have hle := ha.blockSize_le
  have hblock : ∀ b < sb.blocksCount, b * sb.blockSize + sb.blockSize ≤ d.sizeBytes := by
    intro b hb
    have := Nat.mul_le_mul_right sb.blockSize (Nat.succ_le_of_lt hb)
    rw [Nat.succ_mul] at this
    omega
  have hstart : ∀ g < sb.groupsCount, sb.groupStartBlock g < sb.blocksCount ∧
      sb.firstDataBlock + g * sb.blocksPerGroup < 2 ^ 64 ∧
      sb.groupStartBlock g = sb.firstDataBlock + g * sb.blocksPerGroup := by
    intro g hg
    have hlt := ha.lt_groupsCount_iff.mp hg
    have hblocks := ha.blocks_lt hsize
    have heq := ha.groupStartBlock_eq hsize hg
    omega
  -- group の番号は block の番号より小さく、descriptor は block より小さい
  have hslot : ∀ g < sb.groupsCount, g * sb.descBytes + sb.descBytes ≤ d.sizeBytes := by
    intro g hg
    have hlt := ha.lt_groupsCount_iff.mp hg
    have hgb : g < sb.blocksCount := by
      have := Nat.le_mul_of_pos_right g ha.perGroup_pos
      omega
    have hmul := Nat.mul_le_mul (Nat.succ_le_of_lt hgb) hds
    rw [Nat.succ_mul] at hmul
    omega
  have htable : sb.tableOffset ≤ 2 * sb.blockSize := by
    unfold Superblock.tableOffset
    split <;> omega
  refine ⟨fun g hg => (hstart g hg).2, fun g hg => ?_, fun g hg k hk => ?_, fun g hg => ?_,
    fun b hb => ?_, fun t ht i hi => ?_⟩
  · have := hblock _ (hstart g hg).1
    omega
  · have h1 := hblock _ (hstart k hk).1
    have h2 := hslot g hg
    rw [Nat.succ_mul]
    omega
  · have := hslot g hg
    unfold Superblock.descOffset
    omega
  · have := hblock b hb
    omega
  · have h1 := hblock t ht
    have hi2 := ha.inodesPerGroup_le
    have h2 : i * sb.inodeSize ≤ (65536 * 8) * 65536 :=
      Nat.mul_le_mul (by omega) (ha.inodeSize_le.trans hle)
    have h3 := ha.inodeSize_le
    omega

/-! ## 書く場所 -/

theorem length_of_groupDescriptorAddress {ctx : MetadataContext} {g addr : Nat} {raw : Bytes}
    (h : groupDescriptorAddress ctx g raw = .ok addr) : raw.length = ctx.sb.descBytes :=
  (groupDescriptorAddress_eq_ok h).1

theorem blockBitmap_lt {d : Disk} {sb : Superblock} {gd : GroupDesc} {bm : Bytes}
    (h : readBlockBitmap d sb gd = .ok bm) : gd.blockBitmap < sb.blocksCount :=
  (readBlockBitmap_eq_ok h).1

/-- 番号が `n` までの block は `n` 個分の手前で終わる。 -/
theorem mul_add_le_of_lt {b n k : Nat} (h : b < n) : b * k + k ≤ n * k := by
  have := Nat.mul_le_mul_right k (Nat.succ_le_of_lt h)
  rwa [Nat.succ_mul] at this

/-- 末尾の group を読めたなら、その bitmap は filesystem の中にある。 -/
theorem lastGroup_of_readLastGroup {d : Disk} {ctx : MetadataContext} {target : Nat}
    {t : LastGroup} (h : readLastGroup d ctx target = .ok t) : t.gd.blockBitmap < ctx.sb.blocksCount ∧
      t.bitmap.length = ctx.sb.blockSize := by
  unfold readLastGroup at h
  obtain ⟨gd, -, h⟩ := Result.bind_eq_ok h
  obtain ⟨raw, -, h⟩ := Result.bind_eq_ok h
  obtain ⟨bm, hbm, h⟩ := Result.bind_eq_ok h
  obtain ⟨_, -, h⟩ := Result.bind_eq_ok h
  cases h
  exact ⟨blockBitmap_lt hbm, length_of_readBlockBitmap hbm⟩

section Places

variable {d : Disk} {ctx : MetadataContext} {limit : Nat}
  (hlim : ctx.sb.blocksCount * ctx.sb.blockSize ≤ limit)

include hlim

theorem endsBy_block {b : Nat} {bytes : Bytes} (hb : b < ctx.sb.blocksCount)
    (hlen : bytes.length = ctx.sb.blockSize) : EndsBy limit ⟨b * ctx.sb.blockSize, bytes⟩ := by
  unfold EndsBy
  rw [hlen]
  exact (mul_add_le_of_lt hb).trans hlim

/-- bitmap の block と descriptor の書き込み。descriptor の番地だけは条件が要る。 -/
theorem tailInside_of_address {b g addr : Nat} {bm raw : Bytes} (hb : b < ctx.sb.blocksCount)
    (hlen : bm.length = ctx.sb.blockSize) (h : groupDescriptorAddress ctx g raw = .ok addr)
    (hroom : ctx.sb.descOffset g + ctx.sb.descBytes ≤ limit) :
    TailInside limit ctx.sb g (⟨b * ctx.sb.blockSize, bm⟩, ⟨addr, raw⟩) := by
  have hraw := length_of_groupDescriptorAddress h
  have haddr := groupDescriptorAddress_ok h
  refine ⟨endsBy_block hlim hb hlen, ?_, ?_, haddr, hraw⟩
  · dsimp only
    rw [haddr, hraw]
    exact hroom
  · exact (groupDescriptorAddress_eq_ok h).2.1

theorem tailUpdate_inside {target : Nat} {u : Write × Write}
    (hroom : ctx.sb.descOffset (ctx.sb.groupsCount - 1) + ctx.sb.descBytes ≤ limit)
    (h : tailUpdate d ctx target = .ok u) : TailInside limit ctx.sb (ctx.sb.groupsCount - 1) u := by
  unfold tailUpdate at h
  obtain ⟨gd, -, h⟩ := Result.bind_eq_ok h
  obtain ⟨raw, -, h⟩ := Result.bind_eq_ok h
  obtain ⟨bm, hbm, h⟩ := Result.bind_eq_ok h
  obtain ⟨bm', hbm', h⟩ := Result.bind_eq_ok h
  rw [Result.guard_bind_eq_ok_iff] at h
  obtain ⟨raw'', -, h⟩ := Result.bind_eq_ok h.2
  obtain ⟨addr, haddr, h⟩ := Result.bind_eq_ok h
  cases h
  refine tailInside_of_address hlim (blockBitmap_lt hbm) ?_ haddr hroom
  rw [length_markTailBits hbm', length_of_readBlockBitmap hbm]

theorem grownTail_inside {t : LastGroup} {target : Nat} {u : Write × Write}
    (hroom : ctx.sb.descOffset (ctx.sb.groupsCount - 1) + ctx.sb.descBytes ≤ limit)
    (hbm : t.gd.blockBitmap < ctx.sb.blocksCount) (hlen : t.bitmap.length = ctx.sb.blockSize)
    (h : grownTail ctx t target = .ok u) :
    TailInside limit ctx.sb (ctx.sb.groupsCount - 1) u := by
  unfold grownTail at h
  rw [Result.guard_bind_eq_ok_iff] at h
  obtain ⟨raw'', -, h⟩ := Result.bind_eq_ok h.2
  obtain ⟨addr, haddr, h⟩ := Result.bind_eq_ok h
  cases h
  refine tailInside_of_address hlim hbm ?_ haddr hroom
  rw [length_setBitmapRange, hlen]

theorem groupUpdate_inside {s : GroupSpan} {allocate : Bool} {u : Write × Write}
    (hroom : ctx.sb.descOffset s.group + ctx.sb.descBytes ≤ limit)
    (h : groupUpdate d ctx s allocate = .ok u) : TailInside limit ctx.sb s.group u := by
  unfold groupUpdate at h
  obtain ⟨gd, -, h⟩ := Result.bind_eq_ok h
  obtain ⟨raw, -, h⟩ := Result.bind_eq_ok h
  obtain ⟨gdOk, -, h⟩ := Result.bind_eq_ok h
  rw [Result.guard_bind_eq_ok_iff] at h
  obtain ⟨bm, hbm, h⟩ := Result.bind_eq_ok h.2
  simp only [Result.guard_bind_eq_ok_iff] at h
  obtain ⟨-, -, -, h⟩ := h
  obtain ⟨raw'', -, h⟩ := Result.bind_eq_ok h
  obtain ⟨addr, haddr, h⟩ := Result.bind_eq_ok h
  cases h
  refine tailInside_of_address hlim (blockBitmap_lt hbm) ?_ haddr hroom
  rw [length_setBitmapRange, length_of_readBlockBitmap hbm]

/-- inode の書き込みは、番地を決めるところで filesystem の大きさと比べられている。 -/
theorem inodeEntryWrite_endsBy {size inode entryOff : Nat} {set : Bytes → Nat → Bytes}
    {text : String} {x : Write} (ha : ctx.sb.Accepted size) (hsize : size < 2 ^ 63)
    (h : inodeEntryWrite d ctx inode entryOff set text = .ok x) : EndsBy limit x := by
  unfold inodeEntryWrite at h
  obtain ⟨raw, -, h⟩ := Result.bind_eq_ok h
  rw [Result.guard_bind_eq_ok_iff] at h
  obtain ⟨raw', -, h⟩ := Result.bind_eq_ok h.2
  rw [Result.guard_bind_eq_ok_iff] at h
  obtain ⟨hlen, h⟩ := h
  obtain ⟨addr, haddr, h⟩ := Result.bind_eq_ok h
  cases h
  unfold inodeOffset at haddr
  rw [Result.guard_bind_eq_ok_iff] at haddr
  obtain ⟨gd, -, haddr⟩ := Result.bind_eq_ok haddr.2
  simp only [Result.guard_bind_eq_ok_iff, Result.pure_eq_ok_iff] at haddr
  obtain ⟨-, -, -, hin, rfl⟩ := haddr
  rw [ha.sizeBytes_eq hsize] at hin
  unfold EndsBy
  rw [not_not.mp hlen]
  dsimp only
  omega

theorem blockEntryWrite_endsBy {inode generation addr entryOff : Nat} {set : Bytes → Nat → Bytes}
    {sumText text : String} {x : Write} (hset : ∀ b off, (set b off).length = b.length)
    (haddr : addr + ctx.sb.blockSize ≤ ctx.sb.blocksCount * ctx.sb.blockSize)
    (h : blockEntryWrite d ctx inode generation addr entryOff set sumText text = .ok x) :
    EndsBy limit x := by
  unfold blockEntryWrite at h
  obtain ⟨block, hblock, h⟩ := Result.bind_eq_ok h
  obtain ⟨ok, -, h⟩ := Result.bind_eq_ok h
  simp only [Result.guard_bind_eq_ok_iff] at h
  obtain ⟨-, -, h⟩ := h
  obtain ⟨block', hblock', h⟩ := Result.bind_eq_ok h
  cases h
  unfold EndsBy
  rw [length_updateExtentBlockChecksum hblock', hset, (Disk.readExact_eq_ok_iff.mp hblock).2,
    Image.length_read]
  exact haddr.trans hlim

end Places

/-! ## 木の走査から決まる場所 -/

/-- inode table は filesystem の中で終わる。 -/
theorem inodeTable_end {d : Disk} {sb : Superblock} {g : Nat} {gd : GroupDesc}
    (ha : sb.Accepted d.sizeBytes) (h : readGroupDesc d sb g = .ok gd) :
    gd.inodeTable * sb.blockSize + sb.inodesPerGroup * sb.inodeSize
      ≤ sb.blocksCount * sb.blockSize := by
  have hge := ha.blockSize_ge
  obtain ⟨-, -, -, hin⟩ := readGroupDesc_eq_ok_iff.mp h
  have htable := hin.table
  have hpointers := hin.pointers
  generalize sb.inodesPerGroup * sb.inodeSize = bytes at htable ⊢
  -- table の block 数は切り上げなので、byte 数を覆う
  have hcover : bytes ≤ (bytes / sb.blockSize
      + if bytes % sb.blockSize ≠ 0 then 1 else 0) * sb.blockSize := by
    have hdm := Nat.div_add_mod bytes sb.blockSize
    have hmod := Nat.mod_lt bytes (show 0 < sb.blockSize by omega)
    rw [Nat.mul_comm] at hdm
    split
    · rw [Nat.succ_mul]
      omega
    · rw [Nat.add_zero]
      omega
  generalize (bytes / sb.blockSize + if bytes % sb.blockSize ≠ 0 then 1 else 0) = n at htable hcover
  have hmul := Nat.mul_le_mul_right sb.blockSize
    (show gd.inodeTable + n ≤ sb.blocksCount by omega)
  rw [Nat.add_mul] at hmul
  omega

/--
extent の記録がある block と、tree block の親のある場所は、走査が読んだ superblock の
filesystem の中にある。
-/
theorem scan_places {srt : StdSort} {d : Disk} {ino : Nat} {scan : OwnerScan}
    (h : scanInodeExtentTree srt d ino 0 = .ok scan) : ∃ sb, readSuperblock d = .ok sb ∧
      (∀ e ∈ scan.extents, e.reference.kind = .extentBlock →
        e.reference.containerBlock < sb.blocksCount) ∧
      ∀ t ∈ scan.treeBlocks, t.parentContainerByteOffset < sb.blocksCount * sb.blockSize := by
  unfold scanInodeExtentTree at h
  obtain ⟨sb, hsb, h⟩ := Result.bind_eq_ok h
  obtain ⟨_, -, h⟩ := Result.bind_eq_ok h
  have ha := accepted_of_readSuperblock hsb
  unfold scanSpecificInode at h
  simp only [Result.guard_bind_eq_ok_iff] at h
  obtain ⟨gd, hgd, h⟩ := Result.bind_eq_ok h.2
  simp only [Result.guard_bind_eq_ok_iff] at h
  obtain ⟨ib, -, h⟩ := Result.bind_eq_ok h.2
  simp only [Result.guard_bind_eq_ok_iff] at h
  obtain ⟨inode, -, h⟩ := Result.bind_eq_ok h.2
  simp only [Result.guard_bind_eq_ok_iff] at h
  obtain ⟨mctx, -, h⟩ := Result.bind_eq_ok h.2
  refine ⟨sb, hsb, ?_⟩
  split at h
  · cases h
    exact ⟨fun e he => (by cases he), fun t ht => (by cases ht)⟩
  · obtain ⟨out, hout, h⟩ := Result.bind_eq_ok h
    cases h
    unfold parseInode at hout
    obtain ⟨st, hst, hout⟩ := Result.bind_eq_ok hout
    cases hout
    obtain ⟨hok, -, rfl⟩ := (@parseExtentNode_eq_ok_iff
      { dev := d, sb, inode := ino, generation := readLe 4 inode 100
        retainFrom := min 0 sb.blocksCount, metadata := mctx }
      ha.fits _ rfl _ _ _ _ _ _ _).mp hst
    constructor
    · intro e he hkind
      have he := List.mem_of_mem_filter ((srt.perm _ _).mem_iff.mp he)
      rcases origin_of_mem_extents he with ⟨-, i, -, rfl⟩ | ⟨t, ht, -, i, -, rfl⟩
      · cases hkind
      · exact (tree_bounds hok ht).2.2
    · intro t ht
      have ht := List.mem_of_mem_filter ht
      rcases origin_of_mem_trees ht with ⟨-, i, -, hparent⟩ | ⟨p, hp, -, i, -, hparent⟩
      · -- root node は inode の中にあり、inode table は filesystem に収まる
        have hend := inodeTable_end ha hgd
        have hlt := mul_add_le_of_lt (k := sb.inodeSize) (Nat.mod_lt (ino - 1) ha.inodesPerGroup_pos)
        have hinode := ha.inodeSize_ge
        rw [hparent]
        show gd.inodeTable * sb.blockSize + (ino - 1) % sb.inodesPerGroup * sb.inodeSize + 40 < _
        omega
      · have hge := ha.blockSize_ge
        have hlt := mul_add_le_of_lt (k := sb.blockSize) (tree_bounds hok hp).2.2
        rw [hparent]
        show p.physicalBlock * sb.blockSize < sb.blocksCount * sb.blockSize
        exact Nat.lt_of_lt_of_le (Nat.lt_add_of_pos_right (by omega)) hlt

end Fsx.Ext4
