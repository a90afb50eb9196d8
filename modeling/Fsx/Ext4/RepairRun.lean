import Fsx.Ext4.Layout
import Fsx.Ext4.RepairDesc

/-!
# 修復が書くもの

`repair_metadata_counters` が書く列を、はじめの image だけから決まる形で書き下す。
置き場所が互いに重ならなければ（`Layout`）、group を直す間も残りの descriptor と bitmap は変わらないので、
ループの各段ははじめの image を見ているのと同じになる。
-/

namespace Fsx.Ext4

open Finset

/-! ## 読むところの等しい device -/

section Congr

variable {d e : Disk} {sb : Superblock} {g : Nat}

theorem readExact_congr {off len : Nat} (hs : e.sizeBytes = d.sizeBytes)
    (h : e.data.read off len = d.data.read off len) : e.readExact off len = d.readExact off len := by
  unfold Disk.readExact
  rw [hs, h]

theorem readGroupDesc_congr (hs : e.sizeBytes = d.sizeBytes) (h : rawDesc e sb g = rawDesc d sb g) :
    readGroupDesc e sb g = readGroupDesc d sb g := by
  unfold readGroupDesc
  dsimp only
  rw [readExact_congr hs h]

theorem readGroupDescriptorRaw_congr {ctx : MetadataContext} (hs : e.sizeBytes = d.sizeBytes)
    (h : rawDesc e ctx.sb g = rawDesc d ctx.sb g) :
    readGroupDescriptorRaw e ctx g = readGroupDescriptorRaw d ctx g := by
  unfold readGroupDescriptorRaw
  dsimp only
  rw [readExact_congr hs h]

theorem readBlockBitmap_congr {gd : GroupDesc} (hs : e.sizeBytes = d.sizeBytes)
    (h : e.data.read (gd.blockBitmap * sb.blockSize) sb.blockSize =
      d.data.read (gd.blockBitmap * sb.blockSize) sb.blockSize) :
    readBlockBitmap e sb gd = readBlockBitmap d sb gd := by
  unfold readBlockBitmap
  dsimp only
  rw [readExact_congr hs h]

theorem readInodeBitmap_congr {gd : GroupDesc} (hs : e.sizeBytes = d.sizeBytes)
    (h : e.data.read (gd.inodeBitmap * sb.blockSize) sb.blockSize =
      d.data.read (gd.inodeBitmap * sb.blockSize) sb.blockSize) :
    readInodeBitmap e sb gd = readInodeBitmap d sb gd := by
  unfold readInodeBitmap
  dsimp only
  rw [readExact_congr hs h]

end Congr

/-! ## 書く列 -/

section Writes

variable (d : Disk) (sb : Superblock)

/-- group `g` の新しい descriptor。 -/
def newDesc (g : Nat) : Bytes :=
  fixedDesc (contextAt d) g (rawDesc d sb g) (blockBitmapAt d sb g) (inodeBitmapAt d sb g)

/-- 数え直した空き block の数。 -/
def countedBlocks : Nat :=
  ∑ g ∈ range sb.groupsCount, zeroBits (blockBitmapAt d sb g) (sb.groupBlockCount g)

/-- 数え直した空き inode の数。 -/
def countedInodes : Nat :=
  ∑ g ∈ range sb.groupsCount, zeroBits (inodeBitmapAt d sb g) (sb.groupInodeCount g)

/-- 新しい superblock。 -/
def newSuper : Bytes := fixedSuper (rawSuper d) (countedBlocks d sb) (countedInodes d sb)

/-- group `g` の descriptor の、group `k` の table への書き込み。 -/
def slotWrite (g k : Nat) : Write := ⟨sb.tableBase k + g * sb.descBytes, newDesc d sb g⟩

/-- 一つの group について書くもの。 -/
def groupWrites (g : Nat) : List Write := (copyGroups sb (rawSuper d)).map (slotWrite d sb g)

/-- superblock `raw` の、group `k` への書き込み。写しには group の番号が入る。 -/
def superWrite (raw : Bytes) (k : Nat) : Write :=
  ⟨sb.superBase k, if k = 0 then raw else sealedSuper (writeLe 2 raw 0x5a k)⟩

/-- superblock とその写し。 -/
def superWrites (raw : Bytes) : List Write := (copyGroups sb raw).map (superWrite sb raw)

/-- はじめの `n` 個の group について書くもの。 -/
def descWrites (n : Nat) : List Write := (List.range n).flatMap (groupWrites d sb)

/-- 修復が書くもの。 -/
def repairWrites : List Write := descWrites d sb sb.groupsCount ++ superWrites sb (newSuper d sb)

/-- 修復の後の device。 -/
def repaired : Disk := d.emit ((repairWrites d sb).map .write ++ [.flush])

end Writes

/-! ## 写しのループ -/

section Copies

variable {ctx : MetadataContext} {super : Bytes}

theorem run_writeDescCopies {i : Nat} {desc : Bytes} {size : Nat} (hroom : ∀ k, k ≠ 0 →
    k ∈ copyGroups ctx.sb super → ctx.sb.tableBase k + i * ctx.sb.descBytes + desc.length ≤ size) :
    ∀ (n g : Nat) (d : Disk), g ≠ 0 → g + n ≤ ctx.sb.groupsCount → d.writable = true →
    d.sizeBytes = size → Proc.run (writeDescCopies ctx super i desc n g) d =
      (.ok (), d.emit ((((List.range' g n).filter (groupHasSuper super)).map fun k =>
        ⟨ctx.sb.tableBase k + i * ctx.sb.descBytes, desc⟩).map .write))
  | 0, _, d, _, _, _, _ => by
    unfold writeDescCopies
    rw [List.range'_zero, List.filter_nil, List.map_nil, List.map_nil, Disk.emit_nil]
    rfl
  | n + 1, g, d, hg, hn, hw, hs => by
    have hbase : ctx.sb.tableBase g = (ctx.sb.groupStartBlock g + 1) * ctx.sb.blockSize := if_neg hg
    unfold writeDescCopies
    rw [List.range'_succ]
    by_cases hb : groupHasSuper super g = true
    · have hin := hroom g hg (mem_copyGroups.mpr ⟨by omega, hb⟩)
      rw [hbase] at hin
      rw [if_pos hb, List.filter_cons_of_pos hb,
        Proc.run_bind_ok (DevM.run_write_ok hw (by rw [hs]; exact hin))]
      refine (run_writeDescCopies hroom n (g + 1) (d.emit _) (by omega) (by omega) hw hs).trans ?_
      rw [Disk.emit_emit, ← hbase]
      rfl
    · rw [if_neg hb, List.filter_cons_of_neg hb]
      exact run_writeDescCopies hroom n (g + 1) d (by omega) (by omega) hw hs

theorem run_writeSuperblockBackups {size : Nat} (hlen : super.length = 1024)
    (hroom : ∀ k ∈ copyGroups ctx.sb super, ctx.sb.superBase k + 1024 ≤ size) :
    ∀ (n g : Nat) (d : Disk), g ≠ 0 → g + n ≤ ctx.sb.groupsCount → d.writable = true →
    d.sizeBytes = size → Proc.run (writeSuperblockBackups ctx super n g) d =
      (.ok (), d.emit ((((List.range' g n).filter (groupHasSuper super)).map
        (superWrite ctx.sb super)).map .write))
  | 0, _, d, _, _, _, _ => by
    unfold writeSuperblockBackups
    rw [List.range'_zero, List.filter_nil, List.map_nil, List.map_nil, Disk.emit_nil]
    rfl
  | n + 1, g, d, hg, hn, hw, hs => by
    have hcopy := @updateSuperblockChecksum_eq (writeLe 2 super 0x5a g)
      (by rw [length_writeLe, hlen])
    have hwrite : superWrite ctx.sb super g =
        ⟨ctx.sb.groupStartBlock g * ctx.sb.blockSize, sealedSuper (writeLe 2 super 0x5a g)⟩ := by
      unfold superWrite Superblock.superBase
      rw [if_neg hg, if_neg hg]
    unfold writeSuperblockBackups
    rw [List.range'_succ]
    by_cases hb : groupHasSuper super g = true
    · have hin := hroom g (mem_copyGroups.mpr ⟨by omega, hb⟩)
      unfold Superblock.superBase at hin
      rw [if_neg hg] at hin
      rw [if_pos hb, List.filter_cons_of_pos hb,
        Proc.run_bind_ok (Proc.run_reading _ d |>.trans (by rw [hcopy])),
        Proc.run_bind_ok (DevM.run_write_ok hw (by rw [hs, length_sealedSuper, length_writeLe, hlen]; exact hin))]
      refine (run_writeSuperblockBackups hlen hroom n (g + 1) (d.emit _) (by omega) (by omega) hw
        hs).trans ?_
      rw [Disk.emit_emit, ← hwrite]
      rfl
    · rw [if_neg hb, List.filter_cons_of_neg hb]
      exact run_writeSuperblockBackups hlen hroom n (g + 1) d (by omega) (by omega) hw hs

/-- `write_superblock_copies` は、primary と写しを書いて flush する。 -/
theorem run_writeSuperblockCopies {d : Disk} (hlen : super.length = 1024)
    (hpos : 0 < ctx.sb.groupsCount) (hw : d.writable = true)
    (hroom : ∀ k ∈ copyGroups ctx.sb super, ctx.sb.superBase k + 1024 ≤ d.sizeBytes) :
    Proc.run (writeSuperblockCopies ctx super) d =
      (.ok (), d.emit ((superWrites ctx.sb super).map .write ++ [.flush])) := by
  have hfirst : superWrite ctx.sb super 0 = ⟨1024, super⟩ := rfl
  have hprimary := hroom 0 (by rw [copyGroups_eq hpos]; exact List.mem_cons_self)
  have hloop := run_writeSuperblockBackups hlen hroom (ctx.sb.groupsCount - 1) 1
    (d.emit [.write ⟨1024, super⟩]) (by omega) (by omega) hw rfl
  unfold writeSuperblockCopies
  rw [if_neg (not_not.mpr hlen),
    Proc.run_bind_ok (DevM.run_write_ok hw (by rw [hlen]; exact hprimary)), Proc.run_bind_ok hloop,
    DevM.run_flush, Disk.emit_emit, Disk.emit_emit, superWrites, copyGroups_eq hpos, List.map_cons,
    hfirst, List.map_cons]
  rfl

end Copies

/-! ## 置き場所の中の読み書き -/

section Run

variable {d : Disk} {sb : Superblock} (h : Readable d sb) (hl : Layout d sb)

@[simp] theorem length_newDesc (d : Disk) (sb : Superblock) (g : Nat) :
    (newDesc d sb g).length = sb.descBytes := by
  unfold newDesc
  rw [length_fixedDesc, length_rawDesc]

theorem zeroBits_le (b : Bytes) (n : Nat) : zeroBits b n ≤ n := by
  have := popcount_add_zeroBits b n
  omega

include h

theorem Readable.address {g : Nat} (hg : g < sb.groupsCount) {raw : Bytes}
    (hlen : raw.length = sb.descBytes) :
    groupDescriptorAddress (contextAt d) g raw = .ok (sb.descOffset g) := by
  obtain ⟨gd, hgd⟩ := h.desc g hg
  rw [h.sb_eq] at hgd hlen ⊢
  exact (readGroupDesc_eq_ok_iff.mp hgd).1.groupDescriptorAddress hlen

/-- 空きの数は 32 bit に収まる。 -/
theorem Readable.zeroBits_lt (b : Bytes) (g : Nat) :
    zeroBits b (sb.groupBlockCount g) < 2 ^ 32 ∧ zeroBits b (sb.groupInodeCount g) < 2 ^ 32 := by
  have ha := h.accepted
  have h1 := ha.blockSize_le
  have h2 := ha.perGroup_le
  have h3 := ha.inodesPerGroup_le
  have hb : sb.groupBlockCount g ≤ sb.blocksPerGroup := by
    unfold Superblock.groupBlockCount
    dsimp only
    split
    · exact Nat.min_le_left _ _
    · exact Nat.zero_le _
  have hi : sb.groupInodeCount g ≤ sb.inodesPerGroup := Nat.min_le_left _ _
  have := zeroBits_le b (sb.groupBlockCount g)
  have := zeroBits_le b (sb.groupInodeCount g)
  omega

theorem Readable.repairedDesc_eq (g : Nat) :
    repairedDesc (contextAt d) g (rawDesc d sb g) (blockBitmapAt d sb g) (inodeBitmapAt d sb g) =
      .ok (newDesc d sb g, zeroBits (blockBitmapAt d sb g) (sb.groupBlockCount g),
        zeroBits (inodeBitmapAt d sb g) (sb.groupInodeCount g)) := by
  have hfree : ∀ b n, n - popcountBitmap b n = zeroBits b n := by
    intro b n
    have := popcount_add_zeroBits b n
    omega
  have hb := (h.zeroBits_lt (blockBitmapAt d sb g) g).1
  have hi := (h.zeroBits_lt (inodeBitmapAt d sb g) g).2
  have hlen : 32 ≤ (countedDesc (contextAt d) g (rawDesc d sb g) (blockBitmapAt d sb g)
      (inodeBitmapAt d sb g)).length := by
    rw [length_countedDesc, length_rawDesc]
    exact sb.descBytes_ge
  have hsum := @updateGroupDescriptorChecksum_eq (contextAt d) g _ hlen
  unfold countedDesc at hsum
  unfold repairedDesc
  dsimp only
  rw [← h.sb_eq] at hsum ⊢
  rw [hfree, hfree, if_neg (by omega), if_neg (by omega), hsum]
  unfold newDesc fixedDesc countedDesc
  rw [← h.sb_eq]
  rfl

include hl

theorem Layout.slot_room {g k : Nat} (hg : g < sb.groupsCount) (hk : k ∈ copyGroups sb (rawSuper d)) :
    sb.tableBase k + g * sb.descBytes + sb.descBytes ≤ d.sizeBytes := by
  have hin := hl.within (p := .table k) (mem_copyGroups.mp hk) (holds_slot h.accepted hg)
  have hfits := h.accepted.fits
  omega

theorem Layout.super_room {k : Nat} (hk : k ∈ copyGroups sb (rawSuper d)) :
    sb.superBase k + 1024 ≤ d.sizeBytes := by
  have hin := hl.within (p := .super k) (mem_copyGroups.mp hk) (holds_super h.accepted k)
  have hfits := h.accepted.fits
  omega

/-- 異なる欄は重ならない。 -/
theorem Layout.slot_apart {i j k m : Nat} (hi : i < sb.groupsCount) (hj : j < sb.groupsCount)
    (hk : k ∈ copyGroups sb (rawSuper d)) (hm : m ∈ copyGroups sb (rawSuper d))
    (hne : i ≠ j ∨ k ≠ m) :
    sb.tableBase k + i * sb.descBytes + sb.descBytes ≤ sb.tableBase m + j * sb.descBytes ∨
      sb.tableBase m + j * sb.descBytes + sb.descBytes ≤ sb.tableBase k + i * sb.descBytes := by
  by_cases hkm : k = m
  · subst hkm
    have hij : i ≠ j := hne.resolve_right (not_not.mpr rfl)
    rcases Nat.lt_or_gt_of_ne hij with hlt | hlt
    · have := Nat.mul_le_mul_right sb.descBytes (Nat.succ_le_of_lt hlt)
      rw [Nat.succ_mul] at this
      omega
    · have := Nat.mul_le_mul_right sb.descBytes (Nat.succ_le_of_lt hlt)
      rw [Nat.succ_mul] at this
      omega
  · refine hl.disjoint (p := .table k) (q := .table m) (mem_copyGroups.mp hk) (mem_copyGroups.mp hm) ?_
      (holds_slot h.accepted hi) (holds_slot h.accepted hj)
    intro heq
    exact hkm (Place.table.inj heq)

omit h hl in
theorem mem_descWrites {n : Nat} {w : Write} : w ∈ descWrites d sb n ↔
    ∃ i < n, ∃ k ∈ copyGroups sb (rawSuper d), slotWrite d sb i k = w := by
  unfold descWrites groupWrites
  simp only [List.mem_flatMap, List.mem_range, List.mem_map]

/-- table の外は、descriptor を書いても変わらない。 -/
theorem Layout.read_descWrites {n o len : Nat} {p : Place} (hn : n ≤ sb.groupsCount)
    (hp : p.Present sb (rawSuper d)) (hne : ∀ k, p ≠ .table k) (hh : p.Holds d sb o len) :
    (d.data.applyAll (descWrites d sb n)).read o len = d.data.read o len := by
  refine Image.read_applyAll_of_disjoint _ _ _ _ fun w hw => ?_
  obtain ⟨i, hi, k, hk, rfl⟩ := mem_descWrites.mp hw
  show _ ≤ sb.tableBase k + _ ∨ sb.tableBase k + _ + (newDesc d sb i).length ≤ _
  rw [length_newDesc]
  exact hl.disjoint (q := .table k) hp (mem_copyGroups.mp hk) (hne k) hh (holds_slot h.accepted (by omega))

/-- まだ直していない group の descriptor は変わらない。 -/
theorem Layout.rawDesc_descWrites {n g : Nat} (hn : n ≤ g) (hg : g < sb.groupsCount) :
    (d.data.applyAll (descWrites d sb n)).read (sb.descOffset g) sb.descBytes = rawDesc d sb g := by
  have hzero : 0 ∈ copyGroups sb (rawSuper d) := by
    rw [copyGroups_eq (by omega)]
    exact List.mem_cons_self
  refine Image.read_applyAll_of_disjoint _ _ _ _ fun w hw => ?_
  obtain ⟨i, hi, k, hk, rfl⟩ := mem_descWrites.mp hw
  show _ ≤ sb.tableBase k + _ ∨ sb.tableBase k + _ + (newDesc d sb i).length ≤ _
  rw [length_newDesc]
  exact hl.slot_apart h hg (by omega) hzero hk (Or.inl (by omega))

/-! ## group のループ -/

/-- group 一つ分を直す。 -/
theorem Layout.run_repairGroup {g : Nat} (hg : g < sb.groupsCount) (hw : d.writable = true)
    (hmeta : sb.hasIncompat incompatMetaBg = false) (report : RepairReport) :
    Proc.run (repairGroup (contextAt d) (rawSuper d) g report)
        (d.emit ((descWrites d sb g).map .write)) =
      (.ok { report with
        freeBlocks := report.freeBlocks + zeroBits (blockBitmapAt d sb g) (sb.groupBlockCount g)
        freeInodes := report.freeInodes + zeroBits (inodeBitmapAt d sb g) (sb.groupInodeCount g)
        groupsRewritten := report.groupsRewritten + 1 },
      d.emit ((descWrites d sb (g + 1)).map .write)) := by
  obtain ⟨h1, h2, h3, h4⟩ := h.reads hg
  have hsb := h.sb_eq
  generalize he : d.emit ((descWrites d sb g).map .write) = e
  have hs : e.sizeBytes = d.sizeBytes := by rw [← he]; rfl
  have hew : e.writable = true := by rw [← he]; exact hw
  have hdata : e.data = d.data.applyAll (descWrites d sb g) := by
    rw [← he, Disk.emit_data, replay_writes]
  -- 読むところは、まだどれも変わっていない
  have hdesc : rawDesc e sb g = rawDesc d sb g := by
    unfold rawDesc
    rw [hdata]
    exact hl.rawDesc_descWrites h (Nat.le_refl g) hg
  have hbb := hl.read_descWrites h (p := .blockBitmap g) (Nat.le_of_lt hg) hg (by simp) (holds_block rfl)
  have hib := hl.read_descWrites h (p := .inodeBitmap g) (Nat.le_of_lt hg) hg (by simp) (holds_block rfl)
  rw [← hdata] at hbb hib
  have r1 := (readGroupDesc_congr hs hdesc).trans h1
  have r2 := (@readGroupDescriptorRaw_congr _ _ _ (contextAt d) hs (by rw [← hsb]; exact hdesc)).trans h2
  have r3 := (readBlockBitmap_congr hs hbb).trans h3
  have r4 := (readInodeBitmap_congr hs hib).trans h4
  have hloop := @run_writeDescCopies (contextAt d) (rawSuper d) g (newDesc d sb g) e.sizeBytes
    (fun k _ hk => by
      rw [← hsb] at hk ⊢
      rw [length_newDesc, hs]
      exact hl.slot_room h hg hk)
    (sb.groupsCount - 1) 1 (e.emit [.write ⟨sb.descOffset g, newDesc d sb g⟩]) (by omega)
    (by rw [← hsb]; omega) hew rfl
  have hcopies : Proc.run (writeGroupDescriptorCopies (contextAt d) (rawSuper d) g (newDesc d sb g)) e =
      (.ok (), e.emit ((groupWrites d sb g).map .write)) := by
    have hzero := hl.slot_room h hg (k := 0) (by
      rw [copyGroups_eq (by omega)]
      exact List.mem_cons_self)
    unfold writeGroupDescriptorCopies
    rw [← hsb, if_neg (by rw [hmeta]; decide),
      Proc.run_bind_ok (Proc.run_reading _ e |>.trans (by rw [h.address hg (length_newDesc d sb g)])),
      Proc.run_bind_ok (DevM.run_write_ok hew (by rw [length_newDesc, hs]; exact hzero)), hloop,
      Disk.emit_emit, groupWrites, copyGroups_eq (by omega), ← hsb]
    rfl
  unfold repairGroup
  rw [← hsb, Proc.run_bind_ok (Proc.run_reading _ e |>.trans (by rw [r1])),
    Proc.run_bind_ok (Proc.run_reading _ e |>.trans (by rw [r2])),
    Proc.run_bind_ok (Proc.run_reading _ e |>.trans (by rw [r3])),
    Proc.run_bind_ok (Proc.run_reading _ e |>.trans (by rw [r4])),
    Proc.run_bind_ok (Proc.run_reading _ e |>.trans (by rw [h.repairedDesc_eq g])),
    Proc.run_bind_ok hcopies, Proc.run_pure, ← he, Disk.emit_emit, ← List.map_append]
  unfold descWrites
  rw [List.range_succ, List.flatMap_append, List.flatMap_singleton]

/-- 残りの group をすべて直す。 -/
theorem Layout.run_repairGroups {cancelled : Nat → Bool} (hc : ∀ g, cancelled g = false)
    (hw : d.writable = true) (hmeta : sb.hasIncompat incompatMetaBg = false) :
    ∀ (n g : Nat) (report : RepairReport), g + n ≤ sb.groupsCount →
    Proc.run (repairGroups cancelled (contextAt d) (rawSuper d) n g report)
        (d.emit ((descWrites d sb g).map .write)) =
      (.ok { report with
        freeBlocks := report.freeBlocks + ∑ i ∈ range n,
          zeroBits (blockBitmapAt d sb (g + i)) (sb.groupBlockCount (g + i))
        freeInodes := report.freeInodes + ∑ i ∈ range n,
          zeroBits (inodeBitmapAt d sb (g + i)) (sb.groupInodeCount (g + i))
        groupsRewritten := report.groupsRewritten + n },
      d.emit ((descWrites d sb (g + n)).map .write))
  | 0, g, report, _ => by
    simp [repairGroups]
  | n + 1, g, report, hg => by
    have hstep := hl.run_repairGroup h (g := g) (by omega) hw hmeta report
    have hrest := Layout.run_repairGroups hc hw hmeta n (g + 1) { report with
        freeBlocks := report.freeBlocks + zeroBits (blockBitmapAt d sb g) (sb.groupBlockCount g)
        freeInodes := report.freeInodes + zeroBits (inodeBitmapAt d sb g) (sb.groupInodeCount g)
        groupsRewritten := report.groupsRewritten + 1 } (by omega)
    unfold repairGroups
    rw [if_neg (by rw [hc]; decide), Proc.run_bind_ok hstep, hrest, sum_range_succ', sum_range_succ']
    simp only [Nat.add_zero, Nat.add_right_comm, ← Nat.add_assoc]

/-! ## 修復の全体 -/

omit h hl in
theorem length_rawSuper (d : Disk) : (rawSuper d).length = 1024 := Image.length_read _ _ _

omit h hl in
theorem length_newSuper (d : Disk) (sb : Superblock) : (newSuper d sb).length = 1024 := by
  unfold newSuper
  rw [length_fixedSuper, length_rawSuper]

omit h hl in
/-- 写しを持つ group は、空きの数を直しても変わらない。 -/
theorem groupHasSuper_fixedSuper {raw : Bytes} {fb fi : Nat} :
    groupHasSuper (fixedSuper raw fb fi) = groupHasSuper raw := by
  funext g
  unfold groupHasSuper
  rw [readLe_fixedSuper (by omega) (by omega) (by omega),
    readLe_fixedSuper (by omega) (by omega) (by omega),
    readLe_fixedSuper (by omega) (by omega) (by omega),
    readLe_fixedSuper (by omega) (by omega) (by omega)]

omit h hl in
theorem copyGroups_newSuper : copyGroups sb (newSuper d sb) = copyGroups sb (rawSuper d) := by
  unfold copyGroups newSuper
  rw [groupHasSuper_fixedSuper]

omit hl in
theorem Readable.loadTolerant : loadMetadataContextTolerant d = .ok (contextAt d) := by
  obtain ⟨hsb, hraw, -, -⟩ := readSuperblock_eq h.super
  unfold loadMetadataContextTolerant
  rw [h.super, Result.ok_bind, hraw, Result.ok_bind]
  subst hsb
  rfl

end Run

/-- 修復が断らない filesystem。 -/
structure Repairable (host : Host) (cancelled : Nat → Bool) (opts : RepairOptions) (d : Disk)
    (sb : Superblock) : Prop where
  readable : Readable d sb
  layout : Layout d sb
  safe : checkDeviceSafety host opts.allowBlockDevice
    "block-device metadata repair requires --allow-block-device" = .ok ()
  noMetaBg : sb.hasIncompat incompatMetaBg = false
  noBigalloc : sb.hasRoCompat roCompatBigalloc = false
  noRecover : sb.hasIncompat incompatRecover = false
  writable : d.writable = true
  notCancelled : ∀ g, cancelled g = false
  verifyNotCancelled : ∀ g, host.verifyCancelled g = false

section Repair

variable {host : Host} {cancelled : Nat → Bool} {opts : RepairOptions} {d : Disk} {sb : Superblock}

/-- 修復は決まった列を書く。失敗しうるのは、その後の検証だけである。 -/
theorem Repairable.run_eq (h : Repairable host cancelled opts d sb) :
    (Proc.run (repairMetadataCounters host cancelled opts) d).2 = repaired d sb ∧
      ((∃ r, (Proc.run (repairMetadataCounters host cancelled opts) d).1 = .ok r) ↔
        (opts.verifyAfter = true → VerifiesClean (repaired d sb))) := by
  have hr := h.readable
  have hsb := hr.sb_eq
  have hpos := Nat.pos_of_ne_zero hr.accepted.groups_pos
  have hcheck : checkRepair host opts d = .ok (contextAt d) := by
    unfold checkRepair
    rw [h.safe, Result.ok_bind, hr.loadTolerant, Result.ok_bind, ← hsb,
      if_neg (by rw [h.noMetaBg]; decide), if_neg (by rw [h.noBigalloc]; decide),
      if_neg (by rw [h.noRecover]; decide)]
    rfl
  have hraw := (readSuperblock_eq hr.super).2.1
  have hgroups := h.layout.run_repairGroups hr h.notCancelled h.writable h.noMetaBg sb.groupsCount 0 {}
    (by omega)
  have hstart : d.emit ((descWrites d sb 0).map .write) = d := Disk.emit_nil d
  simp only [Nat.zero_add, hstart] at hgroups
  obtain ⟨report, hgroups, hb, hi⟩ : ∃ report : RepairReport,
      Proc.run (repairGroups cancelled (contextAt d) (rawSuper d) sb.groupsCount 0 {}) d =
        (.ok report, d.emit ((descWrites d sb sb.groupsCount).map .write)) ∧
      report.freeBlocks = countedBlocks d sb ∧ report.freeInodes = countedInodes d sb :=
    ⟨_, hgroups, rfl, rfl⟩
  have hsuper : repairedSuper (rawSuper d) report.freeBlocks report.freeInodes = .ok (newSuper d sb) := by
    rw [hb, hi]
    exact repairedSuper_eq (length_rawSuper d)
  have hcopies := @run_writeSuperblockCopies (contextAt d) (newSuper d sb)
    (d.emit ((descWrites d sb sb.groupsCount).map .write)) (length_newSuper d sb)
    (by rw [← hsb]; exact hpos) h.writable (fun k hk => by
      rw [← hsb, copyGroups_newSuper] at hk
      rw [← hsb]
      exact h.layout.super_room hr hk)
  have hend : (d.emit ((descWrites d sb sb.groupsCount).map .write)).emit
      ((superWrites (contextAt d).sb (newSuper d sb)).map .write ++ [.flush]) = repaired d sb := by
    rw [Disk.emit_emit, ← hsb, ← List.append_assoc, ← List.map_append]
    rfl
  have hverify : host.verifyCancelled = fun _ => false := funext h.verifyNotCancelled
  unfold repairMetadataCounters
  rw [Proc.run_bind_ok (Proc.run_reading _ d |>.trans (by rw [hcheck])),
    Proc.run_bind_ok (Proc.run_reading _ d |>.trans (by rw [hraw])), ← hsb, Proc.run_bind_ok hgroups,
    Proc.run_bind_ok (Proc.run_reading _ _ |>.trans (by rw [hsuper])),
    Proc.run_bind_ok hcopies, hend, hverify]
  by_cases hv : opts.verifyAfter = true
  · rw [if_pos hv]
    cases hrun : verifyMetadata (fun _ => false) (repaired d sb) with
    | error e =>
      have hnot : ¬ VerifiesClean (repaired d sb) := by
        rintro ⟨r, hok, -⟩
        rw [hrun] at hok
        cases hok
      rw [Proc.run_bind_error (Proc.run_reading _ _ |>.trans (by rw [hrun]))]
      refine ⟨rfl, ?_, fun hk => absurd (hk hv) hnot⟩
      rintro ⟨r, hok⟩
      cases hok
    | ok r =>
      rw [Proc.run_bind_ok (Proc.run_reading _ _ |>.trans (by rw [hrun]))]
      by_cases hclean : r.clean = true
      · rw [if_neg (by rw [hclean]; decide)]
        exact ⟨rfl, fun _ _ => ⟨r, hrun, hclean⟩, fun _ => ⟨_, rfl⟩⟩
      · rw [if_pos (by simpa using hclean)]
        refine ⟨rfl, ?_, fun hk => ?_⟩
        · rintro ⟨r, hok⟩
          cases hok
        · obtain ⟨r', hok, hcl⟩ := hk hv
          rw [hrun] at hok
          cases hok
          exact absurd hcl hclean
  · rw [if_neg hv]
    exact ⟨rfl, fun _ hk => absurd hk hv, fun _ => ⟨_, rfl⟩⟩

end Repair

end Fsx.Ext4
