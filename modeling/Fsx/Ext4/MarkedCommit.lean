import Fsx.Ext4.Bitmap
import Fsx.Ext4.MarkedRun

/-!
# dirty の印の下での移動の確定

`commit_staged_relocation` が書くのは、block bitmap と descriptor、inode、extent block、
移した tree block である。どれも primary superblock に重ならない配置なら、dirty の印は残る。
移動を一つ終えるたびに flush されているので、検証の時点で未 flush の書き込みはない。
-/

namespace Fsx.Ext4

open Proc Engine

/-! ## 配置の条件 -/

/-- 移動の確定が書くものが、どれも primary superblock に重ならない配置。 -/
structure CommitApart (srt : StdSort) (sb : Superblock) (moves : List OwnerMove) (d : Disk) :
    Prop where
  bitmap : ∀ g gd, readGroupDesc d sb g = .ok gd →
    Away (gd.blockBitmap * sb.blockSize) sb.blockSize
  inodes : ∀ g gd, readGroupDesc d sb g = .ok gd →
    Away (gd.inodeTable * sb.blockSize) (sb.inodesPerGroup * sb.inodeSize)
  /-- 葉の extent の記録がある extent block -/
  leaves : ∀ m ∈ moves, ∀ scan, scanInodeExtentTree srt d m.inode 0 = .ok scan →
    ∀ e ∈ scan.extents, e.reference.kind = .extentBlock →
      Away (e.reference.containerBlock * sb.blockSize) sb.blockSize
  /-- tree block の親のある extent block -/
  parents : ∀ m ∈ moves, ∀ scan, scanInodeExtentTree srt d m.inode 0 = .ok scan →
    ∀ t ∈ scan.treeBlocks, t.parentContainerByteOffset % sb.blockSize = 0 →
      Away t.parentContainerByteOffset sb.blockSize
  destinations : ∀ m ∈ moves, m.kind = .extentTreeBlock →
    Away (m.destinationBlock * sb.blockSize) sb.blockSize

/-! ## 書くもの -/

theorem length_of_readBlockBitmap {d : Disk} {sb : Superblock} {gd : GroupDesc} {bm : Bytes}
    (h : readBlockBitmap d sb gd = .ok bm) : bm.length = sb.blockSize := by
  rw [(readBlockBitmap_eq_ok h).2, Image.length_read]

theorem groupDescriptorAddress_ok {ctx : MetadataContext} {g addr : Nat} {raw : Bytes}
    (h : groupDescriptorAddress ctx g raw = .ok addr) : addr = ctx.sb.descOffset g :=
  (groupDescriptorAddress_eq_ok h).2.2

/-- descriptor への書き込みは superblock に触れない。 -/
theorem keepsDirty_desc {size g addr : Nat} {ctx : MetadataContext} {raw : Bytes}
    (ha : ctx.sb.Accepted size) (h : groupDescriptorAddress ctx g raw = .ok addr) (bytes : Bytes) :
    KeepsDirty ⟨addr, bytes⟩ := by
  rw [groupDescriptorAddress_ok h]
  have := ha.tableOffset_ge
  exact Or.inl (Or.inr (le_trans this (Nat.le_add_right _ _)))

theorem length_markTailBits {gs : Nat} : ∀ {n b : Nat} {bm bm' : Bytes},
    markTailBits gs n b bm = .ok bm' → bm'.length = bm.length
  | 0, _, _, _, h => by
    cases h
    rfl
  | n + 1, b, bm, bm', h => by
    rw [markTailBits] at h
    split at h
    · exact length_markTailBits h
    · split at h
      · cases h
      · rw [length_markTailBits h, length_setBitmapBit]

section Updates

variable {size : Nat} {d : Disk} {ctx : MetadataContext}

/-- 縮小が末尾の group に書く二つは、bitmap が superblock に重ならなければ、dirty の印を消さない。 -/
theorem tailUpdate_keepsDirty (ha : ctx.sb.Accepted size) {target : Nat} {u : Write × Write}
    (hap : ∀ gd, readGroupDesc d ctx.sb (ctx.sb.groupsCount - 1) = .ok gd →
      Away (gd.blockBitmap * ctx.sb.blockSize) ctx.sb.blockSize)
    (h : tailUpdate d ctx target = .ok u) : KeepsDirty u.1 ∧ KeepsDirty u.2 := by
  unfold tailUpdate at h
  obtain ⟨gd, hgd, h⟩ := Result.bind_eq_ok h
  obtain ⟨raw, -, h⟩ := Result.bind_eq_ok h
  obtain ⟨bm, hbm, h⟩ := Result.bind_eq_ok h
  obtain ⟨bm', hbm', h⟩ := Result.bind_eq_ok h
  rw [Result.guard_bind_eq_ok_iff] at h
  obtain ⟨raw'', -, h⟩ := Result.bind_eq_ok h.2
  obtain ⟨addr, haddr, h⟩ := Result.bind_eq_ok h
  cases h
  refine ⟨Or.inl ?_, keepsDirty_desc ha haddr _⟩
  rw [length_markTailBits hbm', length_of_readBlockBitmap hbm]
  exact hap gd hgd

/-- 拡大が末尾の group に書く二つも、同じ条件の下で dirty の印を消さない。 -/
theorem grownTail_keepsDirty (ha : ctx.sb.Accepted size) {t : LastGroup} {target : Nat}
    {u : Write × Write} (hap : Away (t.gd.blockBitmap * ctx.sb.blockSize) ctx.sb.blockSize)
    (hlen : t.bitmap.length = ctx.sb.blockSize) (h : grownTail ctx t target = .ok u) :
    KeepsDirty u.1 ∧ KeepsDirty u.2 := by
  unfold grownTail at h
  rw [Result.guard_bind_eq_ok_iff] at h
  obtain ⟨raw'', -, h⟩ := Result.bind_eq_ok h.2
  obtain ⟨addr, haddr, h⟩ := Result.bind_eq_ok h
  cases h
  refine ⟨Or.inl ?_, keepsDirty_desc ha haddr _⟩
  rw [length_setBitmapRange, hlen]
  exact hap

/-- 割り当ての更新が group に書く二つは、dirty の印を消さない。 -/
theorem groupUpdate_keepsDirty (ha : ctx.sb.Accepted size) {s : GroupSpan} {allocate : Bool}
    {u : Write × Write} (hap : ∀ g gd, readGroupDesc d ctx.sb g = .ok gd →
      Away (gd.blockBitmap * ctx.sb.blockSize) ctx.sb.blockSize)
    (h : groupUpdate d ctx s allocate = .ok u) : KeepsDirty u.1 ∧ KeepsDirty u.2 := by
  unfold groupUpdate at h
  obtain ⟨gd, hgd, h⟩ := Result.bind_eq_ok h
  obtain ⟨raw, -, h⟩ := Result.bind_eq_ok h
  obtain ⟨gdOk, -, h⟩ := Result.bind_eq_ok h
  rw [Result.guard_bind_eq_ok_iff] at h
  obtain ⟨bm, hbm, h⟩ := Result.bind_eq_ok h.2
  simp only [Result.guard_bind_eq_ok_iff] at h
  obtain ⟨-, -, -, h⟩ := h
  obtain ⟨raw'', -, h⟩ := Result.bind_eq_ok h
  obtain ⟨addr, haddr, h⟩ := Result.bind_eq_ok h
  cases h
  refine ⟨Or.inl ?_, keepsDirty_desc ha haddr _⟩
  rw [length_setBitmapRange, length_of_readBlockBitmap hbm]
  exact hap s.group gd hgd

/-- inode は inode table の中にある。 -/
theorem away_inodeOffset {inode addr : Nat} (ha : ctx.sb.Accepted size)
    (hap : ∀ g gd, readGroupDesc d ctx.sb g = .ok gd →
      Away (gd.inodeTable * ctx.sb.blockSize) (ctx.sb.inodesPerGroup * ctx.sb.inodeSize))
    (h : inodeOffset d ctx inode = .ok addr) : Away addr ctx.sb.inodeSize := by
  unfold inodeOffset at h
  rw [Result.guard_bind_eq_ok_iff] at h
  obtain ⟨gd, hgd, h⟩ := Result.bind_eq_ok h.2
  simp only [Result.guard_bind_eq_ok_iff, Result.pure_eq_ok_iff] at h
  obtain ⟨-, -, -, -, rfl⟩ := h
  have hlt : (inode - 1) % ctx.sb.inodesPerGroup + 1 ≤ ctx.sb.inodesPerGroup :=
    Nat.mod_lt _ ha.inodesPerGroup_pos
  have hmul := Nat.mul_le_mul_right ctx.sb.inodeSize hlt
  rw [Nat.succ_mul] at hmul
  have hap := hap _ gd hgd
  unfold Away at hap ⊢
  omega

/-- inode の root の entry の書き換えは、inode table の中に収まるので印を消さない。 -/
theorem inodeEntryWrite_keepsDirty {inode entryOff : Nat} {set : Bytes → Nat → Bytes}
    {text : String} {x : Write} (ha : ctx.sb.Accepted size)
    (hap : ∀ g gd, readGroupDesc d ctx.sb g = .ok gd →
      Away (gd.inodeTable * ctx.sb.blockSize) (ctx.sb.inodesPerGroup * ctx.sb.inodeSize))
    (h : inodeEntryWrite d ctx inode entryOff set text = .ok x) : KeepsDirty x := by
  unfold inodeEntryWrite at h
  obtain ⟨raw, -, h⟩ := Result.bind_eq_ok h
  rw [Result.guard_bind_eq_ok_iff] at h
  obtain ⟨raw', -, h⟩ := Result.bind_eq_ok h.2
  rw [Result.guard_bind_eq_ok_iff] at h
  obtain ⟨hlen, h⟩ := h
  obtain ⟨addr, haddr, h⟩ := Result.bind_eq_ok h
  cases h
  refine Or.inl ?_
  rw [not_not.mp hlen]
  exact away_inodeOffset ha hap haddr

theorem length_updateExtentBlockChecksum {inode generation : Nat} {b b' : Bytes}
    (h : updateExtentBlockChecksum ctx inode generation b = .ok b') : b'.length = b.length := by
  unfold updateExtentBlockChecksum at h
  split at h
  · cases h
    rfl
  · obtain ⟨c, -, h⟩ := Result.bind_eq_ok h
    cases h
    exact length_writeLe _ _ _ _

/-- tree block の entry の書き換えは、その block が superblock に重ならなければ印を消さない。 -/
theorem blockEntryWrite_keepsDirty {inode generation addr entryOff : Nat}
    {set : Bytes → Nat → Bytes} {sumText text : String} {x : Write}
    (hset : ∀ b off, (set b off).length = b.length) (hap : Away addr ctx.sb.blockSize)
    (h : blockEntryWrite d ctx inode generation addr entryOff set sumText text = .ok x) :
    KeepsDirty x := by
  unfold blockEntryWrite at h
  obtain ⟨block, hblock, h⟩ := Result.bind_eq_ok h
  obtain ⟨ok, -, h⟩ := Result.bind_eq_ok h
  simp only [Result.guard_bind_eq_ok_iff] at h
  obtain ⟨-, -, h⟩ := h
  obtain ⟨block', hblock', h⟩ := Result.bind_eq_ok h
  cases h
  refine Or.inl ?_
  rw [length_updateExtentBlockChecksum hblock', hset, (Disk.readExact_eq_ok_iff.mp hblock).2,
    Image.length_read]
  exact hap

end Updates

/-! ## 持ち主の切り替え -/

theorem findInodeExtent_ok {srt : StdSort} {d : Disk} {inode logical : Nat} {e : OwnedExtent}
    (h : findInodeExtent srt d inode logical = .ok e) :
    ∃ scan, scanInodeExtentTree srt d inode 0 = .ok scan ∧ e ∈ scan.extents := by
  unfold findInodeExtent at h
  obtain ⟨scan, hscan, h⟩ := Result.bind_eq_ok h
  refine ⟨scan, hscan, ?_⟩
  split at h
  · next hfind =>
    cases h
    exact List.mem_of_find?_eq_some hfind
  · cases h

theorem findTreeLocation_ok {srt : StdSort} {d : Disk} {ctx : MetadataContext} {m : OwnerMove}
    {t : ExtentTreeBlock} {generation : Nat}
    (h : findTreeLocation srt d ctx m = .ok (t, generation)) :
    ∃ scan, scanInodeExtentTree srt d m.inode 0 = .ok scan ∧ t ∈ scan.treeBlocks := by
  unfold findTreeLocation at h
  obtain ⟨scan, hscan, h⟩ := Result.bind_eq_ok h
  refine ⟨scan, hscan, ?_⟩
  split at h
  · cases h
  · next hfind =>
    obtain ⟨inode, -, h⟩ := Result.bind_eq_ok h
    cases h
    exact List.mem_of_find?_eq_some hfind

theorem length_setLeafPhysical (b : Bytes) (off block : Nat) :
    (setLeafPhysical b off block).length = b.length := by
  unfold setLeafPhysical
  rw [length_writeLe, length_writeLe]

theorem length_setIndexChild (b : Bytes) (off block : Nat) :
    (setIndexChild b off block).length = b.length := by
  unfold setIndexChild
  rw [length_writeLe, length_writeLe]

section Owners

variable {size : Nat} {d : Disk} {ctx : MetadataContext} {srt : StdSort} {moves : List OwnerMove}
  {m : OwnerMove} {newBlock : Nat} (ha : ctx.sb.Accepted size)
  (hap : CommitApart srt ctx.sb moves d) (hm : m ∈ moves)
include ha hap hm

/-- data の持ち主を付け替える書き込みは、あれば印を消さない。 -/
theorem dataOwnerUpdate_keepsDirty {u : Option Write}
    (h : dataOwnerUpdate srt d ctx m newBlock = .ok u) : ∀ x, u = some x → KeepsDirty x := by
  intro x hx
  unfold dataOwnerUpdate at h
  obtain ⟨e, he, h⟩ := Result.bind_eq_ok h
  obtain ⟨scan, hscan, hmem⟩ := findInodeExtent_ok he
  rw [Result.guard_bind_eq_ok_iff] at h
  obtain ⟨-, h⟩ := h
  split at h
  · cases h
    cases hx
  · rw [Result.guard_bind_eq_ok_iff] at h
    obtain ⟨-, h⟩ := h
    split at h
    · obtain ⟨w, hw, h⟩ := Result.bind_eq_ok h
      cases h
      cases hx
      exact inodeEntryWrite_keepsDirty ha hap.inodes hw
    · next hkind =>
      obtain ⟨w, hw, h⟩ := Result.bind_eq_ok h
      cases h
      cases hx
      exact blockEntryWrite_keepsDirty (fun b off => length_setLeafPhysical b off newBlock)
        (hap.leaves m hm scan hscan e hmem hkind) hw

/-- tree block の親を付け替える書き込みは、あれば印を消さない。 -/
theorem treeParentUpdate_keepsDirty {u : Option Write}
    (h : treeParentUpdate srt d ctx m newBlock = .ok u) : ∀ x, u = some x → KeepsDirty x := by
  intro x hx
  unfold treeParentUpdate at h
  obtain ⟨⟨t, generation⟩, ht, h⟩ := Result.bind_eq_ok h
  obtain ⟨scan, hscan, hmem⟩ := findTreeLocation_ok ht
  dsimp only at h
  split at h
  · cases h
    cases hx
  · rw [Result.guard_bind_eq_ok_iff] at h
    obtain ⟨-, h⟩ := h
    split at h
    · next hblock =>
      obtain ⟨w, hw, h⟩ := Result.bind_eq_ok h
      cases h
      cases hx
      exact blockEntryWrite_keepsDirty (fun b off => length_setIndexChild b off newBlock)
        (hap.parents m hm scan hscan t hmem hblock) hw
    · obtain ⟨w, hw, h⟩ := Result.bind_eq_ok h
      cases h
      cases hx
      exact inodeEntryWrite_keepsDirty ha hap.inodes hw

end Owners

/-! ## 移動一つ -/

section Moves

variable {A : Image → Prop} {boot : World} {fin : List WorldEvent} {ctx : MetadataContext}
  {srt : StdSort} {moves : List OwnerMove} (hA : ∀ img, ¬ MarkedClean img → A img)
  (ha : ctx.sb.Accepted boot.disk.sizeBytes)
  (hap : ∀ pre, pre <+: fin → CommitApart srt ctx.sb moves (boot.disk.emit (devEvents pre)))

include hA ha hap

/-- group ごとの更新を続ける間、耐久な像は dirty のままである。 -/
theorem until_rewriteSpans {allocate : Bool} : ∀ spans : List GroupSpan,
    Triple (Until fin (Guarded A boot)) (rewriteSpans ctx allocate spans)
      (fun _ => Until fin (Guarded A boot)) (Until fin (Guarded A boot))
  | [] => Triple.pure fun _ h => h
  | s :: rest => by
    refine Triple.bind ?_ fun _ => until_rewriteSpans rest
    refine Triple.bind (until_device (p := fun u => KeepsDirty u.1 ∧ KeepsDirty u.2) (fun _ h => h)
      fun pre hpre u hu => groupUpdate_keepsDirty ha (hap pre hpre).bitmap hu) fun u => ?_
    refine Triple.bind (until_write (p := KeepsDirty u.2) hA) fun _ => ?_
    refine (until_write (p := True) hA).mono (fun w h => ?_) (fun _ w h => ?_) fun _ h => h
    · exact h.mono fun _ hw => ⟨hw.1, hw.2, trivial⟩
    · exact h.mono fun _ hw => hw.1

/-- 割り当ての更新は、最後の flush で未 flush の書き込みをなくす。 -/
theorem until_setAllocationRange {start length : Nat} {allocate : Bool} :
    Triple (Until fin (Settled A boot)) (setAllocationRange ctx start length allocate)
      (fun _ => Until fin (Settled A boot)) (Until fin (Guarded A boot)) := by
  refine Triple.ite (fun _ => Triple.pure fun _ h => h) fun _ => ?_
  refine Triple.guard (fun _ h => h.mono fun _ => Settled.guarded) fun _ => ?_
  refine Triple.bind ?_ fun _ => until_flush
  exact (until_rewriteSpans hA ha hap _).mono (fun _ h => h.mono fun _ => Settled.guarded)
    (fun _ _ h => h) fun _ h => h

omit ha hap in
theorem until_emitUpdate {u : Option Write} :
    Triple (Until fin fun w => Settled A boot w ∧ ∀ x, u = some x → KeepsDirty x) (emitUpdate u)
      (fun _ => Until fin (Settled A boot)) (Until fin (Guarded A boot)) := by
  cases u with
  | none => exact Triple.pure fun _ h => h.mono fun _ hw => hw.1
  | some x =>
    refine Triple.bind ((until_write (p := True) hA).mono (fun w h => ?_) (fun _ w h => ?_)
      fun _ h => h) fun _ => until_flush
    · exact h.mono fun _ hw => ⟨hw.1.guarded, hw.2 x rfl, trivial⟩
    · exact h.mono fun _ hw => hw.1

omit ha in
theorem until_refreshTreeCopy {m : OwnerMove} (hm : m ∈ moves) (hkind : m.kind = .extentTreeBlock) :
    Triple (Until fin (Settled A boot)) (refreshTreeCopy ctx m) (fun _ => Until fin (Settled A boot))
      (Until fin (Guarded A boot)) := by
  refine Triple.bind (until_device (p := fun b => KeepsDirty
    ⟨m.destinationBlock * ctx.sb.blockSize, b⟩) (fun _ => Settled.guarded) ?_) fun b => ?_
  · intro pre hpre b hb
    unfold treeCopySource at hb
    obtain ⟨b', hread, hb⟩ := Result.bind_eq_ok hb
    obtain ⟨inode, -, hb⟩ := Result.bind_eq_ok hb
    obtain ⟨ok, -, hb⟩ := Result.bind_eq_ok hb
    rw [Result.guard_bind_eq_ok_iff] at hb
    cases hb.2
    refine Or.inl ?_
    rw [(Disk.readExact_eq_ok_iff.mp hread).2, Image.length_read]
    exact (hap pre hpre).destinations m hm hkind
  · refine Triple.bind ((until_write (p := True) hA).mono (fun w h => ?_) (fun _ w h => ?_)
      fun _ h => h) fun _ => Triple.bind until_flush fun _ => ?_
    · exact h.mono fun _ hw => ⟨hw.1.guarded, hw.2, trivial⟩
    · exact h.mono fun _ hw => hw.1
    · refine Triple.bind (until_read fun _ => Settled.guarded) fun _ => ?_
      exact Triple.ite (fun _ => Triple.throw fun _ h => h.mono fun _ => Settled.guarded)
        fun _ => Triple.pure fun _ h => h

/-- 持ち主を切り替える間も dirty の印は残り、終えたときに未 flush の書き込みはない。 -/
theorem until_switchOwner {bs : Nat} {m : OwnerMove} {stored : UInt32} (hm : m ∈ moves) :
    Triple (Until fin (Settled A boot)) (switchOwner srt ctx bs m stored)
      (fun _ => Until fin (Settled A boot)) (Until fin (Guarded A boot)) := by
  unfold switchOwner
  cases hkind : m.kind with
  | dataExtent =>
    refine Triple.bind (until_read fun _ => Settled.guarded) fun _ => ?_
    refine Triple.bind ?_ fun _ => until_journalOp
    refine Triple.bind (until_device (p := fun u => ∀ x, u = some x → KeepsDirty x)
      (fun _ => Settled.guarded) ?_) fun u => until_emitUpdate hA
    exact fun pre hpre u hu => dataOwnerUpdate_keepsDirty ha (hap pre hpre) hm hu
  | extentTreeBlock =>
    refine Triple.bind (until_refreshTreeCopy hA hap hm hkind) fun _ => ?_
    refine Triple.bind ?_ fun _ => until_journalOp
    refine Triple.bind (until_device (p := fun u => ∀ x, u = some x → KeepsDirty x)
      (fun _ => Settled.guarded) ?_) fun u => until_emitUpdate hA
    exact fun pre hpre u hu => treeParentUpdate_keepsDirty ha (hap pre hpre) hm hu

/-- 移動を一つ確定する間、dirty の印は残る。 -/
theorem until_commitMove {bs : Nat} {m : OwnerMove} {stored : UInt32} (hm : m ∈ moves) :
    Triple (Until fin (Settled A boot)) (commitMove srt ctx bs m stored)
      (fun _ => Until fin (Settled A boot)) (Until fin (Guarded A boot)) := by
  have hstay : ∀ w, Until fin (Settled A boot) w → Until fin (Guarded A boot) w :=
    fun _ h => h.mono fun _ => Settled.guarded
  refine Triple.bind (until_read fun _ => Settled.guarded) fun r => ?_
  refine Triple.bind (R := fun _ => Until fin (Settled A boot)) ?_ fun _ => ?_
  · refine Triple.ite (fun _ => Triple.pure fun _ h => h) fun _ => ?_
    refine Triple.guard hstay fun _ => ?_
    exact Triple.bind (until_setAllocationRange hA ha hap) fun _ => until_journalOp
  have hrelease : Triple (Until fin (Settled A boot)) (do
      releaseSource ctx m
      append (moveRecord .metadataCommitted m)) (fun _ => Until fin (Settled A boot))
      (Until fin (Guarded A boot)) := by
    refine Triple.bind ?_ fun _ => until_journalOp
    refine Triple.bind (until_read fun _ => Settled.guarded) fun src => ?_
    refine Triple.ite (fun _ => Triple.pure fun _ h => h) fun _ => ?_
    refine Triple.guard hstay fun _ => ?_
    exact Triple.bind (until_setAllocationRange hA ha hap) fun _ => until_journalOp
  exact Triple.ite (fun _ => Triple.bind (until_switchOwner hA ha hap hm) fun _ => hrelease)
    fun _ => hrelease

/-- すべての移動の間、dirty の印は残る。終わったときに未 flush の書き込みはない。 -/
theorem until_commitMoves {host : Host} (hsrt : host.srt = srt) {bs : Nat}
    {records : List JournalRecord} : ∀ (l : List OwnerMove) (i : Nat) (report : CommitReport),
    (∀ m ∈ l, m ∈ moves) →
    Triple (Until fin (Settled A boot)) (commitMoves host ctx bs records i l report)
      (fun _ => Until fin (Settled A boot)) (Until fin (Guarded A boot))
  | [], _, _, _ => Triple.pure fun _ h => h
  | m :: rest, i, report, hl => by
    refine Triple.ite (fun _ => Triple.bind until_journalOp fun _ => Triple.pure fun _ h => h)
      fun _ => ?_
    refine Triple.bind ?_ fun _ => until_commitMoves hsrt rest _ _
      fun m' hm' => hl m' (List.mem_cons_of_mem _ hm')
    rw [hsrt]
    exact until_commitMove hA ha hap (hl m List.mem_cons_self)

end Moves

end Fsx.Ext4
