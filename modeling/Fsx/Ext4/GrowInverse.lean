import Fsx.Ext4.GrowBack
import Fsx.Ext4.RepairHeals

/-!
# 縮めた device をもとの大きさまで広げる

縮小を終えた device（`ShrunkDisk`）では、拡大の検査は journal の回復の要求だけに左右される。
検査を通れば、末尾の group には縮小の前の bitmap と descriptor が書かれ、superblock には
もとの block の数と空きの数が入る（`Regrown`）。

descriptor table の写しの置き場所が bitmap で使われていないと、そこまで縮めてしまい、
拡大が写しを書けなくなる。`Placed` はそれを除く。
-/

namespace Fsx.Ext4

open Proc Engine Finset

/--
metadata の置き場所についての前提。superblock と descriptor table とその写し、bitmap は重ならず、
末尾の group にある descriptor table の写しは bitmap で使われている。
-/
structure Placed (d : Disk) (sb : Superblock) : Prop where
  separate : Separate d sb
  inUse : 0 < sb.groupsCount - 1 → groupHasSuper (rawSuper d) (sb.groupsCount - 1) = true →
    bitSet (blockBitmapAt d sb (sb.groupsCount - 1)) 1 = true

/-! ## 検査 -/

/-- 末尾の group は、一つの group の大きさを超えない。 -/
theorem Superblock.Accepted.last_le {size : Nat} {sb : Superblock} (ha : sb.Accepted size)
    (hsize : size < 2 ^ 63) :
    sb.blocksCount ≤ sb.groupStartBlock (sb.groupsCount - 1) + sb.blocksPerGroup := by
  have hpos := Nat.pos_of_ne_zero ha.groups_pos
  have hnext : ¬ sb.groupsCount * sb.blocksPerGroup < sb.blocksCount - sb.firstDataBlock :=
    fun h => Nat.lt_irrefl _ (ha.lt_groupsCount_iff.mpr h)
  rw [ha.groupStartBlock_eq hsize (Nat.sub_lt hpos Nat.one_pos)]
  have hsucc : sb.groupsCount * sb.blocksPerGroup =
      (sb.groupsCount - 1) * sb.blocksPerGroup + sb.blocksPerGroup := by
    rw [← Nat.succ_mul, Nat.succ_eq_add_one, Nat.sub_add_cancel hpos]
  omega

/-- 増える block がどれも metadata でなく、bitmap で塞がっていれば、ループは通る。 -/
theorem checkGrowRange_ok {sb : Superblock} {t : LastGroup} {gs : Nat} : ∀ {n b : Nat}, gs ≤ b →
    (∀ x, b ≤ x → x < b + n → ¬ t.gd.Covers sb x ∧ bitSet t.bitmap (x - gs) = true) →
    checkGrowRange sb t gs n b = .ok ()
  | 0, _, _, _ => rfl
  | n + 1, b, hgs, h => by
    obtain ⟨hfixed, hbit⟩ := h b (le_refl _) (by omega)
    unfold checkGrowRange
    rw [if_neg (by omega), LastGroup.isFixed_eq_false hfixed, if_neg Bool.false_ne_true,
      if_neg (by rw [hbit]; decide)]
    exact checkGrowRange_ok (by omega) fun x h1 h2 => h x (by omega) (by omega)

/-- 縮小は descriptor の指す block を変えない。 -/
theorem shrunkDesc_pointers {d : Disk} {sb : Superblock} {target : Nat} {bm : Bytes} :
    SamePointers sb (rawDesc d sb (sb.groupsCount - 1)) (shrunkDesc d sb target bm) :=
  decodeGroupDesc_resizedDesc

section Grow

variable {d e : Disk} {sb : Superblock} {target : Nat} {super bm : Bytes}
  (hs : ShrunkDisk d sb target e super bm) (hr : Readable d sb)

include hs

theorem ShrunkDisk.raw_eq : rawSuper e = super := hs.view.super

theorem ShrunkDisk.sb_eq : (contextAt e).sb = sb.shrunk target ((sb.state ||| 1) % 256 ^ 2) :=
  hs.readable.sb_eq.symm

theorem ShrunkDisk.context_eq (hsb : decodeSuperblock (rawSuper d) = sb) :
    contextAt e = (contextAt d).sized target (sb.freeBlocks - (sb.blocksCount - target))
      (sb.shrunkReserved target) ((sb.state ||| 1) % 256 ^ 2) := by
  refine SameBase.context_sized ?_ ?_
  · rw [hs.raw_eq]
    exact hs.base
  · rw [hs.raw_eq, hs.decoded, hsb]
    rfl

theorem ShrunkDisk.accepted : (contextAt e).sb.Accepted e.sizeBytes := by
  rw [hs.sb_eq]
  exact hs.readable.accepted

/-- 拡大の後の大きさは、縮小の前の大きさである。 -/
theorem ShrunkDisk.target_eq (ha : sb.Accepted d.sizeBytes) :
    sb.sizeBytes / (contextAt e).sb.blockSize = sb.blocksCount := by
  have hge := ha.blockSize_ge
  rw [hs.sb_eq, ha.sizeBytes_eq d.size_lt]
  exact Nat.mul_div_cancel _ (show 0 < sb.blockSize by omega)

/-- 縮めた device で拡大の検査に落ちるのは、journal の回復が要るときに限る。 -/
theorem ShrunkDisk.checkGrow_iff (ha : sb.Accepted d.sizeBytes) {ctx : MetadataContext} :
    checkGrow e sb.sizeBytes = .ok ctx ↔
      sb.hasIncompat incompatRecover = false ∧ ctx = contextAt e := by
  have hge := ha.blockSize_ge
  have hbytes := ha.sizeBytes_eq d.size_lt
  have hfits := ha.fits
  have htarget := hs.target_eq ha
  have hsum : ¬ ((sb.shrunk target ((sb.state ||| 1) % 256 ^ 2)).hasRoCompat roCompatMetadataCsum = true ∧
      verifySuperblockChecksum (rawSuper e) = false) := by
    rw [hs.raw_eq, hs.sum]
    exact fun h => Bool.noConfusion h.2
  unfold checkGrow
  rw [loadMetadataContext_eq hs.readable.super, if_neg hsum, Result.ok_bind]
  simp only [Result.guard_bind_eq_ok_iff, Result.pure_eq_ok_iff]
  rw [htarget, hs.sb_eq]
  have hsizes : (sb.shrunk target ((sb.state ||| 1) % 256 ^ 2)).sizeBytes = target * sb.blockSize :=
    hs.readable.accepted.sizeBytes_eq e.size_lt
  have hlt := Nat.mul_lt_mul_of_pos_right hs.lt (show 0 < sb.blockSize by omega)
  have hstate : ((sb.state ||| 1) % 256 ^ 2) &&& 1 ≠ 0 := by
    rw [Nat.and_one_is_mod, Nat.mod_mod_of_dvd _ (by decide), ← Nat.and_one_is_mod,
      Nat.and_or_distrib_right]
    exact fun h => absurd (Nat.or_eq_zero_iff.mp h).2 (by decide)
  constructor
  · rintro ⟨-, -, h, -, -, -, -, -, -, rfl⟩
    exact ⟨Bool.eq_false_iff.mpr h, rfl⟩
  · rintro ⟨hrec, rfl⟩
    refine ⟨Bool.eq_false_iff.mp hs.noMetaBg, Bool.eq_false_iff.mp hs.noBigalloc,
      Bool.eq_false_iff.mp hrec, hstate, ?_, ?_, ?_, ?_, ?_, rfl⟩
    · rw [hsizes, hbytes]
      omega
    · rw [hs.size, hbytes]
      omega
    · rw [hbytes]
      exact not_not.mpr (Nat.mul_mod_left _ _)
    · rw [hs.groups, not_not]
      exact (Superblock.groupsCount_eq ha.perGroup_pos).symm
    · rw [hs.groups, Nat.not_lt]
      exact ha.last_le d.size_lt

/-- なくなった block は縮小の前に空いていて、縮小の後には塞がっている。 -/
theorem ShrunkDisk.bits (ha : sb.Accepted d.sizeBytes) :
    (∀ x, target ≤ x → x < sb.blocksCount →
      bitSet (blockBitmapAt d sb (sb.groupsCount - 1))
        (x - sb.groupStartBlock (sb.groupsCount - 1)) = false ∧
      bitSet bm (x - sb.groupStartBlock (sb.groupsCount - 1)) = true) ∧
    setBitmapRange bm (target - sb.groupStartBlock (sb.groupsCount - 1)) (sb.blocksCount - target)
      false = blockBitmapAt d sb (sb.groupsCount - 1) := by
  have hlast := hs.last
  have hlt := hs.lt
  have hend := (ha.last_group d.size_lt).2
  have hlen : target + (sb.blocksCount - target) ≤ sb.groupStartBlock (sb.groupsCount - 1) +
      (blockBitmapAt d sb (sb.groupsCount - 1)).length * 8 := by
    unfold blockBitmapAt
    rw [Image.length_read]
    omega
  obtain ⟨hfree, hset⟩ := markTailBits_spec (Nat.le_of_lt hlast) hlen hs.marked
  refine ⟨fun x h1 h2 => ⟨hfree _ (by omega) (by omega), ?_⟩,
    setBitmapRange_markTailBits (Nat.le_of_lt hlast) hlen hs.marked⟩
  rw [hset, if_pos (by omega)]

/-- 縮めた device から読んだ末尾の group。 -/
def ShrunkDisk.tail (_ : ShrunkDisk d sb target e super bm) : LastGroup where
  gd := descAt e sb (sb.groupsCount - 1)
  raw := shrunkDesc d sb target bm
  bitmap := bm

theorem ShrunkDisk.descAt_eq : descAt e sb (sb.groupsCount - 1) =
    decodeGroupDesc sb (shrunkDesc d sb target bm) := by
  unfold descAt
  rw [show rawDesc e sb (sb.groupsCount - 1) = _ from hs.view.desc]

theorem ShrunkDisk.last_lt : sb.groupsCount - 1 <
    (sb.shrunk target ((sb.state ||| 1) % 256 ^ 2)).groupsCount := by
  have := Nat.pos_of_ne_zero hs.readable.accepted.groups_pos
  rw [hs.groups] at this ⊢
  omega

theorem ShrunkDisk.reads :
    readGroupDesc e (contextAt e).sb (sb.groupsCount - 1) = .ok hs.tail.gd ∧
    readGroupDescriptorRaw e (contextAt e) (sb.groupsCount - 1) = .ok hs.tail.raw ∧
    readBlockBitmap e (contextAt e).sb hs.tail.gd = .ok hs.tail.bitmap := by
  obtain ⟨h1, h2, h3, -⟩ := hs.readable.reads hs.last_lt
  rw [hs.sb_eq]
  refine ⟨h1, h2.trans (congrArg _ hs.view.desc), h3.trans (congrArg _ ?_)⟩
  exact hs.view.bitmapAt shrunkDesc_pointers

/-- 末尾の group は読めて、増える block の検査も通る。 -/
theorem ShrunkDisk.readLastGroup_eq (ha : sb.Accepted d.sizeBytes) :
    readLastGroup e (contextAt e) sb.blocksCount = .ok hs.tail := by
  obtain ⟨h1, h2, h3⟩ := hs.reads
  obtain ⟨p1, p2, p3⟩ := shrunkDesc_pointers
  have hgroups : (contextAt e).sb.groupsCount = sb.groupsCount := by rw [hs.sb_eq, hs.groups]
  have hlt := hs.lt
  have hlast := hs.last
  unfold readLastGroup
  dsimp only
  rw [hgroups, h1, Result.ok_bind, h2, Result.ok_bind, h3, Result.ok_bind]
  have hrange : checkGrowRange (contextAt e).sb hs.tail
      ((contextAt e).sb.groupStartBlock (sb.groupsCount - 1))
      (sb.blocksCount - (contextAt e).sb.blocksCount) (contextAt e).sb.blocksCount = .ok () := by
    rw [hs.sb_eq]
    refine checkGrowRange_ok (Nat.le_of_lt hlast) fun x hx hxlt => ?_
    replace hx : target ≤ x := hx
    replace hxlt : x < target + (sb.blocksCount - target) := hxlt
    refine ⟨fun hcov => hs.clear x hx (by omega) ?_, ((hs.bits ha).1 x hx (by omega)).2⟩
    -- descriptor の指す block は縮小の前と同じである
    have hgd : hs.tail.gd = decodeGroupDesc sb (shrunkDesc d sb target bm) := hs.descAt_eq
    unfold GroupDesc.Covers at hcov ⊢
    rw [hgd, p1, p2, p3] at hcov
    exact hcov
  rw [show ({ gd := hs.tail.gd, raw := hs.tail.raw, bitmap := hs.tail.bitmap } : LastGroup) = hs.tail
    from rfl, hrange]
  rfl

include hr

/-- **末尾の group の書き込みは、縮小の前の byte 列をもとの場所に置く。** -/
theorem ShrunkDisk.grownTail_eq (hclean : SumsOk d sb) :
    grownTail (contextAt e) hs.tail sb.blocksCount =
      .ok (⟨(descAt d sb (sb.groupsCount - 1)).blockBitmap * sb.blockSize,
          blockBitmapAt d sb (sb.groupsCount - 1)⟩,
        ⟨sb.descOffset (sb.groupsCount - 1), rawDesc d sb (sb.groupsCount - 1)⟩) := by
  have ha := hr.accepted
  have hgroups : (contextAt e).sb.groupsCount = sb.groupsCount := by rw [hs.sb_eq, hs.groups]
  have hge := sb.descBytes_ge
  have hlen : 32 ≤ (rawDesc d sb (sb.groupsCount - 1)).length := by rw [length_rawDesc]; exact hge
  have hlen' : (shrunkDesc d sb target bm).length = sb.descBytes := by
    unfold shrunkDesc
    rw [length_resizedDesc, length_rawDesc]
  have hcount := hs.count
  have hlastg : sb.groupsCount - 1 < sb.groupsCount :=
    Nat.sub_lt (Nat.pos_of_ne_zero ha.groups_pos) Nat.one_pos
  have hfree : descFree (shrunkDesc d sb target bm) =
      descFree (rawDesc d sb (sb.groupsCount - 1)) - (sb.blocksCount - target) :=
    descFree_resizedDesc hlen (Nat.sub_le _ _)
  have hback : descFree (shrunkDesc d sb target bm) + (sb.blocksCount - target) =
      descFree (rawDesc d sb (sb.groupsCount - 1)) := by omega
  have hlt := descFree_lt (rawDesc d sb (sb.groupsCount - 1))
  obtain ⟨-, -, -, -, -, haddr⟩ := readable_of_readGroupDesc hs.accepted hs.reads.1
  have hseal : (contextAt d).metadataCsum = true → (contextAt d).gdtCsum = true := fun hm => by
    show (_ || _) = true
    rw [show (decodeSuperblock (rawSuper d)).hasRoCompat roCompatMetadataCsum = true from hm,
      Bool.or_true]
  -- checksum は superblock の大きさの欄によらない
  have hctx : ∀ g raw free b, resizedDesc (contextAt e) g raw free b =
      resizedDesc (contextAt d) g raw free b := by
    intro g raw free b
    rw [hs.context_eq hr.sb_eq.symm, resizedDesc_sized]
  have hinv : resizedDesc (contextAt e) (sb.groupsCount - 1) (shrunkDesc d sb target bm)
      (descFree (rawDesc d sb (sb.groupsCount - 1))) (blockBitmapAt d sb (sb.groupsCount - 1)) =
        rawDesc d sb (sb.groupsCount - 1) := by
    rw [hctx]
    exact resizedDesc_resizedDesc hlen hseal (hclean.blockBitmap _ hlastg) (hclean.desc _ hlastg)
  unfold grownTail
  dsimp only
  rw [hgroups, show (contextAt e).sb.blocksCount = target by rw [hs.sb_eq]; rfl,
    show (contextAt e).sb.groupStartBlock (sb.groupsCount - 1) =
      sb.groupStartBlock (sb.groupsCount - 1) by rw [hs.sb_eq]; rfl,
    show hs.tail.raw = shrunkDesc d sb target bm from rfl,
    show hs.tail.bitmap = bm from rfl, hback, (hs.bits ha).2, if_neg (by omega),
    updateGroupDescriptorChecksum_eq (by
      rw [length_updateBlockBitmapChecksum, length_setDescFreeBlocks, hlen']
      exact hge), Result.ok_bind]
  rw [show sealedDesc (contextAt e) (sb.groupsCount - 1) (updateBlockBitmapChecksum (contextAt e)
    (setDescFreeBlocks (shrunkDesc d sb target bm) (descFree (rawDesc d sb (sb.groupsCount - 1))))
    (blockBitmapAt d sb (sb.groupsCount - 1))) = rawDesc d sb (sb.groupsCount - 1) from hinv,
    haddr _ (by rw [length_rawDesc, hs.sb_eq]; rfl), Result.ok_bind]
  have hbitmap : hs.tail.gd.blockBitmap = (descAt d sb (sb.groupsCount - 1)).blockBitmap := by
    rw [show hs.tail.gd = _ from hs.descAt_eq]
    exact shrunkDesc_pointers.1
  rw [hbitmap, hs.sb_eq]
  rfl

/-- 写しを持つ group の descriptor table の写しは、縮めた filesystem の中にある。 -/
theorem ShrunkDisk.start_succ_lt (hp : Placed d sb) {g : Nat} (h0 : 0 < g)
    (hg : g < sb.groupsCount) (hsup : groupHasSuper (rawSuper d) g = true) :
    (contextAt e).sb.groupStartBlock g + 1 < (contextAt e).sb.blocksCount := by
  have hlt := hs.lt
  have hlast := hs.last
  rcases Nat.lt_or_ge g (sb.groupsCount - 1) with h | h
  · refine hs.accepted.start_succ_lt e.size_lt ?_
    rw [hs.sb_eq, hs.groups]
    exact h
  · obtain rfl : g = sb.groupsCount - 1 := by omega
    rw [hs.sb_eq]
    show sb.groupStartBlock (sb.groupsCount - 1) + 1 < target
    by_contra hge
    -- 一つの block だけ残したのなら、写しの block は空いていたことになる
    have hfree := ((hs.bits hr.accepted).1 (sb.groupStartBlock (sb.groupsCount - 1) + 1) (by omega)
      (by omega)).1
    rw [Nat.add_sub_cancel_left, hp.inUse h0 hsup] at hfree
    cases hfree

end Grow

/-! ## 検証の手前まで -/

/-- もとの大きさの superblock まで書き終えた world。 -/
structure Regrown (d e : Disk) (sb : Superblock) (target : Nat) (r : Resized) (v : World) : Prop where
  ctx : r.ctx = contextAt e
  state : r.state = (sb.state ||| 1) % 256 ^ 2
  size : v.disk.sizeBytes = d.sizeBytes
  writable : v.disk.writable = true
  view : TailView d sb v.disk.data r.raw (rawDesc d sb (sb.groupsCount - 1))
    (blockBitmapAt d sb (sb.groupsCount - 1))
  base : SameBase (rawSuper d) r.raw
  sum : verifySuperblockChecksum r.raw = true
  decoded : decodeSuperblock r.raw = sb.sized sb.blocksCount sb.freeBlocks (sb.shrunkReserved target)
    (((sb.state ||| 1) % 256 ^ 2 &&& 0xfffe) % 256 ^ 2)

/-- それぞれの段が進めば、検証の手前まで進む。 -/
theorem prepareGrow_eq {host : Host} {opts : GrowOptions} {targetBytes : Nat} {w w1 w2 w3 : World}
    {ctx : MetadataContext} {t : LastGroup} {sbraw raw grown : Bytes} {u : Write × Write}
    (hsafe : checkDeviceSafety host opts.allowBlockDevice
      "block-device grow requires --allow-block-device" = .ok ())
    (hctx : checkGrow w.disk targetBytes = .ok ctx)
    (ht : readLastGroup w.disk ctx (targetBytes / ctx.sb.blockSize) = .ok t)
    (hread : readRawSuperblock w.disk = .ok sbraw)
    (hupd : updateSuperblockChecksum (writeLe 2 sbraw 0x3a (readLe 2 sbraw 0x3a &&& 0xfffe)) = .ok raw)
    (h1 : Proc.run (writeSuperCopies ctx raw) w = (.ok (), w1))
    (hu : grownTail ctx t (targetBytes / ctx.sb.blockSize) = .ok u)
    (h2 : Proc.run (do
      write u.1.off u.1.bytes
      write u.2.off u.2.bytes
      writeGroupDescBackups ctx raw (ctx.sb.groupsCount - 1) u.2.bytes
      flush) w1 = (.ok (), w2))
    (hgrown : grownSuper ctx raw (readLe 2 sbraw 0x3a) (targetBytes / ctx.sb.blockSize) = .ok grown)
    (h3 : Proc.run (writeSuperCopies ctx grown) w2 = (.ok (), w3)) :
    Proc.run (prepareGrow host targetBytes opts) w =
      (.ok ⟨ctx, grown, readLe 2 sbraw 0x3a⟩, w3) := by
  have htail : Proc.run (growTail ctx raw t (targetBytes / ctx.sb.blockSize)) w1 = (.ok (), w2) := by
    unfold growTail
    rw [run_device_bind hu]
    exact h2
  unfold prepareGrow
  rw [run_device_bind hsafe, run_device_bind hctx, run_device_bind ht, run_device_bind hread,
    run_device_bind hupd, run_bind_ok h1, run_bind_ok htail, run_device_bind hgrown, run_bind_ok h3]
  rfl

section Run

variable {d : Disk} {sb : Superblock} {target : Nat} {super bm : Bytes} {w : World}
  (hs : ShrunkDisk d sb target w.disk super bm) (hr : Readable d sb) (hp : Placed d sb)
  {host : Host} {opts : GrowOptions}

include hs hr

/-- 大きさを書き戻した superblock。 -/
theorem ShrunkDisk.grownSuper_ok {raw : Bytes} (state : Nat) (hbase : SameBase super raw)
    (hraw : decodeSuperblock raw =
      (decodeSuperblock super).sized target (sb.freeBlocks - (sb.blocksCount - target))
        (sb.shrunkReserved target) ((state &&& 0xfffe) % 256 ^ 2)) :
    ∃ grown, grownSuper (contextAt w.disk) raw state sb.blocksCount = .ok grown ∧
      SameBase (rawSuper d) grown ∧ verifySuperblockChecksum grown = true ∧
      decodeSuperblock grown = sb.sized sb.blocksCount sb.freeBlocks (sb.shrunkReserved target)
        ((state &&& 0xfffe) % 256 ^ 2) := by
  have ha := hr.accepted
  have hlt := hs.lt
  have hfree := hs.free
  have hblocks := ha.blocks_lt d.size_lt
  have hsb : decodeSuperblock (rawSuper d) = sb := hr.sb_eq.symm
  have hlen : raw.length = 1024 := by
    rw [(hs.base.trans hbase).length, length_rawSuper]
  have hcount : (contextAt w.disk).sb.blocksCount = target := by rw [hs.sb_eq]; rfl
  have hsum : (contextAt w.disk).sb.freeBlocks + (sb.blocksCount - (contextAt w.disk).sb.blocksCount) =
      sb.freeBlocks := by
    rw [hcount, hs.sb_eq]
    show sb.freeBlocks - (sb.blocksCount - target) + (sb.blocksCount - target) = _
    omega
  obtain ⟨grown, hgrown⟩ := @Ext4.grownSuper_ok (contextAt w.disk) raw w.disk.sizeBytes
    sb.blocksCount state hs.accepted w.disk.size_lt
    (by rw [hs.size, hs.sb_eq]; exact ha.fits) hlen
  have hnarrow : wideSuper raw = false → sb.blocksCount < 2 ^ 32 := by
    intro hw
    rw [(hs.base.trans hbase).wide] at hw
    rw [← hsb, blocksCount_eq]
    exact readLoHi_lt _ hw
  obtain ⟨hbase', hdec⟩ := decode_grown hlen (by omega) hnarrow (by
    rw [hsum]
    exact ha.free_le) hgrown
  rw [hsum, hraw, hs.decoded] at hdec
  refine ⟨grown, hgrown, (hs.base.trans hbase).trans hbase', ?_, hdec⟩
  unfold grownSuper at hgrown
  rw [Result.guard_bind_eq_ok_iff] at hgrown
  exact verifies_of_update (by rw [length_writeLe, length_setLoHi, length_setLoHi, hlen]) hgrown.2

include hp

/-- **検査を通った拡大は、検証の手前まで進む。** -/
theorem ShrunkDisk.run_prepareGrow (hclean : SumsOk d sb)
    (hsafe : checkDeviceSafety host opts.allowBlockDevice
      "block-device grow requires --allow-block-device" = .ok ())
    (hrec : sb.hasIncompat incompatRecover = false) :
    ∃ r v, Proc.run (prepareGrow host sb.sizeBytes opts) w = (.ok r, v) ∧
      Regrown d w.disk sb target r v := by
  have ha := hr.accepted
  have hsep := hp.separate
  have hgroups : (contextAt w.disk).sb.groupsCount = sb.groupsCount := by rw [hs.sb_eq, hs.groups]
  obtain ⟨-, hread, -⟩ := readSuperblock_eq hs.readable.super
  have hroom : 2048 ≤ w.disk.sizeBytes := (Disk.readExact_eq_ok_iff.mp hread).1
  have hlen : super.length = 1024 := by rw [hs.base.length, length_rawSuper]
  rw [hs.raw_eq] at hread
  -- dirty の印
  obtain ⟨raw, hupd, hrawlen⟩ := @updateSuperblockChecksum_of_length
    (writeLe 2 super 0x3a (readLe 2 super 0x3a &&& 0xfffe)) (by rw [length_writeLe, hlen])
  obtain ⟨hbase, hdec⟩ := decode_state hlen hupd
  have hview1 : TailView d sb (w.emit (superEvents (contextAt w.disk) raw)).disk.data raw
      (shrunkDesc d sb target bm) bm := by
    rw [World.emit_disk, Disk.emit_data]
    exact hs.view.supers ha hsep hs.sb_eq hgroups hrawlen (hs.base.trans hbase).groupHasSuper
  -- 末尾の group
  have htail := hs.grownTail_eq hr hclean
  have hlastg : sb.groupsCount - 1 < sb.groupsCount :=
    Nat.sub_lt (Nat.pos_of_ne_zero ha.groups_pos) Nat.one_pos
  obtain ⟨-, -, hbin, hwidth, hdin, -⟩ := readable_of_readGroupDesc hs.accepted hs.reads.1
  have hptr : hs.tail.gd.blockBitmap = (descAt d sb (sb.groupsCount - 1)).blockBitmap := by
    rw [show hs.tail.gd = _ from hs.descAt_eq]
    exact shrunkDesc_pointers.1
  have hcopies := (hs.base.trans hbase).groupHasSuper
  have hinside : TailInside w.disk.sizeBytes (contextAt w.disk).sb ((contextAt w.disk).sb.groupsCount - 1)
      (⟨(descAt d sb (sb.groupsCount - 1)).blockBitmap * sb.blockSize,
        blockBitmapAt d sb (sb.groupsCount - 1)⟩,
        ⟨sb.descOffset (sb.groupsCount - 1), rawDesc d sb (sb.groupsCount - 1)⟩) := by
    rw [hptr, hs.sb_eq] at hbin
    rw [hs.sb_eq] at hwidth hdin
    rw [hgroups, hs.sb_eq]
    refine ⟨?_, ?_, hwidth, rfl, length_rawDesc _ _ _⟩
    · dsimp only
      rw [show (blockBitmapAt d sb (sb.groupsCount - 1)).length = sb.blockSize from
        Image.length_read _ _ _]
      exact hbin
    · dsimp only
      rw [length_rawDesc]
      exact hdin
  obtain ⟨es, hes⟩ := @run_writeTail (contextAt w.disk) raw w.disk.sizeBytes _ hs.accepted
    w.disk.size_lt hinside (fun g h0 hg hsup => hs.start_succ_lt hr hp h0 (by rw [← hgroups]; exact hg)
      (by rw [← hcopies]; exact hsup))
    (fun g h0 hg hsup => by
      have hfit := hs.fits g h0 (by rw [← hgroups]; exact hg) (by rw [← hcopies]; exact hsup)
      unfold BackupFits at hfit ⊢
      rw [← show sb = (contextAt d).sb from hr.sb_eq] at hfit
      rw [hgroups, hs.size, hs.sb_eq]
      exact hfit) (w.emit (superEvents (contextAt w.disk) raw))
    (by rw [World.emit_disk, Disk.emit_writable]; exact hs.writable)
    (by rw [World.emit_disk, Disk.emit_sizeBytes])
  obtain ⟨us, hv2, hus⟩ := emit_of_writeTail hes
  have hview2 := hview1.tail ha hsep hs.sb_eq hgroups hcopies rfl rfl (Image.length_read _ _ _)
    (length_rawDesc _ _ _) hus
  -- もとの大きさの superblock
  have hstate : readLe 2 super 0x3a = (sb.state ||| 1) % 256 ^ 2 := by
    rw [← state_eq, hs.decoded]
    rfl
  obtain ⟨grown, hgrown, hbase', hsum, hdec'⟩ := hs.grownSuper_ok hr (readLe 2 super 0x3a)
    hbase (by rw [hdec, hs.decoded]; rfl)
  have hlen' : grown.length = 1024 := by rw [hbase'.length, length_rawSuper]
  refine ⟨⟨contextAt w.disk, grown, readLe 2 super 0x3a⟩,
    ((w.emit (superEvents (contextAt w.disk) raw)).emit es).emit
      (superEvents (contextAt w.disk) grown), ?_, rfl, hstate, ?_, ?_, ?_, hbase', hsum,
    by rw [hdec', hstate]⟩
  · refine prepareGrow_eq hsafe ((hs.checkGrow_iff ha).mpr ⟨hrec, rfl⟩)
      (by rw [hs.target_eq ha]; exact hs.readLastGroup_eq ha) hread hupd
      (run_writeSuperCopies hs.accepted hroom hrawlen hs.writable)
      (by rw [hs.target_eq ha]; exact htail) hes (by rw [hs.target_eq ha]; exact hgrown)
      (run_writeSuperCopies ?_ ?_ hlen' ?_)
    · simp only [World.emit_disk, Disk.emit_sizeBytes]
      exact hs.accepted
    · simp only [World.emit_disk, Disk.emit_sizeBytes]
      exact hroom
    · simp only [World.emit_disk, Disk.emit_writable]
      exact hs.writable
  · simp only [World.emit_disk, Disk.emit_sizeBytes]
    exact hs.size
  · simp only [World.emit_disk, Disk.emit_writable]
    exact hs.writable
  · rw [World.emit_disk, Disk.emit_data, hv2, World.emit_disk, Disk.emit_data]
    exact hview2.supers ha hsep hs.sb_eq hgroups hlen' hbase'.groupHasSuper

end Run

/-! ## もとに戻った device -/

/-- 検証に通った device の superblock は読める。 -/
theorem VerifiesClean.readable {d : Disk} {sb : Superblock} (h : VerifiesClean d)
    (hsb : readSuperblock d = .ok sb) : Readable d sb := by
  obtain ⟨r, hr, -⟩ := h
  exact (verifyMetadata_ok hsb hr).2.1

/-- 末尾の group がもとに戻った device は、もとの device と同じように検証に通る。 -/
theorem TailView.verifiesClean {d e : Disk} {sb : Superblock} {super : Bytes} {r s : Nat}
    (hr : Readable d sb) (hclean : VerifiesClean d) (hsize : e.sizeBytes = d.sizeBytes)
    (hv : TailView d sb e.data super (rawDesc d sb (sb.groupsCount - 1))
      (blockBitmapAt d sb (sb.groupsCount - 1))) (hbase : SameBase (rawSuper d) super)
    (hsum : verifySuperblockChecksum super = true)
    (hdec : decodeSuperblock super = sb.sized sb.blocksCount sb.freeBlocks r s)
    (hres : r ≤ sb.reservedBlocks) :
    readSuperblock e = .ok (sb.sized sb.blocksCount sb.freeBlocks r s) ∧ VerifiesClean e := by
  have hraw : rawSuper e = super := hv.super
  have hsb : decodeSuperblock (rawSuper d) = sb := hr.sb_eq.symm
  have hread := readSuperblock_state hsize hr.super (by rw [hraw]; exact hdec) hres
  have hre : Readable e (sb.sized sb.blocksCount sb.freeBlocks r s) := by
    refine ⟨hread, fun g hg => ?_⟩
    obtain ⟨gd, hgd⟩ := hr.desc g hg
    exact ⟨gd, (readGroupDesc_congr hsize (hv.same hg).1).trans hgd⟩
  have hctx : contextAt e = (contextAt d).sized sb.blocksCount sb.freeBlocks r s := by
    refine SameBase.context_sized (by rw [hraw]; exact hbase) ?_
    rw [hraw, hdec, hsb]
  refine ⟨hread, hre.verifiesClean_iff.mpr ?_⟩
  obtain ⟨hs, hi, hb⟩ := hr.verifiesClean_iff.mp hclean
  have hdesc : ∀ g < sb.groupsCount, descAt e sb g = descAt d sb g := fun g hg => by
    unfold descAt
    rw [(hv.same hg).1]
  refine ⟨⟨by rw [hraw]; exact hsum, fun g hg => ?_, fun g hg => ?_, fun g hg => ?_, fun g hg => ?_⟩,
    ⟨fun g hg => ?_, ?_⟩, ?_⟩
  · show verifyGroupDescriptorChecksum (contextAt e) g (rawDesc e sb g) = _
    rw [(hv.same hg).1, hctx, verifyGroupDescriptorChecksum_sized]
    exact hs.desc g hg
  · show verifyBlockBitmapChecksum (contextAt e) (rawDesc e sb g) (blockBitmapAt e sb g) = _
    rw [(hv.same hg).1, (hv.same hg).2.1, hctx, verifyBlockBitmapChecksum_sized]
    exact hs.blockBitmap g hg
  · show verifyInodeBitmapChecksum (contextAt e) (rawDesc e sb g) (inodeBitmapAt e sb g) = _
    rw [(hv.same hg).1, (hv.same hg).2.2, hctx, verifyInodeBitmapChecksum_sized]
    exact hs.inodeBitmap g hg
  · show (descAt e sb g).freeBlocks = zeroBits (blockBitmapAt e sb g) (sb.blocksIn g)
    rw [hdesc g hg, (hv.same hg).2.1]
    exact hs.freeBlocks g hg
  · show (descAt e sb g).freeInodes = zeroBits (inodeBitmapAt e sb g) (sb.groupInodeCount g)
    rw [hdesc g hg, (hv.same hg).2.2]
    exact hi.groups g hg
  · show sb.inodesCount = sb.freeInodes +
      ∑ g ∈ range sb.groupsCount, popcountBitmap (inodeBitmapAt e sb g) (sb.groupInodeCount g)
    rw [hi.total]
    exact congrArg _ (sum_congr rfl fun g hg => by rw [(hv.same (mem_range.mp hg)).2.2])
  · show sb.freeBlocks = sb.firstDataBlock +
      ∑ g ∈ range sb.groupsCount, zeroBits (blockBitmapAt e sb g) (sb.blocksIn g)
    rw [hb]
    exact congrArg _ (sum_congr rfl fun g hg => by rw [(hv.same (mem_range.mp hg)).2.1])

/-- device `f` は、`target` まで縮める前の device `d` に戻っている。 -/
structure Restored (d : Disk) (sb : Superblock) (target : Nat) (f : Disk) : Prop where
  desc : ∀ g < sb.groupsCount, rawDesc f sb g = rawDesc d sb g
  blockBitmap : ∀ g < sb.groupsCount, blockBitmapAt f sb g = blockBitmapAt d sb g
  inodeBitmap : ∀ g < sb.groupsCount, inodeBitmapAt f sb g = inodeBitmapAt d sb g
  super : ∃ sb', readSuperblock f = .ok sb' ∧ sb'.blocksCount = sb.blocksCount ∧
    sb'.freeBlocks = sb.freeBlocks ∧
    (sb.reservedBlocks ≤ target → sb'.reservedBlocks = sb.reservedBlocks)
  clean : VerifiesClean f

theorem Superblock.shrunkReserved_le (sb : Superblock) (target : Nat) :
    sb.shrunkReserved target ≤ sb.reservedBlocks := by
  unfold Superblock.shrunkReserved
  split <;> omega

section Complete

variable {d e : Disk} {sb : Superblock} {target : Nat} {r : Resized} {v : World} {host : Host}
  {opts : GrowOptions} {targetBytes : Nat} (h : Regrown d e sb target r v) (hr : Readable d sb)
  (hclean : VerifiesClean d)

include h hr hclean

/-- 検証は、中断されなければ通る。 -/
theorem Regrown.verifies (hc : ∀ g < sb.groupsCount, host.verifyCancelled g = false) :
    ∃ rep, verifyMetadata host.verifyCancelled v.disk = .ok rep ∧ rep.clean = true := by
  obtain ⟨hread, hv⟩ := h.view.verifiesClean hr hclean h.size h.base h.sum h.decoded
    (sb.shrunkReserved_le target)
  exact hv.run hread hc

/-- clean の印を付けた device はもとに戻っている。 -/
theorem Regrown.restored (hp : Placed d sb) {b f res s : Nat} (hctx : r.ctx.sb = sb.sized b f res s)
    (hgroups : r.ctx.sb.groupsCount = sb.groupsCount) {marked : Bytes}
    (hupd : updateSuperblockChecksum (writeLe 2 r.raw 0x3a (r.state ||| 1)) = .ok marked) {f : Disk}
    (hsize : f.sizeBytes = v.disk.sizeBytes)
    (hf : f.data = replay v.disk.data (superEvents r.ctx marked)) : Restored d sb target f := by
  have hlen : r.raw.length = 1024 := by rw [h.base.length, length_rawSuper]
  obtain ⟨hbase, hdec⟩ := decode_state hlen hupd
  have hmarked : marked.length = 1024 := hbase.length.trans hlen
  rw [h.decoded] at hdec
  have hview : TailView d sb f.data marked (rawDesc d sb (sb.groupsCount - 1))
      (blockBitmapAt d sb (sb.groupsCount - 1)) := by
    rw [hf]
    exact h.view.supers hr.accepted hp.separate hctx hgroups hmarked (h.base.trans hbase).groupHasSuper
  obtain ⟨hread, hv⟩ := hview.verifiesClean hr hclean (hsize.trans h.size) (h.base.trans hbase)
    (verifies_of_update (by rw [length_writeLe, hlen]) hupd) hdec (sb.shrunkReserved_le target)
  refine ⟨fun g hg => (hview.same hg).1, fun g hg => (hview.same hg).2.1,
    fun g hg => (hview.same hg).2.2, ⟨_, hread, rfl, rfl, fun hle => ?_⟩, hv⟩
  show sb.shrunkReserved target = _
  unfold Superblock.shrunkReserved
  rw [if_neg (Nat.not_lt.mpr hle)]

end Complete

/-! ## 主な結果 -/

/-- もとの大きさまでの拡大が成功したなら、device はもとに戻っている。 -/
def GrowRestores (d : Disk) (sb : Superblock) (target : Nat) (v : World) : Prop :=
  ∀ (host : Host) (opts : GrowOptions) (r : GrowReport) (v' : World),
    Proc.run (growWithinLastGroup host sb.sizeBytes opts) v = (.ok r, v') →
      Restored d sb target v'.disk

/-- もとの大きさまでの拡大は、journal の回復が要るときのほかは断られない。 -/
def GrowAccepted (sb : Superblock) (v : World) : Prop :=
  ∀ (host : Host) (opts : GrowOptions),
    checkDeviceSafety host opts.allowBlockDevice
      "block-device grow requires --allow-block-device" = .ok () →
    (∀ g < sb.groupsCount, host.verifyCancelled g = false) →
    sb.hasIncompat incompatRecover = false →
      ∃ r v', Proc.run (growWithinLastGroup host sb.sizeBytes opts) v = (.ok r, v')

/-- clean の印を付けて終わったなら、superblock の写しは書けている。 -/
theorem markClean_ok {r : Resized} {rep rep' : GrowReport} {w v : World} (h : Proc.run (do
      let clean ← device fun _ => updateSuperblockChecksum (writeLe 2 r.raw 0x3a (r.state ||| 1))
      writeSuperCopies r.ctx clean
      return rep') w = (.ok rep, v)) : ∃ marked v2,
    updateSuperblockChecksum (writeLe 2 r.raw 0x3a (r.state ||| 1)) = .ok marked ∧
      Proc.run (writeSuperCopies r.ctx marked) w = (.ok (), v2) ∧ v.disk = v2.disk := by
  obtain ⟨marked, hupd, h⟩ := run_device_bind_eq_ok h
  obtain ⟨_, v2, hcopies, h⟩ := run_bind_eq_ok h
  cases h
  exact ⟨marked, _, hupd, hcopies, rfl⟩

section Main

variable {d : Disk} {sb : Superblock} {target : Nat} {super bm : Bytes} {v : World}
  (hs : ShrunkDisk d sb target v.disk super bm) (hr : Readable d sb) (hp : Placed d sb)
  (hclean : VerifiesClean d)

include hs hr hp hclean

theorem ShrunkDisk.growRestores : GrowRestores d sb target v := by
  intro host opts rep v' h
  unfold growWithinLastGroup at h
  obtain ⟨r, v1, hprep, h⟩ := run_bind_eq_ok h
  -- 成功したのなら、はじめの検査は通っている
  have hsafe : checkDeviceSafety host opts.allowBlockDevice
        "block-device grow requires --allow-block-device" = .ok () ∧
      sb.hasIncompat incompatRecover = false := by
    unfold prepareGrow at hprep
    obtain ⟨_, hsafe, hprep⟩ := run_device_bind_eq_ok hprep
    obtain ⟨ctx, hctx, -⟩ := run_device_bind_eq_ok hprep
    exact ⟨hsafe, ((hs.checkGrow_iff hr.accepted).mp hctx).1⟩
  obtain ⟨r', v1', hrun, hgrown⟩ := hs.run_prepareGrow hr hp (hr.verifiesClean_iff.mp hclean).1 hsafe.1
    hsafe.2
  cases hprep.symm.trans hrun
  have hmark : ∃ marked v2, updateSuperblockChecksum (writeLe 2 r.raw 0x3a (r.state ||| 1)) =
      .ok marked ∧ Proc.run (writeSuperCopies r.ctx marked) v1 = (.ok (), v2) ∧ v'.disk = v2.disk := by
    unfold completeGrow at h
    split at h
    · obtain ⟨rep', -, h⟩ := run_device_bind_eq_ok h
      split at h
      · cases h
      · exact markClean_ok h
    · exact markClean_ok h
  obtain ⟨marked, v2, hupd, hcopies, hdisk⟩ := hmark
  have hctx := hgrown.ctx
  have hlen : marked.length = 1024 := by
    rw [(decode_state (by rw [hgrown.base.length, length_rawSuper]) hupd).1.length,
      hgrown.base.length, length_rawSuper]
  have hsize : v1.disk.sizeBytes = v.disk.sizeBytes := by rw [hgrown.size, hs.size]
  obtain ⟨-, hread, -⟩ := readSuperblock_eq hs.readable.super
  obtain ⟨-, hv⟩ := emit_of_writeSuperCopies (by rw [hctx, hsize]; exact hs.accepted)
    (by rw [hsize]; exact (Disk.readExact_eq_ok_iff.mp hread).1) hlen hcopies
  refine hgrown.restored hr hclean hp (by rw [hctx]; exact hs.sb_eq)
    (by rw [hctx, hs.sb_eq, hs.groups]) hupd ?_ ?_
  · rw [hdisk, hv, World.emit_disk, Disk.emit_sizeBytes]
  · rw [hdisk, hv, World.emit_disk, Disk.emit_data]

theorem ShrunkDisk.growAccepted : GrowAccepted sb v := by
  intro host opts hsafe hcancel hrec
  obtain ⟨r, v1, hrun, hgrown⟩ := hs.run_prepareGrow hr hp (hr.verifiesClean_iff.mp hclean).1 hsafe hrec
  obtain ⟨rep, hver, hrep⟩ := hgrown.verifies hr hclean hcancel
  obtain ⟨marked, hupd, hlen⟩ := @updateSuperblockChecksum_of_length
    (writeLe 2 r.raw 0x3a (r.state ||| 1))
    (by rw [length_writeLe, hgrown.base.length, length_rawSuper])
  have hsize : v1.disk.sizeBytes = v.disk.sizeBytes := by rw [hgrown.size, hs.size]
  obtain ⟨-, hread, -⟩ := readSuperblock_eq hs.readable.super
  have hcopies := @run_writeSuperCopies r.ctx marked v1
    (by rw [hgrown.ctx, hsize]; exact hs.accepted)
    (by rw [hsize]; exact (Disk.readExact_eq_ok_iff.mp hread).1) hlen hgrown.writable
  unfold growWithinLastGroup
  rw [run_bind_ok hrun]
  unfold completeGrow
  split
  · rw [run_device_bind hver, if_neg (by rw [hrep]; decide), run_device_bind hupd, run_bind_ok hcopies]
    exact ⟨_, _, rfl⟩
  · rw [run_device_bind hupd, run_bind_ok hcopies]
    exact ⟨_, _, rfl⟩

end Main

/--
**拡大は縮小の逆である。**

検証に通る device を `targetBytes` まで縮め終え、間に何も書かずにもとの大きさまで広げると、
どの group の descriptor と bitmap も、block の数も空きの数ももとに戻り、検証にも通る。予約の数は、
縮めた大きさを超えていなければ戻る。拡大は、journal の回復が要るときのほかは断られない。
-/
theorem grow_inverts_shrink {host : Host} {missing : Error} {targetBytes : Nat}
    {opts : FinalizeOptions} {w v : World} {sb : Superblock}
    (hsb : readSuperblock w.disk = .ok sb) (hclean : VerifiesClean w.disk) (hp : Placed w.disk sb)
    (h : Proc.run (finalizeMetadataOnlyShrink host missing targetBytes opts) w = (.ok (), v)) :
    GrowRestores w.disk sb (targetBytes / sb.blockSize) v ∧ GrowAccepted sb v := by
  have hr := hclean.readable hsb
  obtain ⟨super, bm, hs⟩ := shrunkDisk_of_run hr hp.separate h
  exact ⟨hs.growRestores hr hp hclean, hs.growAccepted hr hp hclean⟩

/-- 検証の答えを計算して clean なら、検証に通る。 -/
theorem verifiesClean_of_eq {d : Disk}
    (h : (verifyMetadata (fun _ => false) d).map (fun r => r.clean) = .ok true) : VerifiesClean d := by
  cases hv : verifyMetadata (fun _ => false) d with
  | error e =>
    rw [hv] at h
    cases h
  | ok r =>
    rw [hv] at h
    exact ⟨r, hv, Except.ok.inj h⟩

/-- 一つの group の filesystem を 16 block から 10 block に縮めて、戻す。 -/
theorem grow_inverts_shrink_tiny : ∃ v, GrowRestores Tiny.compacted.disk
    (decodeSuperblock (rawSuper Tiny.compacted.disk))
    (20480 / (decodeSuperblock (rawSuper Tiny.compacted.disk)).blockSize) v ∧
    GrowAccepted (decodeSuperblock (rawSuper Tiny.compacted.disk)) v := by
  have hone : OneGroup Tiny.compacted.disk (decodeSuperblock (rawSuper Tiny.compacted.disk)) := by
    decide +kernel
  obtain ⟨v, hv⟩ := Tiny.run_finalize
  refine ⟨v, grow_inverts_shrink hone.super (verifiesClean_of_eq (by decide +kernel))
    ⟨hone.layout.separate, fun h => ?_⟩ hv⟩
  rw [hone.one] at h
  cases h

namespace LooseTail

/--
末尾の group が、superblock の写しと descriptor table の写しの二つの block からなり、
後のほうが bitmap で空きになっている filesystem。
-/
def disk : Disk where
  sizeBytes := 32768
  logicalSector := 512
  isBlockDevice := false
  writable := true
  data := Image.applyAll (fun _ => 0) [
    ⟨1024, leBytes 4 16 ++ leBytes 4 10⟩, ⟨1024 + 0x0c, leBytes 4 1 ++ leBytes 4 8⟩,
    ⟨1024 + 0x18, leBytes 4 1⟩, ⟨1024 + 0x20, leBytes 4 8⟩, ⟨1024 + 0x28, leBytes 4 8⟩,
    ⟨1024 + 0x38, leBytes 2 extMagic ++ leBytes 2 1⟩, ⟨1024 + 0x58, leBytes 2 128⟩,
    ⟨2048, leBytes 4 2 ++ leBytes 4 3 ++ leBytes 4 4⟩,
    ⟨2080, leBytes 4 5 ++ leBytes 4 6 ++ leBytes 4 7 ++ leBytes 2 1 ++ leBytes 2 8⟩,
    ⟨4096, [0xff]⟩, ⟨6144, [0xff]⟩, ⟨10240, [0xfd]⟩]
  events := []
  size_lt := TwoGroups.size_lt

def boot : World :=
  ⟨disk, some {
    view := {
      identity := {
        operationUuid := Uuid.ofBytes (zeros 16), filesystemUuid := Uuid.ofBytes (zeros 16)
        deviceSize := 32768, targetSize := 18432 }
      phase := .compacted
      records := [] }
    capacity := 100 }, []⟩

/-- 空きの block を削ったところ。 -/
def after : Result Unit × World :=
  Proc.run (finalizeMetadataOnlyShrink Tiny.host Tiny.missing 18432 Tiny.finalizeOptions) boot

/-- もとの image は clean で縮小は成功し、写しの block が filesystem の外になって拡大は断られる。 -/
theorem facts : readSuperblock disk = .ok (decodeSuperblock (rawSuper disk)) ∧
    (verifyMetadata (fun _ => false) disk).map (fun r => r.clean) = .ok true ∧
    (decodeSuperblock (rawSuper disk)).hasIncompat incompatRecover = false ∧
    (decodeSuperblock (rawSuper disk)).sizeBytes = 20480 ∧ after.1 = .ok () ∧
    (Proc.run (growWithinLastGroup Tiny.host 20480 {}) after.2).1.map (fun _ => ()) =
      .error { code := .corrupt
               message := "backup descriptor table address is outside filesystem" } := by
  decide +kernel

theorem run_after (h : after.1 = .ok ()) : Proc.run (finalizeMetadataOnlyShrink Tiny.host
    Tiny.missing 18432 Tiny.finalizeOptions) boot = (.ok (), after.2) :=
  (Prod.mk.eta (p := after)).symm.trans (by rw [h])

end LooseTail

/-- 縮小の後の拡大は、置き場所についての前提がなければ断られることがある。 -/
theorem grow_refused_after_shrink : ¬ ∀ (host : Host) (missing : Error) (targetBytes : Nat)
    (opts : FinalizeOptions) (w v : World) (sb : Superblock), readSuperblock w.disk = .ok sb →
    VerifiesClean w.disk →
    Proc.run (finalizeMetadataOnlyShrink host missing targetBytes opts) w = (.ok (), v) →
    GrowRestores w.disk sb (targetBytes / sb.blockSize) v ∧ GrowAccepted sb v := by
  intro h
  obtain ⟨hsb, hclean, hrecover, hsize, hafter, hrefused⟩ := LooseTail.facts
  obtain ⟨r, v', hrun⟩ := (h Tiny.host Tiny.missing 18432 Tiny.finalizeOptions LooseTail.boot
    LooseTail.after.2 (decodeSuperblock (rawSuper LooseTail.disk)) hsb (verifiesClean_of_eq hclean)
    (LooseTail.run_after hafter)).2 Tiny.host {} rfl (fun _ _ => rfl) hrecover
  rw [← hsize, hrun] at hrefused
  cases hrefused

namespace SharedBlock

theorem size_lt : 65536 < 2 ^ 63 := by decide

/-- block bitmap が superblock の block に置かれ、bit の列が inode の数の欄と重なる filesystem。 -/
def disk : Disk where
  sizeBytes := 65536
  logicalSector := 512
  isBlockDevice := false
  writable := true
  data := Image.applyAll (fun _ => 0) [
    ⟨1024, leBytes 4 8 ++ leBytes 4 33⟩, ⟨1024 + 0x0c, leBytes 4 32 ++ leBytes 4 8 ++ leBytes 4 1⟩,
    ⟨1024 + 0x20, leBytes 4 8192⟩, ⟨1024 + 0x28, leBytes 4 8⟩,
    ⟨1024 + 0x38, leBytes 2 extMagic ++ leBytes 2 1⟩, ⟨1024 + 0x58, leBytes 2 128⟩,
    ⟨2048, leBytes 4 1 ++ leBytes 4 3 ++ leBytes 4 4 ++ leBytes 2 31 ++ leBytes 2 8⟩]
  events := []
  size_lt := size_lt

def boot : World :=
  ⟨disk, some {
    view := {
      identity := {
        operationUuid := Uuid.ofBytes (zeros 16), filesystemUuid := Uuid.ofBytes (zeros 16)
        deviceSize := 65536, targetSize := 32768 }
      phase := .compacted
      records := [] }
    capacity := 100 }, []⟩

def after : Result Unit × World :=
  Proc.run (finalizeMetadataOnlyShrink Tiny.host Tiny.missing 32768 Tiny.finalizeOptions) boot

/-- もとの image は clean で縮小は成功し、付けた印が superblock に上書きされて、拡大は断られる。 -/
theorem facts : readSuperblock disk = .ok (decodeSuperblock (rawSuper disk)) ∧
    (verifyMetadata (fun _ => false) disk).map (fun r => r.clean) = .ok true ∧
    (decodeSuperblock (rawSuper disk)).groupsCount = 1 ∧
    (decodeSuperblock (rawSuper disk)).hasIncompat incompatRecover = false ∧
    (decodeSuperblock (rawSuper disk)).sizeBytes = 33792 ∧ after.1 = .ok () ∧
    (Proc.run (growWithinLastGroup Tiny.host 33792 {}) after.2).1.map (fun _ => ()) =
      .error { code := .corrupt
               message := "block beyond current filesystem is not marked unavailable in last-group bitmap" } := by
  decide +kernel

theorem run_after (h : after.1 = .ok ()) : Proc.run (finalizeMetadataOnlyShrink Tiny.host
    Tiny.missing 32768 Tiny.finalizeOptions) boot = (.ok (), after.2) :=
  (Prod.mk.eta (p := after)).symm.trans (by rw [h])

end SharedBlock

/-- 置き場所が重なるときは、写しを持たない一つの group でも断られる。 -/
theorem grow_refused_overlapping : ∃ (w v : World) (sb : Superblock), readSuperblock w.disk = .ok sb ∧
    VerifiesClean w.disk ∧ sb.groupsCount = 1 ∧ ¬ GrowAccepted sb v ∧
    Proc.run (finalizeMetadataOnlyShrink Tiny.host Tiny.missing 32768 Tiny.finalizeOptions) w =
      (.ok (), v) := by
  obtain ⟨hsb, hclean, hgroups, hrecover, hsize, hafter, hrefused⟩ := SharedBlock.facts
  refine ⟨SharedBlock.boot, SharedBlock.after.2, decodeSuperblock (rawSuper SharedBlock.disk), hsb,
    verifiesClean_of_eq hclean, hgroups, fun h => ?_, SharedBlock.run_after hafter⟩
  obtain ⟨r, v', hrun⟩ := h Tiny.host {} rfl (fun _ _ => rfl) hrecover
  rw [← hsize, hrun] at hrefused
  cases hrefused

end Fsx.Ext4
