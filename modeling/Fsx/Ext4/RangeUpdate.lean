import Fsx.Ext4.AllocationRuns
import Fsx.Ext4.TailRewrite

/-!
# 割り当ての範囲の更新

`set_allocation_range` は範囲を group ごとに区切り、group ごとに bitmap と descriptor を読み直して書く。

三段で示す。

1. 一つの group の更新は、その bitmap の block と descriptor だけを変え、二つの checksum を合わせる
   （`rewriteGroupBitmap_updates`）。
2. 異なる group の bitmap と descriptor が重ならなければ、更新は互いに干渉せず、どの順でも積み重なる
   （`rewriteSpans_updates`）。
3. 区切りは範囲をちょうど覆うので、変わるのは範囲の block の bit だけである。
-/

namespace Fsx.Ext4

/-! ## 一つの group -/

/-- group の block bitmap は互いに異なる block にあり、descriptor table の外にある。 -/
structure BitmapsApart (d : Disk) (sb : Superblock) : Prop where
  distinct : ∀ g < sb.groupsCount, ∀ g' < sb.groupsCount, g ≠ g' →
    (descAt d sb g).blockBitmap ≠ (descAt d sb g').blockBitmap
  outside : ∀ g < sb.groupsCount,
    ((descAt d sb g).blockBitmap + 1) * sb.blockSize ≤ sb.tableOffset ∨
      sb.descOffset sb.groupsCount ≤ (descAt d sb g).blockBitmap * sb.blockSize

/-- 更新できる group。descriptor が読め、二つの checksum が合う。 -/
structure GroupReady (ctx : MetadataContext) (d : Disk) (g : Nat) : Prop where
  read : readGroupDesc d ctx.sb g = .ok (descAt d ctx.sb g)
  descSum : verifyGroupDescriptorChecksum ctx g (rawDesc d ctx.sb g) = .ok true
  bitmapSum : verifyBlockBitmapChecksum ctx (rawDesc d ctx.sb g) (blockBitmapAt d ctx.sb g) = true

section Group

variable (ctx : MetadataContext) (d : Disk) (allocate : Bool) (s : GroupSpan)

/-- 区切り `s` を書き換えた後の bitmap。 -/
def spanBitmap : Bytes :=
  setBitmapRange (blockBitmapAt d ctx.sb s.group) s.first s.count allocate

/-- 区切り `s` を書き換えた後の descriptor。 -/
def spanDesc : Bytes :=
  resizedDesc ctx s.group (rawDesc d ctx.sb s.group)
    (zeroBits (spanBitmap ctx d allocate s) (ctx.sb.groupBlockCount s.group))
    (spanBitmap ctx d allocate s)

/-- 区切り `s` の更新が起こすこと。 -/
def updateEvents : List Event :=
  [.write ⟨(descAt d ctx.sb s.group).blockBitmap * ctx.sb.blockSize, spanBitmap ctx d allocate s⟩,
    .write ⟨ctx.sb.descOffset s.group, spanDesc ctx d allocate s⟩]

@[simp] theorem length_spanBitmap : (spanBitmap ctx d allocate s).length = ctx.sb.blockSize := by
  unfold spanBitmap blockBitmapAt
  simp

@[simp] theorem length_spanDesc : (spanDesc ctx d allocate s).length = ctx.sb.descBytes := by
  unfold spanDesc
  rw [length_resizedDesc, length_rawDesc]

end Group

section Group

variable {ctx : MetadataContext} {d : Disk} {allocate : Bool} {s : GroupSpan} {g g' : Nat}
  {sb : Superblock}

/-- 異なる group の descriptor は重ならない。 -/
theorem descOffset_add_le (sb : Superblock) (h : g < g') :
    sb.descOffset g + sb.descBytes ≤ sb.descOffset g' := by
  have := Nat.mul_le_mul_right sb.descBytes (Nat.succ_le_of_lt h)
  unfold Superblock.descOffset
  rw [Nat.succ_mul] at this
  omega

/-- 異なる block は重ならない。 -/
theorem block_add_le {b b' bs : Nat} (h : b < b') : b * bs + bs ≤ b' * bs := by
  have := Nat.mul_le_mul_right bs (Nat.succ_le_of_lt h)
  rwa [Nat.succ_mul] at this

/-- 更新の中身は、書く前の bitmap と descriptor で決まる。 -/
theorem groupUpdate_eq (ha : ctx.sb.Accepted d.sizeBytes) (hr : GroupReady ctx d s.group)
    (hf : s.Fits ctx.sb) :
    groupUpdate d ctx s allocate =
      .ok (⟨(descAt d ctx.sb s.group).blockBitmap * ctx.sb.blockSize, spanBitmap ctx d allocate s⟩,
        ⟨ctx.sb.descOffset s.group, spanDesc ctx d allocate s⟩) := by
  obtain ⟨-, hraw, hbm, -⟩ := reads_of_readGroupDesc ha hr.read
  obtain ⟨-, -, -, -, -, haddr⟩ := readable_of_readGroupDesc ha hr.read
  have hcount := ha.groupBlockCount_eq d.size_lt hf.1
  have hbs := ha.blockSize_le
  have hper := ha.perGroup_le
  have hfit := hf.2
  have hpop := popcount_add_zeroBits (spanBitmap ctx d allocate s) (ctx.sb.groupBlockCount s.group)
  have hds := ctx.sb.descBytes_ge
  have hlen := length_rawDesc d ctx.sb s.group
  unfold groupUpdate
  rw [hr.read, Result.ok_bind, hraw, Result.ok_bind, hr.descSum, Result.ok_bind,
    if_neg Bool.true_eq_false.mp, hbm, Result.ok_bind, if_neg (by rw [hr.bitmapSum]; decide),
    if_neg (by omega)]
  have hfree : ctx.sb.groupBlockCount s.group -
      popcountBitmap (spanBitmap ctx d allocate s) (ctx.sb.groupBlockCount s.group) =
      zeroBits (spanBitmap ctx d allocate s) (ctx.sb.groupBlockCount s.group) := by omega
  have hle := zeroBits_le (spanBitmap ctx d allocate s) (ctx.sb.groupBlockCount s.group)
  unfold spanBitmap at hfree hle
  dsimp only
  rw [hfree, if_neg (by omega), updateGroupDescriptorChecksum_eq
    (by rw [length_updateBlockBitmapChecksum, length_setDescFreeBlocks]; omega), Result.ok_bind,
    haddr _ (by rw [length_sealedDesc, length_updateBlockBitmapChecksum,
    length_setDescFreeBlocks]; exact hlen), Result.ok_bind]
  rfl

/-- 一つの group の更新は、bitmap と descriptor を一度ずつ書いて成功する。 -/
theorem run_rewriteGroupBitmap {w : World} (ha : ctx.sb.Accepted w.disk.sizeBytes)
    (hr : GroupReady ctx w.disk s.group) (hf : s.Fits ctx.sb) (hw : w.disk.writable = true) :
    Proc.run (rewriteGroupBitmap ctx s allocate) w =
      (.ok (), w.emit (updateEvents ctx w.disk allocate s)) := by
  obtain ⟨-, -, hbin, -, hdin, -⟩ := readable_of_readGroupDesc ha hr.read
  unfold rewriteGroupBitmap
  rw [run_device_bind (groupUpdate_eq ha hr hf)]
  dsimp only
  rw [Proc.run_bind_ok (run_write_ok hw (by rw [length_spanBitmap]; exact hbin)),
    run_write_ok (by exact hw) (by rw [length_spanDesc]; exact hdin), World.emit_emit]
  rfl

end Group

/-! ## 更新の積み重ね -/

/-- byte 番地 `off` は、group `g` の bitmap の block と descriptor の外にある。 -/
def OutsideGroup (d : Disk) (sb : Superblock) (g off : Nat) : Prop :=
  (off < (descAt d sb g).blockBitmap * sb.blockSize ∨
    (descAt d sb g).blockBitmap * sb.blockSize + sb.blockSize ≤ off) ∧
  (off < sb.descOffset g ∨ sb.descOffset g + sb.descBytes ≤ off)

/-- 区切りの列 `spans` を更新した後の device。 -/
structure RangeUpdated (ctx : MetadataContext) (allocate : Bool) (spans : List GroupSpan)
    (d d' : Disk) : Prop where
  bitmap : ∀ s ∈ spans, blockBitmapAt d' ctx.sb s.group = spanBitmap ctx d allocate s
  desc : ∀ s ∈ spans, rawDesc d' ctx.sb s.group = spanDesc ctx d allocate s
  others : ∀ g < ctx.sb.groupsCount, (∀ s ∈ spans, s.group ≠ g) →
    rawDesc d' ctx.sb g = rawDesc d ctx.sb g ∧ blockBitmapAt d' ctx.sb g = blockBitmapAt d ctx.sb g
  frame : ∀ off, (∀ s ∈ spans, OutsideGroup d ctx.sb s.group off) → d'.data off = d.data off

section Updates

variable {ctx : MetadataContext} {d d' d'' : Disk} {allocate : Bool} {s : GroupSpan}
  {spans : List GroupSpan} {g : Nat} {sb : Superblock}

theorem descAt_congr (h : rawDesc d' sb g = rawDesc d sb g) : descAt d' sb g = descAt d sb g :=
  congrArg (decodeGroupDesc sb) h

/-- 更新は、bitmap や inode table の位置を変えない。 -/
theorem RangeUpdated.pointers (h : RangeUpdated ctx allocate spans d d')
    (hg : g < ctx.sb.groupsCount) :
    (descAt d' ctx.sb g).blockBitmap = (descAt d ctx.sb g).blockBitmap ∧
      (descAt d' ctx.sb g).inodeBitmap = (descAt d ctx.sb g).inodeBitmap ∧
      (descAt d' ctx.sb g).inodeTable = (descAt d ctx.sb g).inodeTable := by
  by_cases hex : ∃ s ∈ spans, s.group = g
  · obtain ⟨s, hs, rfl⟩ := hex
    unfold descAt
    rw [h.desc s hs]
    exact decodeGroupDesc_resizedDesc
  · rw [descAt_congr (h.others g hg fun s hs hc => hex ⟨s, hs, hc⟩).1]
    exact ⟨rfl, rfl, rfl⟩

theorem RangeUpdated.apart (h : RangeUpdated ctx allocate spans d d')
    (hap : BitmapsApart d ctx.sb) : BitmapsApart d' ctx.sb where
  distinct g hg g' hg' hne := by
    rw [(h.pointers hg).1, (h.pointers hg').1]
    exact hap.distinct g hg g' hg' hne
  outside g hg := by
    rw [(h.pointers hg).1]
    exact hap.outside g hg

/-- `read_group_desc` が見るのは、指す先の block だけである。 -/
theorem readGroupDesc_of_pointers {gd : GroupDesc} (h : readGroupDesc d sb g = .ok gd)
    (hsize : d'.sizeBytes = d.sizeBytes)
    (hbb : (descAt d' sb g).blockBitmap = (descAt d sb g).blockBitmap)
    (hib : (descAt d' sb g).inodeBitmap = (descAt d sb g).inodeBitmap)
    (hit : (descAt d' sb g).inodeTable = (descAt d sb g).inodeTable) :
    readGroupDesc d' sb g = .ok (descAt d' sb g) := by
  obtain ⟨hchecks, hroom, rfl, hin⟩ := readGroupDesc_eq_ok_iff.mp h
  exact readGroupDesc_eq_ok_iff.mpr ⟨hchecks, by rw [hsize]; exact hroom, rfl, hin.congr hbb hib hit⟩

/-- 更新されなかった group は、更新できるままである。 -/
theorem RangeUpdated.ready (h : RangeUpdated ctx allocate spans d d')
    (hsize : d'.sizeBytes = d.sizeBytes) (hg : g < ctx.sb.groupsCount)
    (hne : ∀ s ∈ spans, s.group ≠ g) (hr : GroupReady ctx d g) : GroupReady ctx d' g := by
  obtain ⟨h1, h2, h3⟩ := h.pointers hg
  obtain ⟨hraw, hbm⟩ := h.others g hg hne
  refine ⟨readGroupDesc_of_pointers hr.read hsize h1 h2 h3, ?_, ?_⟩
  · rw [hraw]
    exact hr.descSum
  · rw [hraw, hbm]
    exact hr.bitmapSum

/-- 更新の前後で同じ group の書き換えは、どちらから見ても同じである。 -/
theorem spanBitmap_congr (hbm : blockBitmapAt d' ctx.sb s.group = blockBitmapAt d ctx.sb s.group) :
    spanBitmap ctx d' allocate s = spanBitmap ctx d allocate s := by
  unfold spanBitmap
  rw [hbm]

theorem spanDesc_congr (hraw : rawDesc d' ctx.sb s.group = rawDesc d ctx.sb s.group)
    (hbm : blockBitmapAt d' ctx.sb s.group = blockBitmapAt d ctx.sb s.group) :
    spanDesc ctx d' allocate s = spanDesc ctx d allocate s := by
  unfold spanDesc
  rw [spanBitmap_congr hbm, hraw]

theorem RangeUpdated.nil : RangeUpdated ctx allocate [] d d where
  bitmap s hs := by cases hs
  desc s hs := by cases hs
  others g _ _ := ⟨rfl, rfl⟩
  frame off _ := rfl

/-- 一つの更新に、ほかの group の更新を続ける。 -/
theorem RangeUpdated.cons (h : RangeUpdated ctx allocate [s] d d')
    (hrest : RangeUpdated ctx allocate spans d' d'') (hs : s.group < ctx.sb.groupsCount)
    (hspans : ∀ r ∈ spans, r.group < ctx.sb.groupsCount) (hne : ∀ r ∈ spans, r.group ≠ s.group) :
    RangeUpdated ctx allocate (s :: spans) d d'' := by
  -- 続きの group は、はじめの更新では変わっていない
  have hkeep : ∀ r ∈ spans, rawDesc d' ctx.sb r.group = rawDesc d ctx.sb r.group ∧
      blockBitmapAt d' ctx.sb r.group = blockBitmapAt d ctx.sb r.group := by
    intro r hr
    refine h.others r.group (hspans r hr) fun x hx => ?_
    rw [List.mem_singleton.mp hx]
    exact (hne r hr).symm
  obtain ⟨hraw, hbm⟩ := hrest.others s.group hs hne
  refine ⟨?_, ?_, ?_, ?_⟩
  · intro r hr
    rcases List.mem_cons.mp hr with rfl | hr
    · rw [hbm]
      exact h.bitmap r (List.mem_singleton_self r)
    · rw [hrest.bitmap r hr]
      exact spanBitmap_congr (hkeep r hr).2
  · intro r hr
    rcases List.mem_cons.mp hr with rfl | hr
    · rw [hraw]
      exact h.desc r (List.mem_singleton_self r)
    · rw [hrest.desc r hr]
      exact spanDesc_congr (hkeep r hr).1 (hkeep r hr).2
  · intro g hg hno
    obtain ⟨h1, h2⟩ := h.others g hg fun x hx => by
      rw [List.mem_singleton.mp hx]
      exact hno s List.mem_cons_self
    obtain ⟨h3, h4⟩ := hrest.others g hg fun r hr => hno r (List.mem_cons_of_mem _ hr)
    exact ⟨h3.trans h1, h4.trans h2⟩
  · intro off hmiss
    have h1 := h.frame off fun x hx => by
      rw [List.mem_singleton.mp hx]
      exact hmiss s List.mem_cons_self
    rw [← h1]
    refine hrest.frame off fun r hr => ?_
    have := hmiss r (List.mem_cons_of_mem _ hr)
    unfold OutsideGroup at this ⊢
    rw [descAt_congr (hkeep r hr).1]
    exact this

/-- **一つの group の更新は、その bitmap の block と descriptor だけを変える。** -/
theorem updated_updateEvents (hap : BitmapsApart d ctx.sb) (hg : s.group < ctx.sb.groupsCount) :
    RangeUpdated ctx allocate [s] d (d.emit (updateEvents ctx d allocate s)) := by
  have hlenb := length_spanBitmap ctx d allocate s
  have hlend := length_spanDesc ctx d allocate s
  have hds := ctx.sb.descBytes_ge
  have hdata : (d.emit (updateEvents ctx d allocate s)).data =
      (d.data.write ((descAt d ctx.sb s.group).blockBitmap * ctx.sb.blockSize)
        (spanBitmap ctx d allocate s)).write (ctx.sb.descOffset s.group)
        (spanDesc ctx d allocate s) := rfl
  -- descriptor table は、どの bitmap の block とも重ならない
  have htable : ∀ g < ctx.sb.groupsCount, ∀ g' < ctx.sb.groupsCount,
      ctx.sb.descOffset g + ctx.sb.descBytes ≤ (descAt d ctx.sb g').blockBitmap * ctx.sb.blockSize ∨
        (descAt d ctx.sb g').blockBitmap * ctx.sb.blockSize + ctx.sb.blockSize ≤
          ctx.sb.descOffset g := by
    intro g hg g' hg'
    have hle := descOffset_add_le ctx.sb hg
    rcases hap.outside g' hg' with h | h
    · rw [Nat.succ_mul] at h
      have : ctx.sb.tableOffset ≤ ctx.sb.descOffset g := Nat.le_add_right _ _
      omega
    · omega
  have hraw : ∀ g < ctx.sb.groupsCount, rawDesc (d.emit (updateEvents ctx d allocate s)) ctx.sb g =
      if g = s.group then spanDesc ctx d allocate s else rawDesc d ctx.sb g := by
    intro g hgg
    unfold rawDesc
    rw [hdata]
    by_cases h : g = s.group
    · rw [if_pos h, h, Image.read_write_self _ _ _ hlend]
    · have hap' : ctx.sb.descOffset g + ctx.sb.descBytes ≤ ctx.sb.descOffset s.group ∨
          ctx.sb.descOffset s.group + ctx.sb.descBytes ≤ ctx.sb.descOffset g := by
        rcases Nat.lt_or_gt_of_ne h with hlt | hgt
        · exact Or.inl (descOffset_add_le _ hlt)
        · exact Or.inr (descOffset_add_le _ hgt)
      rw [if_neg h, Image.read_write_of_disjoint (by rw [hlend]; exact hap'),
        Image.read_write_of_disjoint (by rw [hlenb]; exact htable g hgg _ hg)]
  have hblock : ∀ g < ctx.sb.groupsCount,
      (descAt (d.emit (updateEvents ctx d allocate s)) ctx.sb g).blockBitmap =
        (descAt d ctx.sb g).blockBitmap := by
    intro g hgg
    unfold descAt
    rw [hraw g hgg]
    by_cases h : g = s.group
    · rw [if_pos h, h]
      exact decodeGroupDesc_resizedDesc.1
    · rw [if_neg h]
  have hbm : ∀ g < ctx.sb.groupsCount,
      blockBitmapAt (d.emit (updateEvents ctx d allocate s)) ctx.sb g =
        if g = s.group then spanBitmap ctx d allocate s else blockBitmapAt d ctx.sb g := by
    intro g hgg
    unfold blockBitmapAt
    rw [hblock g hgg, hdata, Image.read_write_of_disjoint
      (by rw [hlend]; exact (htable _ hg g hgg).symm)]
    by_cases h : g = s.group
    · rw [if_pos h, h, Image.read_write_self _ _ _ hlenb]
    · have hne := hap.distinct g hgg s.group hg h
      have hap' : (descAt d ctx.sb g).blockBitmap * ctx.sb.blockSize + ctx.sb.blockSize ≤
            (descAt d ctx.sb s.group).blockBitmap * ctx.sb.blockSize ∨
          (descAt d ctx.sb s.group).blockBitmap * ctx.sb.blockSize + ctx.sb.blockSize ≤
            (descAt d ctx.sb g).blockBitmap * ctx.sb.blockSize := by
        rcases Nat.lt_or_gt_of_ne hne with hlt | hgt
        · exact Or.inl (block_add_le hlt)
        · exact Or.inr (block_add_le hgt)
      rw [if_neg h, Image.read_write_of_disjoint (by rw [hlenb]; exact hap')]
  refine ⟨?_, ?_, ?_, ?_⟩
  · intro x hx
    rw [List.mem_singleton.mp hx, hbm _ hg, if_pos rfl]
  · intro x hx
    rw [List.mem_singleton.mp hx, hraw _ hg, if_pos rfl]
  · intro g hgg hno
    have hne : g ≠ s.group := (hno s (List.mem_singleton_self s)).symm
    rw [hraw g hgg, hbm g hgg, if_neg hne, if_neg hne]
    exact ⟨rfl, rfl⟩
  · intro off hmiss
    obtain ⟨h1, h2⟩ := hmiss s (List.mem_singleton_self s)
    rw [hdata, Image.write_apply_of_not_mem (by rw [hlend]; exact h2),
      Image.write_apply_of_not_mem (by rw [hlenb]; exact h1)]

/-- **異なる group の更新は、互いに干渉せずに積み重なる。** -/
theorem run_rewriteSpans {w : World} (ha : ctx.sb.Accepted w.disk.sizeBytes)
    (hw : w.disk.writable = true) (hap : BitmapsApart w.disk ctx.sb)
    (hr : ∀ s ∈ spans, GroupReady ctx w.disk s.group) (hf : ∀ s ∈ spans, s.Fits ctx.sb)
    (hdis : spans.Pairwise fun a b => a.group < b.group) :
    ∃ es, Proc.run (rewriteSpans ctx allocate spans) w = (.ok (), w.emit es) ∧
      RangeUpdated ctx allocate spans w.disk (w.emit es).disk := by
  induction spans generalizing w with
  | nil =>
    refine ⟨[], ?_, ?_⟩
    · rw [World.emit_nil]
      rfl
    · rw [World.emit_nil]
      exact RangeUpdated.nil
  | cons s spans ih =>
    obtain ⟨hhead, hdis⟩ := List.pairwise_cons.mp hdis
    have hs := hf s List.mem_cons_self
    have hone := @updated_updateEvents ctx w.disk allocate s hap hs.1
    have hstep := @run_rewriteGroupBitmap ctx allocate s w ha (hr s List.mem_cons_self) hs hw
    have hlt : ∀ r ∈ spans, r.group < ctx.sb.groupsCount := fun r h =>
      (hf r (List.mem_cons_of_mem _ h)).1
    have hne : ∀ r ∈ spans, r.group ≠ s.group := fun r h => Nat.ne_of_gt (hhead r h)
    obtain ⟨es, hrun, hrest⟩ := ih (w := w.emit (updateEvents ctx w.disk allocate s)) ha hw
      (hone.apart hap)
      (fun r h => hone.ready rfl (hlt r h)
        (fun x hx => by rw [List.mem_singleton.mp hx]; exact (hne r h).symm)
        (hr r (List.mem_cons_of_mem _ h)))
      (fun r h => hf r (List.mem_cons_of_mem _ h)) hdis
    rw [World.emit_emit] at hrun hrest
    refine ⟨_, ?_, hone.cons hrest hs.1 hlt hne⟩
    unfold rewriteSpans
    rw [Proc.run_bind_ok hstep, hrun]

end Updates

/-! ## 区切りと範囲 -/

/-- group `g` の `i` 番目の bit は、範囲 `[start, start + length)` の block の印である。 -/
def InRange (sb : Superblock) (start length g i : Nat) : Prop :=
  i < sb.groupBlockCount g ∧ start ≤ sb.groupStartBlock g + i ∧
    sb.groupStartBlock g + i < start + length

instance (sb : Superblock) (start length g i : Nat) : Decidable (InRange sb start length g i) :=
  inferInstanceAs (Decidable (_ ∧ _ ∧ _))

/-- 範囲の block を持つ group。 -/
def Touches (sb : Superblock) (start length g : Nat) : Prop := ∃ i, InRange sb start length g i

section Spans

variable {size : Nat} {sb : Superblock} {start length : Nat}

/-- 区切りの group は、範囲を進むにつれて大きくなる。 -/
theorem groupSpans_sorted (h : sb.Accepted size) (hsize : size < 2 ^ 63) :
    ∀ {fuel pos left : Nat}, sb.firstDataBlock ≤ pos → pos + left ≤ sb.blocksCount →
      (groupSpans sb fuel pos left).Pairwise fun a b => a.group < b.group
  | 0, _, _, _, _ => .nil
  | fuel + 1, pos, left, hpos, hend => by
    rw [groupSpans]
    by_cases hleft : left = 0
    · rw [if_pos hleft]
      exact .nil
    · rw [if_neg hleft]
      dsimp only
      obtain ⟨n, hn, hnl, hmin, hstart, hfits, -⟩ :=
        head_span h hsize hpos (Nat.pos_of_ne_zero hleft) hend
      rw [hmin, hstart]
      refine List.pairwise_cons.mpr
        ⟨fun r hr => ?_, groupSpans_sorted h hsize (by omega) (by omega)⟩
      -- 続きがあるのは、はじめの区切りが group の終わりまで届くときだけである
      obtain ⟨b, h1, h2, hg⟩ := group_of_mem_groupSpans hr
      have hidx := Superblock.start_add_index hpos
      have hcount := h.groupBlockCount_eq hsize (g := sb.groupOf pos) hfits.1
      have hn' : n = sb.groupBlockCount (sb.groupOf pos) - sb.indexOf pos := by
        rw [hstart] at hmin
        unfold Superblock.groupOf
        omega
      rw [hg]
      show sb.groupOf pos < sb.groupOf b
      have hperpos := h.perGroup_pos
      have hdiv : sb.groupOf pos + 1 ≤ sb.groupOf b := by
        rw [show sb.groupOf b = (b - sb.firstDataBlock) / sb.blocksPerGroup from rfl,
          Nat.le_div_iff_mul_le hperpos, Nat.succ_mul]
        omega
      exact hdiv

theorem firstDataBlock_le_of_allocationState {d : Disk} {ctx : MetadataContext} {st : RangeState}
    (h : allocationState d ctx start length = .ok st) :
    ctx.sb.firstDataBlock ≤ start ∧ start + length ≤ ctx.sb.blocksCount ∧ 0 < length ∧
      spanStates d ctx (groupSpans ctx.sb length start length) { allSet := true, allClear := true } =
        .ok st := by
  unfold allocationState at h
  simp only [Result.guard_bind_eq_ok_iff] at h
  obtain ⟨h1, h2, h3⟩ := h
  exact ⟨by omega, by omega, by omega, h3⟩

variable (h : sb.Accepted size) (hsize : size < 2 ^ 63) (hpos : sb.firstDataBlock ≤ start)
  (hend : start + length ≤ sb.blocksCount)
include h hsize hpos hend

/-- 区切り `s` の bit は、範囲の block の印である。 -/
theorem inRange_of_mem_groupSpans {s : GroupSpan} (hs : s ∈ groupSpans sb length start length)
    {i : Nat} (h1 : s.first ≤ i) (h2 : i < s.first + s.count) :
    InRange sb start length s.group i := by
  obtain ⟨hfit, hcov⟩ := groupSpans_spec h hsize hpos hend (Nat.le_refl length)
  obtain ⟨hg, hle⟩ := hfit s hs
  have hcount := h.groupBlockCount_eq hsize hg
  have hstart := h.groupStartBlock_eq hsize hg
  obtain ⟨e1, e2⟩ := h.groupOf_indexOf_of_eq (b := sb.firstDataBlock + s.group * sb.blocksPerGroup + i)
    (g := s.group) (i := i) (by omega) rfl
  have hin := (hcov (sb.firstDataBlock + s.group * sb.blocksPerGroup + i)).mp
    ⟨s, hs, by omega, e1, by omega, by omega⟩
  exact ⟨by omega, by omega, by omega⟩

/-- 範囲の block の印は、どれかの区切りに入る。 -/
theorem exists_span_of_inRange {g i : Nat} (hg : g < sb.groupsCount) (hin : InRange sb start length g i) :
    ∃ s ∈ groupSpans sb length start length, s.group = g ∧ s.first ≤ i ∧ i < s.first + s.count := by
  obtain ⟨-, hcov⟩ := groupSpans_spec h hsize hpos hend (Nat.le_refl length)
  have hcount := h.groupBlockCount_eq hsize hg
  have hstart := h.groupStartBlock_eq hsize hg
  obtain ⟨h1, h2, h3⟩ := hin
  obtain ⟨e1, e2⟩ := h.groupOf_indexOf_of_eq (b := sb.firstDataBlock + g * sb.blocksPerGroup + i)
    (g := g) (i := i) (by omega) rfl
  obtain ⟨s, hs, -, hsg, hlo, hhi⟩ :=
    (hcov (sb.firstDataBlock + g * sb.blocksPerGroup + i)).mpr ⟨by omega, by omega⟩
  exact ⟨s, hs, by omega, by omega, by omega⟩

/-- 一つの group に入る区切りは一つしかない。 -/
theorem groupSpans_unique {r s : GroupSpan} (hr : r ∈ groupSpans sb length start length)
    (hs : s ∈ groupSpans sb length start length) (hg : r.group = s.group) : r = s := by
  have hsorted := @groupSpans_sorted _ _ h hsize length _ _ hpos hend
  have hnodup : ((groupSpans sb length start length).map GroupSpan.group).Nodup :=
    List.pairwise_map.mpr (hsorted.imp Nat.ne_of_lt)
  exact List.inj_on_of_nodup_map hnodup hr hs hg

/-- 区切りの group は、範囲の block を持つ group である。 -/
theorem touches_of_mem_groupSpans {s : GroupSpan} (hs : s ∈ groupSpans sb length start length) :
    s.group < sb.groupsCount ∧ Touches sb start length s.group := by
  obtain ⟨hfit, -⟩ := groupSpans_spec h hsize hpos hend (Nat.le_refl length)
  obtain ⟨b, h1, h2, hg⟩ := group_of_mem_groupSpans hs
  have hidx := h.indexOf_lt_count hsize (b := b) (by omega) (by omega)
  have hsum := @Superblock.start_add_index sb b (by omega)
  have hstart := h.groupStartBlock_eq hsize (hfit s hs).1
  rw [← hg] at hidx hsum
  exact ⟨(hfit s hs).1, sb.indexOf b, hidx, by omega, by omega⟩

end Spans

/-! ## 範囲の更新 -/

section Range

variable {ctx : MetadataContext} {d d₀ d' : Disk} {w : World} {allocate v : Bool}
  {spans : List GroupSpan} {out st : RangeState} {start length : Nat}

/-- 走査が成功したなら、区切りの group の descriptor はどれも読めている。 -/
theorem readGroupDesc_of_spanStates (h : spanStates d ctx spans out = .ok st) :
    ∀ s ∈ spans, readGroupDesc d ctx.sb s.group = .ok (descAt d ctx.sb s.group) := by
  induction spans generalizing out with
  | nil =>
    intro s hs
    cases hs
  | cons s spans ih =>
    obtain ⟨gd, hgd, h⟩ := Result.bind_eq_ok h
    obtain ⟨bm, -, h⟩ := Result.bind_eq_ok h
    intro r hr
    rcases List.mem_cons.mp hr with rfl | hr
    · rw [← (readGroupDesc_eq_descAt hgd).1]
      exact hgd
    · exact ih h r hr

/-- 印がすべて `v` の区切りを走査すると、その旨が報告される。 -/
theorem spanStates_uniform (ha : ctx.sb.Accepted d.sizeBytes)
    (hread : ∀ s ∈ spans, readGroupDesc d ctx.sb s.group = .ok (descAt d ctx.sb s.group))
    (hbits : ∀ s ∈ spans, ∀ i < s.count, bitSet (blockBitmapAt d ctx.sb s.group) (s.first + i) = v) :
    ∃ st, spanStates d ctx spans out = .ok st ∧
      (if v then st.allSet else st.allClear) = if v then out.allSet else out.allClear := by
  induction spans generalizing out with
  | nil => exact ⟨out, rfl, rfl⟩
  | cons s spans ih =>
    obtain ⟨hgd, -, hbm, -⟩ := reads_of_readGroupDesc ha (hread s List.mem_cons_self)
    have hall : ∀ b ∈ (List.range s.count).map
        (fun i => bitSet (blockBitmapAt d ctx.sb s.group) (s.first + i)), b = v := by
      intro b hb
      obtain ⟨i, hi, rfl⟩ := List.mem_map.mp hb
      exact hbits s List.mem_cons_self i (List.mem_range.mp hi)
    obtain ⟨st, hst, hv⟩ := ih (fun r hr => hread r (List.mem_cons_of_mem _ hr))
      (fun r hr => hbits r (List.mem_cons_of_mem _ hr))
    refine ⟨st, ?_, hv.trans ?_⟩
    · unfold spanStates
      rw [hgd, Result.ok_bind, hbm, Result.ok_bind]
      exact hst
    · cases v with
      | true =>
        have hset : ((List.range s.count).map
            fun i => bitSet (blockBitmapAt d ctx.sb s.group) (s.first + i)).all id = true :=
          List.all_eq_true.mpr hall
        simp only [if_true]
        rw [hset, Bool.and_true]
      | false =>
        simp only [Bool.false_eq_true, if_false]
        rw [List.all_eq_true.mpr fun b hb => by rw [hall b hb]; rfl, Bool.and_true]

/-- 範囲の group がどれも更新できるなら、範囲の更新は成功する。 -/
theorem run_setAllocationRange (hctx : loadMetadataContext d₀ = .ok ctx)
    (hsize : d₀.sizeBytes = w.disk.sizeBytes) (hw : w.disk.writable = true)
    (hst : allocationState w.disk ctx start length = .ok st) (hap : BitmapsApart w.disk ctx.sb)
    (hsum : ∀ g < ctx.sb.groupsCount, Touches ctx.sb start length g →
      verifyGroupDescriptorChecksum ctx g (rawDesc w.disk ctx.sb g) = .ok true ∧
        verifyBlockBitmapChecksum ctx (rawDesc w.disk ctx.sb g) (blockBitmapAt w.disk ctx.sb g) =
          true) :
    ∃ es, Proc.run (setAllocationRange ctx start length allocate) w = (.ok (), w.emit es) ∧
      RangeUpdated ctx allocate (groupSpans ctx.sb length start length) w.disk (w.emit es).disk := by
  have ha := accepted_of_readSuperblock (readSuperblock_of_loadMetadataContext hctx)
  rw [hsize] at ha
  have hlt := w.disk.size_lt
  obtain ⟨hpos, hend, hlen, hspans⟩ := firstDataBlock_le_of_allocationState hst
  have hread := readGroupDesc_of_spanStates hspans
  obtain ⟨es, hrun, hup⟩ := @run_rewriteSpans ctx allocate _ w ha hw hap
    (fun s hs => by
      obtain ⟨hg, ht⟩ := touches_of_mem_groupSpans ha hlt hpos hend hs
      obtain ⟨h1, h2⟩ := hsum s.group hg ht
      exact ⟨hread s hs, h1, h2⟩)
    (groupSpans_spec ha hlt hpos hend (Nat.le_refl length)).1 (groupSpans_sorted ha hlt hpos hend)
  refine ⟨es ++ [.flush], ?_, ?_⟩
  · unfold setAllocationRange
    rw [if_neg (by omega), if_neg (by omega)]
    dsimp only [pure_bind]
    rw [Proc.run_bind_ok hrun, run_flush, World.emit_emit]
  · have hdata : (w.emit (es ++ [.flush])).disk.data = (w.emit es).disk.data := by
      rw [World.emit_disk, Disk.emit_data, replay_append]
      rfl
    have hraw : ∀ g, rawDesc (w.emit (es ++ [.flush])).disk ctx.sb g =
        rawDesc (w.emit es).disk ctx.sb g := by
      intro g
      unfold rawDesc
      rw [hdata]
    have hbm : ∀ g, blockBitmapAt (w.emit (es ++ [.flush])).disk ctx.sb g =
        blockBitmapAt (w.emit es).disk ctx.sb g := by
      intro g
      unfold blockBitmapAt
      rw [descAt_congr (hraw g), hdata]
    refine ⟨fun s hs => ?_, fun s hs => ?_, fun g hg hne => ?_, fun off hoff => ?_⟩
    · rw [hbm]
      exact hup.bitmap s hs
    · rw [hraw]
      exact hup.desc s hs
    · rw [hraw, hbm]
      exact hup.others g hg hne
    · rw [hdata]
      exact hup.frame off hoff

/-- 更新の後の bit。範囲の block の印だけが変わる。 -/
theorem RangeUpdated.bit (ha : ctx.sb.Accepted d.sizeBytes) (hpos : ctx.sb.firstDataBlock ≤ start)
    (hend : start + length ≤ ctx.sb.blocksCount)
    (h : RangeUpdated ctx allocate (groupSpans ctx.sb length start length) d d') {g : Nat}
    (hg : g < ctx.sb.groupsCount) (i : Nat) :
    bitSet (blockBitmapAt d' ctx.sb g) i =
      if InRange ctx.sb start length g i then allocate else bitSet (blockBitmapAt d ctx.sb g) i := by
  have hlt := d.size_lt
  by_cases hex : ∃ s ∈ groupSpans ctx.sb length start length, s.group = g
  · obtain ⟨s, hs, rfl⟩ := hex
    have hfit := ((groupSpans_spec ha hlt hpos hend (Nat.le_refl length)).1 s hs).2
    have hcount := ha.groupBlockCount_eq hlt hg
    have hper := ha.perGroup_le
    have hlen : (blockBitmapAt d ctx.sb s.group).length = ctx.sb.blockSize := Image.length_read _ _ _
    rw [h.bitmap s hs]
    unfold spanBitmap
    rw [bitSet_setBitmapRange (by omega)]
    by_cases hin : InRange ctx.sb start length s.group i
    · obtain ⟨r, hr, hrs, h1, h2⟩ := exists_span_of_inRange ha hlt hpos hend hg hin
      have hsame := groupSpans_unique ha hlt hpos hend hr hs hrs
      rw [hsame] at h1 h2
      rw [if_pos ⟨h1, h2⟩, if_pos hin]
    · rw [if_neg hin, if_neg]
      rintro ⟨h1, h2⟩
      exact hin (inRange_of_mem_groupSpans ha hlt hpos hend hs h1 h2)
  · have hne : ∀ s ∈ groupSpans ctx.sb length start length, s.group ≠ g :=
      fun s hs hc => hex ⟨s, hs, hc⟩
    rw [(h.others g hg hne).2, if_neg]
    intro hin
    obtain ⟨s, hs, hsg, -, -⟩ := exists_span_of_inRange ha hlt hpos hend hg hin
    exact hex ⟨s, hs, hsg⟩

/--
**範囲の更新は、ちょうど範囲の block の印を変える。**

範囲がいくつの group にまたがっても、更新は成功し、範囲の外の bit はどの bitmap でも変わらない。
触れた group では bitmap と descriptor の checksum が合い、空きの数の欄は bitmap の零の数に等しい。
上位の欄がない短い descriptor では、その数は 16 bit に切り詰められる。触れない group の descriptor と、
触れた group の bitmap の block と descriptor の外の byte は変わらない。その後の `allocation_state` は、
範囲がすべて使用中（またはすべて空き）だと答える。
-/
theorem setAllocationRange_exact (hctx : loadMetadataContext d₀ = .ok ctx)
    (hsize : d₀.sizeBytes = w.disk.sizeBytes) (hw : w.disk.writable = true)
    (hst : allocationState w.disk ctx start length = .ok st) (hap : BitmapsApart w.disk ctx.sb)
    (hsum : ∀ g < ctx.sb.groupsCount, Touches ctx.sb start length g →
      verifyGroupDescriptorChecksum ctx g (rawDesc w.disk ctx.sb g) = .ok true ∧
        verifyBlockBitmapChecksum ctx (rawDesc w.disk ctx.sb g) (blockBitmapAt w.disk ctx.sb g) =
          true) :
    ∃ w', Proc.run (setAllocationRange ctx start length allocate) w = (.ok (), w') ∧
      (∀ g < ctx.sb.groupsCount, ∀ i, bitSet (blockBitmapAt w'.disk ctx.sb g) i =
        if InRange ctx.sb start length g i then allocate
        else bitSet (blockBitmapAt w.disk ctx.sb g) i) ∧
      (∀ g < ctx.sb.groupsCount, Touches ctx.sb start length g →
        verifyGroupDescriptorChecksum ctx g (rawDesc w'.disk ctx.sb g) = .ok true ∧
        verifyBlockBitmapChecksum ctx (rawDesc w'.disk ctx.sb g) (blockBitmapAt w'.disk ctx.sb g) =
          true ∧
        descFree (rawDesc w'.disk ctx.sb g) =
          if ctx.sb.descBytes ≥ 46 then
            zeroBits (blockBitmapAt w'.disk ctx.sb g) (ctx.sb.groupBlockCount g)
          else zeroBits (blockBitmapAt w'.disk ctx.sb g) (ctx.sb.groupBlockCount g) % 2 ^ 16) ∧
      (∀ g < ctx.sb.groupsCount, ¬ Touches ctx.sb start length g →
        rawDesc w'.disk ctx.sb g = rawDesc w.disk ctx.sb g) ∧
      (∀ off, (∀ g < ctx.sb.groupsCount, Touches ctx.sb start length g →
        OutsideGroup w.disk ctx.sb g off) → w'.disk.data off = w.disk.data off) ∧
      ∃ st', allocationState w'.disk ctx start length = .ok st' ∧
        (if allocate then st'.allSet else st'.allClear) = true := by
  obtain ⟨es, hrun, hup⟩ := @run_setAllocationRange ctx d₀ w allocate st start length hctx hsize hw
    hst hap hsum
  have ha := accepted_of_readSuperblock (readSuperblock_of_loadMetadataContext hctx)
  rw [hsize] at ha
  have hlt := w.disk.size_lt
  obtain ⟨hpos, hend, hlen, hspans⟩ := firstDataBlock_le_of_allocationState hst
  have hread := readGroupDesc_of_spanStates hspans
  have hbit := fun g hg => @RangeUpdated.bit ctx w.disk _ allocate start length ha hpos hend hup g hg
  refine ⟨_, hrun, hbit, ?_, ?_, ?_, ?_⟩
  · intro g hg ht
    obtain ⟨i, hin⟩ := ht
    obtain ⟨s, hs, rfl, -, -⟩ := exists_span_of_inRange ha hlt hpos hend hg hin
    have hlenraw := length_rawDesc w.disk ctx.sb s.group
    have hds := ctx.sb.descBytes_ge
    have hle := zeroBits_le (spanBitmap ctx w.disk allocate s) (ctx.sb.groupBlockCount s.group)
    have hcount := ha.groupBlockCount_eq hlt hg
    have hper := ha.perGroup_le
    have hbs := ha.blockSize_le
    rw [hup.desc s hs, hup.bitmap s hs]
    refine ⟨verifyGroupDescriptorChecksum_resizedDesc (by omega),
      verifyBlockBitmapChecksum_resizedDesc (by omega), ?_⟩
    unfold spanDesc
    rw [descFree_resizedDesc_eq (by omega) (by omega), hlenraw]
  · intro g hg hno
    refine (hup.others g hg fun s hs hc => hno ?_).1
    rw [← hc]
    exact (touches_of_mem_groupSpans ha hlt hpos hend hs).2
  · intro off hoff
    refine hup.frame off fun s hs => ?_
    obtain ⟨hg, ht⟩ := touches_of_mem_groupSpans ha hlt hpos hend hs
    exact hoff s.group hg ht
  · obtain ⟨st', hst', hv⟩ := @spanStates_uniform ctx (w.emit es).disk allocate _
      { allSet := true, allClear := true } ha
      (fun s hs => by
        obtain ⟨h1, h2, h3⟩ := hup.pointers (touches_of_mem_groupSpans ha hlt hpos hend hs).1
        exact readGroupDesc_of_pointers (hread s hs) rfl h1 h2 h3)
      (fun s hs i hi => by
        rw [hbit s.group (touches_of_mem_groupSpans ha hlt hpos hend hs).1, if_pos]
        exact inRange_of_mem_groupSpans ha hlt hpos hend hs (by omega) (by omega))
    refine ⟨st', ?_, ?_⟩
    · unfold allocationState
      rw [if_neg (by omega), if_neg (by omega)]
      exact hst'
    · rw [hv]
      cases allocate <;> rfl

end Range

/-! ## 小さな filesystem -/

namespace Straddling

/-- 8 block の group が三つある filesystem。block 13 から後は空きで、group 2 には superblock の写しがない。 -/
def disk : Disk where
  sizeBytes := 49152
  logicalSector := 512
  isBlockDevice := false
  writable := true
  data := Image.applyAll (fun _ => 0) [
    ⟨1024, leBytes 4 24 ++ leBytes 4 24⟩, ⟨1024 + 0x0c, leBytes 4 11 ++ leBytes 4 24⟩,
    ⟨1024 + 0x18, leBytes 4 1⟩, ⟨1024 + 0x20, leBytes 4 8⟩, ⟨1024 + 0x28, leBytes 4 8⟩,
    ⟨1024 + 0x38, leBytes 2 extMagic ++ leBytes 2 1⟩, ⟨1024 + 0x58, leBytes 2 128⟩,
    ⟨1024 + 0x64, leBytes 4 1⟩,
    ⟨2048, leBytes 4 2 ++ leBytes 4 3 ++ leBytes 4 4 ++ leBytes 2 0 ++ leBytes 2 8⟩,
    ⟨2080, leBytes 4 10 ++ leBytes 4 11 ++ leBytes 4 12 ++ leBytes 2 3 ++ leBytes 2 8⟩,
    ⟨2112, leBytes 4 5 ++ leBytes 4 6 ++ leBytes 4 7 ++ leBytes 2 8 ++ leBytes 2 8⟩,
    ⟨4096, [0xff]⟩, ⟨20480, [0x1f]⟩]
  events := []
  size_lt := by decide

def ctx : MetadataContext := contextAt disk

/-- 計算で確かめること。 -/
theorem facts : loadMetadataContext disk = .ok ctx ∧ ctx.sb.groupsCount = 3 ∧
    allocationState disk ctx 13 6 = .ok ⟨false, true⟩ ∧
    (∀ g < 3, (∀ g' < 3, g ≠ g' →
        (descAt disk ctx.sb g).blockBitmap ≠ (descAt disk ctx.sb g').blockBitmap) ∧
      (((descAt disk ctx.sb g).blockBitmap + 1) * ctx.sb.blockSize ≤ ctx.sb.tableOffset ∨
        ctx.sb.descOffset 3 ≤ (descAt disk ctx.sb g).blockBitmap * ctx.sb.blockSize)) ∧
    ∀ g < 3, verifyGroupDescriptorChecksum ctx g (rawDesc disk ctx.sb g) = .ok true ∧
      verifyBlockBitmapChecksum ctx (rawDesc disk ctx.sb g) (blockBitmapAt disk ctx.sb g) = true := by
  decide +kernel

theorem groupsCount_eq : ctx.sb.groupsCount = 3 := facts.2.1

theorem bitmapsApart : BitmapsApart disk ctx.sb := by
  obtain ⟨-, -, -, hall, -⟩ := facts
  constructor
  · intro g hg g' hg'
    rw [groupsCount_eq] at hg hg'
    exact (hall g hg).1 g' hg'
  · intro g hg
    rw [groupsCount_eq] at hg ⊢
    exact (hall g hg).2

end Straddling

/-- group の境をまたぐ六つの block を使用中にする。 -/
theorem setAllocationRange_exact_straddling : ∃ w',
    Proc.run (setAllocationRange Straddling.ctx 13 6 true) ⟨Straddling.disk, none, []⟩ =
      (.ok (), w') ∧
    (∀ g < 3, ∀ i, bitSet (blockBitmapAt w'.disk Straddling.ctx.sb g) i =
      if InRange Straddling.ctx.sb 13 6 g i then true
      else bitSet (blockBitmapAt Straddling.disk Straddling.ctx.sb g) i) ∧
    ∃ st', allocationState w'.disk Straddling.ctx 13 6 = .ok st' ∧ st'.allSet = true := by
  obtain ⟨hload, hgroups, hstate, -, hsums⟩ := Straddling.facts
  obtain ⟨w', hrun, hbits, -, -, -, st', hst', hset⟩ := @setAllocationRange_exact
    Straddling.ctx Straddling.disk ⟨Straddling.disk, none, []⟩ true ⟨false, true⟩ 13 6
    hload rfl rfl hstate Straddling.bitmapsApart fun g hg _ => by
      rw [hgroups] at hg
      exact hsums g hg
  refine ⟨w', hrun, fun g hg => hbits g ?_, st', hst', hset⟩
  rw [hgroups]
  exact hg

namespace Forty

/-- 70000 block の filesystem。descriptor は 40 byte で、空きの数の上位の欄がない。 -/
def image : Image :=
  Image.applyAll (fun _ => 0) [
    ⟨1024, leBytes 4 16⟩, ⟨1024 + 0x04, leBytes 4 70000⟩, ⟨1024 + 0x10, leBytes 4 5⟩,
    ⟨1024 + 0x18, leBytes 4 4⟩, ⟨1024 + 0x20, leBytes 4 131072⟩, ⟨1024 + 0x28, leBytes 4 16⟩,
    ⟨1024 + 0x38, leBytes 2 extMagic⟩, ⟨1024 + 0x58, leBytes 2 128⟩, ⟨1024 + 0xfe, leBytes 2 40⟩,
    ⟨16384, leBytes 4 2 ++ leBytes 4 3 ++ leBytes 4 4⟩]

theorem size_lt : 70000 * 16384 < 2 ^ 63 := by decide

def disk : Disk where
  sizeBytes := 70000 * 16384
  logicalSector := 512
  isBlockDevice := false
  writable := true
  data := image
  events := []
  size_lt := size_lt

def ctx : MetadataContext := contextAt disk

def world : World := ⟨disk, none, []⟩

/-- 計算で確かめること。 -/
theorem facts : loadMetadataContext disk = .ok ctx ∧
    allocationState disk ctx 100 1 = .ok ⟨false, true⟩ ∧
    (ctx.metadataCsum = false ∧ ctx.gdtCsum = false) ∧
    (((descAt disk ctx.sb 0).blockBitmap + 1) * ctx.sb.blockSize ≤ ctx.sb.tableOffset ∨
      ctx.sb.descOffset 1 ≤ (descAt disk ctx.sb 0).blockBitmap * ctx.sb.blockSize) ∧
    ctx.sb.groupsCount = 1 ∧ ctx.sb.descBytes = 40 ∧
    ctx.sb.groupBlockCount 0 = 70000 ∧ ctx.sb.groupStartBlock 0 = 0 ∧
    (descAt disk ctx.sb 0).blockBitmap * ctx.sb.blockSize = 32768 ∧ ctx.sb.blockSize = 16384 := by
  decide +kernel

theorem load : loadMetadataContext disk = .ok ctx := facts.1

theorem accepted : allocationState disk ctx 100 1 = .ok ⟨false, true⟩ := facts.2.1

theorem geometry : ctx.sb.groupsCount = 1 ∧ ctx.sb.descBytes = 40 ∧
    ctx.sb.groupBlockCount 0 = 70000 ∧ ctx.sb.groupStartBlock 0 = 0 ∧
    (descAt disk ctx.sb 0).blockBitmap * ctx.sb.blockSize = 32768 ∧ ctx.sb.blockSize = 16384 :=
  facts.2.2.2.2

theorem bitmap_eq : blockBitmapAt disk ctx.sb 0 = zeros 16384 := by
  obtain ⟨-, -, -, -, hoff, hbs⟩ := geometry
  unfold blockBitmapAt
  rw [hoff, hbs]
  show image.read 32768 16384 = _
  unfold image
  rw [Image.read_applyAll_of_disjoint, Image.read_zero]
  simp [length_leBytes]

theorem bitSet_zeros (n i : Nat) : bitSet (zeros n) i = false := by
  unfold bitSet zeros
  rw [List.getD_eq_getElem?_getD, List.getElem?_replicate]
  split <;> simp

theorem bitSet_eq (i : Nat) : bitSet (blockBitmapAt disk ctx.sb 0) i = false := by
  rw [bitmap_eq]
  exact bitSet_zeros 16384 i

theorem apart : BitmapsApart disk ctx.sb := by
  obtain ⟨hgroups, -⟩ := geometry
  constructor
  · intro g hg g' hg' hne
    omega
  · intro g hg
    rw [hgroups, Nat.lt_one_iff] at hg
    subst hg
    rw [hgroups]
    exact facts.2.2.2.1

theorem sums : ∀ g < ctx.sb.groupsCount, Touches ctx.sb 100 1 g →
    verifyGroupDescriptorChecksum ctx g (rawDesc disk ctx.sb g) = .ok true ∧
      verifyBlockBitmapChecksum ctx (rawDesc disk ctx.sb g) (blockBitmapAt disk ctx.sb g) = true := by
  intro g _ _
  obtain ⟨-, -, ⟨hcsum, hgdt⟩, -⟩ := facts
  unfold verifyGroupDescriptorChecksum verifyBlockBitmapChecksum verifyBitmapChecksum
  rw [if_pos hcsum, if_pos hgdt]
  exact ⟨rfl, rfl⟩

/-- block 100 のほかは空いているので、零の数は 16 bit に収まらない。 -/
theorem zeroBits_ge {b : Bytes} (h : ∀ i, bitSet b i = if i = 100 then true else false) :
    69999 ≤ zeroBits b 70000 := by
  have hsum := popcount_add_zeroBits b 70000
  have hone : popcountBitmap b 70000 ≤ 1 := by
    have hcount : popcountBitmap b 70000 = (List.range 70000).count 100 :=
      List.countP_congr fun i _ => by
        rw [h]
        split <;> simp_all
    rw [hcount]
    exact List.nodup_iff_count_le_one.mp List.nodup_range 100
  omega

end Forty

/-- 40 byte の descriptor でも、空きの数は 16 bit に切り詰められる。 -/
theorem setAllocationRange_breaks : loadMetadataContext Forty.disk = .ok Forty.ctx ∧
    allocationState Forty.world.disk Forty.ctx 100 1 = .ok ⟨false, true⟩ ∧
    BitmapsApart Forty.world.disk Forty.ctx.sb ∧
    (∀ g < Forty.ctx.sb.groupsCount, Touches Forty.ctx.sb 100 1 g →
      verifyGroupDescriptorChecksum Forty.ctx g (rawDesc Forty.world.disk Forty.ctx.sb g) = .ok true ∧
        verifyBlockBitmapChecksum Forty.ctx (rawDesc Forty.world.disk Forty.ctx.sb g)
          (blockBitmapAt Forty.world.disk Forty.ctx.sb g) = true) ∧
    Forty.ctx.sb.descBytes = 40 ∧ Touches Forty.ctx.sb 100 1 0 ∧
    ∃ w', Proc.run (setAllocationRange Forty.ctx 100 1 true) Forty.world = (.ok (), w') ∧
      descFree (rawDesc w'.disk Forty.ctx.sb 0) ≠
        zeroBits (blockBitmapAt w'.disk Forty.ctx.sb 0) (Forty.ctx.sb.groupBlockCount 0) := by
  obtain ⟨hgroups, hds, hcount, hstart, -, -⟩ := Forty.geometry
  have hin : ∀ i, InRange Forty.ctx.sb 100 1 0 i ↔ i = 100 := by
    intro i
    unfold InRange
    rw [hcount, hstart]
    omega
  obtain ⟨es, hrun, hup⟩ := @run_setAllocationRange Forty.ctx Forty.disk Forty.world true _ 100 1
    Forty.load rfl rfl Forty.accepted Forty.apart Forty.sums
  obtain ⟨hpos, hend, -, -⟩ := firstDataBlock_le_of_allocationState Forty.accepted
  have ha := accepted_of_readSuperblock (readSuperblock_of_loadMetadataContext Forty.load)
  have hg : 0 < Forty.ctx.sb.groupsCount := by rw [hgroups]; exact Nat.one_pos
  have hbit := @RangeUpdated.bit Forty.ctx Forty.disk _ true 100 1 ha hpos hend hup 0 hg
  refine ⟨Forty.load, Forty.accepted, Forty.apart, Forty.sums, hds, ⟨100, (hin 100).mpr rfl⟩, _, hrun,
    ?_⟩
  have hge := Forty.zeroBits_ge (b := blockBitmapAt (Forty.world.emit es).disk Forty.ctx.sb 0)
    fun i => by
      rw [hbit i, Forty.bitSet_eq]
      simp only [hin]
  have hlen := length_rawDesc (Forty.world.emit es).disk Forty.ctx.sb 0
  have hfield : descFree (rawDesc (Forty.world.emit es).disk Forty.ctx.sb 0) < 256 ^ 2 := by
    unfold descFree
    rw [hlen, hds, if_neg (by decide), Nat.or_zero]
    exact readLe_lt 2 _ 12
  rw [hcount]
  omega

end Fsx.Ext4
