import Fsx.Ext4.Places

/-!
# 走査が集めるもの

`scan_extent_owners` は group の順に inode の枠（`InodeSlot`）を見て、使われている枠の木の下の
extent と tree block を、`retain` より上にかかるものに限って集める。
ここでは、集めたものがちょうど使われている枠の木のものであること（`Gathers`）を示す。

枠は group とその中の番号で表す。inode の番号は code の 64 bit の式から決まる。
-/

namespace Fsx.Ext4

/-- inode の枠。 -/
structure InodeSlot where
  group : Nat
  index : Nat
  deriving DecidableEq

/-! ## 範囲 -/

/-- extent の範囲。先頭の block と長さの組である。 -/
def extentSpan (e : OwnedExtent) : Nat × Nat := (e.physicalBlock, e.length)

def treeSpan (t : ExtentTreeBlock) : Nat × Nat := (t.physicalBlock, 1)

def SpanApart (a b : Nat × Nat) : Prop := Apart a.1 a.2 b.1 b.2

instance : Std.Symm SpanApart := ⟨fun _ _ h => Apart.symm h⟩

/-! ## 木の下のものを決める文脈 -/

section Context

variable {c c' : ParseCtx}

theorem nodeExtents_ctx (hino : c'.inode = c.inode) (hgen : c'.generation = c.generation)
    (hbs : c'.sb.blockSize = c.sb.blockSize) {rd : Nat → Bytes} :
    ∀ (depth : Nat) (kind : ExtentRefKind) (node : Bytes) (off blk : Nat),
      nodeExtents c' rd depth kind node off blk = nodeExtents c rd depth kind node off blk
  | 0, kind, node, off, blk => by
    refine List.map_congr_left fun i _ => ?_
    simp only [leafExtent, hino, hgen]
  | depth + 1, kind, node, off, blk => by
    simp only [nodeExtents, hbs, nodeExtents_ctx hino hgen hbs depth]

theorem nodeTrees_ctx (hino : c'.inode = c.inode) (hbs : c'.sb.blockSize = c.sb.blockSize)
    {rd : Nat → Bytes} : ∀ (depth : Nat) (node : Bytes) (off : Nat),
      nodeTrees c' rd depth node off = nodeTrees c rd depth node off
  | 0, _, _ => rfl
  | depth + 1, node, off => by
    simp only [nodeTrees, childBlock, hino, hbs, nodeTrees_ctx hino hbs depth]

end Context

namespace Volume

variable (V : Volume)

/-! ## 枠 -/

/-- 枠の inode の番号。 -/
def slotIno (s : InodeSlot) : Nat := u64 (s.group * V.sb.inodesPerGroup + 1) + s.index

def slotAddr (s : InodeSlot) : Nat :=
  (V.desc s.group).inodeTable * V.bs + s.index * V.sb.inodeSize

def slotAt (s : InodeSlot) : Bytes := V.data.read (V.slotAddr s) V.sb.inodeSize

/-- 枠が使われていて、extent tree を持つ。 -/
def slotLive (s : InodeSlot) : Bool :=
  decide ((V.desc s.group).flags &&& bgInodeUninit = 0)
    && bitSet (V.blockAt V.data (V.desc s.group).inodeBitmap) s.index
    && inodeActive (V.slotAt s) && decide (readLe 4 (V.slotAt s) 32 &&& extentsFlag ≠ 0)

/-- group `g` の枠。 -/
def groupSlots (g : Nat) : List InodeSlot :=
  (List.range (V.sb.groupInodeCount g)).map (InodeSlot.mk g)

/-- すべての枠。 -/
def slots : List InodeSlot := (List.range V.sb.groupsCount).flatMap V.groupSlots

def liveSlots : List InodeSlot := V.slots.filter V.slotLive

/-- 枠の木を読むときの文脈。 -/
def slotCtx (s : InodeSlot) (retain : Nat) : ParseCtx where
  dev := V.disk
  sb := V.sb
  inode := V.slotIno s
  generation := readLe 4 (V.slotAt s) 100
  retainFrom := retain
  metadata := V.ctx

def slotRoot (s : InodeSlot) : Bytes := inodeRoot (V.slotAt s)

def slotDepth (s : InodeSlot) : Nat := readLe 2 (V.slotRoot s) 6

def slotExtents (s : InodeSlot) : List OwnedExtent :=
  nodeExtents (V.slotCtx s 0) (V.blockAt V.data) (V.slotDepth s) .inodeRoot (V.slotRoot s)
    (V.slotAddr s + 40) 0

def slotTrees (s : InodeSlot) : List ExtentTreeBlock :=
  nodeTrees (V.slotCtx s 0) (V.blockAt V.data) (V.slotDepth s) (V.slotRoot s) (V.slotAddr s + 40)

/-- 枠の木が検査を通る。 -/
structure SlotOk (s : InodeSlot) (retain : Nat) : Prop where
  nodes : NodeOk (V.slotCtx s retain) (V.blockAt V.data) (V.slotDepth s) .inodeRoot (V.slotRoot s)
  fresh : Fresh (V.slotTrees s) []

/-- `retain` より上にかかる extent。 -/
def keptExtents (retain : Nat) (s : InodeSlot) : List OwnedExtent :=
  (V.slotExtents s).filter fun e => decide (e.endBlock > retain)

/-- `retain` 以上にある tree block。 -/
def keptTrees (retain : Nat) (s : InodeSlot) : List ExtentTreeBlock :=
  (V.slotTrees s).filter fun t => decide (t.physicalBlock ≥ retain)

/-- 走査が `out` から `out'` までに、枠の列 `ss` の木のものをちょうど集めた。 -/
structure Gathers (retain : Nat) (ss : List InodeSlot) (out out' : OwnerScan) : Prop where
  checked : ∀ s ∈ ss, V.slotLive s = true → V.SlotOk s retain
  extents : out'.extents = out.extents ++ (ss.filter V.slotLive).flatMap (V.keptExtents retain)
  trees : out'.treeBlocks = out.treeBlocks ++ (ss.filter V.slotLive).flatMap (V.keptTrees retain)

section Gathers

variable {V : Volume} {retain : Nat} {out out₁ out' : OwnerScan} {ss ss' : List InodeSlot}

/-- 使われていない枠では何も集めない。 -/
theorem Gathers.skip {s : InodeSlot} (h : V.Gathers retain ss out₁ out')
    (hs : V.slotLive s = false) (he : out₁.extents = out.extents)
    (ht : out₁.treeBlocks = out.treeBlocks) : V.Gathers retain (s :: ss) out out' := by
  have hfilter : (s :: ss).filter V.slotLive = ss.filter V.slotLive := by simp [hs]
  refine ⟨fun s' hs' hlive => ?_, by rw [hfilter, h.extents, he], by rw [hfilter, h.trees, ht]⟩
  rcases List.mem_cons.mp hs' with rfl | hs'
  · rw [hs] at hlive
    cases hlive
  · exact h.checked s' hs' hlive

theorem Gathers.nil (he : out'.extents = out.extents) (ht : out'.treeBlocks = out.treeBlocks) :
    V.Gathers retain [] out out' :=
  ⟨fun s hs => (by cases hs), by simp [he], by simp [ht]⟩

theorem Gathers.append (h : V.Gathers retain ss out out₁) (h' : V.Gathers retain ss' out₁ out') :
    V.Gathers retain (ss ++ ss') out out' := by
  refine ⟨fun s hs => ?_, ?_, ?_⟩
  · rcases List.mem_append.mp hs with hs | hs
    · exact h.checked s hs
    · exact h'.checked s hs
  · rw [h'.extents, h.extents, List.filter_append, List.flatMap_append, List.append_assoc]
  · rw [h'.trees, h.trees, List.filter_append, List.flatMap_append, List.append_assoc]

theorem nodeExtents_slotCtx (s : InodeSlot) (retain : Nat) :
    nodeExtents (V.slotCtx s retain) (V.blockAt V.data) (V.slotDepth s) .inodeRoot (V.slotRoot s)
      (V.slotAddr s + 40) 0 = V.slotExtents s :=
  @nodeExtents_ctx (V.slotCtx s 0) (V.slotCtx s retain) rfl rfl rfl _ _ _ _ _ _

theorem nodeTrees_slotCtx (s : InodeSlot) (retain : Nat) :
    nodeTrees (V.slotCtx s retain) (V.blockAt V.data) (V.slotDepth s) (V.slotRoot s)
      (V.slotAddr s + 40) = V.slotTrees s :=
  @nodeTrees_ctx (V.slotCtx s 0) (V.slotCtx s retain) rfl rfl _ _ _ _

/-- 枠の木の走査は、検査が通ったときに限り成功し、木の下のものを足す。 -/
theorem parseInode_slot_iff {s : InodeSlot} :
    Ext4.parseInode (V.slotCtx s retain) (V.slotAt s) (V.slotAddr s) out = .ok out' ↔
      V.SlotOk s retain ∧
      out' = { out with
        extents := out.extents ++ V.keptExtents retain s
        treeBlocks := out.treeBlocks ++ V.keptTrees retain s } := by
  have hparse := fun x => @parseExtentNode_eq_ok_iff (V.slotCtx s retain) V.accepted.fits
    (V.blockAt V.data) rfl (V.slotDepth s) .inodeRoot (V.slotRoot s) (V.slotAddr s + 40) 0 { out } x
  rw [nodeExtents_slotCtx, nodeTrees_slotCtx] at hparse
  unfold Ext4.parseInode
  rw [Result.bind_eq_ok_iff]
  constructor
  · rintro ⟨x, hx, h⟩
    obtain ⟨h1, h2, rfl⟩ := (hparse x).mp hx
    cases h
    exact ⟨⟨h1, h2⟩, rfl⟩
  · rintro ⟨⟨h1, h2⟩, rfl⟩
    exact ⟨_, (hparse _).mpr ⟨h1, h2, rfl⟩, rfl⟩

theorem Gathers.parse {s : InodeSlot} (hs : V.slotLive s = true)
    (h : Ext4.parseInode (V.slotCtx s retain) (V.slotAt s) (V.slotAddr s) out₁ = .ok out')
    (he : out₁.extents = out.extents) (ht : out₁.treeBlocks = out.treeBlocks) :
    V.Gathers retain [s] out out' := by
  obtain ⟨hok, rfl⟩ := parseInode_slot_iff.mp h
  have hone : [s].filter V.slotLive = [s] := by simp [hs]
  refine ⟨fun s' hs' _ => ?_, ?_, ?_⟩
  · rw [List.mem_singleton.mp hs']
    exact hok
  · rw [hone]
    simp [he]
  · rw [hone]
    simp [ht]

/-- group の inode のループ。`table` は、その group の inode table を読んだものである。 -/
theorem Gathers.scanGroupInodes {g count : Nat}
    (hinit : (V.desc g).flags &&& bgInodeUninit = 0) {table : Bytes}
    (htable : table = V.data.read ((V.desc g).inodeTable * V.bs) (count * V.sb.inodeSize)) :
    ∀ {n idx : Nat} {out out' : OwnerScan}, idx + n = count →
      Ext4.scanGroupInodes V.disk V.sb V.ctx retain (V.desc g)
        (V.blockAt V.data (V.desc g).inodeBitmap) table (u64 (g * V.sb.inodesPerGroup + 1))
        n idx out = .ok out' →
      V.Gathers retain ((List.range' idx n).map (InodeSlot.mk g)) out out'
  | 0, _, _, _, _, h => by
    cases h
    exact Gathers.nil rfl rfl
  | n + 1, idx, out, out', hn, h => by
    have hnext : ∀ {out₁}, _ → V.Gathers retain _ out₁ out' := fun {out₁} h₁ =>
      @Gathers.scanGroupInodes g count hinit table htable n (idx + 1) out₁ out' (by omega) h₁
    rw [List.range'_succ, List.map_cons]
    have hinode : slice table (idx * V.sb.inodeSize) V.sb.inodeSize = V.slotAt ⟨g, idx⟩ := by
      have hfit := Nat.mul_le_mul_right V.sb.inodeSize (show idx + 1 ≤ count by omega)
      rw [Nat.add_one_mul] at hfit
      rw [htable, Image.slice_read _ _ _ _ _ hfit]
      rfl
    rw [Ext4.scanGroupInodes] at h
    dsimp only at h
    rw [hinode] at h
    split at h
    · next hbit =>
      exact (hnext h).skip (by simp [slotLive, hbit]) rfl rfl
    · next hbit =>
      split at h
      · next hact =>
        exact (hnext h).skip (by simp [slotLive, hact]) rfl rfl
      · next hact =>
        split at h
        · next hflag =>
          exact (hnext h).skip (by simp [slotLive, hflag]) rfl rfl
        · next hflag =>
          have hlive : V.slotLive ⟨g, idx⟩ = true := by
            rw [Bool.not_eq_false] at hbit hact
            simp [slotLive, hinit, hbit, hact, hflag]
          obtain ⟨out₂, hp, h⟩ := Result.bind_eq_ok h
          have hfirst : V.Gathers retain [⟨g, idx⟩] out out₂ :=
            @Gathers.parse V retain out _ out₂ ⟨g, idx⟩ hlive hp rfl rfl
          exact hfirst.append (hnext h)

theorem Gathers.scanGroup {g : Nat} (hg : g < V.sb.groupsCount)
    (h : Ext4.scanGroup V.disk V.sb V.ctx retain g out = .ok out') :
    V.Gathers retain (V.groupSlots g) out out' := by
  unfold Ext4.scanGroup at h
  rw [V.descs g hg, Result.ok_bind] at h
  split at h
  · next hinit =>
    cases h
    have hdead : ∀ s ∈ V.groupSlots g, V.slotLive s = false := by
      intro s hs
      obtain ⟨idx, -, rfl⟩ := List.mem_map.mp hs
      simp [slotLive, hinit]
    have hnone : (V.groupSlots g).filter V.slotLive = [] := by
      simpa [List.filter_eq_nil_iff] using hdead
    refine ⟨fun s hs hlive => ?_, by rw [hnone]; simp, by rw [hnone]; simp⟩
    rw [hdead s hs] at hlive
    cases hlive
  · next hinit =>
    obtain ⟨ib, hib, h⟩ := Result.bind_eq_ok h
    obtain ⟨table, htable, h⟩ := Result.bind_eq_ok h
    have hbm : ib = V.blockAt V.data (V.desc g).inodeBitmap := (readInodeBitmap_eq_ok hib).2
    have ht : table = V.data.read ((V.desc g).inodeTable * V.bs)
        (V.sb.groupInodeCount g * V.sb.inodeSize) := by
      unfold readInodeTable at htable
      split at htable
      · next h0 =>
        cases htable
        rw [h0]
        rfl
      · exact (Disk.readExact_eq_ok_iff.mp htable).2
    rw [hbm] at h
    rw [groupSlots, List.range_eq_range']
    exact Gathers.scanGroupInodes (by simpa using hinit) ht (Nat.zero_add _) h

theorem Gathers.scanGroups {cancel : Nat → Bool} : ∀ {n g : Nat} {out out' : OwnerScan},
    g + n ≤ V.sb.groupsCount →
    Ext4.scanGroups cancel V.disk V.sb V.ctx retain n g out = .ok out' →
    V.Gathers retain ((List.range' g n).flatMap V.groupSlots) out out'
  | 0, _, _, _, _, h => by
    cases h
    exact Gathers.nil rfl rfl
  | n + 1, g, out, out', hn, h => by
    rw [Ext4.scanGroups, Result.guard_bind_eq_ok_iff] at h
    obtain ⟨out₁, h₁, h⟩ := Result.bind_eq_ok h.2
    rw [List.range'_succ, List.flatMap_cons]
    exact (Gathers.scanGroup (by omega) h₁).append (Gathers.scanGroups (by omega) h)

end Gathers

/-- 走査の結果。並べ替えの分だけ extent の順は変わる。 -/
structure Scanned (retain : Nat) (out : OwnerScan) : Prop where
  checked : ∀ s ∈ V.liveSlots, V.SlotOk s retain
  extents : out.extents.Perm (V.liveSlots.flatMap (V.keptExtents retain))
  trees : out.treeBlocks = V.liveSlots.flatMap (V.keptTrees retain)

variable {V}

/-- **走査は、使われている枠の木のうち `retain` より上にかかるものを、ちょうど集める。** -/
theorem scanned_scanExtentOwners {srt : StdSort} {cancel : Nat → Bool} {retain : Nat}
    {out : OwnerScan} (h : scanExtentOwners srt cancel V.disk retain = .ok out) :
    V.Scanned (min retain V.sb.blocksCount) out := by
  unfold scanExtentOwners at h
  rw [readSuperblock_of_loadMetadataContext V.load, Result.ok_bind, V.load, Result.ok_bind] at h
  obtain ⟨_, _, h⟩ := Result.bind_eq_ok h
  obtain ⟨out₁, h₁, h⟩ := Result.bind_eq_ok h
  cases h
  have hall := Gathers.scanGroups (Nat.zero_add _).le h₁
  rw [← List.range_eq_range'] at hall
  refine ⟨fun s hs => ?_, ?_, ?_⟩
  · obtain ⟨hmem, hlive⟩ := List.mem_filter.mp hs
    exact hall.checked s hmem hlive
  · refine (srt.perm _ _).trans (List.Perm.of_eq ?_)
    rw [hall.extents]
    exact List.nil_append _
  · rw [hall.trees]
    exact List.nil_append _

/-- 走査が成功した像は、読み込める filesystem である。 -/
theorem exists_of_scanExtentOwners {srt : StdSort} {cancel : Nat → Bool} {d : Disk} {retain : Nat}
    {out : OwnerScan} (h : scanExtentOwners srt cancel d retain = .ok out) :
    ∃ V : Volume, V.disk = d := by
  unfold scanExtentOwners at h
  obtain ⟨sb, hsb, h⟩ := Result.bind_eq_ok h
  obtain ⟨ctx, hctx, h⟩ := Result.bind_eq_ok h
  obtain ⟨_, _, h⟩ := Result.bind_eq_ok h
  obtain ⟨out₁, h₁, h⟩ := Result.bind_eq_ok h
  have hsb' : ctx.sb = sb :=
    Except.ok.inj ((readSuperblock_of_loadMetadataContext hctx).symm.trans hsb)
  have hread : ∀ {n g : Nat} {out out' : OwnerScan},
      Ext4.scanGroups cancel d sb ctx (min retain sb.blocksCount) n g out = .ok out' →
      ∀ i, g ≤ i → i < g + n → ∃ gd, readGroupDesc d sb i = .ok gd := by
    intro n
    induction n with
    | zero => intro g _ _ _ i h1 h2; omega
    | succ n ih =>
      intro g out out' hs i h1 h2
      rw [Ext4.scanGroups, Result.guard_bind_eq_ok_iff] at hs
      obtain ⟨o, ho, hs⟩ := Result.bind_eq_ok hs.2
      rcases Nat.eq_or_lt_of_le h1 with rfl | hlt
      · obtain ⟨gd, hgd, -⟩ := Result.bind_eq_ok ho
        exact ⟨gd, hgd⟩
      · exact ih hs i hlt (by omega)
  have hall : ∀ g < ctx.sb.groupsCount, ∃ gd, readGroupDesc d ctx.sb g = .ok gd := by
    intro g hg
    rw [hsb'] at hg ⊢
    exact hread h₁ g (Nat.zero_le _) (by omega)
  refine ⟨{ disk := d, ctx, desc := fun g =>
    decodeGroupDesc ctx.sb (d.data.read (ctx.sb.descOffset g) ctx.sb.descBytes)
            load := hctx, descs := fun g hg => ?_ }, rfl⟩
  obtain ⟨gd, hgd⟩ := hall g hg
  rw [hgd, (readGroupDesc_eq_ok_iff.mp hgd).2.2.1]

/-! ## inode の番号で見た枠 -/

/-- inode `ino` の枠。 -/
def slotOf (V : Volume) (ino : Nat) : InodeSlot := ⟨V.inodeGroup ino, V.inodeIndex ino⟩

/-- inode の数は 32 bit の欄である。 -/
theorem inodesCount_lt (V : Volume) : V.sb.inodesCount < 2 ^ 32 := by
  have hdec : decodeSuperblock _ = V.sb :=
    (readSuperblock_eq_ok_iff.mp (readSuperblock_of_loadMetadataContext V.load)).2.1
  rw [← hdec]
  exact inodesCount_decodeSuperblock_lt _

/-- inode の番号は、その枠の番号である。 -/
theorem Live.slotIno {ino : Nat} (h : V.Live ino) : V.slotIno (V.slotOf ino) = ino := by
  have hlt := V.inodesCount_lt
  have hle := h.le
  have hpos := h.pos
  have hdm := Nat.div_add_mod (ino - 1) V.sb.inodesPerGroup
  unfold Volume.slotIno slotOf inodeGroup inodeIndex
  dsimp only
  rw [Nat.mul_comm] at hdm
  rw [u64_of_lt (by omega)]
  omega

/-- 使われている inode の枠は、走査される枠である。 -/
theorem Live.slotOf_mem {ino : Nat} (h : V.Live ino) : V.slotOf ino ∈ V.liveSlots := by
  have ha := V.accepted
  have hlt := V.inodesCount_lt
  have hle := h.le
  have hpos := h.pos
  have hper := ha.inodesPerGroup_pos
  have hdm := Nat.div_add_mod (ino - 1) V.sb.inodesPerGroup
  have hmod := Nat.mod_lt (ino - 1) hper
  rw [Nat.mul_comm] at hdm
  have hgroup : V.inodeGroup ino < V.sb.groupsCount := by
    refine lt_of_lt_of_le ?_ ha.inodeGroups
    have hdm' := Nat.div_add_mod V.sb.inodesCount V.sb.inodesPerGroup
    have hdiv : (ino - 1) / V.sb.inodesPerGroup ≤ V.sb.inodesCount / V.sb.inodesPerGroup :=
      Nat.div_le_div_right (by omega)
    unfold inodeGroup
    split
    · omega
    · next hz =>
      rw [not_not] at hz
      rw [Nat.add_zero, Nat.div_lt_iff_lt_mul hper]
      rw [hz, Nat.add_zero, Nat.mul_comm] at hdm'
      omega
  have hindex : V.inodeIndex ino < V.sb.groupInodeCount (V.inodeGroup ino) := by
    unfold Superblock.groupInodeCount inodeIndex inodeGroup
    dsimp only
    rw [u64_of_lt (by omega), if_pos (by omega)]
    omega
  refine List.mem_filter.mpr ⟨List.mem_flatMap.mpr ⟨V.inodeGroup ino, List.mem_range.mpr hgroup,
    List.mem_map.mpr ⟨V.inodeIndex ino, List.mem_range.mpr hindex, rfl⟩⟩, ?_⟩
  have hat : V.slotAt (V.slotOf ino) = V.inodeAt V.data ino := rfl
  unfold slotLive
  rw [hat]
  simp only [Bool.and_eq_true, decide_eq_true_eq]
  exact ⟨⟨⟨h.init, h.allocated⟩, h.active⟩, h.extents⟩

/-- 番号が 64 bit を溢れなければ、使われている枠は使われている inode のものである。 -/
theorem live_of_mem_liveSlots (hfits : V.sb.groupsCount * V.sb.inodesPerGroup < 2 ^ 64)
    {s : InodeSlot} (hs : s ∈ V.liveSlots) : ∃ ino, V.Live ino ∧ V.slotOf ino = s := by
  obtain ⟨hmem, hlive⟩ := List.mem_filter.mp hs
  obtain ⟨g, hg, hmem⟩ := List.mem_flatMap.mp hmem
  obtain ⟨idx, hidx, rfl⟩ := List.mem_map.mp hmem
  rw [List.mem_range] at hg hidx
  have hper := V.accepted.inodesPerGroup_pos
  have hle := Nat.mul_le_mul_right V.sb.inodesPerGroup (Nat.succ_le_of_lt hg)
  rw [Nat.succ_mul] at hle
  unfold Superblock.groupInodeCount at hidx
  dsimp only at hidx
  rw [u64_of_lt (by omega)] at hidx
  have hcount : idx < V.sb.inodesPerGroup ∧
      g * V.sb.inodesPerGroup + 1 + idx ≤ V.sb.inodesCount := by
    split at hidx <;> omega
  have hslot : V.slotOf (g * V.sb.inodesPerGroup + 1 + idx) = ⟨g, idx⟩ := by
    have hsub : g * V.sb.inodesPerGroup + 1 + idx - 1 = idx + V.sb.inodesPerGroup * g := by
      rw [Nat.mul_comm]
      omega
    unfold slotOf inodeGroup inodeIndex
    rw [hsub, Nat.add_mul_div_left _ _ hper, Nat.div_eq_of_lt hcount.1, Nat.zero_add,
      Nat.add_mul_mod_self_left, Nat.mod_eq_of_lt hcount.1]
  simp only [slotLive, Bool.and_eq_true, decide_eq_true_eq] at hlive
  obtain ⟨⟨⟨hinit, hbit⟩, hact⟩, hflag⟩ := hlive
  have hat : V.inodeAt V.data (g * V.sb.inodesPerGroup + 1 + idx) = V.slotAt ⟨g, idx⟩ := by
    rw [← hslot]
    rfl
  obtain ⟨hgrp, hpos⟩ := InodeSlot.mk.inj hslot
  refine ⟨g * V.sb.inodesPerGroup + 1 + idx, ⟨by omega, hcount.2, ?_, ?_, ?_, ?_⟩, hslot⟩
  · rw [hgrp]
    exact hinit
  · rw [hgrp, hpos]
    exact hbit
  · rw [hat]
    exact hact
  · rw [hat]
    exact hflag

theorem Live.slotExtents {ino : Nat} (h : V.Live ino) :
    V.slotExtents (V.slotOf ino) = V.extentsOf ino :=
  @nodeExtents_ctx (V.parseCtx V.disk 0 ino 0) (V.slotCtx (V.slotOf ino) 0) h.slotIno rfl rfl
    _ _ _ _ _ _

theorem Live.slotTrees {ino : Nat} (h : V.Live ino) :
    V.slotTrees (V.slotOf ino) = V.treesOf ino :=
  @nodeTrees_ctx (V.parseCtx V.disk 0 ino 0) (V.slotCtx (V.slotOf ino) 0) h.slotIno rfl
    _ _ _ _

/-- 別の inode の枠は別である。 -/
theorem Live.slotOf_injective {ino ino' : Nat} (h : V.Live ino) (h' : V.Live ino')
    (heq : V.slotOf ino = V.slotOf ino') : ino = ino' := by
  rw [← h.slotIno, ← h'.slotIno, heq]

end Volume

end Fsx.Ext4
