import Fsx.Ext4.DeepVerify

/-!
# 深い検証と整った filesystem

`verify_deep` が `clean` と答えた image は、そのままでは整った filesystem（`Volume.Consistent`）ではない。
検証は group ごとの metadata を file の block と比べるだけで、metadata どうしや superblock とは比べない。
検証が残すものを `Volume.Layout` にまとめ、整っていることがちょうどこの残りであることを示す。
写し・切り替え・巻き戻しの結果は整った filesystem を前提とするので、これが前提を確かめる道になる。
-/

namespace Fsx.Ext4

/-! ## 木の検査と文脈 -/

section Context

variable {c c' : ParseCtx} {rd : Nat → Bytes}

theorem HeaderOk.ctx (hino : c'.inode = c.inode) (hgen : c'.generation = c.generation)
    (hcsum : c'.metadata.metadataCsum = c.metadata.metadataCsum)
    (hsum : ∀ node, verifyExtentBlockChecksum c'.metadata c.inode c.generation node =
      verifyExtentBlockChecksum c.metadata c.inode c.generation node)
    {node : Bytes} {depth : Nat} {kind : ExtentRefKind} (h : HeaderOk c node depth kind) :
    HeaderOk c' node depth kind where
  length := h.length
  checksum hk hc := by
    rw [hino, hgen, hsum]
    exact h.checksum hk (hcsum ▸ hc)
  magic := h.magic
  depth_eq := h.depth_eq
  depth_le := h.depth_le
  entries_le := h.entries_le
  entries_fit := h.entries_fit

/-- 検査が見る値が同じ文脈では、木の検査も同じである。 -/
theorem NodeOk.ctx (hino : c'.inode = c.inode) (hgen : c'.generation = c.generation)
    (hblocks : c'.sb.blocksCount = c.sb.blocksCount)
    (hcsum : c'.metadata.metadataCsum = c.metadata.metadataCsum)
    (hsum : ∀ node, verifyExtentBlockChecksum c'.metadata c.inode c.generation node =
      verifyExtentBlockChecksum c.metadata c.inode c.generation node) :
    ∀ {depth : Nat} {kind : ExtentRefKind} {node : Bytes}, NodeOk c rd depth kind node →
      NodeOk c' rd depth kind node
  | 0, _, _, h => ⟨h.1.ctx hino hgen hcsum hsum, fun i hi => hblocks ▸ h.2 i hi⟩
  | depth + 1, _, _, h => by
    refine ⟨h.1.ctx hino hgen hcsum hsum, fun i hi => ?_⟩
    obtain ⟨hindex, hchild⟩ := h.2 i hi
    exact ⟨hblocks ▸ hindex, hchild.ctx hino hgen hblocks hcsum hsum⟩

end Context

/-! ## file の block の持ち主 -/

/-- filesystem 自身の持ち主。残りの持ち主は file の extent と tree block である。 -/
def Owner.IsMetadata : Owner → Prop
  | .extent _ | .tree _ => False
  | _ => True

namespace Volume

variable {V : Volume}

/-- group の metadata の block は、その group に固定されている。 -/
theorem Owns.fixed {o : Owner} {b : Nat} (h : V.Owns o b) (hm : o.IsMetadata) (hs : o ≠ .system) :
    ∃ g < V.sb.groupsCount, V.Fixed g b := by
  cases o with
  | system => exact absurd rfl hs
  | blockBitmap g => exact ⟨g, h.1, Or.inl h.2⟩
  | inodeBitmap g => exact ⟨g, h.1, Or.inr (Or.inl h.2)⟩
  | inodeTable g => exact ⟨g, h.1, Or.inr (Or.inr h.2)⟩
  | extent e => exact hm.elim
  | tree t => exact hm.elim

/-- file の持ち主の範囲。 -/
def spanOf : Owner → Nat × Nat
  | .extent e => extentSpan e
  | .tree t => treeSpan t
  | _ => (0, 0)

/-- inode `ino` の木がもたらす持ち主。 -/
def ownersOf (V : Volume) (ino : Nat) : List Owner :=
  (V.extentsOf ino).map Owner.extent ++ (V.treesOf ino).map Owner.tree

theorem map_spanOf_ownersOf (ino : Nat) : (V.ownersOf ino).map spanOf = V.spansOf ino := by
  unfold ownersOf spansOf
  rw [List.map_append, List.map_map, List.map_map]
  rfl

/-- file の block は、live な inode の持ち主の範囲にある。 -/
theorem Owns.file {o : Owner} {b : Nat} (h : V.Owns o b) (hm : ¬ o.IsMetadata) :
    ∃ ino, V.Live ino ∧ o ∈ V.ownersOf ino ∧ (spanOf o).1 ≤ b ∧ b < (spanOf o).1 + (spanOf o).2 := by
  cases o with
  | extent e =>
    obtain ⟨⟨ino, hl, he⟩, h1, h2⟩ := h
    exact ⟨ino, hl, List.mem_append_left _ (List.mem_map_of_mem he), h1, h2⟩
  | tree t =>
    obtain ⟨⟨ino, hl, ht⟩, rfl⟩ := h
    exact ⟨ino, hl, List.mem_append_right _ (List.mem_map_of_mem ht), Nat.le_refl _,
      Nat.lt_succ_self _⟩
  | system => exact absurd trivial hm
  | blockBitmap g => exact absurd trivial hm
  | inodeBitmap g => exact absurd trivial hm
  | inodeTable g => exact absurd trivial hm

/-- 範囲が重ならなければ、file の block の持ち主は一つである。 -/
theorem DeepSound.exclusive (h : V.DeepSound) {o o' : Owner} {b : Nat} (hb : V.Owns o b)
    (hb' : V.Owns o' b) (hm : ¬ o.IsMetadata) (hm' : ¬ o'.IsMetadata) : o = o' := by
  obtain ⟨ino, hl, ho, h1, h2⟩ := hb.file hm
  obtain ⟨ino', hl', ho', h1', h2'⟩ := hb'.file hm'
  by_contra hne
  have happart : SpanApart (spanOf o) (spanOf o') := by
    by_cases hino : ino = ino'
    · subst hino
      have hwithin := h.apartWithin ino hl
      rw [← map_spanOf_ownersOf, List.pairwise_map] at hwithin
      have hsymm : Std.Symm fun o o' : Owner => SpanApart (spanOf o) (spanOf o') :=
        ⟨fun _ _ hab => Apart.symm hab⟩
      exact hwithin.forall ho ho' hne
    · refine h.apartAcross ino ino' hl hl' hino _ ?_ _ ?_
      · exact map_spanOf_ownersOf (V := V) ino ▸ List.mem_map_of_mem ho
      · exact map_spanOf_ownersOf (V := V) ino' ▸ List.mem_map_of_mem ho'
  rcases happart with hab | hab <;> omega

/-! ## 検証が残す条件 -/

/-- 深い検証が確かめない、metadata の配置。 -/
structure Layout (V : Volume) : Prop where
  /-- inode の数は、group の数と group あたりの数の積である。 -/
  inodes : V.sb.inodesCount = V.sb.groupsCount * V.sb.inodesPerGroup
  /-- filesystem 自身の block は、一つの用途にだけ使われる。 -/
  apart : ∀ o o' b, o.IsMetadata → o'.IsMetadata → V.Owns o b → V.Owns o' b → o = o'
  /-- superblock と descriptor table の block は file のものではない。 -/
  clear : ∀ o b, V.Owns .system b → V.Owns o b → o.IsMetadata
  /-- superblock と descriptor table の block には印がある。 -/
  marked : ∀ b, V.Owns .system b → V.sb.firstDataBlock ≤ b → V.Marked V.data b

theorem Consistent.layout (hc : V.Consistent) : V.Layout where
  inodes := hc.inodes
  apart o o' b _ _ h h' := hc.exclusive o o' b h h'
  clear o b h h' := by
    rw [← hc.exclusive _ _ b h h']
    trivial
  marked b h := hc.marked _ b h

/-- group の metadata の block を、file は使っていない。 -/
theorem DeepSound.not_file (h : V.DeepSound) {o o' : Owner} {b : Nat} (hb : V.Owns o b)
    (hm : o.IsMetadata) (hs : o ≠ .system) (hb' : V.Owns o' b) : o'.IsMetadata := by
  by_contra hm'
  obtain ⟨g, hg, hfix⟩ := hb.fixed hm hs
  obtain ⟨ino, hl, ho, h1, h2⟩ := hb'.file hm'
  refine h.fixedApart g hg b hfix ino hl (spanOf o') ?_ ⟨h1, h2⟩
  exact map_spanOf_ownersOf (V := V) ino ▸ List.mem_map_of_mem ho

/-- 配置の条件があれば、metadata の block を file が使うことはない。 -/
theorem Layout.not_file (hL : V.Layout) (h : V.DeepSound) {o o' : Owner} {b : Nat}
    (hb : V.Owns o b) (hm : o.IsMetadata) (hb' : V.Owns o' b) : o'.IsMetadata := by
  by_cases hs : o = .system
  · subst hs
    exact hL.clear o' b hb hb'
  · exact h.not_file hb hm hs hb'

theorem Layout.exclusive (hL : V.Layout) (h : V.DeepSound) {o o' : Owner} {b : Nat}
    (hb : V.Owns o b) (hb' : V.Owns o' b) : o = o' := by
  by_cases hm : o.IsMetadata
  · exact hL.apart o o' b hm (hL.not_file h hb hm hb') hb hb'
  · have hm' : ¬ o'.IsMetadata := fun hm' => hm (hL.not_file h hb' hm' hb)
    exact h.exclusive hb hb' hm hm'

theorem Layout.marked_of_owns (hL : V.Layout) (h : V.DeepSound) {o : Owner} {b : Nat}
    (hb : V.Owns o b) (hfirst : V.sb.firstDataBlock ≤ b) : V.Marked V.data b := by
  by_cases hm : o.IsMetadata
  · by_cases hs : o = .system
    · subst hs
      exact hL.marked b hb hfirst
    · obtain ⟨g, hg, hfix⟩ := hb.fixed hm hs
      exact (h.fixed g hg b hfix).marked
  · obtain ⟨ino, hl, ho, h1, h2⟩ := hb.file hm
    refine (h.owned ino hl (spanOf o) ?_ b h1 h2).marked
    exact map_spanOf_ownersOf (V := V) ino ▸ List.mem_map_of_mem ho

/-- 走査を通った live な inode の木は、検査を通る。 -/
theorem Scanned.tree_ok {retain : Nat} {out : OwnerScan} (h : V.Scanned retain out) {ino : Nat}
    (hl : V.Live ino) :
    NodeOk (V.parseCtx V.disk 0 ino 0) (V.blockAt V.data) (V.depthOf ino) .inodeRoot (V.root ino) ∧
      Fresh (V.treesOf ino) [] := by
  have hok := h.checked _ hl.slotOf_mem
  refine ⟨?_, hl.slotTrees ▸ hok.fresh⟩
  exact @NodeOk.ctx (V.slotCtx (V.slotOf ino) retain) (V.parseCtx V.disk 0 ino 0) _ hl.slotIno.symm
    rfl rfl rfl (fun _ => rfl) _ _ _ hok.nodes

theorem Layout.consistent (hL : V.Layout) {host : Host} {cancel : Nat → Bool}
    {r : DeepIntegrityReport} (h : verifyDeep host cancel V.disk = .ok r) (hclean : r.clean = true) :
    V.Consistent := by
  obtain ⟨graph, owners, hgraph, hf⟩ := Deep.findings_of_verifyDeep h hclean
  have hsound := hf.sound hgraph
  exact ⟨hL.inodes, fun o o' b hb hb' => hL.exclusive hsound hb hb',
    fun o b hb hfirst => hL.marked_of_owns hsound hb hfirst, fun ino hl => hf.scanned.tree_ok hl⟩

/-- **深い検証が `clean` と答えた image が整っているのは、metadata の配置が整っているとき、そのときに限る。** -/
theorem consistent_iff_layout (V : Volume) {host : Host} {cancel : Nat → Bool}
    {r : DeepIntegrityReport} (h : verifyDeep host cancel V.disk = .ok r) (hclean : r.clean = true) :
    V.Consistent ↔ V.Layout :=
  ⟨Consistent.layout, fun hL => hL.consistent h hclean⟩

/-- 走査で集めた範囲が descriptor table より後ろにあれば、file は先頭の block を使わない。 -/
theorem Scanned.clear {out : OwnerScan} (h : V.Scanned 0 out)
    (hE : ∀ e ∈ out.extents, V.tableEnd ≤ e.physicalBlock * V.bs)
    (hT : ∀ t ∈ out.treeBlocks, V.tableEnd ≤ t.physicalBlock * V.bs) {o : Owner} {b : Nat}
    (hs : V.Owns .system b) (hb : V.Owns o b) : o.IsMetadata := by
  obtain ⟨hextents, htrees⟩ := h.all
  have hlt : b * V.bs < V.tableEnd := hs
  cases o with
  | extent e =>
    obtain ⟨⟨ino, hl, he⟩, h1, -⟩ := hb
    rw [← hl.slotExtents] at he
    have := hE e (hextents.mem_iff.mpr (List.mem_flatMap.mpr ⟨_, hl.slotOf_mem, he⟩))
    have := Nat.mul_le_mul_right V.bs h1
    omega
  | tree t =>
    obtain ⟨⟨ino, hl, ht⟩, rfl⟩ := hb
    rw [← hl.slotTrees] at ht
    have := hT t (htrees ▸ List.mem_flatMap.mpr ⟨_, hl.slotOf_mem, ht⟩)
    omega
  | _ => trivial

end Volume

/-! ## 小さな filesystem -/

namespace Tiny

/-- 場所を決める値。 -/
def facts (sb : Superblock) : List Nat :=
  [sb.blockSize, sb.firstDataBlock, sb.blocksCount, sb.blocksPerGroup, sb.groupsCount,
    sb.inodesCount, sb.inodesPerGroup, sb.inodeSize, sb.descBytes]

/-- 検証の答えと、metadata の場所、集めた範囲が block 2 より前にないこと、先頭の二つの block の印。 -/
def survey (d : Disk) : Result (Bool × List Nat × List Nat × Bool × Bool) := do
  let r ← verifyDeep host (fun _ => false) d
  let ctx ← loadMetadataContext d
  let gd ← readGroupDesc d ctx.sb 0
  let out ← scanExtentOwners host.srt host.scanCancelled d 0
  return (r.clean, facts ctx.sb, [gd.blockBitmap, gd.inodeBitmap, gd.inodeTable],
    (out.extents.all fun e => decide (2 ≤ e.physicalBlock)) &&
      out.treeBlocks.all fun t => decide (2 ≤ t.physicalBlock),
    bitSet (d.data.read 4096 2048) 0 && bitSet (d.data.read 4096 2048) 1)

/-- 小さな filesystem の metadata の block には、用途が一つずつある。 -/
theorem owner_of_block {V : Volume} {o : Owner} {b : Nat} (hbs : V.bs = 2048)
    (hgroups : V.sb.groupsCount = 1) (hper : V.sb.inodesPerGroup = 16)
    (hsize : V.sb.inodeSize = 128) (hdesc : V.sb.descBytes = 32)
    (hplaces : (V.desc 0).blockBitmap = 2 ∧ (V.desc 0).inodeBitmap = 3 ∧ (V.desc 0).inodeTable = 4)
    (hm : o.IsMetadata) (h : V.Owns o b) :
    (o = .system ∧ b ≤ 1) ∨ (o = .blockBitmap 0 ∧ b = 2) ∨ (o = .inodeBitmap 0 ∧ b = 3) ∨
      (o = .inodeTable 0 ∧ b = 4) := by
  obtain ⟨h1, h2, h3⟩ := hplaces
  cases o with
  | system =>
    have hlt : b * V.bs < V.tableEnd := h
    unfold Volume.tableEnd Superblock.tableOffset at hlt
    rw [hbs, hgroups, hdesc, show V.sb.blockSize = 2048 from hbs, if_neg (by decide)] at hlt
    exact Or.inl ⟨rfl, by omega⟩
  | blockBitmap g =>
    obtain ⟨hg, hb⟩ := h
    obtain rfl : g = 0 := by omega
    exact Or.inr (Or.inl ⟨rfl, by omega⟩)
  | inodeBitmap g =>
    obtain ⟨hg, hb⟩ := h
    obtain rfl : g = 0 := by omega
    exact Or.inr (Or.inr (Or.inl ⟨rfl, by omega⟩))
  | inodeTable g =>
    obtain ⟨hg, hlo, hhi⟩ := h
    obtain rfl : g = 0 := by omega
    unfold Superblock.inodeTableBlocks at hhi
    rw [hper, hsize, show V.sb.blockSize = 2048 from hbs] at hhi
    exact Or.inr (Or.inr (Or.inr ⟨rfl, by omega⟩))
  | extent e => exact hm.elim
  | tree t => exact hm.elim

/-- 調べた値が小さな filesystem のものなら、image は整っている。 -/
theorem exists_consistent {d : Disk} (h : survey d = .ok
    (true, [2048, 0, 16, 16384, 1, 16, 16, 128, 32], [2, 3, 4], true, true)) :
    ∃ V : Volume, V.disk = d ∧ V.bs = 2048 ∧ V.Consistent := by
  obtain ⟨r, hr, h⟩ := Result.bind_eq_ok h
  obtain ⟨V, rfl⟩ := exists_of_verifyDeep hr
  rw [V.load, Result.ok_bind] at h
  obtain ⟨gd, hgd, h⟩ := Result.bind_eq_ok h
  obtain ⟨out, hout, h⟩ := Result.bind_eq_ok h
  have hvalues := Except.ok.inj h
  simp only [Prod.mk.injEq, facts, List.cons.injEq, and_true, Bool.and_eq_true, List.all_eq_true,
    decide_eq_true_eq] at hvalues
  obtain ⟨hclean, ⟨hbs, hfirst, -, hpg, hgroups, hinodes, hper, hsize, hdesc⟩, hplaces, ⟨hE, hT⟩,
    hbit0, hbit1⟩ := hvalues
  obtain rfl := Except.ok.inj ((V.descs 0 (by omega)).symm.trans hgd)
  have hend : V.tableEnd ≤ 2 * V.bs := by
    unfold Volume.tableEnd Superblock.tableOffset
    rw [hgroups, hdesc, show V.bs = 2048 from hbs, hbs, if_neg (by decide)]
    decide
  have hscan := Volume.scanned_scanExtentOwners hout
  rw [Nat.zero_min] at hscan
  refine ⟨V, rfl, hbs, Volume.Layout.consistent ⟨?_, ?_, ?_, ?_⟩ hr hclean⟩
  · rw [hinodes, hgroups, hper]
  · intro o o' b hm hm' ho ho'
    rcases owner_of_block hbs hgroups hper hsize hdesc hplaces hm ho with
      ⟨rfl, hb⟩ | ⟨rfl, hb⟩ | ⟨rfl, hb⟩ | ⟨rfl, hb⟩ <;>
    rcases owner_of_block hbs hgroups hper hsize hdesc hplaces hm' ho' with
      ⟨rfl, hb'⟩ | ⟨rfl, hb'⟩ | ⟨rfl, hb'⟩ | ⟨rfl, hb'⟩ <;>
    first | rfl | omega
  · intro o b hs hb
    refine hscan.clear (fun e he => hend.trans ?_) (fun t ht => hend.trans ?_) hs hb
    · exact Nat.mul_le_mul_right _ (hE e he)
    · exact Nat.mul_le_mul_right _ (hT t ht)
  · intro b hs _
    rcases @owner_of_block V .system b hbs hgroups hper hsize hdesc hplaces trivial hs with
      ⟨-, hb⟩ | ⟨hc, -⟩ | ⟨hc, -⟩ | ⟨hc, -⟩
    · unfold Volume.Marked Volume.blockAt Superblock.groupOf Superblock.indexOf
      rw [hfirst, hpg, Nat.sub_zero, Nat.div_eq_of_lt (by omega), hplaces.1,
        Nat.mod_eq_of_lt (by omega), show V.bs = 2048 from hbs]
      rcases Nat.le_one_iff_eq_zero_or_eq_one.mp hb with rfl | rfl
      · exact hbit0
      · exact hbit1
    all_goals cases hc

theorem exists_spread : ∃ V : Volume, V.disk = spread ∧ V.bs = 2048 ∧ V.Consistent :=
  exists_consistent (by decide +kernel)

/-- inode 12 の二つ目の extent が、descriptor table の block を指す image。 -/
def claimed : Disk :=
  disk (spread.data.applyAll [⟨1024 + 0x0c, leBytes 4 6⟩, ⟨2048 + 12, leBytes 2 6⟩,
    ⟨4096, [0x1f, 0xf8]⟩, ⟨9600 + 72, leBytes 4 1⟩])

/-- 検証の答えと、descriptor table の block を含む extent が集まったこと。 -/
def claim (d : Disk) : Result (Bool × List Nat × Bool) := do
  let r ← verifyDeep host (fun _ => false) d
  let ctx ← loadMetadataContext d
  let out ← scanExtentOwners host.srt host.scanCancelled d 0
  return (r.clean, facts ctx.sb,
    out.extents.any fun e => decide (e.physicalBlock ≤ 1) && decide (1 < e.endBlock))

end Tiny

/-- descriptor table の block を file が使っていても深い検証は `clean` と答え、image は整っていない。 -/
theorem Volume.consistent_iff_layout_claimed : ∃ (V : Volume) (r : DeepIntegrityReport),
    V.disk = Tiny.claimed ∧ verifyDeep Tiny.host (fun _ => false) V.disk = .ok r ∧
      r.clean = true ∧ ¬ V.Consistent := by
  have h : Tiny.claim Tiny.claimed =
      .ok (true, [2048, 0, 16, 16384, 1, 16, 16, 128, 32], true) := by decide +kernel
  obtain ⟨r, hr, h⟩ := Result.bind_eq_ok h
  obtain ⟨V, hV⟩ := exists_of_verifyDeep hr
  rw [← hV, V.load, Result.ok_bind] at h
  obtain ⟨out, hout, h⟩ := Result.bind_eq_ok h
  have hvalues := Except.ok.inj h
  simp only [Prod.mk.injEq, Tiny.facts, List.cons.injEq, and_true, List.any_eq_true,
    Bool.and_eq_true, decide_eq_true_eq] at hvalues
  obtain ⟨hclean, ⟨hbs, -, -, -, hgroups, -, hper, -, hdesc⟩, e, he, hlo, hhi⟩ := hvalues
  rw [← hV] at hr
  refine ⟨V, r, hV, hr, hclean, fun hc => ?_⟩
  have hL := (V.consistent_iff_layout hr hclean).mp hc
  have hscan := Volume.scanned_scanExtentOwners hout
  rw [Nat.zero_min] at hscan
  obtain ⟨s, hs, hmem⟩ := List.mem_flatMap.mp (hscan.all.1.mem_iff.mp he)
  obtain ⟨ino, hl, rfl⟩ := V.live_of_mem_liveSlots (by rw [hgroups, hper]; decide) hs
  rw [hl.slotExtents] at hmem
  refine hL.clear (.extent e) 1 ?_ ⟨⟨ino, hl, hmem⟩, hlo, hhi⟩
  have hend : V.tableEnd = 2080 := by
    unfold Volume.tableEnd Superblock.tableOffset
    rw [hgroups, hdesc, hbs, if_neg (by decide)]
  change 1 * V.bs < V.tableEnd
  rw [hend, show V.bs = 2048 from hbs]
  decide

end Fsx.Ext4
