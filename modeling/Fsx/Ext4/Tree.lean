import Fsx.Ext4.PlanShape

/-!
# extent tree の意味

`parse_extent_node` は、検査をしながら木を降りて extent と tree block を集める。
ここでは「何を検査するか」（`NodeOk`）と「何を集めるか」（`nodeExtents`・`nodeTrees`）を
木の形に沿った関数に分け、走査がちょうどその二つを行うことを示す。

block の読み出しは関数 `rd` として外から与える。以後の証明は、像が変わったときに
この関数がどう変わるかだけを見ればよい。
-/

namespace Fsx.Ext4

/-! ## 集めるもの -/

/-- node の entry の数。 -/
def nodeEntries (node : Bytes) : Nat := readLe 2 node 2

/-- 途中の entry が指す tree block。`depth` は子の深さである。 -/
def childBlock (c : ParseCtx) (node : Bytes) (off depth i : Nat) : ExtentTreeBlock where
  inode := c.inode
  physicalBlock := indexChild node (entryOffset i)
  parentContainerByteOffset := off
  parentEntryOffset := entryOffset i
  depth := depth

/-- node の下にある extent。 -/
def nodeExtents (c : ParseCtx) (rd : Nat → Bytes) :
    Nat → ExtentRefKind → Bytes → Nat → Nat → List OwnedExtent
  | 0, kind, node, off, blk => (List.range (nodeEntries node)).map (leafExtent c node off blk kind)
  | depth + 1, _, node, _, _ => (List.range (nodeEntries node)).flatMap fun i =>
      nodeExtents c rd depth .extentBlock (rd (indexChild node (entryOffset i)))
        (indexChild node (entryOffset i) * c.sb.blockSize) (indexChild node (entryOffset i))

/-- node の下にある tree block。 -/
def nodeTrees (c : ParseCtx) (rd : Nat → Bytes) : Nat → Bytes → Nat → List ExtentTreeBlock
  | 0, _, _ => []
  | depth + 1, node, off => (List.range (nodeEntries node)).flatMap fun i =>
      childBlock c node off depth i ::
        nodeTrees c rd depth (rd (indexChild node (entryOffset i)))
          (indexChild node (entryOffset i) * c.sb.blockSize)

/-! ## 検査するもの -/

def leafLogical (node : Bytes) (i : Nat) : Nat := readLe 4 node (entryOffset i)

def leafLength (node : Bytes) (i : Nat) : Nat := entryLength (readLe 2 node (entryOffset i + 4))

/-- 葉の entry の検査。 -/
structure LeafOk (blocks : Nat) (node : Bytes) (i : Nat) : Prop where
  written : readLe 2 node (entryOffset i + 4) ≠ 0
  nonzero : leafPhysical node (entryOffset i) ≠ 0
  fits : leafPhysical node (entryOffset i) + leafLength node i ≤ blocks
  ordered : ∀ j, i = j + 1 → leafLogical node j + leafLength node j ≤ leafLogical node i

/-- 途中の entry の検査。 -/
structure IndexOk (blocks : Nat) (node : Bytes) (i : Nat) : Prop where
  nonzero : indexChild node (entryOffset i) ≠ 0
  fits : indexChild node (entryOffset i) < blocks
  ordered : ∀ j, i = j + 1 → leafLogical node j < leafLogical node i

/-- node の頭の検査。 -/
structure HeaderOk (c : ParseCtx) (node : Bytes) (depth : Nat) (kind : ExtentRefKind) : Prop where
  length : 12 ≤ node.length
  checksum : kind = .extentBlock → c.metadata.metadataCsum = true →
    verifyExtentBlockChecksum c.metadata c.inode c.generation node = .ok true
  magic : readLe 2 node 0 = 0xf30a
  depth_eq : readLe 2 node 6 = depth
  depth_le : depth ≤ 5
  entries_le : nodeEntries node ≤ readLe 2 node 4
  entries_fit : 12 + nodeEntries node * 12 ≤ node.length

theorem checkNode_eq_ok_iff {c : ParseCtx} {node : Bytes} {depth n : Nat} {kind : ExtentRefKind} :
    checkNode c node depth kind = .ok n ↔ HeaderOk c node depth kind ∧ n = nodeEntries node := by
  have hfit : 12 ≤ node.length →
      (¬ nodeEntries node > (node.length - 12) / 12 ↔ 12 + nodeEntries node * 12 ≤ node.length) := by
    intro h
    rw [Nat.not_lt, Nat.le_div_iff_mul_le (by decide)]
    omega
  unfold checkNode
  by_cases hk : kind = .extentBlock ∧ c.metadata.metadataCsum = true
  · simp only [if_pos hk, Result.guard_bind_eq_ok_iff, Result.bind_eq_ok_iff, Result.pure_eq_ok_iff]
    constructor
    · rintro ⟨h1, ok, hok, h2, h3, h4, h5, h6, rfl⟩
      rw [not_or] at h6
      have htrue : ok = true := by simpa using h2
      subst htrue
      refine ⟨⟨by omega, fun _ _ => hok, by simpa using h3, by simpa using h4, by omega, ?_, ?_⟩, rfl⟩
      · exact Nat.not_lt.mp h6.1
      · exact (hfit (by omega)).mp h6.2
    · rintro ⟨h, rfl⟩
      refine ⟨by have := h.length; omega, true, h.checksum hk.1 hk.2, by simp, by simp [h.magic],
        by simp [h.depth_eq], by rw [h.depth_eq]; have := h.depth_le; omega, ?_, rfl⟩
      exact not_or.mpr ⟨Nat.not_lt.mpr h.entries_le, (hfit h.length).mpr h.entries_fit⟩
  · simp only [if_neg hk, Result.guard_bind_eq_ok_iff, Result.pure_eq_ok_iff]
    constructor
    · rintro ⟨h1, h3, h4, h5, h6, rfl⟩
      rw [not_or] at h6
      refine ⟨⟨by omega, fun h h' => absurd ⟨h, h'⟩ hk, by simpa using h3, by simpa using h4,
        by omega, ?_, ?_⟩, rfl⟩
      · exact Nat.not_lt.mp h6.1
      · exact (hfit (by omega)).mp h6.2
    · rintro ⟨h, rfl⟩
      refine ⟨by have := h.length; omega, by simp [h.magic],
        by simp [h.depth_eq], by rw [h.depth_eq]; have := h.depth_le; omega, ?_, rfl⟩
      exact not_or.mpr ⟨Nat.not_lt.mpr h.entries_le, (hfit h.length).mpr h.entries_fit⟩

/-- node と、その下のすべての node の検査。 -/
def NodeOk (c : ParseCtx) (rd : Nat → Bytes) : Nat → ExtentRefKind → Bytes → Prop
  | 0, kind, node => HeaderOk c node 0 kind ∧
      ∀ i < nodeEntries node, LeafOk c.sb.blocksCount node i
  | depth + 1, kind, node => HeaderOk c node (depth + 1) kind ∧
      ∀ i < nodeEntries node, IndexOk c.sb.blocksCount node i ∧
        NodeOk c rd depth .extentBlock (rd (indexChild node (entryOffset i)))

/-! ## 走査との対応 -/

/-- 集めたものを状態に足す。残すのは `retainFrom` より上にかかるものだけである。 -/
def collect (c : ParseCtx) (es : List OwnedExtent) (ts : List ExtentTreeBlock) (s : ParseState) :
    ParseState where
  out := { s.out with
    extents := s.out.extents ++ es.filter fun e => decide (e.endBlock > c.retainFrom)
    treeBlocks := s.out.treeBlocks ++ ts.filter fun t => decide (t.physicalBlock ≥ c.retainFrom) }
  visited := (ts.map ExtentTreeBlock.physicalBlock).reverse ++ s.visited

@[simp] theorem collect_nil (c : ParseCtx) (s : ParseState) : collect c [] [] s = s := by
  simp [collect]

theorem collect_collect (c : ParseCtx) (es es' : List OwnedExtent) (ts ts' : List ExtentTreeBlock)
    (s : ParseState) : collect c es' ts' (collect c es ts s) = collect c (es ++ es') (ts ++ ts') s := by
  simp [collect]

/-- 集めた tree block の番号に重なりがなく、すでに通ったものもない。 -/
def Fresh (ts : List ExtentTreeBlock) (visited : List Nat) : Prop :=
  (ts.map ExtentTreeBlock.physicalBlock).Nodup ∧ ∀ t ∈ ts, t.physicalBlock ∉ visited

theorem fresh_append {ts ts' : List ExtentTreeBlock} {visited : List Nat} :
    Fresh (ts ++ ts') visited ↔ Fresh ts visited ∧
      Fresh ts' ((ts.map ExtentTreeBlock.physicalBlock).reverse ++ visited) := by
  unfold Fresh
  simp only [List.map_append, List.nodup_append, List.mem_append, List.mem_reverse, List.mem_map,
    not_or, not_exists, not_and]
  constructor
  · rintro ⟨⟨h1, h2, h3⟩, h4⟩
    refine ⟨⟨h1, fun t ht => h4 t (Or.inl ht)⟩, h2, fun t ht => ⟨fun t' ht' he => ?_, h4 t (Or.inr ht)⟩⟩
    exact h3 _ ⟨t', ht', rfl⟩ _ ⟨t, ht, rfl⟩ he
  · rintro ⟨⟨h1, h2⟩, h3, h4⟩
    refine ⟨⟨h1, h3, ?_⟩, fun t ht => ?_⟩
    · rintro _ ⟨t, ht, rfl⟩ _ ⟨t', ht', rfl⟩ he
      exact (h4 t' ht').1 t ht he
    · rcases ht with ht | ht
      · exact h2 t ht
      · exact (h4 t ht).2

theorem fresh_cons {t : ExtentTreeBlock} {ts : List ExtentTreeBlock} {visited : List Nat} :
    Fresh (t :: ts) visited ↔ t.physicalBlock ∉ visited ∧ Fresh ts (t.physicalBlock :: visited) := by
  have hsingle : Fresh [t] visited ↔ t.physicalBlock ∉ visited := by simp [Fresh]
  rw [← List.singleton_append, fresh_append, hsingle]
  rfl

section Parse

variable {c : ParseCtx}

/-- 直前の葉の entry の論理的な終わり。 -/
def lastEnd (node : Bytes) : Nat → Option Nat
  | 0 => none
  | i + 1 => some (leafLogical node i + leafLength node i)

theorem leafStep_iff {node : Bytes} {off blk i : Nat} {kind : ExtentRefKind} {s s' : ParseState} :
    leafStep c node off blk kind i (lastEnd node i) s = .ok s' ↔
      LeafOk c.sb.blocksCount node i ∧ s' = collect c [leafExtent c node off blk kind i] [] s := by
  rw [leafStep_eq_ok_iff]
  have hlast : ¬ ((lastEnd node i).any fun l =>
      (leafExtent c node off blk kind i).logicalBlock < l) = true ↔
      ∀ j, i = j + 1 → leafLogical node j + leafLength node j ≤ leafLogical node i := by
    cases i with
    | zero => simp [lastEnd]
    | succ i =>
      simp only [lastEnd, Option.any_some, decide_eq_true_eq, Nat.not_lt, Nat.add_right_cancel_iff]
      exact ⟨fun h j hj => hj ▸ h, fun h => h i rfl⟩
  have hcollect : (if (leafExtent c node off blk kind i).endBlock > c.retainFrom then
      { s with out := { s.out with extents := s.out.extents ++ [leafExtent c node off blk kind i] } }
      else s) = collect c [leafExtent c node off blk kind i] [] s := by
    by_cases h : (leafExtent c node off blk kind i).endBlock > c.retainFrom
    · simp [collect, h]
    · simp [collect, h]
  rw [hlast, hcollect]
  have hphys : (leafExtent c node off blk kind i).physicalBlock =
    leafPhysical node (entryOffset i) := rfl
  have hlen : (leafExtent c node off blk kind i).length = leafLength node i := rfl
  rw [hphys, hlen]
  constructor
  · rintro ⟨h1, h2, h3, h4⟩
    have := entryLength_pos h1
    exact ⟨⟨h1, by omega, by unfold leafLength at h2 ⊢; omega, h3⟩, h4⟩
  · rintro ⟨⟨h1, h2, h3, h4⟩, h5⟩
    have := entryLength_pos h1
    exact ⟨h1, by unfold leafLength at h3 ⊢; omega, h4, h5⟩

theorem parseLeaf_iff {node : Bytes} {off blk : Nat} {kind : ExtentRefKind} :
    ∀ {n i : Nat} {s s' : ParseState},
      parseLeaf c node off blk kind n i (lastEnd node i) s = .ok s' ↔
        (∀ j, i ≤ j → j < i + n → LeafOk c.sb.blocksCount node j) ∧
        s' = collect c ((List.range' i n).map (leafExtent c node off blk kind)) [] s
  | 0, i, s, s' => by
    simp only [parseLeaf, List.range'_zero, List.map_nil, collect_nil, Except.ok.injEq]
    exact ⟨fun h => ⟨fun j h1 h2 => absurd h2 (by omega), h.symm⟩, fun h => h.2.symm⟩
  | n + 1, i, s, s' => by
    have hnext : some ((leafExtent c node off blk kind i).logicalBlock
        + (leafExtent c node off blk kind i).length) = lastEnd node (i + 1) := rfl
    rw [parseLeaf]
    simp only [Result.bind_eq_ok_iff, leafStep_iff, hnext, parseLeaf_iff]
    rw [List.range'_succ, List.map_cons]
    constructor
    · rintro ⟨s₁, ⟨h1, rfl⟩, h2, h3⟩
      refine ⟨fun j hj hj' => ?_, ?_⟩
      · rcases Nat.eq_or_lt_of_le hj with rfl | hlt
        · exact h1
        · exact h2 j hlt (by omega)
      · rw [h3, collect_collect]
        rfl
    · rintro ⟨h1, h2⟩
      refine ⟨_, ⟨h1 i (Nat.le_refl _) (by omega), rfl⟩, fun j hj hj' => h1 j (by omega) (by omega), ?_⟩
      rw [h2, collect_collect]
      rfl

/-- 直前の途中の entry の論理的な位置。 -/
def lastStart (node : Bytes) : Nat → Option Nat
  | 0 => none
  | i + 1 => some (leafLogical node i)

theorem indexStep_iff {node : Bytes} {off depth i : Nat} {s s' : ParseState} :
    indexStep c node off depth i (lastStart node i) s = .ok s' ↔
      IndexOk c.sb.blocksCount node i ∧ indexChild node (entryOffset i) ∉ s.visited ∧
        s' = collect c [] [childBlock c node off depth i] s := by
  rw [indexStep_eq_ok_iff]
  have hlast : ¬ ((lastStart node i).any fun l => readLe 4 node (entryOffset i) ≤ l) = true ↔
      ∀ j, i = j + 1 → leafLogical node j < leafLogical node i := by
    cases i with
    | zero => simp [lastStart]
    | succ i =>
      simp only [lastStart, Option.any_some, decide_eq_true_eq, Nat.not_le, Nat.add_right_cancel_iff]
      exact ⟨fun h j hj => hj ▸ h, fun h => h i rfl⟩
  have hcollect : ({
      out := if indexChild node (entryOffset i) ≥ c.retainFrom then
          { s.out with treeBlocks := s.out.treeBlocks ++ [{
            inode := c.inode, physicalBlock := indexChild node (entryOffset i)
            parentContainerByteOffset := off, parentEntryOffset := entryOffset i, depth }] }
        else s.out
      visited := indexChild node (entryOffset i) :: s.visited } : ParseState) =
      collect c [] [childBlock c node off depth i] s := by
    by_cases h : indexChild node (entryOffset i) ≥ c.retainFrom
    · simp [collect, childBlock, h]
    · simp [collect, childBlock, h]
  rw [hlast, hcollect]
  constructor
  · rintro ⟨h1, h2, h3, h4⟩
    exact ⟨⟨by omega, by omega, h1⟩, h3, h4⟩
  · rintro ⟨⟨h1, h2, h3⟩, h4, h5⟩
    exact ⟨h3, by omega, h4, h5⟩

theorem readExact_block {blk : Nat} (hfit : c.sb.blocksCount * c.sb.blockSize ≤ c.dev.sizeBytes)
    (hblk : blk < c.sb.blocksCount) : c.dev.readExact (blk * c.sb.blockSize) c.sb.blockSize =
      .ok (c.dev.data.read (blk * c.sb.blockSize) c.sb.blockSize) := by
  refine Disk.readExact_ok (Nat.le_trans ?_ hfit)
  have := Nat.mul_le_mul_right c.sb.blockSize (Nat.succ_le_of_lt hblk)
  rwa [Nat.succ_mul] at this

/-- 途中の entry のループ。子の走査が行うことは仮定として受け取る。 -/
theorem parseIndex_iff {node : Bytes} {off depth : Nat}
    (hfit : c.sb.blocksCount * c.sb.blockSize ≤ c.dev.sizeBytes)
    {down : Bytes → Nat → Nat → ParseState → Result ParseState} {D : Bytes → Prop}
    {E : Bytes → Nat → Nat → List OwnedExtent} {T : Bytes → Nat → List ExtentTreeBlock}
    (hdown : ∀ buf o b s s', down buf o b s = .ok s' ↔
      D buf ∧ Fresh (T buf o) s.visited ∧ s' = collect c (E buf o b) (T buf o) s)
    {rd : Nat → Bytes}
    (hrd : rd = fun b => c.dev.data.read (b * c.sb.blockSize) c.sb.blockSize) :
    ∀ {n i : Nat} {s s' : ParseState},
      parseIndex c node off depth down n i (lastStart node i) s = .ok s' ↔
        (∀ j, i ≤ j → j < i + n → IndexOk c.sb.blocksCount node j ∧
          D (rd (indexChild node (entryOffset j)))) ∧
        Fresh ((List.range' i n).flatMap fun j => childBlock c node off depth j ::
          T (rd (indexChild node (entryOffset j))) (indexChild node (entryOffset j) * c.sb.blockSize))
          s.visited ∧
        s' = collect c
          ((List.range' i n).flatMap fun j => E (rd (indexChild node (entryOffset j)))
            (indexChild node (entryOffset j) * c.sb.blockSize) (indexChild node (entryOffset j)))
          ((List.range' i n).flatMap fun j => childBlock c node off depth j ::
            T (rd (indexChild node (entryOffset j)))
              (indexChild node (entryOffset j) * c.sb.blockSize)) s
  | 0, i, s, s' => by
    simp only [parseIndex, List.range'_zero, List.flatMap_nil, collect_nil, Except.ok.injEq]
    refine ⟨fun h => ⟨fun j h1 h2 => absurd h2 (by omega), ⟨List.nodup_nil, fun t ht => ?_⟩, h.symm⟩,
      fun h => h.2.2.symm⟩
    cases ht
  | n + 1, i, s, s' => by
    have hnext : some (readLe 4 node (entryOffset i)) = lastStart node (i + 1) := rfl
    rw [parseIndex]
    simp only [Result.bind_eq_ok_iff, indexStep_iff, hnext, parseIndex_iff hfit hdown hrd, hdown]
    rw [List.range'_succ, List.flatMap_cons, List.flatMap_cons, List.cons_append, fresh_cons,
      fresh_append]
    constructor
    · rintro ⟨s₁, ⟨h1, h2, rfl⟩, buf, hbuf, s₂, ⟨h3, h4, rfl⟩, h5, h6, rfl⟩
      rw [readExact_block hfit h1.fits] at hbuf
      cases hbuf
      have hb : rd (indexChild node (entryOffset i)) = c.dev.data.read
        (indexChild node (entryOffset i) * c.sb.blockSize) c.sb.blockSize := by rw [hrd]
      rw [hb]
      refine ⟨fun j hj hj' => ?_, ⟨h2, h4, h6⟩, ?_⟩
      · rcases Nat.eq_or_lt_of_le hj with rfl | hlt
        · rw [hb]
          exact ⟨h1, h3⟩
        · exact h5 j hlt (by omega)
      · rw [collect_collect, collect_collect]
        rfl
    · rintro ⟨h1, ⟨h2, h3, h4⟩, rfl⟩
      obtain ⟨hi, hD⟩ := h1 i (Nat.le_refl _) (by omega)
      refine ⟨_, ⟨hi, h2, rfl⟩, _, readExact_block hfit hi.fits, _, ⟨?_, ?_, rfl⟩,
        fun j hj hj' => h1 j (by omega) (by omega), ?_, ?_⟩
      · rw [hrd] at hD
        exact hD
      · rw [hrd] at h3
        exact h3
      · rw [hrd] at h4 ⊢
        exact h4
      · rw [collect_collect, collect_collect, hrd]
        rfl

/-- **走査は、検査が通ったときに限り成功し、木の下のものをちょうど集める。** -/
theorem parseExtentNode_eq_ok_iff
    (hfit : c.sb.blocksCount * c.sb.blockSize ≤ c.dev.sizeBytes) {rd : Nat → Bytes}
    (hrd : rd = fun b => c.dev.data.read (b * c.sb.blockSize) c.sb.blockSize) :
    ∀ {depth : Nat} {kind : ExtentRefKind} {node : Bytes} {off blk : Nat} {s s' : ParseState},
      parseExtentNode c depth kind node off blk s = .ok s' ↔
        NodeOk c rd depth kind node ∧ Fresh (nodeTrees c rd depth node off) s.visited ∧
        s' = collect c (nodeExtents c rd depth kind node off blk) (nodeTrees c rd depth node off) s
  | 0, kind, node, off, blk, s, s' => by
    have hleaf := @parseLeaf_iff c node off blk kind (nodeEntries node) 0 s s'
    rw [← List.range_eq_range'] at hleaf
    simp only [parseExtentNode, Result.bind_eq_ok_iff, checkNode_eq_ok_iff, NodeOk, nodeTrees,
      nodeExtents]
    constructor
    · rintro ⟨n, ⟨hhead, rfl⟩, h⟩
      obtain ⟨h1, h2⟩ := hleaf.mp h
      refine ⟨⟨hhead, fun i hi => h1 i (Nat.zero_le _) (by omega)⟩, ⟨List.nodup_nil, fun t ht => ?_⟩, h2⟩
      cases ht
    · rintro ⟨⟨hhead, h1⟩, -, h2⟩
      exact ⟨_, ⟨hhead, rfl⟩, hleaf.mpr ⟨fun j _ hj => h1 j (by omega), h2⟩⟩
  | depth + 1, kind, node, off, blk, s, s' => by
    have hindex := @parseIndex_iff c node off depth hfit _ _ _ _
      (fun buf o b s s' => @parseExtentNode_eq_ok_iff hfit rd hrd depth .extentBlock buf o b s s')
      rd hrd (nodeEntries node) 0 s s'
    rw [← List.range_eq_range'] at hindex
    simp only [parseExtentNode, Result.bind_eq_ok_iff, checkNode_eq_ok_iff, NodeOk, nodeTrees,
      nodeExtents]
    constructor
    · rintro ⟨n, ⟨hhead, rfl⟩, h⟩
      obtain ⟨h1, h2, h3⟩ := hindex.mp h
      exact ⟨⟨hhead, fun i hi => h1 i (Nat.zero_le _) (by omega)⟩, h2, h3⟩
    · rintro ⟨⟨hhead, h1⟩, h2, h3⟩
      exact ⟨_, ⟨hhead, rfl⟩, hindex.mpr ⟨fun j _ hj => h1 j (by omega), h2, h3⟩⟩

end Parse

/-! ## 木の中の位置 -/

section Member

variable {c : ParseCtx} {rd : Nat → Bytes}

/-- extent は、この node が葉ならその entry、そうでなければ下の葉の entry である。 -/
theorem origin_of_mem_extents : ∀ {depth : Nat} {kind : ExtentRefKind} {node : Bytes}
    {off blk : Nat} {e : OwnedExtent}, e ∈ nodeExtents c rd depth kind node off blk →
      (depth = 0 ∧ ∃ i < nodeEntries node, e = leafExtent c node off blk kind i) ∨
      ∃ t ∈ nodeTrees c rd depth node off, t.depth = 0 ∧
        ∃ i < nodeEntries (rd t.physicalBlock), e = leafExtent c (rd t.physicalBlock)
          (t.physicalBlock * c.sb.blockSize) t.physicalBlock .extentBlock i
  | 0, kind, node, off, blk, e, he => by
    obtain ⟨i, hi, rfl⟩ := List.mem_map.mp he
    exact Or.inl ⟨rfl, i, List.mem_range.mp hi, rfl⟩
  | depth + 1, kind, node, off, blk, e, he => by
    obtain ⟨i, hi, he⟩ := List.mem_flatMap.mp he
    rcases origin_of_mem_extents he with ⟨hd, k, hk, rfl⟩ | ⟨t, ht, hd, hrest⟩
    · exact Or.inr ⟨childBlock c node off depth i,
        List.mem_flatMap.mpr ⟨i, hi, List.mem_cons_self⟩, hd, k, hk, rfl⟩
    · exact Or.inr ⟨t, List.mem_flatMap.mpr ⟨i, hi, List.mem_cons_of_mem _ ht⟩, hd, hrest⟩

/-- tree block は、この node の entry か、下の途中の node の entry が指すものである。 -/
theorem origin_of_mem_trees : ∀ {depth : Nat} {node : Bytes} {off : Nat} {t : ExtentTreeBlock},
    t ∈ nodeTrees c rd depth node off →
      (depth = t.depth + 1 ∧ ∃ i < nodeEntries node, t = childBlock c node off t.depth i) ∨
      ∃ p ∈ nodeTrees c rd depth node off, p.depth = t.depth + 1 ∧
        ∃ i < nodeEntries (rd p.physicalBlock), t = childBlock c (rd p.physicalBlock)
          (p.physicalBlock * c.sb.blockSize) t.depth i
  | 0, _, _, _, ht => by cases ht
  | depth + 1, node, off, t, ht => by
    obtain ⟨i, hi, ht⟩ := List.mem_flatMap.mp ht
    rcases List.mem_cons.mp ht with rfl | ht
    · exact Or.inl ⟨rfl, i, List.mem_range.mp hi, rfl⟩
    · right
      rcases origin_of_mem_trees ht with ⟨hd, k, hk, he⟩ | ⟨p, hp, hd, hrest⟩
      · exact ⟨childBlock c node off depth i, List.mem_flatMap.mpr ⟨i, hi, List.mem_cons_self⟩,
          hd, k, hk, he⟩
      · exact ⟨p, List.mem_flatMap.mpr ⟨i, hi, List.mem_cons_of_mem _ hp⟩, hd, hrest⟩

/-- extent は空でなく、filesystem に収まる。 -/
theorem extent_bounds : ∀ {depth : Nat} {kind : ExtentRefKind} {node : Bytes} {off blk : Nat}
    {e : OwnedExtent}, NodeOk c rd depth kind node → e ∈ nodeExtents c rd depth kind node off blk →
      e.inode = c.inode ∧ 0 < e.length ∧ e.physicalBlock ≠ 0 ∧
        e.physicalBlock + e.length ≤ c.sb.blocksCount
  | 0, kind, node, off, blk, e, hok, he => by
    obtain ⟨i, hi, rfl⟩ := List.mem_map.mp he
    have h := hok.2 i (List.mem_range.mp hi)
    exact ⟨rfl, entryLength_pos h.written, h.nonzero, h.fits⟩
  | depth + 1, kind, node, off, blk, e, hok, he => by
    obtain ⟨i, hi, he⟩ := List.mem_flatMap.mp he
    exact extent_bounds (hok.2 i (List.mem_range.mp hi)).2 he

/-- tree block は filesystem に収まる。 -/
theorem tree_bounds : ∀ {depth : Nat} {kind : ExtentRefKind} {node : Bytes} {off : Nat}
    {t : ExtentTreeBlock}, NodeOk c rd depth kind node → t ∈ nodeTrees c rd depth node off →
      t.inode = c.inode ∧ t.physicalBlock ≠ 0 ∧ t.physicalBlock < c.sb.blocksCount
  | 0, _, _, _, _, _, ht => by cases ht
  | depth + 1, kind, node, off, t, hok, ht => by
    obtain ⟨i, hi, ht⟩ := List.mem_flatMap.mp ht
    obtain ⟨h, hdown⟩ := hok.2 i (List.mem_range.mp hi)
    rcases List.mem_cons.mp ht with rfl | ht
    · exact ⟨rfl, h.nonzero, h.fits⟩
    · exact tree_bounds hdown ht

end Member

end Fsx.Ext4
