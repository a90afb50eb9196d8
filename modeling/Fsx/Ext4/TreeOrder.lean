import Fsx.Core.Interval
import Fsx.Ext4.Session
import Fsx.Ext4.Tree
import Fsx.Ext4.Verify

/-!
# extent tree の論理的な順序

`parse_extent_node` は entry の順序を node の中でだけ調べ、次の node に移るたびに
`last_logical_end` と `last_index` を初めからにする。
したがって受け入れた木でも、子の entry が親の key の範囲に入るとは限らない。

ここでは、範囲を根から順に受け渡す検査（`Guided`）が、key がその下のすべての entry を
挟むこと（`KeysBound`）とちょうど等しいことを示し、木が論理的に一意である条件を定める。
-/

namespace Fsx.Ext4

section Order

variable (rd : Nat → Bytes)

/-- `i` 番目の entry が指す子の node。 -/
def childNode (node : Bytes) (i : Nat) : Bytes := rd (indexChild node (entryOffset i))

/-- node とその下にある、すべての entry の論理的な位置。 -/
def positions : Nat → Bytes → List Nat
  | 0, node => (List.range (nodeEntries node)).map (leafLogical node)
  | depth + 1, node => (List.range (nodeEntries node)).flatMap fun i =>
      leafLogical node i :: positions depth (childNode rd node i)

/-- node の下にある extent の論理的な範囲。木の順に並ぶ。 -/
def logicalRanges : Nat → Bytes → List (Nat × Nat)
  | 0, node => (List.range (nodeEntries node)).map fun i => (leafLogical node i, leafLength node i)
  | depth + 1, node => (List.range (nodeEntries node)).flatMap fun i =>
      logicalRanges depth (childNode rd node i)

/-- 位置 `p` は、`i` 番目の key 以上で、同じ node の次の key より前である。 -/
def InCharge (node : Bytes) (i p : Nat) : Prop :=
  leafLogical node i ≤ p ∧ (i + 1 < nodeEntries node → p < leafLogical node (i + 1))

/-- 木のどの key も、その下のすべての entry を挟む。 -/
def KeysBound : Nat → Bytes → Prop
  | 0, _ => True
  | depth + 1, node => ∀ i < nodeEntries node,
      (∀ p ∈ positions rd depth (childNode rd node i), InCharge node i p) ∧
        KeysBound depth (childNode rd node i)

/-- node の最初と最後の entry が、受け渡された範囲 `[lo, hi)` に入る。 -/
structure EndsWithin (node : Bytes) (lo : Nat) (hi : Option Nat) : Prop where
  first : 0 < nodeEntries node → lo ≤ leafLogical node 0
  last : 0 < nodeEntries node → ∀ h ∈ hi, leafLogical node (nodeEntries node - 1) < h

/-- `i` 番目の子に渡す上限。次の key がなければ、受け渡された上限である。 -/
def nextKey (node : Bytes) (i : Nat) (hi : Option Nat) : Option Nat :=
  if i + 1 < nodeEntries node then some (leafLogical node (i + 1)) else hi

/-- 範囲を受け渡しながら、node ごとに両端の entry だけを調べる。 -/
def Guided : Nat → Bytes → Nat → Option Nat → Prop
  | 0, node, lo, hi => EndsWithin node lo hi
  | depth + 1, node, lo, hi => EndsWithin node lo hi ∧ ∀ i < nodeEntries node,
      Guided depth (childNode rd node i) (leafLogical node i) (nextKey node i hi)

end Order

/-! ## 受け入れた node の順序 -/

section Node

variable {c : ParseCtx} {rd : Nat → Bytes}

/-- 受け入れた node の entry は、論理的な位置の順に並ぶ。 -/
theorem NodeOk.logical_lt {depth : Nat} {kind : ExtentRefKind} {node : Bytes}
    (h : NodeOk c rd depth kind node) {i j : Nat} (hij : i < j) (hj : j < nodeEntries node) :
    leafLogical node i < leafLogical node j := by
  have hstep : ∀ k, k + 1 < nodeEntries node → leafLogical node k < leafLogical node (k + 1) := by
    intro k hk
    cases depth with
    | zero =>
      have hord := (h.2 (k + 1) hk).ordered k rfl
      have hpos : 0 < leafLength node k := entryLength_pos (h.2 k (by omega)).written
      omega
    | succ depth => exact (h.2 (k + 1) hk).1.ordered k rfl
  induction j with
  | zero => exact absurd hij (Nat.not_lt_zero i)
  | succ j ih =>
    rcases Nat.lt_or_eq_of_le (Nat.lt_succ_iff.mp hij) with hlt | rfl
    · exact (ih hlt (by omega)).trans (hstep j hj)
    · exact hstep i hj

theorem NodeOk.logical_le {depth : Nat} {kind : ExtentRefKind} {node : Bytes}
    (h : NodeOk c rd depth kind node) {i j : Nat} (hij : i ≤ j) (hj : j < nodeEntries node) :
    leafLogical node i ≤ leafLogical node j := by
  rcases Nat.lt_or_eq_of_le hij with hlt | rfl
  · exact (h.logical_lt hlt hj).le
  · exact Nat.le_refl _

/-- 両端の entry が範囲に入れば、その node の entry はどれも範囲に入る。 -/
theorem EndsWithin.within {depth : Nat} {kind : ExtentRefKind} {node : Bytes}
    (hok : NodeOk c rd depth kind node) {lo : Nat} {hi : Option Nat} (h : EndsWithin node lo hi)
    {i : Nat} (hi' : i < nodeEntries node) :
    lo ≤ leafLogical node i ∧ ∀ u ∈ hi, leafLogical node i < u := by
  have hpos : 0 < nodeEntries node := by omega
  constructor
  · exact (h.first hpos).trans (hok.logical_le (Nat.zero_le i) hi')
  · intro u hu
    exact (hok.logical_le (show i ≤ nodeEntries node - 1 by omega) (by omega)).trans_lt
      (h.last hpos u hu)

/-- 次の key も、受け渡された上限を超えない。 -/
theorem EndsWithin.nextKey_le {depth : Nat} {kind : ExtentRefKind} {node : Bytes}
    (hok : NodeOk c rd depth kind node) {lo : Nat} {hi : Option Nat} (h : EndsWithin node lo hi)
    {i p : Nat} (hp : ∀ u ∈ nextKey node i hi, p < u) : ∀ u ∈ hi, p < u := by
  intro u hu
  unfold nextKey at hp
  split at hp
  · next hnext =>
    exact (hp _ rfl).trans ((h.within hok hnext).2 u hu)
  · exact hp u hu

/-- **両端だけの検査は、key がその下のすべての entry を挟み、全体が範囲に入ることに等しい。** -/
theorem guided_iff : ∀ {depth : Nat} {kind : ExtentRefKind} {node : Bytes} {lo : Nat}
    {hi : Option Nat}, NodeOk c rd depth kind node →
      (Guided rd depth node lo hi ↔ KeysBound rd depth node ∧
        ∀ p ∈ positions rd depth node, lo ≤ p ∧ ∀ u ∈ hi, p < u)
  | 0, kind, node, lo, hi, hok => by
    simp only [Guided, KeysBound, positions, true_and, List.forall_mem_map, List.mem_range]
    constructor
    · intro h i hi'
      exact h.within hok hi'
    · intro h
      refine ⟨fun hpos => (h 0 hpos).1, fun hpos u hu => (h _ (by omega)).2 u hu⟩
  | depth + 1, kind, node, lo, hi, hok => by
    have hchild : ∀ i < nodeEntries node, NodeOk c rd depth .extentBlock (childNode rd node i) :=
      fun i hi' => (hok.2 i hi').2
    rw [Guided, KeysBound, positions]
    constructor
    · rintro ⟨hends, hdown⟩
      have hsub := fun i hi' => (guided_iff (hchild i hi')).mp (hdown i hi')
      refine ⟨fun i hi' => ⟨fun p hp => ?_, (hsub i hi').1⟩, fun p hp => ?_⟩
      · obtain ⟨hlow, hup⟩ := (hsub i hi').2 p hp
        refine ⟨hlow, fun hnext => hup _ ?_⟩
        rw [nextKey, if_pos hnext]
        rfl
      · obtain ⟨i, hi', hp⟩ := List.mem_flatMap.mp hp
        rw [List.mem_range] at hi'
        obtain ⟨hkey, hkey'⟩ := hends.within hok hi'
        rcases List.mem_cons.mp hp with rfl | hp
        · exact ⟨hkey, hkey'⟩
        · obtain ⟨hlow, hup⟩ := (hsub i hi').2 p hp
          exact ⟨hkey.trans hlow, hends.nextKey_le hok hup⟩
    · rintro ⟨hkeys, hall⟩
      have hown : ∀ i < nodeEntries node, lo ≤ leafLogical node i ∧
          ∀ u ∈ hi, leafLogical node i < u := fun i hi' =>
        hall _ (List.mem_flatMap.mpr ⟨i, List.mem_range.mpr hi', List.mem_cons_self⟩)
      refine ⟨⟨fun hpos => (hown 0 hpos).1, fun hpos u hu => (hown _ (by omega)).2 u hu⟩,
        fun i hi' => (guided_iff (hchild i hi')).mpr ⟨(hkeys i hi').2, fun p hp => ?_⟩⟩
      obtain ⟨hlow, hup⟩ := (hkeys i hi').1 p hp
      refine ⟨hlow, fun u hu => ?_⟩
      unfold nextKey at hu
      split at hu
      · next hnext =>
        cases hu
        exact hup hnext
      · exact (hall p (List.mem_flatMap.mpr
          ⟨i, List.mem_range.mpr hi', List.mem_cons_of_mem _ hp⟩)).2 u hu

theorem fst_mem_positions : ∀ {depth : Nat} {node : Bytes} {r : Nat × Nat},
    r ∈ logicalRanges rd depth node → r.1 ∈ positions rd depth node
  | 0, node, r, hr => by
    obtain ⟨i, hi, rfl⟩ := List.mem_map.mp hr
    exact List.mem_map_of_mem hi
  | depth + 1, node, r, hr => by
    obtain ⟨i, hi, hr⟩ := List.mem_flatMap.mp hr
    exact List.mem_flatMap.mpr ⟨i, hi, List.mem_cons_of_mem _ (fst_mem_positions hr)⟩

/-- key が挟む木では、extent は木の順に始まる。 -/
theorem KeysBound.starts_lt : ∀ {depth : Nat} {kind : ExtentRefKind} {node : Bytes},
    NodeOk c rd depth kind node → KeysBound rd depth node →
      (logicalRanges rd depth node).Pairwise fun a b => a.1 < b.1
  | 0, kind, node, hok, _ => by
    rw [logicalRanges, List.pairwise_map]
    refine List.Pairwise.imp_of_mem ?_ List.pairwise_lt_range
    intro i j _ hj hij
    exact hok.logical_lt hij (List.mem_range.mp hj)
  | depth + 1, kind, node, hok, hkeys => by
    rw [logicalRanges, List.pairwise_flatMap]
    refine ⟨fun i hi => ?_, List.Pairwise.imp_of_mem ?_ List.pairwise_lt_range⟩
    · have hi := List.mem_range.mp hi
      exact KeysBound.starts_lt (hok.2 i hi).2 (hkeys i hi).2
    · intro i j hi hj hij r hr r' hr'
      have hi := List.mem_range.mp hi
      have hj := List.mem_range.mp hj
      obtain ⟨-, hup⟩ := (hkeys i hi).1 _ (fst_mem_positions hr)
      obtain ⟨hlow, -⟩ := (hkeys j hj).1 _ (fst_mem_positions hr')
      calc r.1 < leafLogical node (i + 1) := hup (by omega)
        _ ≤ leafLogical node j := hok.logical_le hij hj
        _ ≤ r'.1 := hlow

/-- 集める extent の論理的な範囲。 -/
theorem map_nodeExtents : ∀ {depth : Nat} {kind : ExtentRefKind} {node : Bytes} {off blk : Nat},
    (nodeExtents c rd depth kind node off blk).map (fun e => (e.logicalBlock, e.length)) =
      logicalRanges rd depth node
  | 0, kind, node, off, blk => by
    rw [nodeExtents, logicalRanges, List.map_map]
    rfl
  | depth + 1, kind, node, off, blk => by
    rw [nodeExtents, logicalRanges, List.map_flatMap]
    exact List.flatMap_congr fun i _ => map_nodeExtents

end Node

/-! ## inode の木 -/

section InodeTree

variable (d : Disk) (sb : Superblock) (ino : Nat)

/-- inode の byte 列。 -/
def inodeRecord : Bytes :=
  d.data.read ((descAt d sb ((ino - 1) / sb.inodesPerGroup)).inodeTable * sb.blockSize
    + (ino - 1) % sb.inodesPerGroup * sb.inodeSize) sb.inodeSize

/-- inode は extent tree を持つ。 -/
def UsesExtents : Prop := readLe 4 (inodeRecord d sb ino) 32 &&& extentsFlag ≠ 0

def treeRoot : Bytes := inodeRoot (inodeRecord d sb ino)

def treeDepth : Nat := readLe 2 (treeRoot d sb ino) 6

def treeBlock (b : Nat) : Bytes := d.data.read (b * sb.blockSize) sb.blockSize

/-- inode の extent の論理的な範囲。木の順に並ぶ。 -/
def inodeRanges : List (Nat × Nat) :=
  logicalRanges (treeBlock d sb) (treeDepth d sb ino) (treeRoot d sb ino)

/--
木が順に並んでいる。

範囲を根から受け渡す検査が通り、`last_logical_end` を葉から葉へ持ち越しても、
どの extent も直前の extent の終わりより手前から始まらない。
-/
structure TreeOrdered : Prop where
  guided : Guided (treeBlock d sb) (treeDepth d sb ino) (treeRoot d sb ino) 0 none
  chained : (inodeRanges d sb ino).IsChain fun a b => a.1 + a.2 ≤ b.1

end InodeTree

/-- extent `e` が論理 block `b` を写す。 -/
def OwnedExtent.Maps (e : OwnedExtent) (b : Nat) : Prop :=
  e.logicalBlock ≤ b ∧ b < e.logicalBlock + e.length

/-- 論理的な範囲が重ならない。 -/
def OwnedExtent.LogicallyApart (a b : OwnedExtent) : Prop :=
  a.logicalBlock + a.length ≤ b.logicalBlock ∨ b.logicalBlock + b.length ≤ a.logicalBlock

instance : Std.Symm OwnedExtent.LogicallyApart := ⟨fun _ _ h => Or.symm h⟩

/-- 受け入れた木が論理的に一意である。 -/
structure Unambiguous (srt : StdSort) (d : Disk) (sb : Superblock) (ino : Nat)
    (scan : OwnerScan) : Prop where
  disjoint : scan.extents.Pairwise OwnedExtent.LogicallyApart
  keys : UsesExtents d sb ino →
    KeysBound (treeBlock d sb) (treeDepth d sb ino) (treeRoot d sb ino)
  found : ∀ e ∈ scan.extents, ∀ b, e.Maps b → findInodeExtent srt d ino b = .ok e
  missing : ∀ b, (∀ e ∈ scan.extents, ¬ e.Maps b) →
    ∃ err, findInodeExtent srt d ino b = .error err

section Scan

variable {srt : StdSort} {d : Disk} {ino : Nat} {scan : OwnerScan}

/-- 成功した走査は、extent tree があれば検査を通り、その extent をすべて集める。 -/
theorem scanInodeExtentTree_spec (h : scanInodeExtentTree srt d ino 0 = .ok scan) :
    ∃ sb, readSuperblock d = .ok sb ∧
      ((¬ UsesExtents d sb ino ∧ scan.extents = []) ∨
        (UsesExtents d sb ino ∧ ∃ c : ParseCtx, ∃ off : Nat,
          NodeOk c (treeBlock d sb) (treeDepth d sb ino) .inodeRoot (treeRoot d sb ino) ∧
          scan.extents.Perm (nodeExtents c (treeBlock d sb) (treeDepth d sb ino) .inodeRoot
            (treeRoot d sb ino) off 0))) := by
  unfold scanInodeExtentTree at h
  obtain ⟨sb, hsb, h⟩ := Result.bind_eq_ok h
  obtain ⟨_, _, h⟩ := Result.bind_eq_ok h
  unfold scanSpecificInode at h
  simp only [Result.guard_bind_eq_ok_iff] at h
  obtain ⟨gd, hgd, h⟩ := Result.bind_eq_ok h.2
  simp only [Result.guard_bind_eq_ok_iff] at h
  obtain ⟨ib, _, h⟩ := Result.bind_eq_ok h.2
  simp only [Result.guard_bind_eq_ok_iff] at h
  obtain ⟨inode, hinode, h⟩ := Result.bind_eq_ok h.2
  simp only [Result.guard_bind_eq_ok_iff] at h
  obtain ⟨mctx, _, h⟩ := Result.bind_eq_ok h.2
  have hdesc : gd = descAt d sb ((ino - 1) / sb.inodesPerGroup) :=
    (readGroupDesc_eq_ok_iff.mp hgd).2.2.1
  have hrecord : inode = inodeRecord d sb ino := by
    rw [(Disk.readExact_eq_ok_iff.mp hinode).2, hdesc]
    rfl
  subst hrecord
  refine ⟨sb, hsb, ?_⟩
  split at h
  · next hflag =>
    cases h
    exact .inl ⟨fun huse => huse hflag, rfl⟩
  · next hflag =>
    obtain ⟨out, hout, h⟩ := Result.bind_eq_ok h
    cases h
    unfold parseInode at hout
    obtain ⟨st, hst, hout⟩ := Result.bind_eq_ok hout
    cases hout
    obtain ⟨hok, -, rfl⟩ := (@parseExtentNode_eq_ok_iff
      { dev := d, sb, inode := ino, generation := readLe 4 (inodeRecord d sb ino) 100
        retainFrom := min 0 sb.blocksCount, metadata := mctx }
      (accepted_of_readSuperblock hsb).fits (treeBlock d sb) rfl _ _ _ _ _ _ _).mp hst
    refine .inr ⟨hflag, _, gd.inodeTable * sb.blockSize
      + (ino - 1) % sb.inodesPerGroup * sb.inodeSize + 40, hok,
      (srt.perm _ _).trans (List.Perm.of_eq ?_)⟩
    -- 零から上の走査なので、捨てる extent はない
    dsimp only [collect]
    rw [List.nil_append]
    refine List.filter_eq_self.mpr fun e he => ?_
    have := (extent_bounds hok he).2.1
    unfold OwnedExtent.endBlock
    exact decide_eq_true (by omega)

/-- 同じ block を写す extent は一つである。 -/
theorem eq_of_maps (h : scan.extents.Pairwise OwnedExtent.LogicallyApart) {e e' : OwnedExtent}
    (he : e ∈ scan.extents) (he' : e' ∈ scan.extents) {b : Nat} (hb : e.Maps b)
    (hb' : e'.Maps b) : e = e' := by
  unfold OwnedExtent.Maps at hb hb'
  by_contra hne
  rcases h.forall he he' hne with h | h
  · omega
  · omega

/-- 論理的な範囲が重ならなければ、検索は写す extent を返し、なければ error になる。 -/
theorem findInodeExtent_spec (h : scanInodeExtentTree srt d ino 0 = .ok scan)
    (hapart : scan.extents.Pairwise OwnedExtent.LogicallyApart) (b : Nat) :
    (∀ e ∈ scan.extents, e.Maps b → findInodeExtent srt d ino b = .ok e) ∧
      ((∀ e ∈ scan.extents, ¬ e.Maps b) → ∃ err, findInodeExtent srt d ino b = .error err) := by
  have hrun : findInodeExtent srt d ino b = (scan.extents.find? fun e =>
      decide (e.logicalBlock ≤ b ∧ b < e.logicalBlock + e.length)).elim
        (.error { code := .notFound, message := "logical block is not covered by an extent" })
        .ok := by
    unfold findInodeExtent
    rw [h, Result.ok_bind]
    cases scan.extents.find? fun e =>
      decide (e.logicalBlock ≤ b ∧ b < e.logicalBlock + e.length)
    · rfl
    · rfl
  rw [hrun]
  cases hf : scan.extents.find? fun e =>
      decide (e.logicalBlock ≤ b ∧ b < e.logicalBlock + e.length) with
  | none =>
    refine ⟨fun e he hb => ?_, fun _ => ⟨_, rfl⟩⟩
    unfold OwnedExtent.Maps at hb
    exact absurd (decide_eq_true hb) (List.find?_eq_none.mp hf e he)
  | some e =>
    have hmem := List.mem_of_find?_eq_some hf
    have hmaps : e.Maps b := by
      unfold OwnedExtent.Maps
      simpa only [decide_eq_true_eq] using List.find?_some hf
    refine ⟨fun e' he' hb => ?_, fun hnone => absurd hmaps (hnone e hmem)⟩
    rw [eq_of_maps hapart hmem he' hmaps hb]
    rfl

end Scan

/-! ## 一意である条件 -/

section Ranges

variable {rs : List (Nat × Nat)}

/-- 順に始まる範囲が重ならないことは、どの範囲も直前の終わりから始まることに等しい。 -/
theorem isChain_of_apart (hstarts : rs.Pairwise fun a b => a.1 < b.1)
    (h : rs.Pairwise fun a b => a.1 + a.2 ≤ b.1 ∨ b.1 + b.2 ≤ a.1) :
    rs.IsChain fun a b => a.1 + a.2 ≤ b.1 := by
  refine (List.Pairwise.imp ?_ (hstarts.and h)).isChain
  rintro a b ⟨hlt, hab | hba⟩
  · exact hab
  · omega

theorem pairwise_of_isChain (h : rs.IsChain fun a b => a.1 + a.2 ≤ b.1) :
    rs.Pairwise fun a b : Nat × Nat => a.1 + a.2 ≤ b.1 := by
  have : IsTrans (Nat × Nat) fun a b => a.1 + a.2 ≤ b.1 := ⟨fun a b c hab hbc => by omega⟩
  exact List.isChain_iff_pairwise.mp h

end Ranges

/--
**受け入れた木が論理的に一意であるのは、範囲の受け渡しの検査が通り、
葉をまたいでも extent が順に並ぶとき、かつそのときに限る。**
-/
theorem unambiguous_iff {srt : StdSort} {d : Disk} {ino : Nat} {scan : OwnerScan}
    (h : scanInodeExtentTree srt d ino 0 = .ok scan) : ∃ sb, readSuperblock d = .ok sb ∧
      (Unambiguous srt d sb ino scan ↔ (UsesExtents d sb ino → TreeOrdered d sb ino)) := by
  obtain ⟨sb, hsb, hscan⟩ := scanInodeExtentTree_spec h
  refine ⟨sb, hsb, ?_⟩
  rcases hscan with ⟨hlegacy, hnil⟩ | ⟨huse, c, off, hok, hperm⟩
  · -- extent tree がなければ、extent もない
    have hapart : scan.extents.Pairwise OwnedExtent.LogicallyApart := hnil ▸ List.Pairwise.nil
    exact ⟨fun _ huse => absurd huse hlegacy, fun _ => ⟨hapart, fun huse => absurd huse hlegacy,
      fun e he b => (findInodeExtent_spec h hapart b).1 e he,
      fun b => (findInodeExtent_spec h hapart b).2⟩⟩
  · have hranges : scan.extents.Pairwise OwnedExtent.LogicallyApart ↔
        (inodeRanges d sb ino).Pairwise fun a b => a.1 + a.2 ≤ b.1 ∨ b.1 + b.2 ≤ a.1 := by
      unfold inodeRanges
      rw [← @map_nodeExtents c, List.pairwise_map]
      exact @List.Perm.pairwise_iff _ OwnedExtent.LogicallyApart (fun h => Or.symm h) _ _ hperm
    have hguided := @guided_iff c (treeBlock d sb) _ _ _ 0 none hok
    constructor
    · rintro hu -
      have hkeys := hu.keys huse
      refine ⟨hguided.mpr ⟨hkeys, fun p _ => ⟨Nat.zero_le p, fun u hu => (by cases hu)⟩⟩,
        isChain_of_apart (hkeys.starts_lt hok) (hranges.mp hu.disjoint)⟩
    · intro hcond
      obtain ⟨hg, hchain⟩ := hcond huse
      have hapart := hranges.mpr ((pairwise_of_isChain hchain).imp fun hab => Or.inl hab)
      exact ⟨hapart, fun _ => (hguided.mp hg).1,
        fun e he b => (findInodeExtent_spec h hapart b).1 e he,
        fun b => (findInodeExtent_spec h hapart b).2⟩

/-- 二つの葉に一つずつ extent を持つ、深さ 1 の木。 -/
theorem unambiguous_iff_tiny : ∃ scan sb,
    scanInodeExtentTree StdSort.ofStable Tiny.spread 11 0 = .ok scan ∧
      scan.extents.length = 2 ∧ scan.treeBlocks.length = 2 ∧
      (Unambiguous StdSort.ofStable Tiny.spread sb 11 scan ↔
        (UsesExtents Tiny.spread sb 11 → TreeOrdered Tiny.spread sb 11)) := by
  have hrun : (scanInodeExtentTree StdSort.ofStable Tiny.spread 11 0).map
      (fun scan => (scan.extents.length, scan.treeBlocks.length)) = .ok (2, 2) := by decide +kernel
  cases hs : scanInodeExtentTree StdSort.ofStable Tiny.spread 11 0 with
  | error e =>
    rw [hs] at hrun
    cases hrun
  | ok scan =>
    rw [hs] at hrun
    obtain ⟨sb, -, hiff⟩ := unambiguous_iff hs
    obtain ⟨h1, h2⟩ := Prod.mk.inj (Except.ok.inj hrun)
    exact ⟨scan, sb, rfl, h1, h2, hiff⟩

namespace Tiny

/-- 深さ 1 の root が key 0 と 5 で二つの葉を指し、どちらの葉も論理 block 0 を写す image。 -/
def twoLeaves : Disk :=
  disk ((image 1 []).applyAll [
    ⟨9472 + 40, leBytes 2 0xf30a ++ leBytes 2 2 ++ leBytes 2 4 ++ leBytes 2 1⟩,
    ⟨9472 + 52, leBytes 4 0 ++ leBytes 4 12 ++ zeros 4⟩,
    ⟨9472 + 64, leBytes 4 5 ++ leBytes 4 13 ++ zeros 4⟩,
    ⟨24576, leBytes 2 0xf30a ++ leBytes 2 1 ++ leBytes 2 4 ++ zeros 10 ++ leBytes 2 1 ++ leBytes 2 0
      ++ leBytes 4 14⟩,
    ⟨26624, leBytes 2 0xf30a ++ leBytes 2 1 ++ leBytes 2 4 ++ zeros 10 ++ leBytes 2 1 ++ leBytes 2 0
      ++ leBytes 4 15⟩])

end Tiny

/-- 二つの葉が同じ論理 block を写す木も、走査は受け入れる。 -/
theorem ambiguous_accepted : ∃ scan,
    scanInodeExtentTree StdSort.ofStable Tiny.twoLeaves 11 0 = .ok scan ∧
      ∀ sb, ¬ Unambiguous StdSort.ofStable Tiny.twoLeaves sb 11 scan := by
  have hrun : (scanInodeExtentTree StdSort.ofStable Tiny.twoLeaves 11 0).map (fun scan =>
      scan.extents.map fun e => (e.logicalBlock, e.length, e.physicalBlock)) =
      .ok [(0, 1, 14), (0, 1, 15)] := by decide +kernel
  cases hs : scanInodeExtentTree StdSort.ofStable Tiny.twoLeaves 11 0 with
  | error e =>
    rw [hs] at hrun
    cases hrun
  | ok scan =>
    rw [hs] at hrun
    have hmap : scan.extents.map (fun e => (e.logicalBlock, e.length, e.physicalBlock)) =
        [(0, 1, 14), (0, 1, 15)] := Except.ok.inj hrun
    refine ⟨scan, rfl, fun sb hu => ?_⟩
    have hapart : (scan.extents.map fun e => (e.logicalBlock, e.length, e.physicalBlock)).Pairwise
        fun a b => a.1 + a.2.1 ≤ b.1 ∨ b.1 + b.2.1 ≤ a.1 := List.pairwise_map.mpr hu.disjoint
    rw [hmap] at hapart
    revert hapart
    decide

end Fsx.Ext4
