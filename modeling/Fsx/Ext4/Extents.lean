import Mathlib.Data.List.Sort
import Fsx.Ext4.Group

/-!
# extent tree の走査（`src/ext4/extents.cpp`）

`parse_extent_node` は木を深さ優先に降り、葉の extent と途中の tree block を集める。
再帰は深さについての構造的な再帰とする（深さは node の欄と一致することが検査される）。

`std::sort` は安定とは限らない。同じ key の要素の順は実装に任されているので、
並べ替えは `StdSort` として外から与え、仕様（置換であることと、整列していること）だけを使う。
-/

namespace Fsx.Ext4

/-- 比較関数が strict weak ordering であること。 -/
structure StrictWeak {α : Type} (lt : α → α → Bool) : Prop where
  asymm : ∀ a b, lt a b = true → lt b a = false
  negTrans : ∀ a b c, lt b a = false → lt c b = false → lt c a = false

/-- `std::sort`。 -/
structure StdSort where
  sort : ∀ {α : Type}, (α → α → Bool) → List α → List α
  perm : ∀ {α : Type} (lt : α → α → Bool) (l : List α), (sort lt l).Perm l
  sorted : ∀ {α : Type} (lt : α → α → Bool) (l : List α), StrictWeak lt →
    (sort lt l).Pairwise fun a b => lt b a = false

/-- `std::stable_sort`。 -/
def stableSort {α : Type} (lt : α → α → Bool) (l : List α) : List α :=
  l.insertionSort fun a b => lt b a = false

theorem pairwise_stableSort {α : Type} {lt : α → α → Bool} (h : StrictWeak lt) (l : List α) :
    (stableSort lt l).Pairwise fun a b => lt b a = false := by
  have : Std.Total fun a b : α => lt b a = false := ⟨fun a b => by
    cases hab : lt b a with
    | false => exact Or.inl rfl
    | true => exact Or.inr (h.asymm b a hab)⟩
  have : IsTrans α fun a b => lt b a = false := ⟨fun a b c hab hbc => h.negTrans a b c hab hbc⟩
  exact List.pairwise_insertionSort _ l

/-- 安定な並べ替えは `std::sort` の仕様を満たす。 -/
def StdSort.ofStable : StdSort where
  sort := stableSort
  perm := fun _ l => List.perm_insertionSort _ l
  sorted := fun _ l h => pairwise_stableSort h l

/-! ## 走査の結果 -/

inductive ExtentRefKind where
  | inodeRoot | extentBlock
  deriving DecidableEq

/-- extent の記録がある場所。 -/
structure ExtentReference where
  kind : ExtentRefKind
  containerByteOffset : Nat
  containerBlock : Nat
  entryOffset : Nat
  deriving DecidableEq

structure OwnedExtent where
  inode : Nat
  logicalBlock : Nat
  physicalBlock : Nat
  length : Nat
  inodeGeneration : Nat
  unwritten : Bool
  reference : ExtentReference
  deriving DecidableEq

/-- `end()`。 -/
def OwnedExtent.endBlock (e : OwnedExtent) : Nat := e.physicalBlock + e.length

structure ExtentTreeBlock where
  inode : Nat
  physicalBlock : Nat
  parentContainerByteOffset : Nat
  parentEntryOffset : Nat
  depth : Nat
  deriving DecidableEq

structure OwnerScan where
  allocatedInodes : Nat := 0
  extentInodes : Nat := 0
  legacyBlockmapInodes : Nat := 0
  corruptInodes : Nat := 0
  extents : List OwnedExtent := []
  treeBlocks : List ExtentTreeBlock := []
  deriving DecidableEq

structure ParseCtx where
  dev : Disk
  sb : Superblock
  inode : Nat
  generation : Nat
  retainFrom : Nat
  metadata : MetadataContext

/-- 走査の途中。`visited` は一つの木の中で通った子の block である。 -/
structure ParseState where
  out : OwnerScan
  visited : List Nat := []
  deriving DecidableEq

/-! ## node の読み取り -/

def inodeError (c : ParseCtx) (text : String) : Error :=
  { code := .corrupt, message := "inode " ++ toString c.inode ++ text }

/-- `parse_extent_node` が entry に入る前の検査。entry の数を返す。 -/
def checkNode (c : ParseCtx) (node : Bytes) (expectedDepth : Nat) (kind : ExtentRefKind) :
    Result Nat := do
  if node.length < 12 then
    throw { code := .corrupt, message := "extent node is truncated" }
  if kind = .extentBlock ∧ c.metadata.metadataCsum then
    let ok ← verifyExtentBlockChecksum c.metadata c.inode c.generation node
    if ok = false then throw (inodeError c " extent block checksum mismatch")
  if readLe 2 node 0 ≠ 0xf30a then throw (inodeError c " has invalid extent magic")
  if readLe 2 node 6 ≠ expectedDepth then throw (inodeError c " extent depth mismatch")
  if readLe 2 node 6 > 5 then throw (inodeError c " extent tree depth is unreasonable")
  let entries := readLe 2 node 2
  if entries > readLe 2 node 4 ∨ entries > (node.length - 12) / 12 then
    throw (inodeError c " extent entry count exceeds node capacity")
  return entries

/-- entry の位置。 -/
def entryOffset (i : Nat) : Nat := 12 + i * 12

/-- 葉の entry の長さの欄。`32768` を超えると unwritten である。 -/
def entryLength (rawLen : Nat) : Nat := if rawLen > 32768 then rawLen - 32768 else rawLen

/-- 葉の entry が指す先頭の block。 -/
def leafPhysical (node : Bytes) (off : Nat) : Nat :=
  readLe 2 node (off + 6) <<< 32 ||| readLe 4 node (off + 8)

/-- 葉の entry から読んだ extent。 -/
def leafExtent (c : ParseCtx) (node : Bytes) (containerOff containerBlock : Nat)
    (kind : ExtentRefKind) (i : Nat) : OwnedExtent :=
  let off := entryOffset i
  { inode := c.inode
    logicalBlock := readLe 4 node off
    physicalBlock := leafPhysical node off
    length := entryLength (readLe 2 node (off + 4))
    inodeGeneration := c.generation
    unwritten := decide (readLe 2 node (off + 4) > 32768)
    reference := {
      kind, containerByteOffset := containerOff, containerBlock, entryOffset := off } }

/-- 葉の entry 一つ。`last` は直前の extent の論理的な終わりである（最初は `none`）。 -/
def leafStep (c : ParseCtx) (node : Bytes) (containerOff containerBlock : Nat)
    (kind : ExtentRefKind) (i : Nat) (last : Option Nat) (s : ParseState) : Result ParseState := do
  let e := leafExtent c node containerOff containerBlock kind i
  if readLe 2 node (entryOffset i + 4) = 0 then
    throw (inodeError c " contains zero-length extent")
  if e.physicalBlock = 0 ∨ e.physicalBlock ≥ c.sb.blocksCount
      ∨ e.length > c.sb.blocksCount - e.physicalBlock then
    throw (inodeError c " extent points outside filesystem")
  if last.any fun l => e.logicalBlock < l then
    throw (inodeError c " extent tree is not logically ordered")
  return if e.endBlock > c.retainFrom then
      { s with out := { s.out with extents := s.out.extents ++ [e] } }
    else s

/-- 葉の entry のループ。`n` は残りの数である。 -/
def parseLeaf (c : ParseCtx) (node : Bytes) (containerOff containerBlock : Nat)
    (kind : ExtentRefKind) : Nat → Nat → Option Nat → ParseState → Result ParseState
  | 0, _, _, s => .ok s
  | n + 1, i, last, s => do
    let e := leafExtent c node containerOff containerBlock kind i
    let s' ← leafStep c node containerOff containerBlock kind i last s
    parseLeaf c node containerOff containerBlock kind n (i + 1)
      (some (e.logicalBlock + e.length)) s'

/-- 途中の entry が指す子の block。 -/
def indexChild (node : Bytes) (off : Nat) : Nat :=
  readLe 2 node (off + 8) <<< 32 ||| readLe 4 node (off + 4)

/-- 途中の entry 一つで、子に降りる前まで。`depth` は子の深さである。 -/
def indexStep (c : ParseCtx) (node : Bytes) (containerOff depth i : Nat) (last : Option Nat)
    (s : ParseState) : Result ParseState := do
  let off := entryOffset i
  let child := indexChild node off
  if last.any fun l => readLe 4 node off ≤ l then
    throw (inodeError c " extent index is not strictly ordered")
  if child = 0 ∨ child ≥ c.sb.blocksCount then
    throw (inodeError c " extent index points outside filesystem")
  if child ∈ s.visited then throw (inodeError c " extent tree contains a cycle")
  let t : ExtentTreeBlock := {
    inode := c.inode, physicalBlock := child, parentContainerByteOffset := containerOff
    parentEntryOffset := off, depth }
  return {
    out := if child ≥ c.retainFrom then
        { s.out with treeBlocks := s.out.treeBlocks ++ [t] }
      else s.out
    visited := child :: s.visited }

/-- 途中の entry のループ。`down` は子の node の走査である。 -/
def parseIndex (c : ParseCtx) (node : Bytes) (containerOff depth : Nat)
    (down : Bytes → Nat → Nat → ParseState → Result ParseState) :
    Nat → Nat → Option Nat → ParseState → Result ParseState
  | 0, _, _, s => .ok s
  | n + 1, i, last, s => do
    let child := indexChild node (entryOffset i)
    let s₁ ← indexStep c node containerOff depth i last s
    let buf ← c.dev.readExact (child * c.sb.blockSize) c.sb.blockSize
    let s₂ ← down buf (child * c.sb.blockSize) child s₁
    parseIndex c node containerOff depth down n (i + 1) (some (readLe 4 node (entryOffset i))) s₂

/-- `parse_extent_node`。 -/
def parseExtentNode (c : ParseCtx) :
    Nat → ExtentRefKind → Bytes → Nat → Nat → ParseState → Result ParseState
  | 0, kind, node, containerOff, containerBlock, s => do
    let entries ← checkNode c node 0 kind
    parseLeaf c node containerOff containerBlock kind entries 0 none s
  | depth + 1, kind, node, containerOff, _, s => do
    let entries ← checkNode c node (depth + 1) kind
    parseIndex c node containerOff depth (parseExtentNode c depth .extentBlock) entries 0 none s

/-! ## inode ごとの走査 -/

def extentsFlag : Nat := 0x00080000

/-- inode の中の root node。 -/
def inodeRoot (inode : Bytes) : Bytes := slice inode 40 60

/-- inode 一つの root からの走査。 -/
def parseInode (c : ParseCtx) (inode : Bytes) (inodeAbs : Nat) (out : OwnerScan) :
    Result OwnerScan := do
  let root := inodeRoot inode
  let s ← parseExtentNode c (readLe 2 root 6) .inodeRoot root (inodeAbs + 40) 0 { out }
  return s.out

/-- 使われている inode か。`mode` と link 数が零なら使われていない。 -/
def inodeActive (inode : Bytes) : Bool :=
  decide (readLe 2 inode 0 ≠ 0) && decide (readLe 2 inode 26 ≠ 0)

/-- `scan_specific_inode`。 -/
def scanSpecificInode (srt : StdSort) (d : Disk) (sb : Superblock) (ino retainFrom : Nat) :
    Result OwnerScan := do
  if ino = 0 ∨ ino > sb.inodesCount then
    throw { code := .invalidArgument, message := "inode number outside filesystem" }
  let z := ino - 1
  let idx := z % sb.inodesPerGroup
  let gd ← readGroupDesc d sb (z / sb.inodesPerGroup)
  if gd.flags &&& bgInodeUninit ≠ 0 then
    throw { code := .notFound, message := "inode group is uninitialized" }
  let ib ← readInodeBitmap d sb gd
  if bitSet ib idx = false then
    throw { code := .notFound, message := "inode is not allocated" }
  let inodeAbs := gd.inodeTable * sb.blockSize + idx * sb.inodeSize
  let inode ← d.readExact inodeAbs sb.inodeSize
  if inodeActive inode = false then
    throw { code := .notFound, message := "inode is allocated but inactive" }
  let mctx ← loadMetadataContext d
  if readLe 4 inode 32 &&& extentsFlag = 0 then
    return { allocatedInodes := 1, legacyBlockmapInodes := 1 }
  let c : ParseCtx := {
    dev := d, sb, inode := ino, generation := readLe 4 inode 100, retainFrom, metadata := mctx }
  let out ← parseInode c inode inodeAbs { allocatedInodes := 1, extentInodes := 1 }
  return { out with
    extents := srt.sort (fun a b => decide (a.logicalBlock < b.logicalBlock)) out.extents }

/-- 走査に入る前の検査。`scan_extent_owners` と `scan_inode_extent_tree` に共通である。 -/
def checkScanGeometry (sb : Superblock) : Result Unit := do
  if sb.inodeSize < 128 ∨ sb.inodeSize > sb.blockSize then
    throw { code := .unsupported, message := "unsupported ext inode size" }
  if sb.hasIncompat incompatMetaBg then
    throw { code := .unsupported
            message := "owner scan does not yet support meta_bg descriptor placement" }

/-- `scan_inode_extent_tree`。 -/
def scanInodeExtentTree (srt : StdSort) (d : Disk) (inode retainFrom : Nat) :
    Result OwnerScan := do
  let sb ← readSuperblock d
  checkScanGeometry sb
  scanSpecificInode srt d sb inode (min retainFrom sb.blocksCount)

/-- `find_inode_extent`。 -/
def findInodeExtent (srt : StdSort) (d : Disk) (inode logicalBlock : Nat) : Result OwnedExtent := do
  let scan ← scanInodeExtentTree srt d inode 0
  match scan.extents.find? fun e =>
      decide (e.logicalBlock ≤ logicalBlock ∧ logicalBlock < e.logicalBlock + e.length) with
  | some e => return e
  | none => throw { code := .notFound, message := "logical block is not covered by an extent" }

/-! ## 全体の走査 -/

/-- `scan_extent_owners` の inode のループ。 -/
def scanGroupInodes (d : Disk) (sb : Superblock) (mctx : MetadataContext) (retainFrom : Nat)
    (gd : GroupDesc) (ib table : Bytes) (firstInode : Nat) :
    Nat → Nat → OwnerScan → Result OwnerScan
  | 0, _, out => .ok out
  | n + 1, idx, out =>
    let next := scanGroupInodes d sb mctx retainFrom gd ib table firstInode n (idx + 1)
    if bitSet ib idx = false then next out
    else
      let off := idx * sb.inodeSize
      let inode := slice table off sb.inodeSize
      let out₁ := { out with allocatedInodes := out.allocatedInodes + 1 }
      if inodeActive inode = false then next out₁
      else if readLe 4 inode 32 &&& extentsFlag = 0 then
        next { out₁ with legacyBlockmapInodes := out₁.legacyBlockmapInodes + 1 }
      else do
        let c : ParseCtx := {
          dev := d, sb, inode := firstInode + idx, generation := readLe 4 inode 100, retainFrom
          metadata := mctx }
        let out₂ ← parseInode c inode (gd.inodeTable * sb.blockSize + off)
          { out₁ with extentInodes := out₁.extentInodes + 1 }
        next out₂

/-- group の inode table。空なら読まない。 -/
def readInodeTable (d : Disk) (sb : Superblock) (gd : GroupDesc) (count : Nat) : Result Bytes :=
  if count * sb.inodeSize = 0 then .ok []
  else d.readExact (gd.inodeTable * sb.blockSize) (count * sb.inodeSize)

/-- `scan_extent_owners` の group 一つ分。 -/
def scanGroup (d : Disk) (sb : Superblock) (mctx : MetadataContext) (retainFrom g : Nat)
    (out : OwnerScan) : Result OwnerScan := do
  let gd ← readGroupDesc d sb g
  if gd.flags &&& bgInodeUninit ≠ 0 then return out
  let ib ← readInodeBitmap d sb gd
  let count := sb.groupInodeCount g
  let table ← readInodeTable d sb gd count
  scanGroupInodes d sb mctx retainFrom gd ib table (u64 (g * sb.inodesPerGroup + 1)) count 0 out

/-- `scan_extent_owners` の group のループ。 -/
def scanGroups (cancel : Nat → Bool) (d : Disk) (sb : Superblock) (mctx : MetadataContext)
    (retainFrom : Nat) : Nat → Nat → OwnerScan → Result OwnerScan
  | 0, _, out => .ok out
  | n + 1, g, out => do
    if cancel g then throw { code := .unsafeErr, message := "owner scan cancelled" }
    let out' ← scanGroup d sb mctx retainFrom g out
    scanGroups cancel d sb mctx retainFrom n (g + 1) out'

/-- `scan_extent_owners`。 -/
def scanExtentOwners (srt : StdSort) (cancel : Nat → Bool) (d : Disk) (retainFrom : Nat) :
    Result OwnerScan := do
  let sb ← readSuperblock d
  let mctx ← loadMetadataContext d
  checkScanGeometry sb
  let out ← scanGroups cancel d sb mctx (min retainFrom sb.blocksCount) sb.groupsCount 0 {}
  return { out with
    extents := srt.sort (fun a b => decide (a.physicalBlock < b.physicalBlock)) out.extents }

end Fsx.Ext4
