import Fsx.Ext4.Bitmap
import Fsx.Ext4.Tree

/-!
# 一つの filesystem

移動の途中の像を論じるために、もとの像から決まるものを `Volume` にまとめる。

* superblock と descriptor が指す metadata の場所
* live な inode と、その木の extent と tree block
* block の持ち主（`Owner`）。持ち主が重ならなければ、書き込みの影響は持ち主ごとに分かれる

もとの像が整っていること（`Consistent`）は、持ち主が重ならず、持ち主のある block に印があり、
live な inode の木が検査を通ることである。
-/

namespace Fsx.Ext4

/-- 読み込める filesystem。 -/
structure Volume where
  disk : Disk
  ctx : MetadataContext
  desc : Nat → GroupDesc
  load : loadMetadataContext disk = .ok ctx
  descs : ∀ g < ctx.sb.groupsCount, readGroupDesc disk ctx.sb g = .ok (desc g)

/-- 状態の欄だけを変えた superblock。 -/
def Superblock.withState (sb : Superblock) (s : Nat) : Superblock := { sb with state := s }

namespace Volume

variable (V : Volume)

abbrev sb : Superblock := V.ctx.sb

abbrev bs : Nat := V.sb.blockSize

abbrev data : Image := V.disk.data

/-- 状態の欄だけを変えた文脈。 -/
def ctxAt (s : Nat) : MetadataContext := { V.ctx with sb := V.sb.withState s }

/-! ## 場所 -/

/-- block を読む。 -/
def blockAt (img : Image) (b : Nat) : Bytes := img.read (b * V.bs) V.bs

def inodeGroup (ino : Nat) : Nat := (ino - 1) / V.sb.inodesPerGroup

def inodeIndex (ino : Nat) : Nat := (ino - 1) % V.sb.inodesPerGroup

/-- inode の byte 番地。 -/
def inodeAddr (ino : Nat) : Nat :=
  (V.desc (V.inodeGroup ino)).inodeTable * V.bs + V.inodeIndex ino * V.sb.inodeSize

def inodeAt (img : Image) (ino : Nat) : Bytes := img.read (V.inodeAddr ino) V.sb.inodeSize

/-- block `b` の印。 -/
def Marked (img : Image) (b : Nat) : Prop :=
  bitSet (V.blockAt img (V.desc (V.sb.groupOf b)).blockBitmap) (V.sb.indexOf b) = true

/-! ## live な inode と木 -/

/-- 使われていて、extent tree を持つ inode。 -/
structure Live (ino : Nat) : Prop where
  pos : 0 < ino
  le : ino ≤ V.sb.inodesCount
  init : (V.desc (V.inodeGroup ino)).flags &&& bgInodeUninit = 0
  allocated : bitSet (V.blockAt V.data (V.desc (V.inodeGroup ino)).inodeBitmap) (V.inodeIndex ino) = true
  active : inodeActive (V.inodeAt V.data ino) = true
  extents : readLe 4 (V.inodeAt V.data ino) 32 &&& extentsFlag ≠ 0

/-- 木を読むときの文脈。 -/
def parseCtx (d : Disk) (s ino retain : Nat) : ParseCtx where
  dev := d
  sb := V.sb.withState s
  inode := ino
  generation := readLe 4 (V.inodeAt V.data ino) 100
  retainFrom := retain
  metadata := V.ctxAt s

/-- もとの像の root node。 -/
def root (ino : Nat) : Bytes := inodeRoot (V.inodeAt V.data ino)

def depthOf (ino : Nat) : Nat := readLe 2 (V.root ino) 6

def extentsOf (ino : Nat) : List OwnedExtent :=
  nodeExtents (V.parseCtx V.disk 0 ino 0) (V.blockAt V.data) (V.depthOf ino) .inodeRoot (V.root ino)
    (V.inodeAddr ino + 40) 0

def treesOf (ino : Nat) : List ExtentTreeBlock :=
  nodeTrees (V.parseCtx V.disk 0 ino 0) (V.blockAt V.data) (V.depthOf ino) (V.root ino)
    (V.inodeAddr ino + 40)

/-! ## block の持ち主 -/

end Volume

inductive Owner where
  | system
  | blockBitmap (g : Nat)
  | inodeBitmap (g : Nat)
  | inodeTable (g : Nat)
  | extent (e : OwnedExtent)
  | tree (t : ExtentTreeBlock)
  deriving DecidableEq

namespace Volume

variable (V : Volume)

/-- superblock と descriptor table の終わりの byte 番地。 -/
def tableEnd : Nat := V.sb.tableOffset + V.sb.groupsCount * V.sb.descBytes

/-- block `b` が持ち主 `o` のものである。 -/
def Owns : Owner → Nat → Prop
  | .system, b => b * V.bs < V.tableEnd
  | .blockBitmap g, b => g < V.sb.groupsCount ∧ b = (V.desc g).blockBitmap
  | .inodeBitmap g, b => g < V.sb.groupsCount ∧ b = (V.desc g).inodeBitmap
  | .inodeTable g, b => g < V.sb.groupsCount ∧ (V.desc g).inodeTable ≤ b ∧
      b < (V.desc g).inodeTable + V.sb.inodeTableBlocks
  | .extent e, b => (∃ ino, V.Live ino ∧ e ∈ V.extentsOf ino) ∧ e.physicalBlock ≤ b ∧ b < e.endBlock
  | .tree t, b => (∃ ino, V.Live ino ∧ t ∈ V.treesOf ino) ∧ b = t.physicalBlock

/-- **整った filesystem。** -/
structure Consistent : Prop where
  /-- inode の数は、group の数と group あたりの数の積である。 -/
  inodes : V.sb.inodesCount = V.sb.groupsCount * V.sb.inodesPerGroup
  /-- block の持ち主は一つである。 -/
  exclusive : ∀ o o' b, V.Owns o b → V.Owns o' b → o = o'
  /-- 持ち主のある block には印がある。 -/
  marked : ∀ o b, V.Owns o b → V.sb.firstDataBlock ≤ b → V.Marked V.data b
  /-- live な inode の木は、checksum も含めて検査を通る。 -/
  trees : ∀ ino, V.Live ino →
    NodeOk (V.parseCtx V.disk 0 ino 0) (V.blockAt V.data) (V.depthOf ino) .inodeRoot (V.root ino) ∧
      Fresh (V.treesOf ino) []

end Volume

end Fsx.Ext4
