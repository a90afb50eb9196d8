import Fsx.Ext4.Bitmap
import Fsx.Ext4.RepairHeals

/-!
# 未初期化の bitmap

`BG_BLOCK_UNINIT` の group の block bitmap と、`BG_INODE_UNINIT` の group の inode bitmap は、
媒体の内容に意味がない。だから内容だけが違う二つの image で、検証の判定も、修復の書く数も
同じでなければならない。ところが検証も修復もその bitmap を読むので、旗の立った group が一つでもあれば、
bit を一つ反転させるだけで答えが変わる。
-/

namespace Fsx.Ext4

open Finset

/-! ## 一つの置き場所だけが違う image -/

/-- 置き場所 `p` の外では `d` と同じ像。 -/
def SameBut (d : Disk) (sb : Superblock) (p : Place) (img : Image) : Prop :=
  ∀ i, i < p.start d sb * sb.blockSize ∨ (p.start d sb + p.blocks sb) * sb.blockSize ≤ i →
    img i = d.data i

section SameBut

variable {d : Disk} {sb : Superblock} {p : Place} {img : Image}

/-- ほかの置き場所の読み出しは変わらない。 -/
theorem SameBut.read (h : SameBut d sb p img) (hl : Layout d sb) (hp : p.Present sb (rawSuper d))
    {q : Place} (hq : q.Present sb (rawSuper d)) (hne : p ≠ q) {o n : Nat} (hh : q.Holds d sb o n) :
    img.read o n = d.data.read o n := by
  have hself : p.Holds d sb (p.start d sb * sb.blockSize) (p.blocks sb * sb.blockSize) :=
    ⟨Nat.le_refl _, by rw [Nat.add_mul]⟩
  have hap := hl.disjoint hp hq hne hself hh
  refine Image.read_congr fun i h1 h2 => h i ?_
  rw [Nat.add_mul]
  omega

variable (h : SameBut d sb p img) (hr : Readable d sb) (hl : Layout d sb)
  (hp : p.Present sb (rawSuper d)) (hs : ∀ k, p ≠ .super k) (ht : ∀ k, p ≠ .table k)
include h hr hl hp

include hs in
theorem SameBut.rawSuper_eq : rawSuper (d.withData img) = rawSuper d :=
  h.read hl hp (q := .super 0) (mem_copyGroups.mp hr.zero_mem_copyGroups) (hs 0)
    (holds_super hr.accepted 0)

include ht in
theorem SameBut.rawDesc_eq {g : Nat} (hg : g < sb.groupsCount) :
    rawDesc (d.withData img) sb g = rawDesc d sb g :=
  h.read hl hp (q := .table 0) (mem_copyGroups.mp hr.zero_mem_copyGroups) (ht 0)
    (holds_slot hr.accepted hg)

include hs ht

theorem SameBut.readable : Readable (d.withData img) sb := by
  obtain ⟨hsize, hdec, hc⟩ := readSuperblock_eq_ok_iff.mp hr.super
  have hraw := congrArg decodeSuperblock (h.rawSuper_eq hr hl hp hs)
  refine ⟨readSuperblock_eq_ok_iff.mpr ⟨hsize, hraw.trans hdec, hc⟩, fun g hg => ?_⟩
  rw [readGroupDesc_congr (d := d) (e := d.withData img) rfl (h.rawDesc_eq hr hl hp ht hg)]
  exact hr.desc g hg

theorem SameBut.layout : Layout (d.withData img) sb := by
  have hstart : ∀ q : Place, q.Present sb (rawSuper d) → q.start (d.withData img) sb = q.start d sb := by
    intro q hq
    have hdesc : ∀ g < sb.groupsCount, descAt (d.withData img) sb g = descAt d sb g := fun g hg =>
      congrArg (decodeGroupDesc sb) (h.rawDesc_eq hr hl hp ht hg)
    cases q with
    | super k => rfl
    | table k => rfl
    | blockBitmap g => exact congrArg GroupDesc.blockBitmap (hdesc g hq)
    | inodeBitmap g => exact congrArg GroupDesc.inodeBitmap (hdesc g hq)
    | inodeTable g => exact congrArg GroupDesc.inodeTable (hdesc g hq)
  have hraw := h.rawSuper_eq hr hl hp hs
  refine ⟨fun q hq => ?_, fun q q' hq hq' hne => ?_⟩
  · rw [hraw] at hq
    rw [hstart q hq]
    exact hl.inside q hq
  · rw [hraw] at hq hq'
    rw [hstart q hq, hstart q' hq']
    exact hl.apart q q' hq hq' hne

end SameBut

/-! ## 旗の立った bitmap -/

/-- 内容に意味のない置き場所。 -/
def Uninit (d : Disk) (sb : Superblock) : Place → Prop
  | .blockBitmap g => g < sb.groupsCount ∧ (descAt d sb g).flags &&& bgBlockUninit ≠ 0
  | .inodeBitmap g => g < sb.groupsCount ∧ (descAt d sb g).flags &&& bgInodeUninit ≠ 0
  | _ => False

/-- 旗の立った bitmap の外では `d` と同じ像。 -/
def UninitEq (d : Disk) (sb : Superblock) (img : Image) : Prop :=
  ∀ i, (∀ p, Uninit d sb p →
    i < p.start d sb * sb.blockSize ∨ (p.start d sb + p.blocks sb) * sb.blockSize ≤ i) →
    img i = d.data i

/-- device の上の空きの数。 -/
structure SameCounters (d e : Disk) (sb : Superblock) : Prop where
  blocks : (contextAt d).sb.freeBlocks = (contextAt e).sb.freeBlocks
  inodes : (contextAt d).sb.freeInodes = (contextAt e).sb.freeInodes
  groups : ∀ g < sb.groupsCount, (descAt d sb g).freeBlocks = (descAt e sb g).freeBlocks ∧
    (descAt d sb g).freeInodes = (descAt e sb g).freeInodes

/--
二つの実行の法則。旗の立った bitmap だけが違う image とは、検証の判定が同じで、修復はどちらにも同じ数を
書くか、どちらも何も変えずに断る。
-/
def UninitLaw (host : Host) (cancelled : Nat → Bool) (opts : RepairOptions) (d : Disk)
    (sb : Superblock) : Prop :=
  ∀ img, UninitEq d sb img →
    (VerifiesClean d ↔ VerifiesClean (d.withData img)) ∧
    ((Proc.Declines Disk.data (repairMetadataCounters host cancelled opts) d ∧
        Proc.Declines Disk.data (repairMetadataCounters host cancelled opts) (d.withData img)) ∨
      SameCounters (Proc.run (repairMetadataCounters host cancelled opts) d).2
        (Proc.run (repairMetadataCounters host cancelled opts) (d.withData img)).2 sb)

/-! ## bit を一つ反転した image -/

/-- はじめの bit を反転した bitmap。 -/
def flipFirst (b : Bytes) : Bytes := setBitmapBit b 0 (!bitSet b 0)

theorem length_flipFirst (b : Bytes) : (flipFirst b).length = b.length := length_setBitmapBit _ _ _

/-- 反転すると、零の個数が変わる。 -/
theorem zeroBits_flipFirst {b : Bytes} {n : Nat} (hb : 0 < b.length) (hn : 0 < n) :
    zeroBits (flipFirst b) n ≠ zeroBits b n := by
  obtain ⟨m, rfl⟩ := Nat.exists_eq_succ_of_ne_zero (Nat.pos_iff_ne_zero.mp hn)
  have hbit : ∀ i, bitSet (flipFirst b) i = if i = 0 then !bitSet b 0 else bitSet b i :=
    bitSet_setBitmapBit (by simpa using hb) _
  have hrest : (List.range m).countP ((fun i => !bitSet (flipFirst b) i) ∘ Nat.succ) =
      (List.range m).countP ((fun i => !bitSet b i) ∘ Nat.succ) :=
    List.countP_congr fun i _ => by simp [hbit]
  unfold zeroBits
  rw [List.range_succ_eq_map, List.countP_cons, List.countP_cons, List.countP_map, List.countP_map,
    hrest, hbit 0, if_pos rfl]
  cases bitSet b 0 <;> simp

/-- 一つの bitmap のはじめの bit を反転した像。 -/
def flipped (d : Disk) (sb : Superblock) (p : Place) : Image :=
  d.data.write (p.start d sb * sb.blockSize)
    (flipFirst (d.data.read (p.start d sb * sb.blockSize) sb.blockSize))

section Flip

variable {d : Disk} {sb : Superblock} {p : Place}

theorem Uninit.present (h : Uninit d sb p) : p.Present sb (rawSuper d) := by
  cases p with
  | super g => exact h.elim
  | table g => exact h.elim
  | blockBitmap g => exact h.1
  | inodeBitmap g => exact h.1
  | inodeTable g => exact h.elim

theorem Uninit.blocks_eq (h : Uninit d sb p) : p.blocks sb = 1 := by
  cases p with
  | super g => exact h.elim
  | table g => exact h.elim
  | blockBitmap g => rfl
  | inodeBitmap g => rfl
  | inodeTable g => exact h.elim

theorem Uninit.ne_super (h : Uninit d sb p) (k : Nat) : p ≠ .super k := by
  rintro rfl
  exact h

theorem Uninit.ne_table (h : Uninit d sb p) (k : Nat) : p ≠ .table k := by
  rintro rfl
  exact h

theorem Uninit.sameBut (h : Uninit d sb p) : SameBut d sb p (flipped d sb p) := by
  intro i hi
  refine Image.write_apply_of_not_mem ?_
  rw [length_flipFirst, Image.length_read]
  rw [h.blocks_eq, Nat.succ_mul] at hi
  exact hi

theorem Uninit.uninitEq (h : Uninit d sb p) : UninitEq d sb (flipped d sb p) :=
  fun i hi => h.sameBut i (hi p h)

theorem read_flipped :
    (flipped d sb p).read (p.start d sb * sb.blockSize) sb.blockSize =
      flipFirst (d.data.read (p.start d sb * sb.blockSize) sb.blockSize) :=
  Image.read_write_self _ _ _ (by rw [length_flipFirst, Image.length_read])

end Flip

/-! ## 法則が破れること -/

/-- 一つの項だけが違えば、和は違う。 -/
theorem sum_ne_of_single {n g : Nat} {f k : Nat → Nat} (hg : g < n) (hne : f g ≠ k g)
    (hsame : ∀ i < n, i ≠ g → f i = k i) : ∑ i ∈ range n, f i ≠ ∑ i ∈ range n, k i := by
  have hmem : g ∈ range n := mem_range.mpr hg
  have hrest : ∑ i ∈ (range n).erase g, f i = ∑ i ∈ (range n).erase g, k i :=
    sum_congr rfl fun i hi => hsame i (mem_range.mp (mem_of_mem_erase hi)) (ne_of_mem_erase hi)
  rw [← add_sum_erase _ f hmem, ← add_sum_erase _ k hmem, hrest]
  omega

section Broken

variable {host : Host} {cancelled : Nat → Bool} {opts : RepairOptions} {d : Disk} {sb : Superblock}
  {p : Place}

/-- 旗の立った bitmap を反転しても、修復は断らない。 -/
theorem Repairable.flipped (h : Repairable host cancelled opts d sb) (hp : Uninit d sb p) :
    Repairable host cancelled opts (d.withData (flipped d sb p)) sb where
  readable := hp.sameBut.readable h.readable h.layout hp.present hp.ne_super hp.ne_table
  layout := hp.sameBut.layout h.readable h.layout hp.present hp.ne_super hp.ne_table
  safe := h.safe
  noMetaBg := h.noMetaBg
  noBigalloc := h.noBigalloc
  noRecover := h.noRecover
  writable := h.writable
  notCancelled := h.notCancelled
  verifyNotCancelled := h.verifyNotCancelled

/-- 修復の後の superblock が読み戻す空きの数。 -/
theorem Repairable.counters (h : Repairable host cancelled opts d sb) :
    (contextAt (Proc.run (repairMetadataCounters host cancelled opts) d).2).sb.freeBlocks =
        countedBlocks d sb ∧
      (contextAt (Proc.run (repairMetadataCounters host cancelled opts) d).2).sb.freeInodes =
        countedInodes d sb := by
  rw [h.run_eq.1, ← (h.layout.readable_repaired h.readable).sb_eq]
  exact ⟨rfl, rfl⟩

theorem contextAt_congr {d e : Disk} (h : rawSuper d = rawSuper e) : contextAt d = contextAt e := by
  unfold contextAt
  rw [h]

/-- 法則が成り立てば、数え直した数は反転しても変わらない。 -/
theorem UninitLaw.counted_eq (hlaw : UninitLaw host cancelled opts d sb)
    (h : Repairable host cancelled opts d sb) (hp : Uninit d sb p) :
    countedBlocks d sb = countedBlocks (d.withData (flipped d sb p)) sb ∧
      countedInodes d sb = countedInodes (d.withData (flipped d sb p)) sb := by
  obtain ⟨b1, i1⟩ := h.counters
  obtain ⟨b2, i2⟩ := (h.flipped hp).counters
  rcases (hlaw _ hp.uninitEq).2 with ⟨⟨-, hd⟩, ⟨-, he⟩⟩ | hsame
  · -- どちらも断ったのなら、superblock ははじめから同じである
    have hctx : contextAt (d.withData (Fsx.Ext4.flipped d sb p)) = contextAt d :=
      contextAt_congr (hp.sameBut.rawSuper_eq h.readable h.layout hp.present hp.ne_super)
    have c1 := contextAt_congr (d := (Proc.run (repairMetadataCounters host cancelled opts) d).2)
      (e := d) (by unfold rawSuper; rw [hd])
    have c2 := contextAt_congr (d := (Proc.run (repairMetadataCounters host cancelled opts)
      (d.withData (Fsx.Ext4.flipped d sb p))).2) (e := d.withData (Fsx.Ext4.flipped d sb p))
      (by unfold rawSuper; rw [he])
    rw [c1] at b1 i1
    rw [c2, hctx] at b2 i2
    exact ⟨b1.symm.trans b2, i1.symm.trans i2⟩
  · exact ⟨b1.symm.trans (hsame.blocks.trans b2), i1.symm.trans (hsame.inodes.trans i2)⟩

end Broken

section Bitmaps

variable {d : Disk} {sb : Superblock} {p : Place} (hr : Readable d sb) (hl : Layout d sb)
  (hp : Uninit d sb p)
include hr hl hp

theorem Uninit.descAt_eq {g : Nat} (hg : g < sb.groupsCount) :
    descAt (d.withData (flipped d sb p)) sb g = descAt d sb g :=
  congrArg (decodeGroupDesc sb) (hp.sameBut.rawDesc_eq hr hl hp.present hp.ne_table hg)

/-- ほかの bitmap は変わらない。 -/
theorem Uninit.blockBitmapAt_eq {g : Nat} (hg : g < sb.groupsCount) (hne : p ≠ .blockBitmap g) :
    blockBitmapAt (d.withData (flipped d sb p)) sb g = blockBitmapAt d sb g := by
  unfold blockBitmapAt
  rw [hp.descAt_eq hr hl hg]
  exact hp.sameBut.read hl hp.present (q := .blockBitmap g) hg hne (holds_block rfl)

theorem Uninit.inodeBitmapAt_eq {g : Nat} (hg : g < sb.groupsCount) (hne : p ≠ .inodeBitmap g) :
    inodeBitmapAt (d.withData (flipped d sb p)) sb g = inodeBitmapAt d sb g := by
  unfold inodeBitmapAt
  rw [hp.descAt_eq hr hl hg]
  exact hp.sameBut.read hl hp.present (q := .inodeBitmap g) hg hne (holds_block rfl)

end Bitmaps

section Counts

variable {d : Disk} {sb : Superblock} (hr : Readable d sb) (hl : Layout d sb) {g : Nat}
include hr hl

/-- block bitmap の反転で、その group の空き block の数が変わる。 -/
theorem zeroBits_flipped_blocks (hp : Uninit d sb (.blockBitmap g)) :
    zeroBits (blockBitmapAt (d.withData (flipped d sb (.blockBitmap g))) sb g) (sb.blocksIn g) ≠
      zeroBits (blockBitmapAt d sb g) (sb.blocksIn g) := by
  have ha := hr.accepted
  have hge := ha.blockSize_ge
  have hpos := ha.perGroup_pos
  have hlt := ha.lt_groupsCount_iff.mp hp.1
  have hbits : blockBitmapAt (d.withData (flipped d sb (.blockBitmap g))) sb g =
      flipFirst (blockBitmapAt d sb g) := by
    unfold blockBitmapAt
    rw [hp.descAt_eq hr hl hp.1]
    exact read_flipped (p := .blockBitmap g)
  rw [hbits]
  refine zeroBits_flipFirst ?_ ?_
  · rw [blockBitmapAt, Image.length_read]
    omega
  · unfold Superblock.blocksIn
    omega

/-- inode bitmap の反転で、その group の空き inode の数が変わる。 -/
theorem zeroBits_flipped_inodes (hp : Uninit d sb (.inodeBitmap g))
    (hfull : g * sb.inodesPerGroup < sb.inodesCount) :
    zeroBits (inodeBitmapAt (d.withData (flipped d sb (.inodeBitmap g))) sb g) (sb.inodesIn g) ≠
      zeroBits (inodeBitmapAt d sb g) (sb.inodesIn g) := by
  have ha := hr.accepted
  have hge := ha.blockSize_ge
  have hpos := ha.inodesPerGroup_pos
  have hbits : inodeBitmapAt (d.withData (flipped d sb (.inodeBitmap g))) sb g =
      flipFirst (inodeBitmapAt d sb g) := by
    unfold inodeBitmapAt
    rw [hp.descAt_eq hr hl hp.1]
    exact read_flipped (p := .inodeBitmap g)
  rw [hbits]
  refine zeroBits_flipFirst ?_ ?_
  · rw [inodeBitmapAt, Image.length_read]
    omega
  · unfold Superblock.inodesIn
    omega

end Counts

section Law

variable {host : Host} {cancelled : Nat → Bool} {opts : RepairOptions} {d : Disk} {sb : Superblock}
  {p : Place}

/-- clean な image の旗の立った bitmap を反転すると、clean でなくなる。 -/
theorem Uninit.not_clean (hr : Readable d sb) (hl : Layout d sb) (hp : Uninit d sb p)
    (hfull : ∀ g, p = .inodeBitmap g → g * sb.inodesPerGroup < sb.inodesCount)
    (hclean : VerifiesClean d) : ¬ VerifiesClean (d.withData (flipped d sb p)) := by
  have hre := hp.sameBut.readable hr hl hp.present hp.ne_super hp.ne_table
  intro hclean'
  obtain ⟨hs, hi, -⟩ := hr.verifiesClean_iff.mp hclean
  obtain ⟨hs', hi', -⟩ := hre.verifiesClean_iff.mp hclean'
  cases p with
  | super k => exact hp
  | table k => exact hp
  | inodeTable g => exact hp
  | blockBitmap g =>
    have h1 := hs.freeBlocks g hp.1
    have h2 := hs'.freeBlocks g hp.1
    rw [hp.descAt_eq hr hl hp.1] at h2
    exact zeroBits_flipped_blocks hr hl hp (h2.symm.trans h1)
  | inodeBitmap g =>
    have h1 := hi.groups g hp.1
    have h2 := hi'.groups g hp.1
    rw [hp.descAt_eq hr hl hp.1] at h2
    rw [hl.groupInodeCount_eq hr hp.1] at h1 h2
    exact zeroBits_flipped_inodes hr hl hp (hfull g rfl) (h2.symm.trans h1)

/-- 旗の立った bitmap を反転すると、数え直した数のどちらかが変わる。 -/
theorem Uninit.counted_ne (hr : Readable d sb) (hl : Layout d sb) (hp : Uninit d sb p)
    (hfull : ∀ g, p = .inodeBitmap g → g * sb.inodesPerGroup < sb.inodesCount) :
    countedBlocks (d.withData (flipped d sb p)) sb ≠ countedBlocks d sb ∨
      countedInodes (d.withData (flipped d sb p)) sb ≠ countedInodes d sb := by
  have hre := hp.sameBut.readable hr hl hp.present hp.ne_super hp.ne_table
  have hle := hp.sameBut.layout hr hl hp.present hp.ne_super hp.ne_table
  cases p with
  | super k => exact hp.elim
  | table k => exact hp.elim
  | inodeTable g => exact hp.elim
  | blockBitmap g =>
    left
    rw [hr.countedBlocks_eq, hre.countedBlocks_eq]
    refine sum_ne_of_single hp.1 (zeroBits_flipped_blocks hr hl hp) fun i hi hig => ?_
    rw [hp.blockBitmapAt_eq hr hl hi fun hc => hig (Place.blockBitmap.inj hc).symm]
  | inodeBitmap g =>
    right
    rw [hl.countedInodes_eq hr, hle.countedInodes_eq hre]
    refine sum_ne_of_single hp.1 (zeroBits_flipped_inodes hr hl hp (hfull g rfl)) fun i hi hig => ?_
    rw [hp.inodeBitmapAt_eq hr hl hi fun hc => hig (Place.inodeBitmap.inj hc).symm]

/--
**二つの実行の法則が成り立つのは、旗の立った bitmap がないときであり、そのときに限る。**

修復がほかの理由で断る image では、検証が clean と答えるものについて言う。
-/
theorem uninitLaw_iff (hr : Readable d sb) (hl : Layout d sb)
    (hfull : ∀ g, Uninit d sb (.inodeBitmap g) → g * sb.inodesPerGroup < sb.inodesCount)
    (hrun : VerifiesClean d ∨ Repairable host cancelled opts d sb) :
    UninitLaw host cancelled opts d sb ↔ ∀ p, ¬ Uninit d sb p := by
  constructor
  · intro hlaw p hp
    have hfull' : ∀ g, p = .inodeBitmap g → g * sb.inodesPerGroup < sb.inodesCount := by
      rintro g rfl
      exact hfull g hp
    rcases hrun with hclean | h
    · exact hp.not_clean hr hl hfull' hclean ((hlaw _ hp.uninitEq).1.mp hclean)
    · obtain ⟨hb, hi⟩ := hlaw.counted_eq h hp
      rcases hp.counted_ne hr hl hfull' with hne | hne
      · exact hne hb.symm
      · exact hne hi.symm
  · intro hnone img himg
    have hsame : img = d.data := funext fun i => himg i fun p hp => absurd hp (hnone p)
    subst hsame
    exact ⟨Iff.rfl, Or.inr ⟨rfl, rfl, fun g _ => ⟨rfl, rfl⟩⟩⟩

end Law

/-! ## 旗の立った小さな image -/

namespace Tiny

/-- 健全な image の、group 0 の block bitmap に旗を立てたもの。 -/
def lazyDisk : Disk := disk ((image 1 []).applyAll [⟨2048 + 18, leBytes 2 bgBlockUninit⟩])

def lazySb : Superblock := decodeSuperblock (rawSuper lazyDisk)

/-- 計算で確かめること。 -/
theorem lazy_facts : OneGroup lazyDisk lazySb ∧
    (descAt lazyDisk lazySb 0).flags &&& bgBlockUninit ≠ 0 ∧
    (descAt lazyDisk lazySb 0).flags &&& bgInodeUninit = 0 := by decide +kernel

theorem lazy_oneGroup : OneGroup lazyDisk lazySb := lazy_facts.1

theorem lazy_uninit : Uninit lazyDisk lazySb (.blockBitmap 0) := by
  refine ⟨?_, lazy_facts.2.1⟩
  rw [lazy_oneGroup.one]
  exact Nat.one_pos

theorem lazy_no_inode (g : Nat) : ¬ Uninit lazyDisk lazySb (.inodeBitmap g) := by
  rintro ⟨hg, hflag⟩
  rw [lazy_oneGroup.one, Nat.lt_one_iff] at hg
  subst hg
  exact hflag lazy_facts.2.2

end Tiny

theorem uninitLaw_lazy : ∃ d sb, Readable d sb ∧ Layout d sb ∧
    Repairable Tiny.host (fun _ => false) {} d sb ∧
    (UninitLaw Tiny.host (fun _ => false) {} d sb ↔ ∀ p, ¬ Uninit d sb p) :=
  ⟨Tiny.lazyDisk, Tiny.lazySb, Tiny.lazy_oneGroup.readable, Tiny.lazy_oneGroup.layout,
    Tiny.lazy_oneGroup.repairable rfl,
    uninitLaw_iff Tiny.lazy_oneGroup.readable Tiny.lazy_oneGroup.layout
      (fun g hg => absurd hg (Tiny.lazy_no_inode g)) (Or.inr (Tiny.lazy_oneGroup.repairable rfl))⟩

/--
旗の立った block bitmap の bit を一つ反転しただけの image で、検証の判定が変わり、修復は違う数を書く。
-/
theorem uninit_bitmap_matters : ∃ d sb img, Repairable Tiny.host (fun _ => false) {} d sb ∧
    UninitEq d sb img ∧ VerifiesClean d ∧ ¬ VerifiesClean (d.withData img) ∧
    (contextAt (Proc.run (repairMetadataCounters Tiny.host (fun _ => false) {}) d).2).sb.freeBlocks ≠
      (contextAt (Proc.run (repairMetadataCounters Tiny.host (fun _ => false) {})
        (d.withData img)).2).sb.freeBlocks ∧
    ¬ UninitLaw Tiny.host (fun _ => false) {} d sb := by
  have h := Tiny.lazy_oneGroup.repairable rfl
  have hclean : VerifiesClean Tiny.lazyDisk :=
    ⟨{ allocatedBlocks := 6, allocatedInodes := 11, errors := [] }, by decide +kernel, rfl⟩
  have hnot := Tiny.lazy_uninit.not_clean h.readable h.layout (by simp) hclean
  refine ⟨Tiny.lazyDisk, Tiny.lazySb, _, h, Tiny.lazy_uninit.uninitEq, hclean, hnot, ?_, fun hlaw => ?_⟩
  · rw [h.counters.1, (h.flipped Tiny.lazy_uninit).counters.1]
    decide +kernel
  · exact hnot ((hlaw _ Tiny.lazy_uninit.uninitEq).1.mp hclean)

end Fsx.Ext4
