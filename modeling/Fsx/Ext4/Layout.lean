import Fsx.Ext4.Resize
import Fsx.Ext4.Verify

/-!
# 固定された metadata の置き場所

superblock とその写し、descriptor table とその写し、bitmap、inode table の置き場所。
健全な filesystem では、これらは filesystem の中の互いに異なる block を占める。
-/

namespace Fsx.Ext4

/-- 置き場所の種類。`super` と `table` の番号は写しを持つ group、ほかは持ち主の group である。 -/
inductive Place where
  | super (g : Nat)
  | table (g : Nat)
  | blockBitmap (g : Nat)
  | inodeBitmap (g : Nat)
  | inodeTable (g : Nat)
  deriving DecidableEq

/-- descriptor table の block 数。 -/
def Superblock.tableBlocks (sb : Superblock) : Nat :=
  (sb.groupsCount * sb.descBytes + sb.blockSize - 1) / sb.blockSize

namespace Place

/-- 先頭の block。primary の superblock は byte 1024 から始まる。 -/
def start (d : Disk) (sb : Superblock) : Place → Nat
  | super g => if g = 0 then 1024 / sb.blockSize else sb.groupStartBlock g
  | table g => if g = 0 then sb.tableOffset / sb.blockSize else sb.groupStartBlock g + 1
  | blockBitmap g => (descAt d sb g).blockBitmap
  | inodeBitmap g => (descAt d sb g).inodeBitmap
  | inodeTable g => (descAt d sb g).inodeTable

/-- block の数。 -/
def blocks (sb : Superblock) : Place → Nat
  | super _ => 1
  | table _ => sb.tableBlocks
  | blockBitmap _ => 1
  | inodeBitmap _ => 1
  | inodeTable _ => sb.inodeTableBlocks

/-- filesystem にあるか。 -/
def Present (sb : Superblock) (raw : Bytes) : Place → Prop
  | super g => g < sb.groupsCount ∧ groupHasSuper raw g = true
  | table g => g < sb.groupsCount ∧ groupHasSuper raw g = true
  | blockBitmap g => g < sb.groupsCount
  | inodeBitmap g => g < sb.groupsCount
  | inodeTable g => g < sb.groupsCount

end Place

/-- 置き場所はどれも filesystem の中にあり、互いに異なる block を占める。 -/
structure Layout (d : Disk) (sb : Superblock) : Prop where
  inside : ∀ p : Place, p.Present sb (rawSuper d) → p.start d sb + p.blocks sb ≤ sb.blocksCount
  apart : ∀ p q : Place, p.Present sb (rawSuper d) → q.Present sb (rawSuper d) → p ≠ q →
    p.start d sb + p.blocks sb ≤ q.start d sb ∨ q.start d sb + q.blocks sb ≤ p.start d sb

/-- byte の範囲が置き場所の中にある。 -/
def Place.Holds (d : Disk) (sb : Superblock) (p : Place) (off len : Nat) : Prop :=
  p.start d sb * sb.blockSize ≤ off ∧ off + len ≤ (p.start d sb + p.blocks sb) * sb.blockSize

section Layout

variable {d : Disk} {sb : Superblock} {p q : Place} {o1 n1 o2 n2 : Nat}

/-- 異なる置き場所の中の範囲は重ならない。 -/
theorem Layout.disjoint (h : Layout d sb) (hp : p.Present sb (rawSuper d))
    (hq : q.Present sb (rawSuper d)) (hne : p ≠ q) (h1 : p.Holds d sb o1 n1)
    (h2 : q.Holds d sb o2 n2) : o1 + n1 ≤ o2 ∨ o2 + n2 ≤ o1 := by
  obtain ⟨l1, u1⟩ := h1
  obtain ⟨l2, u2⟩ := h2
  rcases h.apart p q hp hq hne with hle | hle
  · have := Nat.mul_le_mul_right sb.blockSize hle
    omega
  · have := Nat.mul_le_mul_right sb.blockSize hle
    omega

/-- 置き場所の中の範囲は、filesystem の中にある。 -/
theorem Layout.within (h : Layout d sb) (hp : p.Present sb (rawSuper d)) (h1 : p.Holds d sb o1 n1) :
    o1 + n1 ≤ sb.blocksCount * sb.blockSize := by
  have := Nat.mul_le_mul_right sb.blockSize (h.inside p hp)
  have := h1.2
  omega

theorem holds_block (h : p.blocks sb = 1) : p.Holds d sb (p.start d sb * sb.blockSize) sb.blockSize := by
  unfold Place.Holds
  rw [h, Nat.succ_mul]
  exact ⟨Nat.le_refl _, Nat.le_refl _⟩

end Layout

/-! ## 写しの番地 -/

/-- 写しを持つ group。 -/
def copyGroups (sb : Superblock) (raw : Bytes) : List Nat :=
  (List.range sb.groupsCount).filter (groupHasSuper raw)

/-- group `k` にある superblock の番地。 -/
def Superblock.superBase (sb : Superblock) (k : Nat) : Nat :=
  if k = 0 then 1024 else sb.groupStartBlock k * sb.blockSize

/-- group `k` にある descriptor table の番地。 -/
def Superblock.tableBase (sb : Superblock) (k : Nat) : Nat :=
  if k = 0 then sb.tableOffset else (sb.groupStartBlock k + 1) * sb.blockSize

theorem mem_copyGroups {sb : Superblock} {raw : Bytes} {k : Nat} :
    k ∈ copyGroups sb raw ↔ k < sb.groupsCount ∧ groupHasSuper raw k = true := by
  unfold copyGroups
  rw [List.mem_filter, List.mem_range]

theorem nodup_copyGroups (sb : Superblock) (raw : Bytes) : (copyGroups sb raw).Nodup :=
  List.nodup_range.filter _

/-- primary の後に、写しを持つ残りの group が続く。 -/
theorem copyGroups_eq {sb : Superblock} {raw : Bytes} (h : 0 < sb.groupsCount) :
    copyGroups sb raw =
      0 :: (List.range' 1 (sb.groupsCount - 1)).filter (groupHasSuper raw) := by
  unfold copyGroups
  have hsplit : List.range sb.groupsCount = 0 :: List.range' 1 (sb.groupsCount - 1) := by
    rw [List.range_eq_range']
    obtain ⟨n, hn⟩ := Nat.exists_eq_succ_of_ne_zero (Nat.pos_iff_ne_zero.mp h)
    rw [hn]
    rfl
  rw [hsplit, List.filter_cons_of_pos]
  unfold groupHasSuper
  rw [if_pos rfl]

section Bases

variable {d : Disk} {sb : Superblock} (ha : sb.Accepted d.sizeBytes)
include ha

theorem holds_super (k : Nat) : (Place.super k).Holds d sb (sb.superBase k) 1024 := by
  have hge := ha.blockSize_ge
  unfold Place.Holds Superblock.superBase Place.start Place.blocks
  dsimp only
  by_cases hk : k = 0
  · rw [if_pos hk, if_pos hk]
    have hdm := Nat.div_add_mod 1024 sb.blockSize
    have hmod := Nat.mod_lt 1024 (show 0 < sb.blockSize by omega)
    rw [Nat.mul_comm] at hdm
    rw [Nat.succ_mul]
    refine ⟨by omega, ?_⟩
    rcases Nat.lt_or_ge 1024 sb.blockSize with hlt | hle
    · -- block が大きければ、superblock は block 0 の後ろの部分に収まる
      rw [Nat.div_eq_of_lt hlt]
      obtain ⟨hlog, hbs⟩ : sb.logBlockSize ≤ 6 ∧ sb.blockSize = 1024 <<< sb.logBlockSize := by
        unfold Superblock.blockSize at hge ⊢
        by_cases hl : sb.logBlockSize ≤ 6
        · exact ⟨hl, if_pos hl⟩
        · rw [if_neg hl] at hge
          omega
      generalize sb.logBlockSize = l at hlog hbs
      rw [Nat.shiftLeft_eq] at hbs
      cases l with
      | zero => omega
      | succ l =>
        rw [Nat.pow_succ] at hbs
        have : 1 ≤ 2 ^ l := Nat.one_le_two_pow
        omega
    · have : sb.blockSize = 1024 := by omega
      rw [this]
  · rw [if_neg hk, if_neg hk, Nat.succ_mul]
    exact ⟨Nat.le_refl _, by omega⟩

/-- descriptor の欄は、table の中にある。 -/
theorem holds_slot {k g : Nat} (hg : g < sb.groupsCount) :
    (Place.table k).Holds d sb (sb.tableBase k + g * sb.descBytes) sb.descBytes := by
  have hge := ha.blockSize_ge
  have hslot : (g + 1) * sb.descBytes ≤ sb.groupsCount * sb.descBytes := Nat.mul_le_mul_right _ hg
  rw [Nat.succ_mul] at hslot
  have htable : sb.groupsCount * sb.descBytes ≤ sb.tableBlocks * sb.blockSize := by
    unfold Superblock.tableBlocks
    generalize sb.groupsCount * sb.descBytes = n
    have hdm := Nat.div_add_mod (n + sb.blockSize - 1) sb.blockSize
    have hmod := Nat.mod_lt (n + sb.blockSize - 1) (show 0 < sb.blockSize by omega)
    rw [Nat.mul_comm] at hdm
    omega
  have hbase : (Place.table k).start d sb * sb.blockSize = sb.tableBase k := by
    unfold Place.start Superblock.tableBase
    dsimp only
    split
    · unfold Superblock.tableOffset
      rw [Nat.mul_div_cancel _ (by omega)]
    · rfl
  unfold Place.Holds
  rw [Nat.add_mul, hbase]
  show _ ∧ _ ≤ sb.tableBase k + sb.tableBlocks * sb.blockSize
  omega

end Bases

end Fsx.Ext4
