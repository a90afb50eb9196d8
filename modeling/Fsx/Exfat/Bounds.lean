import Fsx.Exfat.Model

/-!
# exFAT の寸法と範囲

寸法の検査を通った volume では、いくつもの不等式が合わさって、後の計算と読み出しがすべて
範囲に収まる（`Geometry.Valid`）。寸法の検査そのものも、どの入力でもあふれない（`header_kept`）。

`inside` は、読むものごとに許される範囲である。FAT の entry ははじめの FAT の中、
root directory と cluster は cluster heap の中に限る。
-/

namespace Fsx.Exfat

open Machine

/-- 範囲を決める寸法。 -/
structure Geometry where
  bytesPerSector : Nat
  sectorsPerCluster : Nat
  volumeLength : Nat
  fatOffset : Nat
  fatLength : Nat
  clusterHeapOffset : Nat
  clusterCount : Nat

def Volume.geometry (v : Volume) : Geometry where
  bytesPerSector := v.bytesPerSector
  sectorsPerCluster := v.sectorsPerCluster
  volumeLength := v.volumeLength
  fatOffset := v.fatOffset
  fatLength := v.fatLength
  clusterHeapOffset := v.clusterHeapOffset
  clusterCount := v.clusterCount

/-- 寸法の検査を通った volume が満たすこと。`size` は device の大きさである。 -/
structure Geometry.Valid (g : Geometry) (size : Nat) : Prop where
  sector_ge : 512 ≤ g.bytesPerSector
  sector_le : g.bytesPerSector ≤ 2 ^ 12
  cluster_pos : 0 < g.sectorsPerCluster
  cluster_le : g.sectorsPerCluster ≤ 2 ^ 25
  clusterBytes_le : g.bytesPerSector * g.sectorsPerCluster ≤ 2 ^ 25
  count_le : g.clusterCount ≤ 0xfffffff5
  fatOffset_ge : 24 ≤ g.fatOffset
  fatOffset_lt : g.fatOffset < 2 ^ 32
  fat_end : g.fatOffset + g.fatLength ≤ g.clusterHeapOffset
  capacity : (g.clusterCount + 2) * 4 ≤ g.fatLength * g.bytesPerSector
  heap_end : g.clusterHeapOffset + g.clusterCount * g.sectorsPerCluster ≤ g.volumeLength
  volume : g.volumeLength * g.bytesPerSector ≤ size

/-- cluster の数と番号。 -/
def Geometry.InHeap (g : Geometry) (c : Nat) : Prop := 2 ≤ c ∧ c < g.clusterCount + 2

/-- 読むものごとに許される範囲。 -/
def Geometry.inside (g : Geometry) : Region → Nat → Nat → Prop
  | .boot, off, len => off + len ≤ g.volumeLength * g.bytesPerSector
  | .fatEntry, off, len => g.fatOffset * g.bytesPerSector ≤ off ∧
      off + len ≤ (g.fatOffset + g.fatLength) * g.bytesPerSector
  | _, off, len => g.clusterHeapOffset * g.bytesPerSector ≤ off ∧
      off + len ≤
        (g.clusterHeapOffset + g.clusterCount * g.sectorsPerCluster) * g.bytesPerSector

/-- cluster の位置。 -/
def Geometry.clusterOff (g : Geometry) (c : Nat) : Nat :=
  (g.clusterHeapOffset + (c - 2) * g.sectorsPerCluster) * g.bytesPerSector

/-- FAT の entry の位置。 -/
def Geometry.entryOff (g : Geometry) (c : Nat) : Nat := g.fatOffset * g.bytesPerSector + c * 4

section Valid

variable {g : Geometry} {size : Nat}

/-- どの読み出しも volume の中にある。 -/
theorem Geometry.Valid.within (h : g.Valid size) {what : Region} {off len : Nat}
    (hin : g.inside what off len) : off + len ≤ g.volumeLength * g.bytesPerSector := by
  have hheap := Nat.mul_le_mul_right g.bytesPerSector h.heap_end
  have hfat : (g.fatOffset + g.fatLength) * g.bytesPerSector ≤
      g.volumeLength * g.bytesPerSector := by
    have := h.fat_end
    have := h.heap_end
    exact Nat.mul_le_mul_right _ (by omega)
  cases what with
  | boot => exact hin
  | fatEntry => exact le_trans hin.2 hfat
  | root => exact le_trans hin.2 hheap
  | cluster => exact le_trans hin.2 hheap

/-- はじめの二つの boot region は volume の中にある。 -/
theorem Geometry.Valid.boot_le (h : g.Valid size) {n : Nat} (hn : n ≤ 24) :
    n * g.bytesPerSector ≤ g.volumeLength * g.bytesPerSector := by
  have := h.fatOffset_ge
  have := h.fat_end
  have := h.heap_end
  exact Nat.mul_le_mul_right _ (by omega)

/-- 番号の範囲にある cluster の sector。 -/
theorem Geometry.InHeap.sector {c : Nat} (hc : g.InHeap c) :
    g.clusterHeapOffset + (c - 2) * g.sectorsPerCluster + g.sectorsPerCluster ≤
      g.clusterHeapOffset + g.clusterCount * g.sectorsPerCluster := by
  obtain ⟨h2, hlt⟩ := hc
  have hmul : (c - 2 + 1) * g.sectorsPerCluster ≤ g.clusterCount * g.sectorsPerCluster :=
    Nat.mul_le_mul_right _ (by omega)
  rw [Nat.succ_mul] at hmul
  omega

/-- **番号の範囲にある cluster は heap の中にある。** -/
theorem Geometry.InHeap.cluster {c n : Nat} (hc : g.InHeap c)
    (hn : n ≤ g.bytesPerSector * g.sectorsPerCluster) :
    g.clusterHeapOffset * g.bytesPerSector ≤ g.clusterOff c ∧ g.clusterOff c + n ≤
      (g.clusterHeapOffset + g.clusterCount * g.sectorsPerCluster) * g.bytesPerSector := by
  have hsector := Nat.mul_le_mul_right g.bytesPerSector hc.sector
  rw [Nat.add_mul _ g.sectorsPerCluster, Nat.mul_comm g.sectorsPerCluster] at hsector
  unfold clusterOff
  exact ⟨Nat.mul_le_mul_right _ (Nat.le_add_right _ _), by omega⟩

/-- **番号の範囲にある entry ははじめの FAT の中にある。** -/
theorem Geometry.Valid.entry (h : g.Valid size) {c : Nat} (hc : c < g.clusterCount + 2) :
    g.inside .fatEntry (g.entryOff c) 4 := by
  have hcap := h.capacity
  unfold inside entryOff
  rw [Nat.add_mul]
  omega

/-- 位置の計算はどれも 64 bit に収まる。 -/
theorem Geometry.Valid.offsets_lt (h : g.Valid size) (hsize : size < 2 ^ 63) {c : Nat}
    (hc : g.InHeap c) :
    (c - 2) * g.sectorsPerCluster < 2 ^ 64 ∧
      g.clusterHeapOffset + (c - 2) * g.sectorsPerCluster < 2 ^ 64 ∧ g.clusterOff c < 2 ^ 64 := by
  have hsector := hc.sector
  have hheap := h.heap_end
  have hvolume := h.volume
  have hoff := (hc.cluster (Nat.zero_le _)).2
  have hin := Nat.mul_le_mul_right g.bytesPerSector hheap
  have hlength : g.volumeLength * 1 ≤ g.volumeLength * g.bytesPerSector :=
    Nat.mul_le_mul_left _ (le_trans (by omega) h.sector_ge)
  omega

theorem Geometry.Valid.entries_lt (h : g.Valid size) {c : Nat} (hc : c < g.clusterCount + 2) :
    g.fatOffset * g.bytesPerSector < 2 ^ 44 ∧ c * 4 < 2 ^ 34 := by
  have hcount := h.count_le
  have hmul : g.fatOffset * g.bytesPerSector ≤ (2 ^ 32 - 1) * 2 ^ 12 :=
    Nat.mul_le_mul (by have := h.fatOffset_lt; omega) h.sector_le
  omega

end Valid

/-! ## 寸法の検査 -/

section Header

variable {d : Disk}

/-- はじめの sector だけを読む。 -/
def firstSector (what : Region) (off len : Nat) : Prop := what = .boot ∧ off = 0 ∧ len = 512

theorem sizeBytes_kept {inside : Region → Nat → Nat → Prop} (v : Volume) (size : Nat)
    (hsize : size < u64Max) :
    Kept inside v.sizeBytes fun n => n ≤ size → v.volumeLength * v.bytesPerSector ≤ size := by
  unfold Volume.sizeBytes
  by_cases hc : v.bytesPerSector = 0 ∨ v.volumeLength > u64Max / v.bytesPerSector
  · rw [if_pos hc]
    exact Kept.pure fun h => by omega
  · rw [if_neg hc]
    have hle : v.volumeLength * v.bytesPerSector ≤ u64Max :=
      (Nat.le_div_iff_mul_le (by omega)).mp (by omega)
    refine (Kept.mul (lt_of_le_of_lt hle (by decide))).mono fun n hn h => ?_
    rw [← hn]
    exact h

/-- 幅の決まった欄。 -/
structure Fields (v : Volume) : Prop where
  fatOffset : v.fatOffset < 2 ^ 32
  fatLength : v.fatLength < 2 ^ 32
  heap : v.clusterHeapOffset < 2 ^ 32
  count : v.clusterCount < 2 ^ 32
  fats : v.fatCount < 2 ^ 8
  sector_ge : 512 ≤ v.bytesPerSector
  sector_le : v.bytesPerSector ≤ 2 ^ 12
  cluster_pos : 0 < v.sectorsPerCluster
  cluster_le : v.sectorsPerCluster ≤ 2 ^ 25
  clusterBytes_le : v.bytesPerSector * v.sectorsPerCluster ≤ 2 ^ 25

/-- **寸法の検査はあふれず、通れば寸法は正しい。** -/
theorem checkGeometry_kept {inside : Region → Nat → Nat → Prop} {v : Volume} (hv : Fields v) :
    Kept inside (checkGeometry d v) fun _ =>
      v.geometry.Valid d.sizeBytes ∧ v.geometry.InHeap v.rootDirCluster := by
  have hoff := hv.fatOffset
  have hlen := hv.fatLength
  have hheap := hv.heap
  have hcount := hv.count
  have hfats := hv.fats
  have hsize := d.size_lt
  unfold checkGeometry
  refine Kept.guard fun hfirst => Kept.bind (Kept.add (by omega)) fun clusterEnd hend => ?_
  subst hend
  refine Kept.guard fun hroot => Kept.guard fun _ =>
    Kept.bind (sizeBytes_kept v d.sizeBytes (by unfold u64Max; omega)) fun size hvolume => ?_
  have hmul1 : v.fatLength * v.fatCount ≤ 2 ^ 32 * 2 ^ 8 :=
    Nat.mul_le_mul (le_of_lt hlen) (le_of_lt hfats)
  have hmul2 : v.fatLength * v.bytesPerSector ≤ 2 ^ 32 * 2 ^ 12 :=
    Nat.mul_le_mul (le_of_lt hlen) hv.sector_le
  have hmul3 : v.clusterCount * v.sectorsPerCluster ≤ 2 ^ 32 * 2 ^ 25 :=
    Nat.mul_le_mul (le_of_lt hcount) hv.cluster_le
  refine Kept.guard fun hfit => Kept.bind (Kept.mul (by omega)) fun fats hfatsEq => ?_
  subst hfatsEq
  refine Kept.bind (Kept.add (by omega)) fun fatEnd hfatEnd => ?_
  subst hfatEnd
  refine Kept.guard fun hfatIn => Kept.bind (Kept.mul (by omega)) fun fatBytes hfatBytes => ?_
  subst hfatBytes
  refine Kept.bind (Kept.add (by omega)) fun entries hentries => ?_
  subst hentries
  refine Kept.guard fun hcap => Kept.bind (Kept.mul (by omega)) fun heapSectors hheapEq => ?_
  subst hheapEq
  refine Kept.bind (Kept.add (by omega)) fun heapEnd hheapEnd => ?_
  subst hheapEnd
  refine Kept.last_guard fun hheapIn => ⟨?_, by omega, by show _ < v.clusterCount + 2; omega⟩
  -- FAT の数は 1 以上なので、はじめの FAT も heap の前にある
  have hone : v.fatLength * 1 ≤ v.fatLength * v.fatCount := Nat.mul_le_mul_left _ (by omega)
  exact {
    sector_ge := hv.sector_ge
    sector_le := hv.sector_le
    cluster_pos := hv.cluster_pos
    cluster_le := hv.cluster_le
    clusterBytes_le := hv.clusterBytes_le
    count_le := by show v.clusterCount ≤ _; omega
    fatOffset_ge := by show 24 ≤ v.fatOffset; omega
    fatOffset_lt := hoff
    fat_end := by show v.fatOffset + v.fatLength ≤ v.clusterHeapOffset; omega
    capacity := by show (v.clusterCount + 2) * 4 ≤ v.fatLength * v.bytesPerSector; omega
    heap_end := Nat.le_of_not_lt hheapIn
    volume := hvolume (Nat.le_of_not_lt hfit) }

theorem fields_bootFields (f : Bytes) {a b : Nat} (ha : 9 ≤ a) (ha' : a ≤ 12) (hab : a + b ≤ 25) :
    Fields (bootFields f (2 ^ a) (2 ^ b)) where
  fatOffset := readLe_lt 4 f 80
  fatLength := readLe_lt 4 f 84
  heap := readLe_lt 4 f 88
  count := readLe_lt 4 f 92
  fats := readLe_lt 1 f 110
  sector_ge := by
    show 2 ^ 9 ≤ 2 ^ a
    exact Nat.pow_le_pow_right (by omega) ha
  sector_le := Nat.pow_le_pow_right (by omega) ha'
  cluster_pos := Nat.pow_pos (by omega)
  cluster_le := Nat.pow_le_pow_right (by omega) (by omega)
  clusterBytes_le := by
    show 2 ^ a * 2 ^ b ≤ 2 ^ 25
    rw [← Nat.pow_add]
    exact Nat.pow_le_pow_right (by omega) hab

theorem header_kept (d : Disk) : Kept firstSector (header d) fun v =>
    v.geometry.Valid d.sizeBytes ∧ v.geometry.InHeap v.rootDirCluster := by
  unfold header
  refine Kept.guard fun _ => Kept.bind (Kept.read ⟨rfl, rfl, rfl⟩) fun f _ => ?_
  have hspc : readLe 1 f 109 < 256 := readLe_lt 1 f 109
  refine Kept.guard fun _ => Kept.guard fun _ => Kept.guard fun hshift =>
    Kept.bind (Kept.add (by omega)) fun shift hsum => ?_
  subst hsum
  refine Kept.guard fun hsum => ?_
  have hb : 2 ^ readLe 1 f 108 ≤ 2 ^ 12 := Nat.pow_le_pow_right (by omega) (by omega)
  have hs : 2 ^ readLe 1 f 109 ≤ 2 ^ 25 := Nat.pow_le_pow_right (by omega) (by omega)
  refine Kept.bind (Kept.mul (by omega)) fun bytesPerSector hbytes => ?_
  refine Kept.bind (Kept.mul (by omega)) fun sectorsPerCluster hsectors => ?_
  rw [Nat.one_mul] at hbytes hsectors
  subst hbytes hsectors
  refine Kept.bind (checkGeometry_kept (fields_bootFields f (by omega) (by omega) (by omega)))
    fun _ h => Kept.pure h

end Header

end Fsx.Exfat
