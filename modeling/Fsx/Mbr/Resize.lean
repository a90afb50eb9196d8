import Mathlib.Data.List.Pairwise
import Fsx.Core.Hoare
import Fsx.Gpt.Entries
import Fsx.Mbr.Model

/-!
# MBR の resize

成功した resize は entry の 8 byte だけを変え、元の sector 0 を undo file に残す。undo file を書き戻せば
disk は元に戻る。

entry の並びについては穴が二つある。`validate` は先頭が 0 の partition を通すので、partition は
sector 0 を覆いうる。また protective の entry は重なりの検査に加わらないが、sector 数が 0 の
0xee の entry は空とみなされて protective の拒否をすり抜け、resize によって空でなくなる。
二つの穴を避ける入力（`Avoids`）では、そしてそのときに限り、約束はすべて守られる
（`resizePartition_keeps_iff`）。
-/

namespace Fsx.Mbr

open Gpt (BackupHost pairLe rangesOverlap totalSectors pairwise_of_rangesOverlap)

/-! ## 占める sector -/

/-- partition は sector `lba` を覆う。 -/
def Partition.Covers (p : Partition) (lba : Nat) : Prop :=
  p.firstLba ≤ lba ∧ lba < p.firstLba + p.sectors

/-- 二つの partition は sector を共有しない。 -/
def Partition.Apart (p q : Partition) : Prop := ∀ lba, ¬ (p.Covers lba ∧ q.Covers lba)

theorem Partition.Apart.symm {p q : Partition} (h : p.Apart q) : q.Apart p :=
  fun lba hlba => h lba ⟨hlba.2, hlba.1⟩

instance : Std.Symm Partition.Apart := ⟨fun _ _ h => h.symm⟩

theorem Partition.apart_of_lastLba {p q : Partition} (h : p.lastLba < q.firstLba) : p.Apart q := by
  rintro lba ⟨⟨-, h1⟩, ⟨h2, -⟩⟩
  unfold Partition.lastLba at h
  split at h <;> omega

/-- `index` 番の partition が新しい範囲を占めても、ほかの partition と重ならない。 -/
def Clear (ps : List Partition) (index : Nat) (first sectors : UInt32) : Prop :=
  ∀ p ∈ ps, p.index ≠ index → ∀ lba, first.toNat ≤ lba → lba < first.toNat + sectors.toNat →
    ¬ p.Covers lba

/-- sector 0 の partition。 -/
def Disk.partitions (d : Disk) : List Partition := partitionsOf (d.data.read 0 512)

/-! ## 約束 -/

/-- `[8, 16)` の 8 byte のほかは変わらない。 -/
def OnlyEntry (index : Nat) (d d' : Disk) : Prop :=
  ∀ i, i < entryOff index + 8 ∨ entryOff index + 16 ≤ i → d'.data i = d.data i

/-- 空でない entry は disk の中で互いに重ならず、`index` 番の partition は sector 0 を覆わない。 -/
structure Safe (index : Nat) (d : Disk) : Prop where
  inside : ∀ p ∈ Disk.partitions d, p.firstLba + p.sectors ≤ totalSectors d
  apart : (Disk.partitions d).Pairwise Partition.Apart
  clears : ∀ p ∈ Disk.partitions d, p.index = index → ¬ p.Covers 0

/-- undo file を書き戻すと disk は元に戻る。 -/
def Restores (host : WriteHost) (allow : Bool) (d d' : Disk) (undo : Option Bytes) : Prop :=
  ∀ file : Disk, file.sizeBytes = 512 → undo = some (file.data.read 0 512) →
    ∃ d'', Proc.run (restoreSector host (.ok file) allow) d' = (.ok (), d'') ∧ d''.data = d.data

/-- 成功した resize の約束。 -/
structure Keeps (host : WriteHost) (o : MutationOptions) (index : Nat) (s s' : Site) : Prop where
  only : OnlyEntry index s.disk s'.disk
  safe : Safe index s'.disk
  saved : s'.undo = some (s.disk.data.read 0 512)
  restores : Restores host o.allowBlockDevice s.disk s'.disk s'.undo

/-- 二つの穴を避ける入力。 -/
def Avoids (index : Nat) (first sectors : UInt32) (d : Disk) : Prop :=
  first ≠ 0 ∧ (readLe 1 (d.data.read 0 512) (entryOff index + 4) ≠ 0xee ∨
    Clear (Disk.partitions d) index first sectors)

/-! ## decode -/

section Decode

variable {b : Bytes} {p : Partition} {i index : Nat} {first sectors : UInt32}

theorem partitionAt_eq_some {b : Bytes} {i : Nat} {p : Partition} :
    partitionAt b i = some p → p.type ≠ 0 ∧ p.sectors ≠ 0 ∧ p.index = i + 1 ∧
      p.type = readLe 1 b (PART_OFF + i * 16 + 4) := by
  intro h
  unfold partitionAt at h
  dsimp only at h
  split at h
  · cases h
  · next hc =>
    cases h
    rw [not_or] at hc
    exact ⟨hc.1, hc.2, rfl, rfl⟩

theorem mem_partitionsOf : p ∈ partitionsOf b ↔ ∃ i < 4, partitionAt b i = some p := by
  rw [partitionsOf, List.mem_filterMap]
  simp only [List.mem_range]

/-- `decode` は 512 byte あれば成功する。 -/
theorem decode_ok (h : 512 ≤ b.length) : ∃ t, decode b = .ok t ∧ t.partitions = partitionsOf b ∧
    t.signatureOk = (readLe 1 b 510 == 0x55 && readLe 1 b 511 == 0xaa) ∧
    (t.isProtective = false → ∀ p ∈ partitionsOf b, p.type ≠ 0xee) := by
  unfold decode
  rw [if_neg (by omega)]
  refine ⟨_, rfl, rfl, rfl, ?_⟩
  intro hp p hmem htype
  rw [decide_eq_false_iff_not, Nat.not_lt, Nat.le_zero, List.countP_eq_zero] at hp
  exact hp p hmem (by simp [htype])

/-! ## 書き換えた sector 0 -/

@[simp] theorem length_resized : (resized b index first sectors).length = b.length := by
  rw [resized, length_writeLe, length_writeLe]

/-- 書き換えた 8 byte の外の欄は変わらない。 -/
theorem readLe_resized {m o : Nat} (h : o + m ≤ entryOff index + 8 ∨ entryOff index + 16 ≤ o) :
    readLe m (resized b index first sectors) o = readLe m b o := by
  unfold resized
  rw [readLe_writeLe_of_disjoint (by omega), readLe_writeLe_of_disjoint (by omega)]

theorem getElem?_resized (h : i < entryOff index + 8 ∨ entryOff index + 16 ≤ i) :
    (resized b index first sectors)[i]? = b[i]? := by
  unfold resized writeLe
  rw [getElem?_patch, if_neg (by rw [length_leBytes]; omega), getElem?_patch,
    if_neg (by rw [length_leBytes]; omega)]

theorem readLe_first (h : entryOff index + 16 ≤ b.length) :
    readLe 4 (resized b index first sectors) (entryOff index + 8) = first.toNat := by
  unfold resized
  rw [readLe_writeLe_of_disjoint (by omega), readLe_writeLe_self (by omega)]
  exact Nat.mod_eq_of_lt first.toNat_lt

theorem readLe_sectors (h : entryOff index + 16 ≤ b.length) :
    readLe 4 (resized b index first sectors) (entryOff index + 12) = sectors.toNat := by
  unfold resized
  rw [readLe_writeLe_self (by rw [length_writeLe]; omega)]
  exact Nat.mod_eq_of_lt sectors.toNat_lt

/-- ほかの entry は変わらない。 -/
theorem partitionAt_resized_of_ne (hi : i + 1 ≠ index) (hindex : 1 ≤ index) :
    partitionAt (resized b index first sectors) i = partitionAt b i := by
  have hout : PART_OFF + i * 16 + 16 ≤ entryOff index ∨ entryOff index + 16 ≤ PART_OFF + i * 16 := by
    unfold entryOff
    omega
  unfold partitionAt
  dsimp only
  rw [readLe_resized (by omega), readLe_resized (by omega), readLe_resized (by omega),
    readLe_resized (by omega)]

/-- 書き換えた entry。 -/
theorem partitionAt_resized_self (hindex : 1 ≤ index) (h : entryOff index + 16 ≤ b.length)
    (htype : readLe 1 b (entryOff index + 4) ≠ 0) (hs : sectors ≠ 0) :
    ∃ p, partitionAt (resized b index first sectors) (index - 1) = some p ∧ p.index = index ∧
      p.type = readLe 1 b (entryOff index + 4) ∧ p.firstLba = first.toNat ∧
      p.sectors = sectors.toNat := by
  have hoff : PART_OFF + (index - 1) * 16 = entryOff index := rfl
  have hs' : sectors.toNat ≠ 0 := fun h0 => hs (UInt32.toNat_inj.mp h0)
  unfold partitionAt
  dsimp only
  rw [hoff, readLe_resized (by omega), readLe_sectors h, readLe_first h,
    if_neg (by rw [not_or]; exact ⟨htype, hs'⟩)]
  exact ⟨_, rfl, Nat.sub_add_cancel hindex, rfl, rfl, rfl⟩

end Decode

/-! ## validate -/

section Validate

variable {ds : Nat} {ps : List Partition}

/-- 通った partition は disk に収まり、検査に加わるのは protective でないものである。 -/
theorem usedRanges_eq_ok {rs : List (Nat × Nat)} (hpos : ∀ p ∈ ps, p.sectors ≠ 0)
    (h : usedRanges ds ps = .ok rs) :
    (∀ p ∈ ps, p.lastLba < ds) ∧
      rs = (ps.filter fun p => p.type ≠ 0xee).map fun p => (p.firstLba, p.lastLba) := by
  induction ps generalizing rs with
  | nil =>
    cases h
    simp
  | cons p ps ih =>
    unfold usedRanges at h
    rw [if_neg (hpos p List.mem_cons_self)] at h
    simp only [Result.guard_bind_eq_ok_iff, Result.bind_eq_ok_iff, Result.pure_eq_ok_iff] at h
    obtain ⟨hlast, rest, hrest, rfl⟩ := h
    obtain ⟨hin, rfl⟩ := ih (fun q hq => hpos q (List.mem_cons_of_mem _ hq)) hrest
    constructor
    · intro q hq
      rcases List.mem_cons.mp hq with rfl | hq
      · omega
      · exact hin q hq
    · by_cases ht : p.type = 0xee
      · rw [if_neg (not_not.mpr ht), List.filter_cons_of_neg (by simpa using ht)]
      · rw [if_pos ht, List.filter_cons_of_pos (by simpa using ht), List.map_cons]

/-- **通った table の、protective でない partition は互いに重ならない。** -/
theorem validate_eq_ok {t : Table} (hpos : ∀ p ∈ t.partitions, p.sectors ≠ 0)
    (h : validate t ds = .ok ()) :
    (∀ p ∈ t.partitions, p.firstLba + p.sectors ≤ ds) ∧
      (t.partitions.filter fun p => p.type ≠ 0xee).Pairwise Partition.Apart := by
  unfold validate at h
  simp only [Result.bind_eq_ok_iff, Result.guard_eq_ok_iff, Bool.not_eq_true] at h
  obtain ⟨rs, hrs, hov, -⟩ := h
  obtain ⟨hin, rfl⟩ := usedRanges_eq_ok hpos hrs
  have hlast : ∀ p ∈ t.partitions, p.lastLba = p.firstLba + p.sectors - 1 :=
    fun p hp => if_pos (hpos p hp)
  constructor
  · intro p hp
    have h1 := hin p hp
    have h2 := hpos p hp
    rw [hlast p hp] at h1
    omega
  · have hperm := List.mergeSort_perm ((t.partitions.filter fun p => p.type ≠ 0xee).map
      fun p => (p.firstLba, p.lastLba)) pairLe
    have hle : ∀ a ∈ ((t.partitions.filter fun p => p.type ≠ 0xee).map
        fun p => (p.firstLba, p.lastLba)).mergeSort pairLe, a.1 ≤ a.2 := by
      intro a ha
      obtain ⟨p, hp, rfl⟩ := List.mem_map.mp (hperm.mem_iff.mp ha)
      have hmem := (List.mem_filter.mp hp).1
      have := hpos p hmem
      have := hlast p hmem
      dsimp only
      omega
    have hpw := (pairwise_of_rangesOverlap hle hov).imp fun {a b} hab =>
      (Or.inl hab : a.2 < b.1 ∨ b.2 < a.1)
    rw [hperm.pairwise_iff fun hab => hab.symm, List.pairwise_map] at hpw
    refine hpw.imp ?_
    rintro p q (hpq | hpq)
    · exact Partition.apart_of_lastLba hpq
    · exact (Partition.apart_of_lastLba hpq).symm

end Validate

/-! ## resize の走り -/

section Run

variable {host : WriteHost} {backup : BackupHost} {index : Nat} {first sectors : UInt32}
  {o : MutationOptions} {s s' : Site}

/-- 成功した resize の跡。 -/
structure Done (host : WriteHost) (index : Nat) (first sectors : UInt32) (o : MutationOptions)
    (s s' : Site) : Prop where
  index_pos : 1 ≤ index
  index_le : index ≤ 4
  sectors_ne : sectors ≠ 0
  gate : ∀ refusal, writeGate host o.allowBlockDevice refusal = .ok ()
  size : 512 ≤ s.disk.sizeBytes
  writable : s.disk.writable = true
  signature : (readLe 1 (s.disk.data.read 0 512) 510 == 0x55 &&
    readLe 1 (s.disk.data.read 0 512) 511 == 0xaa) = true
  plain : ∀ p ∈ Disk.partitions s.disk, p.type ≠ 0xee
  used : readLe 1 (s.disk.data.read 0 512) (entryOff index + 4) ≠ 0
  valid : ∃ t, t.partitions = partitionsOf (resized (s.disk.data.read 0 512) index first sectors) ∧
    validate t (totalSectors s.disk) = .ok ()
  disk : s'.disk = s.disk.emit
    [.write ⟨0, resized (s.disk.data.read 0 512) index first sectors⟩, .flush]
  undo : s'.undo = some (s.disk.data.read 0 512)

/-- 書いてよいかの答えは、断りの文面によらない。 -/
theorem writeGate_ok {allow : Bool} {refusal : String}
    (h : writeGate host allow refusal = .ok ()) (refusal' : String) :
    writeGate host allow refusal' = .ok () := by
  unfold writeGate at h ⊢
  simp only [Result.bind_eq_ok_iff, Result.guard_eq_ok_iff] at h ⊢
  exact h

theorem readSector_eq_ok_iff {d : Disk} {b : Bytes} :
    readSector d = .ok b ↔ 0 + 512 ≤ d.sizeBytes ∧ b = d.data.read 0 512 := by
  unfold readSector
  exact Disk.readExact_eq_ok_iff

/-- 通った検査。 -/
theorem checkResize_eq_ok {d : Disk} {b : Bytes} (h : checkResize d index first sectors = .ok b) :
    512 ≤ d.sizeBytes ∧
      (readLe 1 (d.data.read 0 512) 510 == 0x55 && readLe 1 (d.data.read 0 512) 511 == 0xaa) = true ∧
      (∀ p ∈ Disk.partitions d, p.type ≠ 0xee) ∧
      readLe 1 (d.data.read 0 512) (entryOff index + 4) ≠ 0 ∧
      (∃ t, t.partitions = partitionsOf (resized (d.data.read 0 512) index first sectors) ∧
        validate t (totalSectors d) = .ok ()) ∧
      b = resized (d.data.read 0 512) index first sectors := by
  unfold checkResize at h
  simp only [Result.bind_eq_ok_iff, Result.guard_bind_eq_ok_iff, Result.pure_eq_ok_iff] at h
  obtain ⟨b₀, hread, old, hold, hsig, hprot, hused, nt, hnt, _, hv, hb⟩ := h
  obtain ⟨hsize, hb₀⟩ := readSector_eq_ok_iff.mp hread
  rw [hb₀] at hold hused hnt hb
  have hlen : 512 ≤ (d.data.read 0 512).length := by rw [Image.length_read]
  obtain ⟨t, ht, -, hsigt, hplain⟩ := decode_ok hlen
  rw [hold] at ht
  cases ht
  obtain ⟨t', ht', hps, -, -⟩ := decode_ok (b := resized (d.data.read 0 512) index first sectors)
    (by rw [length_resized]; exact hlen)
  rw [hnt] at ht'
  cases ht'
  refine ⟨by omega, ?_, hplain ?_, hused, ⟨nt, hps, hv⟩, hb⟩
  · rw [← hsigt]
    simpa using hsig
  · rw [not_or] at hprot
    simpa using hprot.1

theorem done_of_run (h : Proc.run (resizePartition host backup index first sectors o) s =
    (.ok (), s')) : Done host index first sectors o s s' := by
  unfold resizePartition at h
  by_cases hargs : index < 1 ∨ index > 4 ∨ sectors = 0
  · rw [if_pos hargs] at h
    cases h
  rw [if_neg hargs] at h
  by_cases hpath : o.backupSectorPath = ""
  · rw [if_pos hpath] at h
    cases h
  rw [if_neg hpath] at h
  obtain ⟨_, s₁, hrun, h⟩ := Proc.run_bind_eq_ok h
  obtain ⟨hgate, rfl⟩ := Prod.mk.inj hrun
  obtain ⟨b, s₁, hrun, h⟩ := Proc.run_bind_eq_ok h
  obtain ⟨hb, rfl⟩ := Prod.mk.inj hrun
  obtain ⟨orig, s₁, hrun, h⟩ := Proc.run_bind_eq_ok h
  obtain ⟨horig, rfl⟩ := Prod.mk.inj hrun
  obtain ⟨hsize, hsig, hplain, hused, hvalid, hb⟩ := checkResize_eq_ok hb
  obtain ⟨-, horig⟩ := readSector_eq_ok_iff.mp horig
  rw [hb, horig] at h
  have key : Proc.Triple (fun t => t = s) (Proc.stepping (publishUndo backup (s.disk.data.read 0 512))
      >>= fun _ => writeDisk 0 (resized (s.disk.data.read 0 512) index first sectors) >>=
        fun _ => flushDisk) (fun _ t => s.disk.writable = true ∧
          t.disk = s.disk.emit [.write ⟨0, resized (s.disk.data.read 0 512) index first sectors⟩,
            .flush] ∧ t.undo = some (s.disk.data.read 0 512)) fun _ => True := by
    refine Proc.Triple.bind (R := fun _ t => t.disk = s.disk ∧ t.undo = some (s.disk.data.read 0 512))
      (Proc.Triple.stepping ?_ fun _ _ => trivial) fun _ =>
      Proc.Triple.bind (R := fun _ t => s.disk.writable = true ∧ t.disk = s.disk.emit
        [.write ⟨0, resized (s.disk.data.read 0 512) index first sectors⟩] ∧
        t.undo = some (s.disk.data.read 0 512)) (Proc.Triple.stepping ?_ fun _ _ => trivial) fun _ =>
      Proc.Triple.stepping ?_ fun _ _ => trivial
    · rintro t t' rfl ht
      unfold publishUndo at ht
      simp only [Result.bind_eq_ok_iff, Result.guard_bind_eq_ok_iff, Result.pure_eq_ok_iff] at ht
      obtain ⟨-, -, -, -, -, rfl⟩ := ht
      exact ⟨rfl, rfl⟩
    · rintro t t' ⟨hdisk, hundo⟩ ht
      obtain ⟨d, hd, ht⟩ := Result.bind_eq_ok ht
      cases ht
      rw [hdisk] at hd
      obtain ⟨hw, -, rfl⟩ := Disk.writeExact_eq_ok_iff.mp hd
      exact ⟨hw, rfl, hundo⟩
    · rintro t t' ⟨hw, hdisk, hundo⟩ ht
      cases ht
      refine ⟨hw, ?_, hundo⟩
      show t.disk.emit [.flush] = _
      rw [hdisk, Disk.emit_emit]
      rfl
  obtain ⟨hw, hdisk, hundo⟩ := key.ok rfl h
  exact {
    index_pos := by omega
    index_le := by omega
    sectors_ne := fun hs => hargs (Or.inr (Or.inr hs))
    gate := writeGate_ok hgate
    size := hsize
    writable := hw
    signature := hsig
    plain := hplain
    used := hused
    valid := hvalid
    disk := hdisk
    undo := hundo }

/-- **失敗した resize は disk を変えない。** -/
theorem disk_of_error {e : Error} (h : Proc.run (resizePartition host backup index first sectors o) s =
    (.error e, s')) : s'.disk = s.disk := by
  have key : Proc.Triple (fun t : Site => t.disk = s.disk)
      (resizePartition host backup index first sectors o) (fun _ _ => True)
      fun t => t.disk = s.disk := by
    unfold resizePartition
    refine Proc.Triple.guard (fun _ ht => ht) fun _ => Proc.Triple.guard (fun _ ht => ht) fun _ =>
      Proc.Triple.bind (R := fun _ t => t.disk = s.disk)
        (Proc.Triple.reading (fun _ _ ht _ => ht) fun _ ht => ht) fun _ =>
      Proc.Triple.bind (R := fun _ t => t.disk = s.disk)
        (Proc.Triple.reading (fun _ _ ht _ => ht) fun _ ht => ht) fun _ =>
      Proc.Triple.bind (R := fun _ t => t.disk = s.disk)
        (Proc.Triple.reading (fun _ _ ht _ => ht) fun _ ht => ht) fun orig =>
      Proc.Triple.bind (R := fun _ t => t.disk = s.disk)
        (Proc.Triple.stepping ?_ fun _ ht => ht) fun _ =>
      Proc.Triple.bind (R := fun _ _ => True)
        (Proc.Triple.stepping (fun _ _ _ _ => trivial) fun _ ht => ht) fun _ =>
      Proc.Triple.stepping_ok fun t _ => ⟨_, rfl, trivial⟩
    intro t t' ht hp
    unfold publishUndo at hp
    simp only [Result.bind_eq_ok_iff, Result.guard_bind_eq_ok_iff, Result.pure_eq_ok_iff] at hp
    obtain ⟨-, -, -, -, -, rfl⟩ := hp
    exact ht
  exact key.error rfl h

end Run

/-! ## 成功した resize の後 -/

/-- 一つ書いて flush した像。 -/
theorem replay_write_flush (img : Image) (w : Write) :
    replay img [.write w, .flush] = img.write w.off w.bytes := rfl

namespace Done

variable {host : WriteHost} {index : Nat} {first sectors : UInt32} {o : MutationOptions}
  {s s' : Site}

theorem data_eq (h : Done host index first sectors o s s') : s'.disk.data =
    s.disk.data.write 0 (resized (s.disk.data.read 0 512) index first sectors) := by
  rw [h.disk, Disk.emit_data, replay_write_flush]

theorem off_le (h : Done host index first sectors o s s') :
    entryOff index + 16 ≤ (s.disk.data.read 0 512).length := by
  have h1 := h.index_pos
  have h2 := h.index_le
  rw [Image.length_read, entryOff, PART_OFF]
  omega

theorem partitions_eq (h : Done host index first sectors o s s') : Disk.partitions s'.disk =
    partitionsOf (resized (s.disk.data.read 0 512) index first sectors) := by
  unfold Disk.partitions
  rw [h.data_eq, Image.read_write_self]
  rw [length_resized, Image.length_read]

theorem only (h : Done host index first sectors o s s') : OnlyEntry index s.disk s'.disk := by
  intro i hi
  rw [h.data_eq]
  rcases Nat.lt_or_ge i 512 with hlt | hge
  · rw [Image.write_apply_of_mem (Nat.zero_le _) (by rw [length_resized, Image.length_read]; omega),
      List.getD_eq_getElem?_getD, Nat.sub_zero, getElem?_resized hi, Image.getElem?_read, if_pos hlt,
      Nat.zero_add]
    rfl
  · exact Image.write_apply_of_not_mem (by rw [length_resized, Image.length_read]; omega)

/-- undo file を書き戻すと、元の像になる。 -/
theorem restores (h : Done host index first sectors o s s') :
    Restores host o.allowBlockDevice s.disk s'.disk s'.undo := by
  intro file hsize hfile
  rw [h.undo] at hfile
  have hfile := (Option.some.inj hfile).symm
  have hload : loadUndo file = .ok (s.disk.data.read 0 512) := by
    obtain ⟨t, ht, -, hsig, -⟩ := decode_ok (b := s.disk.data.read 0 512)
      (by rw [Image.length_read])
    rw [h.signature] at hsig
    unfold loadUndo
    rw [if_neg (not_not.mpr hsize), Disk.readExact_ok (by omega), Result.ok_bind, hfile, ht]
    dsimp only
    rw [if_pos hsig]
    rfl
  have hw : s'.disk.writable = true := by
    rw [h.disk, Disk.emit_writable]
    exact h.writable
  have hfit : 0 + (s.disk.data.read 0 512).length ≤ s'.disk.sizeBytes := by
    rw [h.disk, Disk.emit_sizeBytes, Image.length_read]
    have := h.size
    omega
  refine ⟨(s'.disk.emit [.write ⟨0, s.disk.data.read 0 512⟩]).emit [.flush], ?_, ?_⟩
  · unfold restoreSector
    rw [@Proc.run_bind_ok _ _ _ _ _ _ s'.disk () (by rw [Proc.run_reading, h.gate]),
      @Proc.run_bind_ok _ _ _ _ _ _ s'.disk file (by rw [Proc.run_reading]),
      @Proc.run_bind_ok _ _ _ _ _ _ s'.disk (s.disk.data.read 0 512)
        (by rw [Proc.run_reading, hload]),
      Proc.run_bind_ok (DevM.run_write_ok hw hfit), DevM.run_flush]
  · rw [Disk.emit_emit, Disk.emit_data, List.singleton_append, replay_write_flush, h.data_eq,
      Image.write_write_self _ _ (by rw [length_resized]), Image.write_read_self]

/-- 書き換えた entry と、変わらないほかの entry。 -/
theorem target (h : Done host index first sectors o s s') : ∃ p ∈ Disk.partitions s'.disk,
    p.index = index ∧ p.type = readLe 1 (s.disk.data.read 0 512) (entryOff index + 4) ∧
      p.firstLba = first.toNat ∧ p.sectors = sectors.toNat ∧
      (∀ q ∈ Disk.partitions s'.disk, q.index = index → q = p) ∧
      ∀ q, q.index ≠ index → (q ∈ Disk.partitions s'.disk ↔ q ∈ Disk.partitions s.disk) := by
  have hpos := h.index_pos
  have hle := h.index_le
  obtain ⟨p, hp, hindex, htype, hfirst, hsectors⟩ :=
    @partitionAt_resized_self _ _ first _ hpos h.off_le h.used h.sectors_ne
  rw [h.partitions_eq]
  refine ⟨p, mem_partitionsOf.mpr ⟨index - 1, by omega, hp⟩, hindex, htype, hfirst, hsectors, ?_, ?_⟩
  · intro q hq hqi
    obtain ⟨i, -, hi⟩ := mem_partitionsOf.mp hq
    obtain ⟨-, -, hqi', -⟩ := partitionAt_eq_some hi
    have : i = index - 1 := by omega
    rw [this, hp] at hi
    exact (Option.some.inj hi).symm
  · intro q hq
    rw [Disk.partitions, mem_partitionsOf, mem_partitionsOf]
    constructor
    · rintro ⟨i, hi, hqi⟩
      obtain ⟨-, -, hqi', -⟩ := partitionAt_eq_some hqi
      rw [partitionAt_resized_of_ne (by omega) hpos] at hqi
      exact ⟨i, hi, hqi⟩
    · rintro ⟨i, hi, hqi⟩
      obtain ⟨-, -, hqi', -⟩ := partitionAt_eq_some hqi
      refine ⟨i, hi, ?_⟩
      rw [partitionAt_resized_of_ne (by omega) hpos]
      exact hqi

/-- entry は番号の順に並ぶ。 -/
theorem pairwise_index (b : Bytes) :
    (partitionsOf b).Pairwise fun p q => p.index ≠ q.index := by
  unfold partitionsOf
  rw [List.pairwise_filterMap]
  refine List.pairwise_lt_range.imp ?_
  intro i j hij p hp q hq heq
  obtain ⟨-, -, hpi, -⟩ := partitionAt_eq_some hp
  obtain ⟨-, -, hqi, -⟩ := partitionAt_eq_some hq
  omega

/-- 検査を通った並び。重なりを調べられるのは protective でない entry どうしである。 -/
theorem checked (h : Done host index first sectors o s s') :
    (∀ p ∈ Disk.partitions s'.disk, p.firstLba + p.sectors ≤ totalSectors s'.disk) ∧
      ∀ p ∈ Disk.partitions s'.disk, ∀ q ∈ Disk.partitions s'.disk, p.index ≠ q.index →
        p.type ≠ 0xee → q.type ≠ 0xee → p.Apart q := by
  obtain ⟨t, ht, hv⟩ := h.valid
  rw [← h.partitions_eq] at ht
  have hpos : ∀ p ∈ t.partitions, p.sectors ≠ 0 := by
    intro p hp
    rw [ht] at hp
    obtain ⟨i, -, hi⟩ := mem_partitionsOf.mp hp
    exact (partitionAt_eq_some hi).2.1
  obtain ⟨hin, hpw⟩ := validate_eq_ok hpos hv
  rw [ht] at hin hpw
  have htotal : totalSectors s'.disk = totalSectors s.disk := by
    unfold totalSectors Gpt.sectorSize
    rw [h.disk, Disk.emit_sizeBytes, Disk.emit_logicalSector]
  refine ⟨htotal ▸ hin, ?_⟩
  intro p hp q hq hne hpt hqt
  refine hpw.forall ?_ ?_ fun heq => hne (congrArg _ heq)
  · exact List.mem_filter.mpr ⟨hp, by simpa using hpt⟩
  · exact List.mem_filter.mpr ⟨hq, by simpa using hqt⟩

/-- **entry の並びについての約束は、穴を避ける入力で、そのときに限り守られる。** -/
theorem safe_iff (h : Done host index first sectors o s s') :
    Safe index s'.disk ↔ Avoids index first sectors s.disk := by
  obtain ⟨p, hp, hindex, htype, hfirst, hsectors, huniq, hsame⟩ := h.target
  have hpos : 0 < sectors.toNat :=
    Nat.pos_of_ne_zero fun h0 => h.sectors_ne (UInt32.toNat_inj.mp h0)
  constructor
  · intro hs
    constructor
    · rintro rfl
      refine hs.clears p hp hindex ⟨by rw [hfirst]; exact Nat.le_refl _, ?_⟩
      rw [hfirst, hsectors]
      exact Nat.lt_of_lt_of_le hpos (Nat.le_add_left _ _)
    · refine Or.inr fun q hq hne lba h1 h2 hcov => ?_
      have hq' := (hsame q hne).mpr hq
      have hap := hs.apart.forall hp hq' fun heq => hne (heq ▸ hindex)
      refine hap lba ⟨⟨?_, ?_⟩, hcov⟩
      · rw [hfirst]
        exact h1
      · rw [hfirst, hsectors]
        exact h2
  · rintro ⟨hne, hclear⟩
    obtain ⟨hin, hpw⟩ := h.checked
    have hplain : ∀ q ∈ Disk.partitions s'.disk, q.index ≠ index → q.type ≠ 0xee :=
      fun q hq hqi => h.plain q ((hsame q hqi).mp hq)
    have htarget : ∀ q ∈ Disk.partitions s'.disk, q.index ≠ index → p.Apart q := by
      intro q hq hqi
      rcases hclear with ht | hclear
      · exact hpw p hp q hq (by rw [hindex]; exact hqi.symm) (htype ▸ ht) (hplain q hq hqi)
      · intro lba hlba
        obtain ⟨⟨h1, h2⟩, hcov⟩ := hlba
        rw [hfirst] at h1 h2
        rw [hsectors] at h2
        exact hclear q ((hsame q hqi).mp hq) hqi lba h1 h2 hcov
    refine ⟨hin, ?_, ?_⟩
    · rw [h.partitions_eq]
      refine (pairwise_index _).imp_of_mem ?_
      rw [← h.partitions_eq]
      intro a b ha hb hab
      by_cases hai : a.index = index
      · rw [huniq a ha hai]
        exact htarget b hb (by rw [← hai]; exact hab.symm)
      · by_cases hbi : b.index = index
        · rw [huniq b hb hbi]
          exact (htarget a ha hai).symm
        · exact hpw a ha b hb hab (hplain a ha hai) (hplain b hb hbi)
    · intro q hq hqi hcov
      rw [huniq q hq hqi] at hcov
      have h0 := hcov.1
      rw [hfirst] at h0
      exact hne (UInt32.toNat_inj.mp (Nat.le_zero.mp h0))

end Done

/-! ## 小さな disk -/

namespace Tiny

/-- partition を二つ持つ sector 0。二つ目は 0xee の entry で、sector 数が 0 である。 -/
def image : Image := fun i =>
  if i = 450 then 0x83 else if i = 454 then 63 else if i = 458 then 100
  else if i = 466 then 0xee
  else if i = 510 then 0x55 else if i = 511 then 0xaa else 0

theorem size_lt : 512 * 1000 < 2 ^ 63 := by decide

def disk : Disk where
  sizeBytes := 512 * 1000
  logicalSector := 512
  isBlockDevice := false
  writable := true
  data := image
  events := []
  size_lt := size_lt

def site : Site := { disk, undo := none }

def host : WriteHost where
  offline := .ok ()
  blockDevice := .ok false
  reread := false

def backup : BackupHost where
  createFile := .ok ()
  publish := .ok ()

def options : MutationOptions := { backupSectorPath := "mbr.undo" }

/-- resize の走り。 -/
def outcome (index : Nat) (first sectors : UInt32) : Result Unit × Site :=
  Proc.run (resizePartition host backup index first sectors options) site

theorem outcome_ok {index : Nat} {first sectors : UInt32}
    (h : (outcome index first sectors).1.isOk = true) :
    ∃ s', outcome index first sectors = (.ok (), s') := by
  cases hr : outcome index first sectors with
  | mk r s' =>
    rw [hr] at h
    cases r with
    | ok a => exact ⟨s', rfl⟩
    | error e => cases h

theorem moved : (outcome 1 63 200).1.isOk = true ∧
    readLe 1 (disk.data.read 0 512) (entryOff 1 + 4) ≠ 0xee := by decide +kernel

theorem zeroed : (outcome 1 0 200).1.isOk = true := by decide +kernel

theorem filled : (outcome 2 100 20).1.isOk = true ∧
    readLe 1 (disk.data.read 0 512) (entryOff 2 + 4) = 0xee ∧
    (Disk.partitions disk).map (fun p => (p.index, p.firstLba, p.sectors)) = [(1, 63, 100)] := by
  decide +kernel

theorem not_avoids_filled : ¬ Avoids 2 100 20 disk := by
  obtain ⟨-, htype, hps⟩ := filled
  rintro ⟨-, ht | hclear⟩
  · exact ht htype
  · have hmem : (1, 63, 100) ∈ (Disk.partitions disk).map
        fun p => (p.index, p.firstLba, p.sectors) := by
      rw [hps]
      exact List.mem_cons_self
    obtain ⟨p, hp, heq⟩ := List.mem_map.mp hmem
    obtain ⟨hindex, heq⟩ := Prod.mk.inj heq
    obtain ⟨hfirst, hsectors⟩ := Prod.mk.inj heq
    refine hclear p hp (by rw [hindex]; decide) 100 (by decide) (by decide) ⟨?_, ?_⟩
    · rw [hfirst]
      decide
    · rw [hfirst, hsectors]
      decide

end Tiny


/-! ## 約束の成り立つ入力 -/

/--
**失敗した resize は disk を変えず、成功した resize は、穴を避ける入力でちょうど約束を守る。**
穴に当たっても、変わるのは entry の 8 byte だけで、undo file から元に戻せる。
-/
theorem resizePartition_keeps_iff {host : WriteHost} {backup : BackupHost} {index : Nat}
    {first sectors : UInt32} {o : MutationOptions} {s s' : Site} {r : Result Unit}
    (h : Proc.run (resizePartition host backup index first sectors o) s = (r, s')) :
    (∀ e, r = .error e → s'.disk = s.disk) ∧
      (r = .ok () → (Keeps host o index s s' ↔ Avoids index first sectors s.disk)) := by
  constructor
  · rintro e rfl
    exact disk_of_error h
  · rintro rfl
    have hd := done_of_run h
    constructor
    · exact fun hk => hd.safe_iff.mp hk.safe
    · exact fun ha => ⟨hd.only, hd.safe_iff.mpr ha, hd.undo, hd.restores⟩

theorem resizePartition_keeps_iff_moved : ∃ s', Tiny.outcome 1 63 200 = (.ok (), s') ∧
    Keeps Tiny.host Tiny.options 1 Tiny.site s' := by
  obtain ⟨hok, htype⟩ := Tiny.moved
  obtain ⟨s', hs'⟩ := Tiny.outcome_ok hok
  exact ⟨s', hs', ((resizePartition_keeps_iff hs').2 rfl).mpr ⟨by decide, Or.inl htype⟩⟩

/-- 先頭を 0 にする resize も、sector 数が 0 の 0xee の entry を広げる resize も通る。 -/
theorem resizePartition_breaks :
    (∃ s', Tiny.outcome 1 0 200 = (.ok (), s') ∧
      ¬ Keeps Tiny.host Tiny.options 1 Tiny.site s') ∧
    ∃ s', Tiny.outcome 2 100 20 = (.ok (), s') ∧
      ¬ Keeps Tiny.host Tiny.options 2 Tiny.site s' := by
  obtain ⟨s₁, h₁⟩ := Tiny.outcome_ok Tiny.zeroed
  obtain ⟨s₂, h₂⟩ := Tiny.outcome_ok Tiny.filled.1
  refine ⟨⟨s₁, h₁, fun hk => ?_⟩, s₂, h₂, fun hk => ?_⟩
  · exact ((done_of_run h₁).safe_iff.mp hk.safe).1 rfl
  · exact Tiny.not_avoids_filled ((done_of_run h₂).safe_iff.mp hk.safe)

end Fsx.Mbr
