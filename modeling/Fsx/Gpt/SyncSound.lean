import Fsx.Gpt.Sync
import Fsx.Core.Hoare
import Fsx.Ext4.Geometry

/-!
# partition の同期の正しさ

`sync_gpt_partition_to_ext4` が成功すれば、選んだ partition の始まりは変わらず、長さは filesystem の
大きさに等しく、ほかの entry は byte まで同じで、GPT の二つの写しは有効で一致している。

失敗したときは、`write_pair` が最初の書き込みに進んでいなければ disk は変わらない。
-/

namespace Fsx

open Ext4 Gpt

namespace Gpt

/-! ## 番号で partition を探す -/

theorem partitionOf_index {s : RawSide} {i : Nat} {p : Partition} (h : partitionOf s i = some p) :
    p.index = i + 1 := by
  unfold partitionOf at h
  by_cases hz : zeroGuid (slice (s.entry i) 0 16) = true
  · rw [if_pos hz] at h
    cases h
  · rw [if_neg hz] at h
    cases h
    rfl

/-- 番号の一致する partition は、その番号の entry から来る。 -/
theorem find_partitions (s : RawSide) (k : Nat) : ∀ n,
    ((List.range n).filterMap (partitionOf s)).find? (fun p => decide (p.index = k + 1)) =
      if k < n then partitionOf s k else none
  | 0 => rfl
  | n + 1 => by
    have hlast : ([n].filterMap (partitionOf s)).find? (fun p => decide (p.index = k + 1)) =
        if k = n then partitionOf s k else none := by
      cases hp : partitionOf s n with
      | none =>
        rw [List.filterMap_cons_none hp]
        by_cases hk : k = n
        · rw [if_pos hk, hk, hp]
          rfl
        · rw [if_neg hk]
          rfl
      | some p =>
        have hidx := partitionOf_index hp
        rw [List.filterMap_cons_some hp]
        by_cases hk : k = n
        · subst hk
          rw [if_pos rfl, hp]
          exact List.find?_cons_of_pos (by simpa using hidx)
        · rw [if_neg hk]
          refine (List.find?_cons_of_neg ?_).trans rfl
          simp only [decide_eq_true_eq]
          omega
    rw [List.range_succ, List.filterMap_append, List.find?_append, find_partitions s k n, hlast]
    by_cases hk : k < n
    · rw [if_pos hk, if_neg (show k ≠ n by omega), if_pos (show k < n + 1 by omega)]
      cases partitionOf s k <;> rfl
    · rw [if_neg hk]
      by_cases hkn : k = n
      · rw [if_pos hkn, if_pos (show k < n + 1 by omega)]
        rfl
      · rw [if_neg hkn, if_neg (show ¬ k < n + 1 by omega)]
        rfl

theorem findPartition_eq_ok_iff {t : Table} {s : RawSide} (ht : t.partitions = s.partitions)
    {index : Nat} {p : Partition} : PartitionSync.findPartition t index = .ok p ↔
      1 ≤ index ∧ index ≤ s.entryCount ∧ partitionOf s (index - 1) = some p := by
  have hfind : (t.partitions.find? fun p => decide (p.index = index)) = some p ↔
      1 ≤ index ∧ index ≤ s.entryCount ∧ partitionOf s (index - 1) = some p := by
    rw [ht, RawSide.partitions]
    cases index with
    | zero =>
      constructor
      · intro h
        have hmem := List.mem_of_find?_eq_some h
        have hidx := List.find?_some h
        obtain ⟨i, _, hi⟩ := List.mem_filterMap.mp hmem
        have := partitionOf_index hi
        simp only [decide_eq_true_eq] at hidx
        omega
      · rintro ⟨h, _⟩
        cases h
    | succ k =>
      rw [find_partitions]
      by_cases hk : k < s.entryCount
      · rw [if_pos hk]
        exact ⟨fun h => ⟨by omega, hk, h⟩, fun h => h.2.2⟩
      · rw [if_neg hk]
        constructor
        · intro h
          cases h
        · rintro ⟨_, h, _⟩
          omega
  rw [← hfind]
  unfold PartitionSync.findPartition
  cases t.partitions.find? fun p => decide (p.index = index) with
  | none =>
    constructor
    · intro h
      cases h
    · intro h
      cases h
  | some q =>
    constructor
    · intro h
      cases h
      rfl
    · intro h
      cases h
      rfl

/-! ## entry の書き換え -/

section ResizeEntry

variable {c : RawSide} {index first last : Nat}

theorem resizeEntry_entry_other {i : Nat} (hes : 128 ≤ c.entrySize) (hidx : 1 ≤ index)
    (hi : i ≠ index - 1) : (c.resizeEntry index first last).entry i = c.entry i := by
  show slice (writeLe 8 (writeLe 8 c.entries ((index - 1) * c.entrySize + 32) first)
    ((index - 1) * c.entrySize + 40) last) (i * c.entrySize) c.entrySize = _
  have hmul : (i + 1) * c.entrySize = i * c.entrySize + c.entrySize := Nat.succ_mul _ _
  have hmul' : (index - 1 + 1) * c.entrySize = (index - 1) * c.entrySize + c.entrySize :=
    Nat.succ_mul _ _
  -- 別の entry は、書いた場所より手前で終わるか、後ろから始まる
  have hapart : i * c.entrySize + c.entrySize ≤ (index - 1) * c.entrySize ∨
      (index - 1) * c.entrySize + c.entrySize ≤ i * c.entrySize := by
    rcases Nat.lt_or_ge i (index - 1) with h | h
    · left
      have := Nat.mul_le_mul_right c.entrySize (Nat.succ_le_of_lt h)
      rw [Nat.succ_eq_add_one, hmul] at this
      exact this
    · right
      have := Nat.mul_le_mul_right c.entrySize (show index - 1 + 1 ≤ i by omega)
      rw [hmul'] at this
      exact this
  rw [slice_writeLe_of_disjoint (by omega), slice_writeLe_of_disjoint (by omega)]
  rfl

/-- 書き換えた entry から読める partition。範囲のほかは変わらない。 -/
theorem partitionOf_resizeEntry {p : Partition} (hes : 128 ≤ c.entrySize) (hidx : 1 ≤ index)
    (hcount : index ≤ c.entryCount) (hlen : c.entries.length = c.arrayBytes)
    (hfirst : first < 2 ^ 64) (hlast : last < 2 ^ 64)
    (hp : partitionOf c (index - 1) = some p) :
    partitionOf (c.resizeEntry index first last) (index - 1) =
      some { p with firstLba := first, lastLba := last } := by
  have hsize : (index - 1) * c.entrySize + c.entrySize ≤ c.entries.length := by
    have hmul : (index - 1 + 1) * c.entrySize ≤ c.entryCount * c.entrySize :=
      Nat.mul_le_mul_right _ (by omega)
    rw [Nat.succ_mul] at hmul
    rw [hlen]
    exact hmul
  have hentry : ∀ b : Bytes, ∀ o n, o + n ≤ c.entrySize →
      slice (slice b ((index - 1) * c.entrySize) c.entrySize) o n
        = slice b ((index - 1) * c.entrySize + o) n := fun b o n h => slice_slice b _ _ o n h
  have hsame : ∀ o n, o + n ≤ c.entrySize → o + n ≤ 32 ∨ 48 ≤ o →
      slice ((c.resizeEntry index first last).entry (index - 1)) o n
        = slice (c.entry (index - 1)) o n := by
    intro o n hle hout
    show slice (slice (writeLe 8 (writeLe 8 c.entries ((index - 1) * c.entrySize + 32) first)
      ((index - 1) * c.entrySize + 40) last) ((index - 1) * c.entrySize) c.entrySize) o n = _
    rw [hentry _ o n hle, slice_writeLe_of_disjoint (by omega), slice_writeLe_of_disjoint (by omega),
      RawSide.entry, hentry _ o n hle]
  have hread32 : readLe 8 ((c.resizeEntry index first last).entry (index - 1)) 32 = first := by
    show leNat (slice (slice (writeLe 8 (writeLe 8 c.entries ((index - 1) * c.entrySize + 32) first)
      ((index - 1) * c.entrySize + 40) last) ((index - 1) * c.entrySize) c.entrySize) 32 8) = _
    rw [hentry _ 32 8 (by omega), slice_writeLe_of_disjoint (by omega)]
    exact (readLe_writeLe_self (by omega)).trans (Nat.mod_eq_of_lt (by omega))
  have hread40 : readLe 8 ((c.resizeEntry index first last).entry (index - 1)) 40 = last := by
    show leNat (slice (slice (writeLe 8 (writeLe 8 c.entries ((index - 1) * c.entrySize + 32) first)
      ((index - 1) * c.entrySize + 40) last) ((index - 1) * c.entrySize) c.entrySize) 40 8) = _
    rw [hentry _ 40 8 (by omega)]
    refine (readLe_writeLe_self ?_).trans (Nat.mod_eq_of_lt (by omega))
    rw [length_writeLe]
    omega
  unfold partitionOf at hp ⊢
  dsimp only at hp ⊢
  rw [hsame 0 16 (by omega) (by omega), hsame 16 16 (by omega) (by omega), hread32, hread40,
    hsame 56 _ (by rw [show (c.resizeEntry index first last).entrySize = c.entrySize from rfl]; omega)
      (by omega),
    show readLe 8 ((c.resizeEntry index first last).entry (index - 1)) 48
      = readLe 8 (c.entry (index - 1)) 48 from congrArg leNat (hsame 48 8 (by omega) (by omega))]
  by_cases hz : zeroGuid (slice (c.entry (index - 1)) 0 16) = true
  · rw [if_pos hz] at hp
    cases hp
  · rw [if_neg hz] at hp ⊢
    cases hp
    rfl

theorem bounded_resizeEntry (hb : Bounded c) : Bounded (c.resizeEntry index first last) := by
  refine ⟨hb.revision, hb.headerSize, hb.firstUsable, hb.lastUsable, hb.entryCount, hb.entrySize,
    hb.diskGuid, ?_⟩
  rw [resizeEntry_entries, length_writeLe, length_writeLe, hb.entries]
  rfl

end ResizeEntry

/-! ## 成功した `resize_partition` -/

theorem canonical_of_bothValid {d : Disk} (htotal : 2 ≤ totalSectors d) (h : BothValid d) :
    canonical d = some (sideAt d 1) := by
  obtain ⟨hp, hb, _⟩ := h
  unfold canonical
  rw [hp.readSide_eq (by omega), hb.readSide_eq (by omega)]
  exact if_pos hp.valid

theorem verified_of_writePair {host : WriteHost} {options : MutationOptions} {c : RawSide}
    {entries : Bytes} {d d' : Disk} {r : MutationReport}
    (h : Proc.run (writePair host c entries options) d = (.ok r, d')) : r.verified = true := by
  unfold writePair at h
  obtain ⟨_, d0, _, k0⟩ := Proc.run_bind_eq_ok h
  rw [Proc.run_bind_ok (Proc.run_get d0)] at k0
  by_cases htotal : totalSectors d0 < 100
  · rw [if_pos htotal] at k0
    cases k0
  rw [if_neg htotal] at k0
  obtain ⟨_, _, _, k1⟩ := Proc.run_bind_eq_ok k0
  obtain ⟨_, _, _, k2⟩ := Proc.run_bind_eq_ok k1
  obtain ⟨_, _, _, k3⟩ := Proc.run_bind_eq_ok k2
  obtain ⟨_, _, _, k4⟩ := Proc.run_bind_eq_ok k3
  obtain ⟨_, _, _, k5⟩ := Proc.run_bind_eq_ok k4
  obtain ⟨_, _, _, k6⟩ := Proc.run_bind_eq_ok k5
  obtain ⟨_, _, _, k7⟩ := Proc.run_bind_eq_ok k6
  cases k7
  rfl

/-- 成功するなら、書き込みに進んでいる。 -/
theorem writeReady_of_ok {host : WriteHost} {options : MutationOptions} {c : RawSide}
    {entries : Bytes} {d d' : Disk} {r : MutationReport}
    (h : Proc.run (writePair host c entries options) d = (.ok r, d')) :
    WriteReady host options d := by
  obtain ⟨_, _, hemit, _⟩ := twoPhase_writePair h
  by_contra hc
  have hsame := @writePair_not_ready _ _ c _ entries hc
  rw [h] at hsame
  have hev := congrArg Disk.events (hemit.symm.trans hsame)
  have hlen := congrArg List.length hev
  simp only [Disk.emit_events, halves, List.length_append, List.length_singleton] at hlen
  omega

section Written

variable {c : RawSide} {d : Disk} (hb : Bounded c)
  (hf : FieldsOk c (totalSectors d) (sectorSize d)) (htotal : 100 ≤ totalSectors d)
include hb hf htotal

/-- 書いた後の primary の側は、書いた写しそのものである。 -/
theorem sideAt_emit_pairEvents :
    sideAt (d.emit (pairEvents c c.entries (totalSectors d) (sectorSize d))) 1 =
      pairSide c 1 (totalSectors d - 1) (primaryEntries c (sectorSize d)) (sectorSize d)
        c.entries := by
  have hpe : 2 ≤ primaryEntries c (sectorSize d) := by
    unfold primaryEntries
    dsimp only
    split <;> omega
  obtain ⟨hhdr, harr⟩ := @read_primaryWrites _ _ (totalSectors d) _ hb.entries hpe
    (d.data.applyAll (backupWrites c c.entries (totalSectors d) (sectorSize d)))
  refine (sideAt_pairSide (d := d.emit (pairEvents c c.entries (totalSectors d) (sectorSize d)))
    ?_ ?_ ?_ hb hf.headerSize.1 (le_trans hf.headerSize.1 hf.headerSize.2) ?_ harr).2
  · rw [totalSectors_emit]
    omega
  · rw [totalSectors_emit]
    omega
  · have := hf.primaryEntries_le htotal
    have := totalSectors_lt d
    omega
  · rw [Nat.one_mul]
    exact hhdr

/-- primary の array が最後の sector に掛からなければ、backup の header は書いたままである。 -/
theorem entriesLba_emit_pairEvents
    (hlt : primaryEntries c (sectorSize d) + c.arraySectors (sectorSize d) ≤ totalSectors d - 1) :
    (sideAt (d.emit (pairEvents c c.entries (totalSectors d) (sectorSize d)))
      (totalSectors d - 1)).entriesLba = totalSectors d - 1 - c.arraySectors (sectorSize d) := by
  have hss := sectorSize_pos d
  have hlen := hb.entries
  have hbytes := arrayBytes_le (s := c) hss
  have htlt := totalSectors_lt d
  obtain ⟨hhdr, -⟩ := read_backupWrites hss hlen hf.arraySectors_le d.data
  have hkeep : headerAt (d.emit (pairEvents c c.entries (totalSectors d) (sectorSize d)))
      (totalSectors d - 1) = makeHeader c (totalSectors d - 1) 1
        (totalSectors d - 1 - c.arraySectors (sectorSize d)) (crc32IeeeFinal c.entries).toNat
          (sectorSize d) := by
    rw [headerAt, sectorSize_emit, Disk.emit_data, replay_pairEvents, ← hhdr]
    refine Image.read_applyAll_of_disjoint _ _ _ _ fun w hw => Or.inr ?_
    have hmul := Nat.mul_le_mul_right (sectorSize d) hlt
    have hone := Nat.mul_le_mul_right (sectorSize d) (show 2 ≤ totalSectors d - 1 by omega)
    rw [Nat.add_mul] at hmul
    simp only [primaryWrites, List.mem_cons, List.not_mem_nil, or_false] at hw
    rcases hw with rfl | rfl
    · show primaryEntries c (sectorSize d) * sectorSize d + c.entries.length ≤ _
      omega
    · show sectorSize d + (makeHeader _ _ _ _ _ _).length ≤ _
      rw [length_makeHeader]
      omega
  have hfields := @makeHeader_fields c (totalSectors d - 1) 1
    (totalSectors d - 1 - c.arraySectors (sectorSize d)) (crc32IeeeFinal c.entries).toNat (sectorSize d)
    (le_trans hf.headerSize.1 hf.headerSize.2) hb (by omega) (by omega) (by omega)
    (UInt32.toNat_lt _)
  show readLe 8 (headerAt _ (totalSectors d - 1)) 72 = _
  rw [hkeep]
  exact hfields.2.2.2.2.2.2.2.2.1

/-- backup だけを書いた後の backup の側も同じである。 -/
theorem sideAt_emit_halfEvents :
    sideAt (d.emit (halfEvents c c.entries (totalSectors d) (sectorSize d))) (totalSectors d - 1) =
      pairSide c (totalSectors d - 1) 1 (totalSectors d - 1 - c.arraySectors (sectorSize d))
        (sectorSize d) c.entries := by
  have hdata : (d.emit (halfEvents c c.entries (totalSectors d) (sectorSize d))).data =
      d.data.applyAll (backupWrites c c.entries (totalSectors d) (sectorSize d)) := by
    rw [Disk.emit_data, halfEvents, replay_append, replay_writes]
    rfl
  obtain ⟨hhdr, harr⟩ := read_backupWrites (sectorSize_pos d) hb.entries hf.arraySectors_le d.data
  rw [← hdata] at hhdr harr
  refine (sideAt_pairSide (d := d.emit (halfEvents c c.entries (totalSectors d) (sectorSize d)))
    ?_ ?_ ?_ hb hf.headerSize.1 (le_trans hf.headerSize.1 hf.headerSize.2) hhdr harr).2
  · rw [totalSectors_emit]
    omega
  · rw [totalSectors_emit]
    omega
  · have := totalSectors_lt d
    omega

end Written

/-- 成功した `write_pair` は、二つの側を書き終えている。 -/
theorem emit_of_writePair {host : WriteHost} {options : MutationOptions} {c : RawSide} {d d' : Disk}
    {r : MutationReport} (hb : Bounded c) (hf : FieldsOk c (totalSectors d) (sectorSize d))
    (h : Proc.run (writePair host c c.entries options) d = (.ok r, d')) :
    d' = d.emit (pairEvents c c.entries (totalSectors d) (sectorSize d)) ∧
      100 ≤ totalSectors d := by
  have hready := writeReady_of_ok h
  rcases writePair_events hready hf.arraySectors_le (hf.primaryEntries_le hready.total) hb.entries
    with hev | ⟨_, ⟨e, he⟩, _⟩
  · rw [h] at hev
    exact ⟨hev, hready.total⟩
  · rw [h] at he
    cases he

/-- 書けたときの primary の側は、書いた写しそのものである。 -/
theorem sideAt_of_writePair {host : WriteHost} {options : MutationOptions} {c : RawSide} {d d' : Disk}
    {r : MutationReport} (hb : Bounded c) (hf : FieldsOk c (totalSectors d) (sectorSize d))
    (h : Proc.run (writePair host c c.entries options) d = (.ok r, d')) :
    BothValid d' ∧ sectorSize d' = sectorSize d ∧ r.verified = true ∧
      sideAt d' 1 = pairSide c 1 (totalSectors d - 1) (primaryEntries c (sectorSize d))
        (sectorSize d) c.entries := by
  obtain ⟨_, _, _, hboth⟩ := twoPhase_writePair h
  obtain ⟨rfl, htotal⟩ := emit_of_writePair hb hf h
  exact ⟨hboth, rfl, verified_of_writePair h, sideAt_emit_pairEvents hb hf htotal⟩

/-- 元と違う partition を書けば、disk の内容は変わる。読み直しの結果によらない。 -/
theorem writePair_changes {host : WriteHost} {options : MutationOptions} {c : RawSide} {d : Disk}
    {i : Nat} (hb : Bounded c) (hf : FieldsOk c (totalSectors d) (sectorSize d))
    (hready : WriteReady host options d) (hboth : BothValid d)
    (hne : partitionOf c i ≠ partitionOf (sideAt d 1) i) :
    (Proc.run (writePair host c c.entries options) d).2.data ≠ d.data := by
  have hsame : ∀ es lba, replay d.data es = d.data → sideAt (d.emit es) lba = sideAt d lba := by
    intro es lba hes
    unfold sideAt headerAt
    rw [Disk.emit_data, hes]
    rfl
  intro heq
  rcases writePair_events hready hf.arraySectors_le (hf.primaryEntries_le hready.total) hb.entries
    with hev | ⟨hev, _, _⟩
  · rw [hev] at heq
    have hside := sideAt_emit_pairEvents hb hf hready.total
    rw [hsame _ _ heq] at hside
    exact hne (by rw [hside]; rfl)
  · rw [hev] at heq
    have hside := sideAt_emit_halfEvents hb hf hready.total
    rw [hsame _ _ heq] at hside
    obtain ⟨_, _, hequal⟩ := hboth
    rw [hside] at hequal
    simp only [sidesEqual, Bool.and_eq_true, beq_iff_eq] at hequal
    obtain ⟨⟨⟨_, hes⟩, _⟩, hent⟩ := hequal
    refine hne ?_
    unfold partitionOf RawSide.entry
    rw [hes, hent]
    rfl

/-- **成功した `resize_partition` は、選んだ entry の範囲だけを変える。** -/
theorem resizePartition_ok {host : WriteHost} {options : MutationOptions} {index first last : Nat}
    {d d' : Disk} {r : MutationReport} (htotal : 2 ≤ totalSectors d) (hboth : BothValid d)
    (hlast : last < 2 ^ 64)
    (h : Proc.run (resizePartition host index first last options) d = (.ok r, d')) :
    BothValid d' ∧ sectorSize d' = sectorSize d ∧ r.verified = true ∧
      (sideAt d' 1).entryCount = (sideAt d 1).entryCount ∧
      (∀ i, i ≠ index - 1 → (sideAt d' 1).entry i = (sideAt d 1).entry i) ∧
      ∀ p, partitionOf (sideAt d 1) (index - 1) = some p →
        partitionOf (sideAt d' 1) (index - 1) = some { p with firstLba := first, lastLba := last } := by
  obtain ⟨c', d0, h0, h1⟩ := Proc.run_bind_eq_ok (by exact h)
  obtain ⟨hc', rfl⟩ := run_reading_eq_ok h0
  obtain ⟨c, hc, ⟨hidx, hcount⟩, hrange, _, rfl, _⟩ := resizedSide_eq_ok hc'
  have hcan := canonical_of_mutationSource hc
  rw [canonical_of_bothValid htotal hboth] at hcan
  cases hcan
  obtain ⟨hf, hb⟩ := canonical_ok (canonical_of_bothValid htotal hboth)
  obtain ⟨hboth', hss, hver, hside⟩ :=
    sideAt_of_writePair (bounded_resizeEntry hb) (fieldsOk_resizeEntry hf) h1
  refine ⟨hboth', hss, hver, by rw [hside]; rfl, ?_, ?_⟩
  · intro i hi
    rw [hside]
    exact resizeEntry_entry_other hf.entrySize.1 hidx hi
  · intro p hp
    rw [hside]
    exact partitionOf_resizeEntry hf.entrySize.1 hidx hcount hb.entries (by omega) hlast hp

/-- `resize_partition` の後の disk は、もとのままか、`write_pair` が書き始めたものである。 -/
theorem resizePartition_disk (host : WriteHost) (options : MutationOptions) (index first last : Nat)
    (d : Disk) : (Proc.run (resizePartition host index first last options) d).2 = d ∨
      ∃ c, resizedSide d index first last = .ok c ∧
        ((Proc.run (resizePartition host index first last options) d).2
            = d.emit (pairEvents c c.entries (totalSectors d) (sectorSize d)) ∨
          (Proc.run (resizePartition host index first last options) d).2
            = d.emit (halfEvents c c.entries (totalSectors d) (sectorSize d))) := by
  cases hc : resizedSide d index first last with
  | error e =>
    left
    unfold resizePartition
    rw [Proc.run_bind_error (Proc.run_reading _ d |>.trans (by rw [hc]))]
  | ok c' =>
    have hrun : Proc.run (resizePartition host index first last options) d
        = Proc.run (writePair host c' c'.entries options) d := by
      unfold resizePartition
      rw [Proc.run_bind_ok (Proc.run_reading _ d |>.trans (by rw [hc]))]
    rw [hrun]
    by_cases hready : WriteReady host options d
    · right
      obtain ⟨c, hsrc, _, _, _, rfl, _⟩ := resizedSide_eq_ok hc
      obtain ⟨hf, hb⟩ := canonical_ok (canonical_of_mutationSource hsrc)
      have hf' := @fieldsOk_resizeEntry _ index first last _ _ hf
      refine ⟨_, rfl, ?_⟩
      rcases writePair_events hready hf'.arraySectors_le (hf'.primaryEntries_le hready.total)
        (bounded_resizeEntry hb).entries with hev | ⟨hev, _, _⟩
      · exact Or.inl hev
      · exact Or.inr hev
    · exact Or.inl (writePair_not_ready hready)

end Gpt

namespace PartitionSync

/-! ## 計画が言うこと -/

/-- 計画が立ったときの、二つの device の様子。 -/
structure Planned (filesystem disk : Disk) (index : Nat) (sb : Superblock) (plan : SyncPlan) :
    Prop where
  super : readSuperblock filesystem = .ok sb
  clean : sb.state &&& 1 ≠ 0
  total : 2 ≤ totalSectors disk
  both : BothValid disk
  index_pos : 1 ≤ index
  index_le : index ≤ (sideAt disk 1).entryCount
  part : partitionOf (sideAt disk 1) (index - 1) = some plan.part
  exact : plan.Exact (sectorSize disk)
  size : plan.filesystemBytes = sb.blocksCount * sb.blockSize
  device : plan.partitionBytes = filesystem.sizeBytes

theorem planSync_eq_ok {filesystem disk : Disk} {index : Nat} {sb : Superblock} {plan : SyncPlan}
    (h : planSync filesystem disk index = .ok (sb, plan)) :
    Planned filesystem disk index sb plan := by
  unfold planSync at h
  simp only [Result.guard_bind_eq_ok_iff, Result.bind_eq_ok_iff, Result.pure_eq_ok_iff,
    Prod.mk.injEq] at h
  obtain ⟨sb', hsb, hstate, t, ht, hflags, part, hpart, plan', hplan, rfl, rfl⟩ := h
  simp only [not_or, not_not] at hflags
  obtain ⟨f1, f2, f3, f4⟩ := hflags
  have hboth := bothValid_of_table ht f1 f2 f3 f4
  obtain ⟨htotal, p, b, hp, hb, ha, rfl⟩ := readRedundantTable_eq_ok_iff.mp ht
  obtain ⟨rfl, hcp⟩ := validCopy_of_flags (by omega) hp f1 f2 ha.primary
  have hparts : (redundantTable disk (sideAt disk 1) b).partitions = (sideAt disk 1).partitions := by
    show (if (sideAt disk 1).valid then sideAt disk 1 else b).partitions = _
    rw [if_pos hcp.valid]
  obtain ⟨hidx, hcount, hpo⟩ := (findPartition_eq_ok_iff hparts).mp hpart
  have hmem := mem_partitions_iff.mpr ⟨index - 1, by omega, hpo⟩
  have hord := ((validateEntries_eq_ok hcp.entries).1 part hmem).2.2
  have hlast : part.lastLba < 2 ^ 64 := by
    rw [(partitionOf_eq_some hpo).2.2]
    exact readLe_lt 8 _ _
  have hacc := accepted_of_readSuperblock hsb
  have hsize := hacc.sizeBytes_eq filesystem.size_lt
  have hpos : 0 < filesystem.sizeBytes :=
    lt_of_lt_of_le (Nat.mul_pos (Nat.zero_lt_of_lt hacc.first_lt)
      (Nat.lt_of_lt_of_le (by decide) hacc.blockSize_ge)) hacc.fits
  obtain ⟨hpp, hfs, hdev, hex⟩ := planPartition_eq_ok hord hlast hpos hplan
  exact ⟨hsb, hstate, htotal, hboth, hidx, hcount, by rw [hpp]; exact hpo, hex, by rw [hfs, hsize],
    hdev⟩

/-! ## 同期の結果 -/

/-- 同期が済んだ world。 -/
structure Synced (index : Nat) (w w' : SyncWorld) : Prop where
  filesystem : w'.filesystem = w.filesystem
  both : BothValid w'.disk
  count : (sideAt w'.disk 1).entryCount = (sideAt w.disk 1).entryCount
  others : ∀ i, i ≠ index - 1 → (sideAt w'.disk 1).entry i = (sideAt w.disk 1).entry i
  part : ∃ sb p p', readSuperblock w.filesystem = .ok sb ∧
    partitionOf (sideAt w.disk 1) (index - 1) = some p ∧
    partitionOf (sideAt w'.disk 1) (index - 1) = some p' ∧
    p'.firstLba = p.firstLba ∧ p'.firstLba ≤ p'.lastLba ∧ p'.lastLba ≤ p.lastLba ∧
    (p'.lastLba - p'.firstLba + 1) * sectorSize w'.disk = sb.blocksCount * sb.blockSize

/-- `write_pair` が書き始めている。 -/
def WriteStarted (index : Nat) (d d' : Disk) : Prop :=
  ∃ first last c, resizedSide d index first last = .ok c ∧
    (d' = d.emit (pairEvents c c.entries (totalSectors d) (sectorSize d)) ∨
      d' = d.emit (halfEvents c c.entries (totalSectors d) (sectorSize d)))

/-- 失敗したときの world。 -/
def Refused (index : Nat) (w w' : SyncWorld) : Prop :=
  w'.filesystem = w.filesystem ∧ (w'.disk = w.disk ∨ WriteStarted index w.disk w'.disk)

/-- `write_pair` の計算があふれない。 -/
structure WriteExact (c : RawSide) (total ss : Nat) : Prop where
  backup : backupEntries c total ss + c.arraySectors ss = total - 1
  backupBytes : u64 (backupEntries c total ss * ss) = backupEntries c total ss * ss
  primaryBytes : u64 (primaryEntries c ss * ss) = primaryEntries c ss * ss

theorem writeExact_of_fieldsOk {c : RawSide} {d : Disk} (htotal : 100 ≤ totalSectors d)
    (hf : FieldsOk c (totalSectors d) (sectorSize d)) :
    WriteExact c (totalSectors d) (sectorSize d) := by
  have hs := hf.arraySectors_le
  have hsize := totalSectors_mul_le d
  have hlt := d.size_lt
  have hwide : ∀ k, k ≤ totalSectors d → u64 (k * sectorSize d) = k * sectorSize d := by
    intro k hk
    have hmul : k * sectorSize d ≤ totalSectors d * sectorSize d := Nat.mul_le_mul_right _ hk
    exact u64_of_lt (by omega)
  have hbe := backupEntries_eq (totalSectors_lt d) hs
  exact ⟨by omega, hwide _ (by omega), hwide _ (hf.primaryEntries_le htotal)⟩

/-- device だけを見る条件は、journal への操作で変わらない。 -/
theorem triple_journalOp {P : Disk → Disk → Prop} {E : SyncWorld → Prop} (op : JournalOp)
    (hE : ∀ w, P w.filesystem w.disk → E w) :
    Proc.Triple (fun w => P w.filesystem w.disk) (journalOp op)
      (fun _ w => P w.filesystem w.disk) E := by
  refine Proc.Triple.stepping (fun w w' hw hstep => ?_) hE
  cases hj : w.journal with
  | none =>
    rw [hj] at hstep
    cases hstep
  | some j =>
    rw [hj] at hstep
    obtain ⟨j', _, hstep⟩ := Result.bind_eq_ok hstep
    cases hstep
    exact hw

section Triples

variable {P : Disk → Disk → Prop} {E : SyncWorld → Prop} {index : Nat} {plan : SyncPlan}

theorem triple_settle (j : Option JournalView) (hE : ∀ w, P w.filesystem w.disk → E w) :
    Proc.Triple (fun w => P w.filesystem w.disk) (settle j) (fun _ w => P w.filesystem w.disk) E := by
  cases j with
  | none => exact Proc.Triple.pure fun _ h => h
  | some v => exact triple_journalOp _ hE

theorem triple_announce (j : Option JournalView) (hE : ∀ w, P w.filesystem w.disk → E w) :
    Proc.Triple (fun w => P w.filesystem w.disk) (announce j index plan)
      (fun _ w => P w.filesystem w.disk) E := by
  cases j with
  | none => exact Proc.Triple.pure fun _ h => h
  | some v =>
    refine Proc.Triple.ite (fun _ => Proc.Triple.pure fun _ h => h) fun _ => ?_
    exact Proc.Triple.bind (triple_journalOp _ hE) fun _ => triple_journalOp _ hE

theorem triple_conclude (j : Option JournalView) (hE : ∀ w, P w.filesystem w.disk → E w) :
    Proc.Triple (fun w => P w.filesystem w.disk) (conclude j index plan)
      (fun _ w => P w.filesystem w.disk) E := by
  cases j with
  | none => exact Proc.Triple.pure fun _ h => h
  | some v => exact Proc.Triple.bind (triple_journalOp _ hE) fun _ => triple_journalOp _ hE

end Triples

/-- 大きさが合っている partition は、書き換えなくても同期が済んでいる。 -/
theorem synced_of_equal {w w' : SyncWorld} {index : Nat} {sb : Superblock} {plan : SyncPlan}
    (hp : Planned w.filesystem w.disk index sb plan) (heq : plan.newLast = plan.part.lastLba)
    (hfs : w'.filesystem = w.filesystem) (hd : w'.disk = w.disk) : Synced index w w' := by
  have hx := hp.exact
  have hlen : plan.part.lastLba - plan.part.firstLba + 1 = plan.newSectors := by
    have h1 := hx.newLast
    have h2 := hx.ordered
    omega
  refine ⟨hfs, by rw [hd]; exact hp.both, by rw [hd], fun i _ => by rw [hd], sb, plan.part,
    plan.part, hp.super, hp.part, by rw [hd]; exact hp.part, rfl, hx.ordered, le_refl _, ?_⟩
  rw [hd, hlen, ← hx.newSectors, hp.size]

/-- 書き換えが成功すれば、同期が済んでいる。 -/
theorem synced_of_resize {w w' : SyncWorld} {index : Nat} {sb : Superblock} {plan : SyncPlan}
    {host : WriteHost} {options : MutationOptions} {r : MutationReport}
    (hp : Planned w.filesystem w.disk index sb plan) (hfs : w'.filesystem = w.filesystem)
    (hr : Proc.run (resizePartition host index plan.part.firstLba plan.newLast options) w.disk
      = (.ok r, w'.disk)) : Synced index w w' := by
  have hx := hp.exact
  have hlast : plan.newLast < 2 ^ 64 := by
    have h1 : plan.part.lastLba < 2 ^ 64 := by
      rw [(partitionOf_eq_some hp.part).2.2]
      exact readLe_lt 8 _ _
    have h2 := hx.shrinks
    omega
  obtain ⟨hboth, hss, _, hcount, hothers, hpart⟩ := resizePartition_ok hp.total hp.both hlast hr
  have hnew := hx.newLast
  have hpos := hx.positive
  refine ⟨hfs, hboth, hcount, hothers, sb, plan.part, _, hp.super, hp.part, hpart _ hp.part, rfl, ?_,
    hx.shrinks, ?_⟩
  · show plan.part.firstLba ≤ plan.newLast
    omega
  · show (plan.newLast - plan.part.firstLba + 1) * sectorSize w'.disk = _
    rw [hss, show plan.newLast - plan.part.firstLba + 1 = plan.newSectors by omega,
      ← hx.newSectors, hp.size]

/-- 成功すれば同期が済み、失敗すれば書き始めていないかぎり disk は変わらない。 -/
theorem triple_sync (host : SyncHost) (missing : Error) (index : Nat)
    (options : PartitionSyncOptions) (w₀ : SyncWorld) :
    Proc.Triple (fun w => w = w₀) (syncGptPartitionToExt4 host missing index options)
      (fun _ w => Synced index w₀ w) (Refused index w₀) := by
  have hsame : ∀ w : SyncWorld, w.filesystem = w₀.filesystem ∧ w.disk = w₀.disk →
      Refused index w₀ w := fun w h => ⟨h.1, Or.inl h.2⟩
  have hstart : ∀ w : SyncWorld, w = w₀ → Refused index w₀ w := by
    rintro w rfl
    exact hsame w ⟨rfl, rfl⟩
  unfold syncGptPartitionToExt4
  refine Proc.Triple.bind (R := fun _ w => w = w₀) (Proc.Triple.reading (fun _ _ h _ => h) hstart)
    fun _ => ?_
  refine Proc.Triple.bind (R := fun x w => w = w₀ ∧ Planned w₀.filesystem w₀.disk index x.1 x.2)
    (Proc.Triple.reading ?_ hstart) ?_
  · rintro w ⟨sb, plan⟩ rfl h
    exact ⟨rfl, planSync_eq_ok h⟩
  rintro ⟨sb, plan⟩
  refine Proc.Triple.bind (R := fun _ w => w = w₀ ∧ Planned w₀.filesystem w₀.disk index sb plan)
    (Proc.Triple.reading (fun _ _ h _ => h) fun w h => hstart w h.1) fun j => ?_
  intro w₁ hw₁
  obtain ⟨rfl, hp⟩ := hw₁
  -- ここから先、計画は定数である。journal への操作では二つの device は変わらない
  suffices h : Proc.Triple
      (fun w => w.filesystem = w₁.filesystem ∧ w.disk = w₁.disk) _
      (fun _ w => Synced index w₁ w) (Refused index w₁) from h w₁ ⟨rfl, rfl⟩
  refine Proc.Triple.ite (fun _ => ?_) fun _ => Proc.Triple.ite (fun heq => ?_) fun _ => ?_
  · refine Proc.Triple.guard hsame fun heq => Proc.Triple.pure fun w h => ?_
    exact synced_of_equal hp (not_not.mp heq) h.1 h.2
  · refine Proc.Triple.bind
      (triple_settle (P := fun f d => f = w₁.filesystem ∧ d = w₁.disk) j hsame) fun _ => ?_
    exact Proc.Triple.pure fun w h => synced_of_equal hp heq h.1 h.2
  · refine Proc.Triple.bind
      (triple_announce (P := fun f d => f = w₁.filesystem ∧ d = w₁.disk) j hsame) fun _ => ?_
    refine Proc.Triple.bind (R := fun _ w => Synced index w₁ w ∧ Refused index w₁ w) ?_ fun r => ?_
    · intro w hw
      have hdisk := resizePartition_disk host.disk { allowBlockDevice := options.allowBlockDevice }
        index plan.part.firstLba plan.newLast w₁.disk
      have hrun : Proc.run (onDisk (resizePartition host.disk index plan.part.firstLba plan.newLast
          { allowBlockDevice := options.allowBlockDevice })) w =
          ((Proc.run (resizePartition host.disk index plan.part.firstLba plan.newLast
            { allowBlockDevice := options.allowBlockDevice }) w₁.disk).1, { w with disk :=
          (Proc.run (resizePartition host.disk index plan.part.firstLba plan.newLast
            { allowBlockDevice := options.allowBlockDevice }) w₁.disk).2 }) := by
        rw [← hw.2]
        rfl
      have href : ∀ w', w'.filesystem = w₁.filesystem →
          w'.disk = (Proc.run (resizePartition host.disk index plan.part.firstLba plan.newLast
            { allowBlockDevice := options.allowBlockDevice }) w₁.disk).2 →
          Refused index w₁ w' := by
        intro w' h1 h2
        refine ⟨h1, ?_⟩
        rcases hdisk with h | ⟨c, hc, h⟩
        · exact Or.inl (h2.trans h)
        · refine Or.inr ⟨_, _, c, hc, ?_⟩
          rw [h2]
          exact h
      rw [hrun]
      constructor
      · intro r w' hok
        obtain ⟨h1, rfl⟩ := Prod.mk.inj hok
        exact ⟨synced_of_resize hp hw.1 (Prod.ext h1 rfl), href _ hw.1 rfl⟩
      · intro e w' herr
        obtain ⟨_, rfl⟩ := Prod.mk.inj herr
        exact href _ hw.1 rfl
    · refine Proc.Triple.guard (fun w h => h.2) fun _ => ?_
      intro w hw
      suffices h : Proc.Triple (fun v : SyncWorld => v.filesystem = w.filesystem ∧ v.disk = w.disk) _
          (fun _ v => Synced index w₁ v) (Refused index w₁) from h w ⟨rfl, rfl⟩
      refine Proc.Triple.bind (triple_conclude (P := fun f d => f = w.filesystem ∧ d = w.disk) j ?_)
        fun _ => Proc.Triple.pure ?_
      · rintro v ⟨h1, h2⟩
        exact ⟨h1.trans hw.2.1, by rw [h2]; exact hw.2.2⟩
      · rintro v ⟨h1, h2⟩
        obtain ⟨s1, s2, s3, s4, s5⟩ := hw.1
        refine ⟨h1.trans s1, ?_, ?_, ?_, ?_⟩
        · rw [h2]; exact s2
        · rw [h2]; exact s3
        · rw [h2]; exact s4
        · rw [h2]; exact s5

/--
**partition の同期は、filesystem を切らない。**

成功すれば `Synced`、失敗すれば `write_pair` が書き始めていないかぎり disk は変わらない。
書き込みに進む経路では、LBA と sector 数の計算はどれもあふれない。
-/
theorem sync_sound (host : SyncHost) (missing : Error) (index : Nat)
    (options : PartitionSyncOptions) (w : SyncWorld) :
    (∀ r w', Proc.run (syncGptPartitionToExt4 host missing index options) w = (.ok r, w') →
      Synced index w w') ∧
    (∀ e w', Proc.run (syncGptPartitionToExt4 host missing index options) w = (.error e, w') →
      Refused index w w') ∧
    ∀ sb plan, planSync w.filesystem w.disk index = .ok (sb, plan) →
      plan.Exact (sectorSize w.disk) ∧ ∀ c, 100 ≤ totalSectors w.disk →
        resizedSide w.disk index plan.part.firstLba plan.newLast = .ok c →
          WriteExact c (totalSectors w.disk) (sectorSize w.disk) := by
  have h := triple_sync host missing index options w w rfl
  refine ⟨h.1, h.2, ?_⟩
  intro sb plan hplan
  refine ⟨(planSync_eq_ok hplan).exact, ?_⟩
  intro c' htotal hc'
  obtain ⟨c, hc, _, _, _, rfl, _⟩ := resizedSide_eq_ok hc'
  obtain ⟨hf, _⟩ := canonical_ok (canonical_of_mutationSource hc)
  exact writeExact_of_fieldsOk htotal (fieldsOk_resizeEntry hf)

/-! ## 小さな filesystem -/

/-- 3 block（1 block は 1024 byte）の filesystem を持つ、11 sector の device。 -/
def smallFilesystem : Disk where
  sizeBytes := 5632
  logicalSector := 512
  isBlockDevice := false
  writable := false
  data := Image.write (fun _ => 0) 1024 (writeLe 2 (writeLe 2 (writeLe 2 (writeLe 4 (writeLe 4
    (writeLe 4 (writeLe 4 (zeros 128) 0x00 8) 0x04 3) 0x20 8192) 0x28 8) 0x38 0xef53) 0x3a 1)
    0x58 128)
  events := []
  size_lt := by decide

/-- その superblock。 -/
def smallSuper : Superblock := decodeSuperblock (smallFilesystem.data.read 1024 1024)

theorem readSuperblock_small : readSuperblock smallFilesystem = .ok smallSuper := by
  unfold readSuperblock
  rw [Disk.readExact_ok (by decide), Result.ok_bind]
  have hcheck : checkSuperblock smallFilesystem.sizeBytes smallSuper = .ok () := by decide +kernel
  exact (congrArg (· >>= fun _ => pure smallSuper) hcheck).trans rfl

theorem sizeBytes_smallSuper : smallSuper.sizeBytes = 3072 ∧ smallSuper.state = 1 := by
  decide +kernel

/-- partition（LBA 10 から 20）を、filesystem の 6 sector に合わせる計画。 -/
theorem planSync_small : ∃ plan, planSync smallFilesystem oneDisk 1 = .ok (smallSuper, plan) ∧
    plan.part.firstLba = 10 ∧ plan.part.lastLba = 20 ∧ plan.newLast = 15 := by
  have ht : readRedundantTable oneDisk = _ := readRedundantTable_diskWith validateEntries_oneTable
  obtain ⟨p, hp, hfirst, hlast⟩ : ∃ p,
      partitionOf (primarySide baseTable (oneEntry 10 20) 100 512) 0 = some p ∧ p.firstLba = 10 ∧
        p.lastLba = 20 := ⟨_, rfl, by decide, by decide⟩
  have hfind : findPartition (redundantTable (diskWith 10 20)
      (primarySide baseTable (oneEntry 10 20) 100 512)
      (backupSide baseTable (oneEntry 10 20) 100 512)) 1 = .ok p :=
    (findPartition_eq_ok_iff (s := primarySide baseTable (oneEntry 10 20) 100 512) rfl).mpr
      ⟨le_refl _, by decide, hp⟩
  obtain ⟨hsize, hstate⟩ := sizeBytes_smallSuper
  have hplan : planPartition smallFilesystem oneDisk smallSuper p = .ok
      { part := p, sectors := 11, partitionBytes := 5632, filesystemBytes := 3072, newSectors := 6,
        newLast := 15 } := by
    unfold planPartition
    rw [sectorSize_oneDisk, hfirst, hlast, hsize]
    rfl
  refine ⟨{ part := p, sectors := 11, partitionBytes := 5632, filesystemBytes := 3072,
            newSectors := 6, newLast := 15 }, ?_, hfirst, hlast, rfl⟩
  unfold planSync
  rw [readSuperblock_small, Result.ok_bind, hstate, if_neg (by decide)]
  dsimp only
  rw [ht, Result.ok_bind, if_neg (by
    rintro (h | h | h | h)
    · exact h rfl
    · exact h rfl
    · exact h rfl
    · exact h rfl), hfind, Result.ok_bind, hplan]
  rfl

/-- journal を使わずに、partition を LBA 10 から 15 に縮める。 -/
theorem sync_small : ∃ r w', Proc.run (syncGptPartitionToExt4 ⟨.ok (), quietWriteHost⟩
      { code := .openFailed, message := "" } 1 {}) ⟨smallFilesystem, oneDisk, none⟩ = (.ok r, w') ∧
    r.changed = true ∧ Synced 1 ⟨smallFilesystem, oneDisk, none⟩ w' := by
  obtain ⟨plan, hplan, hfirst, hlast, hnew⟩ := planSync_small
  obtain ⟨mr, hmr⟩ := run_resize_oneDisk
  have hver := (resizePartition_ok (by rw [totalSectors_oneDisk]; decide) bothValid_oneDisk
    (by decide) hmr).2.2.1
  have hrun : ∃ r w', Proc.run (syncGptPartitionToExt4 ⟨.ok (), quietWriteHost⟩
      { code := .openFailed, message := "" } 1 {}) ⟨smallFilesystem, oneDisk, none⟩ = (.ok r, w') ∧
      r.changed = true := by
    have hdisk : Proc.run (onDisk (resizePartition quietWriteHost 1 10 15 {}))
        (⟨smallFilesystem, oneDisk, none⟩ : SyncWorld)
          = (.ok mr, ⟨smallFilesystem, resizedDisk, none⟩) := by
      show ((Proc.run (resizePartition quietWriteHost 1 10 15 {}) oneDisk).1, _) = _
      have hmr' : Proc.run (resizePartition quietWriteHost 1 10 15 {}) oneDisk
          = (.ok mr, resizedDisk) := hmr
      rw [hmr']
    refine ⟨{ partitionIndex := 1, firstLba := plan.part.firstLba, oldLastLba := plan.part.lastLba,
              newLastLba := plan.newLast, filesystemBytes := plan.filesystemBytes, changed := true,
              verified := true, journalCompleted := false },
      ⟨smallFilesystem, resizedDisk, none⟩, ?_, rfl⟩
    have hgate : syncGate ⟨.ok (), quietWriteHost⟩ {} = .ok () := rfl
    unfold syncGptPartitionToExt4
    rw [Proc.run_bind_ok (Proc.run_reading _ _ |>.trans (by rw [hgate])),
      Proc.run_bind_ok (Proc.run_reading _ _ |>.trans (by rw [hplan]))]
    dsimp only
    unfold openJournal
    rw [Proc.run_bind_ok (Proc.run_reading _ _ |>.trans (by rw [if_pos rfl]))]
    unfold applySync
    rw [if_neg (by decide), if_neg (by rw [hnew, hlast]; decide),
      Proc.run_bind_ok (show Proc.run (announce none 1 plan) _ = (.ok (), _) from rfl)]
    rw [hfirst, hnew, Proc.run_bind_ok hdisk, if_neg (by rw [hver]; decide)]
    rfl
  obtain ⟨r, w', hr, hc⟩ := hrun
  exact ⟨r, w', hr, hc, (sync_sound _ _ _ _ _).1 r w' hr⟩

end PartitionSync

end Fsx
