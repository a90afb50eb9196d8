import Fsx.Gpt.Crash

/-!
# 受け入れられる entry array

`validate_entries` が受け入れた array では、どの二つの partition も重ならない。
並べ替えた列の隣どうしを調べるだけで足りる（`pairwise_of_rangesOverlap`）。

使える範囲については、`validate_entries` は「範囲と全く交わらない」partition だけを拒む。
端をまたぐ partition（`Straddles`）は通る。`resize_partition` の側の検査は範囲に
収まることを求めているので、二つの検査は食い違っている。
-/

namespace Fsx

namespace Gpt

/-- partition が占める LBA の範囲。 -/
def Partition.range (p : Partition) : Nat × Nat := (p.firstLba, p.lastLba)

/-- 二つの partition が重ならない。 -/
def Partition.Apart (p q : Partition) : Prop := p.lastLba < q.firstLba ∨ q.lastLba < p.firstLba

/-- **整った table。** partition はすべて使える範囲の中にあり、互いに重ならない。 -/
structure Table.WellFormed (t : Table) : Prop where
  within : ∀ p ∈ t.partitions,
    t.firstUsableLba ≤ p.firstLba ∧ p.firstLba ≤ p.lastLba ∧ p.lastLba ≤ t.lastUsableLba
  apart : t.partitions.Pairwise Partition.Apart

/-- `i` 番目の entry が使われていて、使える範囲の端をまたぐ。 -/
def Straddles (s : RawSide) (i : Nat) : Prop :=
  zeroGuid (slice (s.entry i) 0 16) = false ∧
    ((readLe 8 (s.entry i) 32 < s.firstUsable ∧ s.firstUsable ≤ readLe 8 (s.entry i) 40) ∨
      (readLe 8 (s.entry i) 32 ≤ s.lastUsable ∧ s.lastUsable < readLe 8 (s.entry i) 40))

/-- 有効な写しの、使われている entry が、使える範囲の端をまたがない。 -/
def NoStraddle (d : Disk) : Prop :=
  ∀ lba s, lba = 1 ∨ lba = totalSectors d - 1 → readSide d lba = .ok s → s.valid = true →
    ∀ i < s.entryCount, ¬ Straddles s i

/-! ## 並べた範囲 -/

/-- 隣どうしが重ならなければ、並びのどの二つも重ならない。 -/
theorem pairwise_of_rangesOverlap : ∀ {l : List (Nat × Nat)}, (∀ a ∈ l, a.1 ≤ a.2) →
    rangesOverlap l = false → l.Pairwise fun a b => a.2 < b.1
  | [], _, _ => .nil
  | [a], _, _ => List.pairwise_singleton _ _
  | a :: b :: rest, hle, h => by
    rw [rangesOverlap, Bool.or_eq_false_iff, decide_eq_false_iff_not, Nat.not_le] at h
    obtain ⟨hab, hrest⟩ := h
    have hpw := pairwise_of_rangesOverlap (fun c hc => hle c (List.mem_cons_of_mem _ hc)) hrest
    refine List.pairwise_cons.mpr ⟨?_, hpw⟩
    intro c hc
    rcases List.mem_cons.mp hc with rfl | hc
    · exact hab
    · -- `a` は `b` より前、`b` は `c` より前にある
      have hbc := List.rel_of_pairwise_cons hpw hc
      have hb := hle b (List.mem_cons_of_mem _ List.mem_cons_self)
      omega

/-- 一つ目のループを通った範囲。 -/
theorem entryRanges_eq_ok {s : RawSide} : ∀ {is : List Nat} {rs : List (Nat × Nat)},
    entryRanges s is = .ok rs → rs = (is.filterMap (partitionOf s)).map Partition.range ∧
      ∀ p ∈ is.filterMap (partitionOf s), p.firstLba ≤ s.lastUsable ∧
        s.firstUsable ≤ p.lastLba ∧ p.firstLba ≤ p.lastLba
  | [], rs, h => by
    cases h
    simp
  | i :: is, rs, h => by
    unfold entryRanges at h
    by_cases hz : zeroGuid (slice (s.entry i) 0 16) = true
    · rw [if_pos hz] at h
      have hnone : partitionOf s i = none := by simp [partitionOf, hz]
      rw [List.filterMap_cons_none hnone]
      exact entryRanges_eq_ok h
    · rw [if_neg hz] at h
      simp only [Result.guard_bind_eq_ok_iff, Result.bind_eq_ok_iff, Result.pure_eq_ok_iff] at h
      obtain ⟨hok, rest, hrest, rfl⟩ := h
      obtain ⟨rfl, hall⟩ := entryRanges_eq_ok hrest
      obtain ⟨p, hp, hrange⟩ : ∃ p, partitionOf s i = some p ∧
          p.range = (readLe 8 (s.entry i) 32, readLe 8 (s.entry i) 40) :=
        ⟨_, by rw [partitionOf, if_neg hz], rfl⟩
      have hfirst : p.firstLba = readLe 8 (s.entry i) 32 := congrArg Prod.fst hrange
      have hlast : p.lastLba = readLe 8 (s.entry i) 40 := congrArg Prod.snd hrange
      rw [List.filterMap_cons_some hp]
      refine ⟨by rw [List.map_cons, hrange], ?_⟩
      intro q hq
      rcases List.mem_cons.mp hq with rfl | hq
      · omega
      · exact hall q hq

/--
**受け入れられた array の partition は、互いに重ならない。** 使える範囲については、
その範囲と交わることまでしか言えない。
-/
theorem validateEntries_eq_ok {s : RawSide} (h : validateEntries s = .ok ()) :
    (∀ p ∈ s.partitions, p.firstLba ≤ s.lastUsable ∧ s.firstUsable ≤ p.lastLba ∧
      p.firstLba ≤ p.lastLba) ∧ s.partitions.Pairwise Partition.Apart := by
  unfold validateEntries at h
  simp only [Result.bind_eq_ok_iff, Result.guard_eq_ok_iff, Bool.not_eq_true] at h
  obtain ⟨rs, hrs, hov, _⟩ := h
  obtain ⟨rfl, hall⟩ := entryRanges_eq_ok hrs
  refine ⟨hall, ?_⟩
  have hperm := List.mergeSort_perm (s.partitions.map Partition.range) pairLe
  have hle : ∀ a ∈ (s.partitions.map Partition.range).mergeSort pairLe, a.1 ≤ a.2 := by
    intro a ha
    obtain ⟨p, hp, rfl⟩ := List.mem_map.mp (hperm.mem_iff.mp ha)
    exact (hall p hp).2.2
  have hpw : ((s.partitions.map Partition.range).mergeSort pairLe).Pairwise
      fun a b => a.2 < b.1 ∨ b.2 < a.1 := (pairwise_of_rangesOverlap hle hov).imp Or.inl
  rw [hperm.pairwise_iff fun hab => hab.symm, List.pairwise_map] at hpw
  exact hpw

/-! ## 端をまたぐ partition -/

/-- 使われている entry は、その番号の partition として table に現れる。 -/
theorem mem_partitions_iff {s : RawSide} {p : Partition} :
    p ∈ s.partitions ↔ ∃ i < s.entryCount, partitionOf s i = some p := by
  rw [RawSide.partitions, List.mem_filterMap]
  simp only [List.mem_range]

theorem partitionOf_eq_some {s : RawSide} {i : Nat} {p : Partition} :
    partitionOf s i = some p → zeroGuid (slice (s.entry i) 0 16) = false ∧
      p.firstLba = readLe 8 (s.entry i) 32 ∧ p.lastLba = readLe 8 (s.entry i) 40 := by
  intro h
  unfold partitionOf at h
  by_cases hz : zeroGuid (slice (s.entry i) 0 16) = true
  · rw [if_pos hz] at h
    cases h
  · rw [if_neg hz] at h
    cases h
    exact ⟨by simpa using hz, rfl, rfl⟩

/-- 受け入れられた array では、範囲に収まることと、端をまたがないことは同じである。 -/
theorem within_iff_noStraddle {s : RawSide} (h : validateEntries s = .ok ()) :
    (∀ p ∈ s.partitions, s.firstUsable ≤ p.firstLba ∧ p.firstLba ≤ p.lastLba ∧
      p.lastLba ≤ s.lastUsable) ↔ ∀ i < s.entryCount, ¬ Straddles s i := by
  obtain ⟨hall, _⟩ := validateEntries_eq_ok h
  constructor
  · intro hin i hi hs
    obtain ⟨hused, hst⟩ := hs
    have hp : ∃ p, partitionOf s i = some p := by
      unfold partitionOf
      rw [if_neg (by rw [hused]; decide)]
      exact ⟨_, rfl⟩
    obtain ⟨p, hp⟩ := hp
    obtain ⟨_, hfirst, hlast⟩ := partitionOf_eq_some hp
    have := hin p (mem_partitions_iff.mpr ⟨i, hi, hp⟩)
    omega
  · intro hno p hp
    obtain ⟨i, hi, hpi⟩ := mem_partitions_iff.mp hp
    obtain ⟨hused, hfirst, hlast⟩ := partitionOf_eq_some hpi
    have hbase := hall p hp
    by_cases hin : s.firstUsable ≤ p.firstLba ∧ p.lastLba ≤ s.lastUsable
    · exact ⟨hin.1, hbase.2.2, hin.2⟩
    · refine absurd ⟨hused, ?_⟩ (hno i hi)
      omega

/-- 一致する二つの写しは、同じ entry がまたぐ。 -/
theorem straddles_of_sidesEqual {a b : RawSide} (h : sidesEqual a b = true) (i : Nat) :
    Straddles a i ↔ Straddles b i := by
  obtain ⟨hcont, _⟩ := sidesEqual_iff.mp h
  obtain ⟨hfu, hlu, _, hes, hent⟩ := content_eq_iff.mp hcont
  unfold Straddles RawSide.entry
  rw [hfu, hlu, hes, hent]

/-- `read_redundant_table` が選んだ側がまたがないことと、有効な写しのどれもまたがないことは同じ。 -/
theorem noStraddle_iff {d : Disk} {p b : RawSide} (hp : readSide d 1 = .ok p)
    (hb : readSide d (totalSectors d - 1) = .ok b) (ha : Agree p b) :
    NoStraddle d ↔ ∀ i < (if p.valid then p else b).entryCount,
      ¬ Straddles (if p.valid then p else b) i := by
  constructor
  · intro hno
    by_cases hv : p.valid = true
    · rw [if_pos hv]
      exact hno 1 p (Or.inl rfl) hp hv
    · rw [if_neg hv]
      exact hno _ b (Or.inr rfl) hb (ha.some_valid.resolve_left hv)
  · intro hno lba s hlba hs hv
    by_cases hpv : p.valid = true
    · rw [if_pos hpv] at hno
      rcases hlba with rfl | rfl
      · rw [hp] at hs
        cases hs
        exact hno
      · rw [hb] at hs
        cases hs
        -- 両方が有効なら一致しているので、primary の側の仮定が使える
        have heq := ha.equal hpv hv
        have hcount : p.entryCount = b.entryCount :=
          (content_eq_iff.mp (sidesEqual_iff.mp heq).1).2.2.1
        intro i hi hst
        exact hno i (hcount ▸ hi) ((straddles_of_sidesEqual heq i).mpr hst)
    · rw [if_neg hpv] at hno
      rcases hlba with rfl | rfl
      · rw [hp] at hs
        cases hs
        exact absurd hv hpv
      · rw [hb] at hs
        cases hs
        exact hno

/--
**読めた table が整っているのは、有効な写しのどの entry も使える範囲の端をまたがないときである。**

重ならないことは、いつでも成り立つ。
-/
theorem wellFormed_iff {d : Disk} {t : Table} (h : readRedundantTable d = .ok t) :
    t.WellFormed ↔ NoStraddle d := by
  obtain ⟨_, p, b, hp, hb, ha, rfl⟩ := readRedundantTable_eq_ok_iff.mp h
  rw [noStraddle_iff hp hb ha]
  have hval : validateEntries (if p.valid then p else b) = .ok () := by
    by_cases hv : p.valid = true
    · rw [if_pos hv]
      exact ha.primary hv
    · rw [if_neg hv]
      exact ha.backup (ha.some_valid.resolve_left hv)
  rw [← within_iff_noStraddle hval]
  constructor
  · intro hw
    exact hw.within
  · intro hin
    exact ⟨hin, (validateEntries_eq_ok hval).2⟩

/-! ## partition を一つ持つ disk -/

/-- entry が検査を通れば、作った disk は読める。選ばれるのは primary の側である。 -/
theorem readRedundantTable_diskWith {first last : Nat}
    (h : validateEntries { baseTable with entries := oneEntry first last } = .ok ()) :
    readRedundantTable (diskWith first last) = .ok (redundantTable (diskWith first last)
      (primarySide baseTable (oneEntry first last) 100 512)
      (backupSide baseTable (oneEntry first last) 100 512)) := by
  obtain ⟨hp, hb⟩ := readSide_diskWith first last
  refine readRedundantTable_eq_ok_iff.mpr ⟨by rw [totalSectors_diskWith]; decide, _, _, hp, ?_,
    agree_pair rfl rfl h, rfl⟩
  rw [totalSectors_diskWith]
  exact hb

/-- 範囲に収まる partition の disk では、table は整っている。 -/
theorem wellFormed_oneDisk : ∃ t, readRedundantTable (diskWith 10 20) = .ok t ∧
    NoStraddle (diskWith 10 20) ∧ t.WellFormed := by
  have ht := readRedundantTable_diskWith validateEntries_oneTable
  obtain ⟨hp, hb⟩ := readSide_diskWith 10 20
  have hno : NoStraddle (diskWith 10 20) := by
    rw [noStraddle_iff hp (by rw [totalSectors_diskWith]; exact hb)
      (agree_pair rfl rfl validateEntries_oneTable)]
    intro i hi hst
    have hzero : i = 0 := Nat.lt_one_iff.mp hi
    subst hzero
    have hfirst : readLe 8 (oneEntry 10 20) 32 = 10 := by decide
    have hlast : readLe 8 (oneEntry 10 20) 40 = 20 := by decide
    rcases hst.2 with ⟨h, _⟩ | ⟨_, h⟩
    · change readLe 8 (oneEntry 10 20) 32 < 3 at h
      omega
    · change 97 < readLe 8 (oneEntry 10 20) 40 at h
      omega
  exact ⟨_, ht, hno, (wellFormed_iff ht).mpr hno⟩

/-- 使える範囲は LBA 3 からなのに、LBA 2 から始まる partition が受け入れられる。 -/
theorem straddling_partition_accepted : ∃ t, readRedundantTable (diskWith 2 20) = .ok t ∧
    (∃ p ∈ t.partitions, p.firstLba = 2 ∧ t.firstUsableLba = 3) ∧ ¬ t.WellFormed := by
  have hv : validateEntries { baseTable with entries := oneEntry 2 20 } = .ok () :=
    validateEntries_one rfl (by rfl)
  obtain ⟨p, hp, hfirst⟩ : ∃ p, partitionOf (primarySide baseTable (oneEntry 2 20) 100 512) 0 = some p
      ∧ p.firstLba = 2 := ⟨_, rfl, by decide⟩
  have hmem : p ∈ (primarySide baseTable (oneEntry 2 20) 100 512).partitions :=
    mem_partitions_iff.mpr ⟨0, by decide, hp⟩
  refine ⟨_, readRedundantTable_diskWith hv, ⟨p, hmem, hfirst, rfl⟩, fun hw => ?_⟩
  have h : 3 ≤ p.firstLba := (hw.within p hmem).1
  omega

end Gpt

end Fsx
