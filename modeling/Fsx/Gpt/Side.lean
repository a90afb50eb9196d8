import Fsx.Gpt.Model

/-!
# 片側の写しを読む

`read_side` は三通りに終わる。

* 署名がない：空の `RawSide` を返す。
* 署名があり、header の field がすべて検査を通る：CRC の結果を添えて返す。
* 署名があり、どれかの field が検査に落ちる：error を返す。CRC の結果は使われない。

field の検査は `FieldsOk` にまとめる。
-/

namespace Fsx

namespace Gpt

/-- LBA `lba` の header の sector。 -/
def headerAt (d : Disk) (lba : Nat) : Bytes := d.data.read (lba * sectorSize d) (sectorSize d)

/-- 署名があるときに `read_side` が返すもの。 -/
def sideAt (d : Disk) (lba : Nat) : RawSide :=
  let s := parseHeader (headerAt d lba) lba
  s.withEntries (d.data.read (s.entriesLba * sectorSize d) s.arrayBytes)

theorem sideAt_headerSize (d : Disk) (lba : Nat) :
    (sideAt d lba).headerSize = readLe 4 (headerAt d lba) 12 := rfl

/-- LBA `lba` の header に署名がある。 -/
def Signed (d : Disk) (lba : Nat) : Prop := slice (headerAt d lba) 0 8 = SIG

instance (d : Disk) (lba : Nat) : Decidable (Signed d lba) :=
  inferInstanceAs (Decidable (slice (headerAt d lba) 0 8 = SIG))

/-- `read_side` が field について調べること。 -/
structure FieldsOk (s : RawSide) (total ss : Nat) : Prop where
  headerSize : 92 ≤ s.headerSize ∧ s.headerSize ≤ ss
  current : s.currentLba = s.lba
  entrySize : 128 ≤ s.entrySize ∧ s.entrySize ≤ 4096
  entryCount : 0 < s.entryCount ∧ s.entryCount ≤ 16384
  array : s.entriesLba + s.arraySectors ss ≤ total
  alternate : s.backupLba < total ∧ s.backupLba ≠ s.currentLba
  usable : s.firstUsable ≤ s.lastUsable ∧ s.lastUsable < total
  arrayOutside : s.entriesLba + s.arraySectors ss ≤ s.firstUsable ∨ s.lastUsable < s.entriesLba
  headerOutside : s.currentLba < s.firstUsable ∨ s.lastUsable < s.currentLba

theorem arraySectors_pos {s : RawSide} {ss : Nat} (hss : 0 < ss) (h1 : 0 < s.entryCount)
    (h2 : 0 < s.entrySize) : 0 < s.arraySectors ss := by
  have hbytes : 0 < s.arrayBytes := Nat.mul_pos h1 h2
  exact Nat.div_pos (by omega) hss

/-- entry array は、占める sector に収まる。 -/
theorem arrayBytes_le {s : RawSide} {ss : Nat} (hss : 0 < ss) :
    s.arrayBytes ≤ s.arraySectors ss * ss := by
  have h := Nat.lt_div_mul_add hss (a := s.arrayBytes + ss - 1)
  unfold RawSide.arraySectors
  omega

/-- 大きさの上限は、個数と一つの大きさの上限から出る。 -/
theorem arrayBytes_le_max {s : RawSide} (h1 : s.entryCount ≤ 16384) (h2 : s.entrySize ≤ 4096) :
    s.arrayBytes ≤ 64 * 1024 * 1024 :=
  le_trans (Nat.mul_le_mul h1 h2) (by decide)

theorem validateSideGeometry_eq_ok_iff {s : RawSide} {total ss : Nat}
    (hpos : 0 < s.arraySectors ss) (harr : s.entriesLba + s.arraySectors ss ≤ total)
    (htotal : total < 2 ^ 63) :
    validateSideGeometry s total ss = .ok () ↔
      (s.backupLba < total ∧ s.backupLba ≠ s.currentLba) ∧
      (s.firstUsable ≤ s.lastUsable ∧ s.lastUsable < total) ∧
      (s.entriesLba + s.arraySectors ss ≤ s.firstUsable ∨ s.lastUsable < s.entriesLba) ∧
      (s.currentLba < s.firstUsable ∨ s.lastUsable < s.currentLba) := by
  have hlast : u64 (s.entriesLba + s.arraySectors ss - 1) < s.firstUsable ↔
      s.entriesLba + s.arraySectors ss ≤ s.firstUsable := by
    rw [u64_of_lt (by omega)]
    omega
  unfold validateSideGeometry
  simp only [Result.guard_bind_eq_ok_iff, Result.guard_eq_ok_iff, Result.pure_eq_ok_iff, hlast,
    and_true, not_or, not_le, not_lt, ne_eq, gt_iff_lt, ge_iff_le, not_and]
  omega

theorem sectorSize_pos (d : Disk) : 0 < sectorSize d := by
  unfold sectorSize
  split <;> omega

theorem totalSectors_mul_le (d : Disk) : totalSectors d * sectorSize d ≤ d.sizeBytes :=
  Nat.div_mul_le_self _ _

theorem totalSectors_lt (d : Disk) : totalSectors d < 2 ^ 63 :=
  lt_of_le_of_lt (Nat.div_le_self _ _) d.size_lt

@[simp] theorem sectorSize_emit (d : Disk) (es : List Event) :
    sectorSize (d.emit es) = sectorSize d := rfl
@[simp] theorem totalSectors_emit (d : Disk) (es : List Event) :
    totalSectors (d.emit es) = totalSectors d := rfl

/-- 範囲内の sector は読める。 -/
theorem readExact_sectors {d : Disk} {lba n len : Nat} (h : lba + n ≤ totalSectors d)
    (hlen : len ≤ n * sectorSize d) :
    d.readExact (lba * sectorSize d) len = .ok (d.data.read (lba * sectorSize d) len) := by
  refine Disk.readExact_ok ?_
  have hmul : (lba + n) * sectorSize d ≤ totalSectors d * sectorSize d := Nat.mul_le_mul_right _ h
  have hle := totalSectors_mul_le d
  rw [Nat.add_mul] at hmul
  omega

theorem readExact_header {d : Disk} {lba : Nat} (h : lba < totalSectors d) :
    d.readExact (lba * sectorSize d) (sectorSize d) = .ok (headerAt d lba) :=
  readExact_sectors (n := 1) h (by omega)

/-- 署名のない側は、空のまま返る。 -/
theorem readSide_of_unsigned {d : Disk} {lba : Nat} (hlba : lba < totalSectors d)
    (hsig : ¬ Signed d lba) : readSide d lba = .ok { lba, header := headerAt d lba } := by
  unfold readSide
  rw [if_neg (Nat.not_le.mpr hlba), readExact_header hlba]
  dsimp only
  rw [Result.ok_bind, if_pos (by exact hsig)]
  rfl

/-- field の検査は entry の中身によらない。 -/
theorem fieldsOk_withEntries {s : RawSide} {entries : Bytes} {total ss : Nat} :
    FieldsOk (s.withEntries entries) total ss ↔ FieldsOk s total ss := by
  constructor
  · intro h
    exact ⟨h.headerSize, h.current, h.entrySize, h.entryCount, h.array, h.alternate, h.usable,
      h.arrayOutside, h.headerOutside⟩
  · intro h
    exact ⟨h.headerSize, h.current, h.entrySize, h.entryCount, h.array, h.alternate, h.usable,
      h.arrayOutside, h.headerOutside⟩

/-- field の検査を、source の順に並べたもの。 -/
theorem fieldsOk_iff {s : RawSide} {total ss : Nat} (hss : 0 < ss) (htotal : total < 2 ^ 63) :
    FieldsOk s total ss ↔
      ¬ (s.headerSize < 92 ∨ s.headerSize > ss) ∧ ¬ s.currentLba ≠ s.lba ∧
      ¬ (s.entrySize < 128 ∨ s.entrySize > 4096 ∨ s.entryCount = 0 ∨ s.entryCount > 16384) ∧
      ¬ s.arrayBytes > 64 * 1024 * 1024 ∧
      ¬ (s.entriesLba ≥ total ∨ s.arraySectors ss > total - s.entriesLba) ∧
      validateSideGeometry s total ss = .ok () := by
  constructor
  · intro hf
    obtain ⟨h1, h2⟩ := hf.headerSize
    obtain ⟨h3, h4⟩ := hf.entrySize
    obtain ⟨h5, h6⟩ := hf.entryCount
    have harr := hf.array
    have hpos : 0 < s.arraySectors ss := arraySectors_pos hss h5 (by omega)
    have hbytes := arrayBytes_le_max h6 h4
    exact ⟨by omega, not_not.mpr hf.current, by omega, by omega, by omega,
      (validateSideGeometry_eq_ok_iff hpos harr htotal).mpr
        ⟨hf.alternate, hf.usable, hf.arrayOutside, hf.headerOutside⟩⟩
  · rintro ⟨hhs, hcur, hgeom, hmax, harr, hval⟩
    have hpos : 0 < s.arraySectors ss := arraySectors_pos hss (by omega) (by omega)
    have harr' : s.entriesLba + s.arraySectors ss ≤ total := by omega
    obtain ⟨h1, h2, h3, h4⟩ := (validateSideGeometry_eq_ok_iff hpos harr' htotal).mp hval
    exact ⟨by omega, not_not.mp hcur, by omega, by omega, harr', h1, h2, h3, h4⟩

/-- **署名のある側が読めるのは、field がすべて検査を通るときである。** -/
theorem readSide_eq_ok_iff {d : Disk} {lba : Nat} {s : RawSide} (hlba : lba < totalSectors d)
    (hsig : Signed d lba) : readSide d lba = .ok s ↔
      FieldsOk (sideAt d lba) (totalSectors d) (sectorSize d) ∧ s = sideAt d lba := by
  have hss := sectorSize_pos d
  have htotal := totalSectors_lt d
  unfold readSide
  rw [if_neg (Nat.not_le.mpr hlba), readExact_header hlba]
  dsimp only
  rw [Result.ok_bind, if_neg (by exact not_not.mpr hsig)]
  simp only [Result.guard_bind_eq_ok_iff, Result.bind_eq_ok_iff, Result.pure_eq_ok_iff]
  rw [sideAt, fieldsOk_withEntries, fieldsOk_iff hss htotal]
  constructor
  · rintro ⟨hhs, hcur, hgeom, hmax, harr, entries, hread, u, hval, rfl⟩
    obtain rfl := (Disk.readExact_eq_ok_iff.mp hread).2
    exact ⟨⟨hhs, hcur, hgeom, hmax, harr, hval⟩, rfl⟩
  · rintro ⟨⟨hhs, hcur, hgeom, hmax, harr, hval⟩, rfl⟩
    exact ⟨hhs, hcur, hgeom, hmax, harr, _,
      readExact_sectors (by omega) (arrayBytes_le hss), (), hval, rfl⟩

/-! ## 二つの側を合わせる -/

/-- 読める二つの側から `read_redundant_table` が返す table。 -/
def redundantTable (d : Disk) (p b : RawSide) : Table :=
  { tableFromSide (if p.valid then p else b) (protectiveMbrOk d) with
    primaryHeaderCrcOk := p.headerCrcOk
    entriesCrcOk := p.entriesCrcOk
    backupHeaderCrcOk := b.headerCrcOk
    backupEntriesCrcOk := b.entriesCrcOk
    primaryEntriesLba := p.entriesLba
    backupEntriesLba := b.entriesLba }

/-- 二つの側が受け入れられる。少なくとも一つが有効で、両方有効なら一致している。 -/
structure Agree (p b : RawSide) : Prop where
  some_valid : p.valid = true ∨ b.valid = true
  primary : p.valid = true → validateEntries p = .ok ()
  backup : b.valid = true → validateEntries b = .ok ()
  equal : p.valid = true → b.valid = true → sidesEqual p b = true

/-- **`read_redundant_table` が成功する条件。** -/
theorem readRedundantTable_eq_ok_iff {d : Disk} {t : Table} : readRedundantTable d = .ok t ↔
    2 ≤ totalSectors d ∧ ∃ p b, readSide d 1 = .ok p ∧ readSide d (totalSectors d - 1) = .ok b ∧
      Agree p b ∧ t = redundantTable d p b := by
  unfold readRedundantTable
  simp only [Result.guard_bind_eq_ok_iff, Result.bind_eq_ok_iff, Nat.not_lt]
  constructor
  · rintro ⟨htotal, p, hp, b, hb, hsome, h⟩
    refine ⟨htotal, p, b, hp, hb, ?_⟩
    cases hpv : p.valid <;> cases hbv : b.valid <;>
      simp only [hpv, hbv, if_true, if_false, Bool.false_eq_true, Result.guard_bind_eq_ok_iff,
        Result.bind_eq_ok_iff, Result.pure_eq_ok_iff, not_true_eq_false, not_false_eq_true,
        and_self, true_and, false_and, and_false] at hsome h
    · obtain ⟨u, hv, ht⟩ := h
      refine ⟨⟨Or.inr hbv, fun h => ?_, fun _ => hv, fun h => ?_⟩, ?_⟩
      · rw [hpv] at h; cases h
      · rw [hpv] at h; cases h
      · rw [ht, redundantTable, hpv]; rfl
    · obtain ⟨u, hv, ht⟩ := h
      refine ⟨⟨Or.inl hpv, fun _ => hv, fun h => ?_, fun _ h => ?_⟩, ?_⟩
      · rw [hbv] at h; cases h
      · rw [hbv] at h; cases h
      · rw [ht, redundantTable, hpv]; rfl
    · obtain ⟨u, hv, u', hv', heq, ht⟩ := h
      refine ⟨⟨Or.inl hpv, fun _ => hv, fun _ => hv', fun _ _ => ?_⟩, ?_⟩
      · simpa using heq
      · rw [ht, redundantTable, hpv]; rfl
  · rintro ⟨htotal, p, b, hp, hb, ⟨hsome, hvp, hvb, heq⟩, rfl⟩
    refine ⟨htotal, p, hp, b, hb, by rcases hsome with h | h <;> simp [h], ?_⟩
    cases hpv : p.valid <;> cases hbv : b.valid <;>
      simp only [if_true, if_false, Bool.false_eq_true, Result.guard_bind_eq_ok_iff,
        Result.bind_eq_ok_iff, Result.pure_eq_ok_iff, and_self, true_and, false_and]
    · rw [hpv, hbv] at hsome
      rcases hsome with h | h <;> cases h
    · exact ⟨(), hvb hbv, by rw [redundantTable, hpv]; rfl⟩
    · exact ⟨(), hvp hpv, by rw [redundantTable, hpv]; rfl⟩
    · exact ⟨(), hvp hpv, (), hvb hbv, by simp [heq hpv hbv], by rw [redundantTable, hpv]; rfl⟩

/-- **`repair_redundancy` が元にする写しが決まる条件。** -/
theorem repairSource_eq_ok {d : Disk} {p b : RawSide} (hp : readSide d 1 = .ok p)
    (hb : readSide d (totalSectors d - 1) = .ok b) (ha : Agree p b) :
    repairSource d = .ok (if p.valid then p else b) := by
  obtain ⟨hsome, hvp, hvb, heq⟩ := ha
  have hboth : ¬ (¬ p.valid = true ∧ ¬ b.valid = true) := by
    rcases hsome with h | h <;> simp [h]
  have hdis : ¬ (p.valid = true ∧ b.valid = true ∧ ¬ sidesEqual p b = true) := by
    rintro ⟨h1, h2, h3⟩
    exact h3 (heq h1 h2)
  have hval : validateEntries (if p.valid = true then p else b) = .ok () := by
    split
    · next h => exact hvp h
    · next h => exact hvb (hsome.resolve_left h)
  unfold repairSource
  rw [hp, Result.ok_bind, hb, Result.ok_bind, if_neg hboth]
  dsimp only
  rw [if_neg hdis, hval, Result.ok_bind]
  rfl

end Gpt

end Fsx
