import Fsx.Gpt.Pair

/-!
# 片側が無事なときの読み出しと修復

一方の写しが完全に有効で、もう一方がそうでないとき、`read_redundant_table` と
`repair_redundancy` が無事な側の table を取り戻すのは、壊れた側が
「署名がない」か「field はすべて検査を通るが CRC が合わない」ときに限る（`recovered_iff`）。

壊れた側に署名が残り、どれかの field が検査に落ちると、`read_side` が error を返し、
無事な側も使われない。CRC が二つとも合っていて entry だけが不正な側も同じである。
-/

namespace Fsx

namespace Gpt

/-- LBA `lba` の写しが完全に有効である。 -/
structure ValidCopy (d : Disk) (lba : Nat) : Prop where
  signed : Signed d lba
  fields : FieldsOk (sideAt d lba) (totalSectors d) (sectorSize d)
  headerCrc : (sideAt d lba).headerCrcOk = true
  entriesCrc : (sideAt d lba).entriesCrcOk = true
  entries : validateEntries (sideAt d lba) = .ok ()

/-- 壊れ方が見分けられる。署名がないか、field は正しく CRC のどちらかが合わない。 -/
def SoftDamage (d : Disk) (lba : Nat) : Prop :=
  ¬ Signed d lba ∨
    FieldsOk (sideAt d lba) (totalSectors d) (sectorSize d) ∧
      ¬ ((sideAt d lba).headerCrcOk = true ∧ (sideAt d lba).entriesCrcOk = true)

/-- 側ごとの検査結果と array の位置を除いた table。 -/
def Table.base (t : Table) : Table :=
  { t with
    primaryHeaderCrcOk := false, entriesCrcOk := false, backupHeaderCrcOk := false
    backupEntriesCrcOk := false, primaryEntriesLba := 0, backupEntriesLba := 0 }

/-- 二つの写しがともに有効で、一致し、`s` と同じ partition を表す。 -/
def Restored (d : Disk) (s : RawSide) : Prop :=
  ∃ p b, readSide d 1 = .ok p ∧ readSide d (totalSectors d - 1) = .ok b ∧
    p.valid = true ∧ b.valid = true ∧ Agree p b ∧
    p.partitions = s.partitions ∧ b.partitions = s.partitions

/-- table が読め、修復が成功して二つの写しが揃う。 -/
def Recovered (d : Disk) (host : WriteHost) (options : MutationOptions) (s : RawSide) : Prop :=
  (∃ t, readRedundantTable d = .ok t ∧ t.base = tableFromSide s (protectiveMbrOk d)) ∧
    ∃ r d', Proc.run (repairRedundancy host options) d = (.ok r, d') ∧ Restored d' s

theorem base_redundantTable (d : Disk) (p b : RawSide) :
    (redundantTable d p b).base = tableFromSide (if p.valid then p else b) (protectiveMbrOk d) :=
  rfl

theorem valid_sideAt (d : Disk) (lba : Nat) : (sideAt d lba).valid = true ↔
    (sideAt d lba).headerCrcOk = true ∧ (sideAt d lba).entriesCrcOk = true := by
  rw [RawSide.valid, show (sideAt d lba).signatureOk = true from rfl, Bool.true_and,
    Bool.and_eq_true]

theorem ValidCopy.valid {d : Disk} {lba : Nat} (h : ValidCopy d lba) :
    (sideAt d lba).valid = true := (valid_sideAt d lba).mpr ⟨h.headerCrc, h.entriesCrc⟩

theorem ValidCopy.readSide_eq {d : Disk} {lba : Nat} (h : ValidCopy d lba)
    (hlba : lba < totalSectors d) : readSide d lba = .ok (sideAt d lba) :=
  (readSide_eq_ok_iff hlba h.signed).mpr ⟨h.fields, rfl⟩

/-- 見分けられる壊れ方の側は、無効なものとして読める。 -/
theorem SoftDamage.readSide_eq {d : Disk} {lba : Nat} (h : SoftDamage d lba)
    (hlba : lba < totalSectors d) : ∃ s, readSide d lba = .ok s ∧ s.valid = false := by
  by_cases hsig : Signed d lba
  · obtain ⟨hf, hcrc⟩ := h.resolve_left (not_not.mpr hsig)
    refine ⟨_, (readSide_eq_ok_iff hlba hsig).mpr ⟨hf, rfl⟩, ?_⟩
    rw [← valid_sideAt, Bool.not_eq_true] at hcrc
    exact hcrc
  · exact ⟨_, readSide_of_unsigned hlba hsig, rfl⟩

/-- 有効でない側が読めて、有効とされないなら、壊れ方は見分けられる。 -/
theorem softDamage_of_readSide {d : Disk} {lba : Nat} {s : RawSide} (hlba : lba < totalSectors d)
    (hs : readSide d lba = .ok s) (hv : s.valid = true → validateEntries s = .ok ())
    (hbad : ¬ ValidCopy d lba) : SoftDamage d lba := by
  by_cases hsig : Signed d lba
  · obtain ⟨hf, rfl⟩ := (readSide_eq_ok_iff hlba hsig).mp hs
    refine Or.inr ⟨hf, fun hcrc => hbad ?_⟩
    exact ⟨hsig, hf, hcrc.1, hcrc.2, hv ((valid_sideAt d lba).mpr hcrc)⟩
  · exact Or.inl hsig

/-- 元にする写しが決まっていれば、修復は成功して二つの写しが揃う。 -/
theorem repair_restores {d : Disk} {p b c : RawSide} {host : WriteHost} {options : MutationOptions}
    (hp : readSide d 1 = .ok p) (hb : readSide d (totalSectors d - 1) = .ok b) (ha : Agree p b)
    (hc : (if p.valid then p else b) = c) (hg : GateOpen host options) (hw : d.writable = true)
    (htotal : 100 ≤ totalSectors d) (hbd : Bounded c)
    (hf : FieldsOk c (totalSectors d) (sectorSize d))
    (hl : Layout c (totalSectors d) (sectorSize d)) (hv : validateEntries c = .ok ()) :
    ∃ r d', Proc.run (repairRedundancy host options) d = (.ok r, d') ∧ Restored d' c := by
  have hsrc := repairSource_eq_ok hp hb ha
  rw [hc] at hsrc
  have hrun := run_writePair_self hg hw htotal hbd hf hl hv
  obtain ⟨hrp, hrb⟩ := readSide_pairEvents hbd hf hl hbd.entries
  have hrepair : Proc.run (repairRedundancy host options) d
      = Proc.run (writePair host c c.entries options) d := by
    unfold repairRedundancy
    rw [Proc.run_bind_ok (Proc.run_reading _ d |>.trans (by rw [hsrc]))]
  exact ⟨_, _, hrepair.trans hrun, _, _, hrp, hrb, rfl, rfl, agree_pair rfl rfl hv,
    partitions_congr rfl, partitions_congr rfl⟩

/-- 使える範囲が LBA 0 だけでなければ、標準の array は重ならない。 -/
theorem standardApart_of_outside {c : RawSide} {total ss : Nat} (h : StandardOutside c total ss)
    (hf : FieldsOk c total ss) (hzero : c.lastUsable = 0 → StandardApart c total ss) :
    StandardApart c total ss := by
  rcases h.cases hf with ⟨_, hlu⟩ | ⟨hfu, hlu⟩
  · exact hzero hlu
  · have hle := hf.usable.1
    unfold StandardApart
    omega

/--
**一方の写しが有効なら、もう一方の壊れ方が見分けられるときに限って、table は取り戻せる。**

使える範囲が LBA 0 だけの disk では、さらに二つの標準の array が重ならないことを仮定する。
-/
theorem recovered_iff {d : Disk} {host : WriteHost} {options : MutationOptions} {good other : Nat}
    (hsides : good = 1 ∧ other = totalSectors d - 1 ∨ good = totalSectors d - 1 ∧ other = 1)
    (htotal : 100 ≤ totalSectors d) (hg : GateOpen host options) (hw : d.writable = true)
    (hgood : ValidCopy d good) (hbad : ¬ ValidCopy d other)
    (hout : StandardOutside (sideAt d good) (totalSectors d) (sectorSize d))
    (hzero : (sideAt d good).lastUsable = 0 →
      StandardApart (sideAt d good) (totalSectors d) (sectorSize d)) :
    Recovered d host options (sideAt d good) ↔ SoftDamage d other := by
  have hgl : good < totalSectors d := by omega
  have hol : other < totalSectors d := by omega
  have hread := hgood.readSide_eq hgl
  constructor
  · rintro ⟨⟨t, ht, _⟩, _⟩
    obtain ⟨_, p, b, hp, hb, ha, _⟩ := readRedundantTable_eq_ok_iff.mp ht
    rcases hsides with ⟨rfl, rfl⟩ | ⟨rfl, rfl⟩
    · exact softDamage_of_readSide hol hb ha.backup hbad
    · exact softDamage_of_readSide hol hp ha.primary hbad
  · intro hsoft
    obtain ⟨o, ho, hov⟩ := hsoft.readSide_eq hol
    have hss92 : 92 ≤ sectorSize d :=
      le_trans hgood.fields.headerSize.1 hgood.fields.headerSize.2
    have hl := layout_of_standard hout hgood.fields
      (standardApart_of_outside hout hgood.fields hzero)
    have hno : ¬ o.valid = true := by rw [hov]; decide
    -- 二つの側のどちらが無事でも、選ばれるのは無事な側である
    obtain ⟨p, b, hp, hb, ha, hc⟩ : ∃ p b, readSide d 1 = .ok p ∧
        readSide d (totalSectors d - 1) = .ok b ∧ Agree p b ∧
        (if p.valid then p else b) = sideAt d good := by
      rcases hsides with ⟨rfl, rfl⟩ | ⟨rfl, rfl⟩
      · exact ⟨_, o, hread, ho, ⟨Or.inl hgood.valid, fun _ => hgood.entries,
          fun h => absurd h hno, fun _ h => absurd h hno⟩, if_pos hgood.valid⟩
      · exact ⟨o, _, ho, hread, ⟨Or.inr hgood.valid, fun h => absurd h hno,
          fun _ => hgood.entries, fun h => absurd h hno⟩, if_neg hno⟩
    refine ⟨⟨_, readRedundantTable_eq_ok_iff.mpr ⟨by omega, p, b, hp, hb, ha, rfl⟩, ?_⟩, ?_⟩
    · rw [base_redundantTable, hc]
    · exact repair_restores hp hb ha hc hg hw htotal (bounded_sideAt hss92) hgood.fields hl
        hgood.entries

/-! ## 小さな disk -/

/-- 何も拒まない host。 -/
def quietWriteHost : WriteHost where
  offline := .ok ()
  blockDevice := .ok false
  reread := false

theorem gateOpen_quiet (options : MutationOptions) : GateOpen quietWriteHost options :=
  ⟨rfl, Or.inl rfl⟩

/-- 空の entry を一つ持つ table。 -/
def emptyTable : RawSide where
  revision := 0x00010000
  headerSize := 92
  firstUsable := 3
  lastUsable := 97
  entryCount := 1
  entrySize := 128
  diskGuid := zeros 16
  entries := zeros 128

theorem bounded_emptyTable : Bounded emptyTable := by
  refine ⟨?_, ?_, ?_, ?_, ?_, ?_, length_zeros 16, length_zeros 128⟩ <;> decide

/-- 100 sector の disk。primary だけがあり、最後の sector は `tail` で始まる。 -/
def smallDisk (tail : Bytes) : Disk where
  sizeBytes := 51200
  logicalSector := 512
  isBlockDevice := false
  writable := true
  data := (Image.write (fun _ => 0) 512
    (makeHeader emptyTable 1 99 2 (crc32IeeeFinal (zeros 128)).toNat 512)).write 50688 tail
  events := []
  size_lt := by decide

@[simp] theorem sectorSize_smallDisk (tail : Bytes) : sectorSize (smallDisk tail) = 512 := by
  unfold sectorSize
  exact if_pos (show (512 : Nat) ≠ 0 by decide)

@[simp] theorem totalSectors_smallDisk (tail : Bytes) : totalSectors (smallDisk tail) = 100 := by
  rw [totalSectors, sectorSize_smallDisk]
  show 51200 / 512 = 100
  decide

/-- primary の側は書いたとおりに読める。 -/
theorem sideAt_smallDisk (tail : Bytes) : Signed (smallDisk tail) 1 ∧
    sideAt (smallDisk tail) 1 = pairSide emptyTable 1 99 2 512 (zeros 128) := by
  have hlen : (makeHeader emptyTable 1 99 2 (crc32IeeeFinal (zeros 128)).toNat 512).length = 512 :=
    length_makeHeader
  have hside := @sideAt_pairSide (smallDisk tail) emptyTable 1 99 2 (zeros 128) (by simp) (by simp)
    (by decide) bounded_emptyTable (by decide) (by simp)
  rw [sectorSize_smallDisk] at hside
  refine hside ?_ ?_
  · exact (Image.read_write_of_disjoint (Or.inl (by decide))).trans
      (Image.read_write_self _ _ _ hlen)
  · refine (Image.read_write_of_disjoint (Or.inl (by decide))).trans ?_
    refine (Image.read_write_of_disjoint (Or.inr ?_)).trans (Image.read_zero _ _)
    rw [hlen]

theorem validEntries_emptyTable : validateEntries emptyTable = .ok () := by
  have hranges : entryRanges emptyTable (List.range 1) = .ok [] := rfl
  unfold validateEntries
  rw [show emptyTable.entryCount = 1 from rfl, hranges, Result.ok_bind, List.mergeSort_nil]
  rfl

theorem validCopy_smallDisk (tail : Bytes) : ValidCopy (smallDisk tail) 1 := by
  obtain ⟨hsig, hside⟩ := sideAt_smallDisk tail
  refine ⟨hsig, ?_, by rw [hside]; rfl, by rw [hside]; rfl, ?_⟩
  · rw [hside, totalSectors_smallDisk, sectorSize_smallDisk]
    exact ⟨by decide, rfl, by decide, by decide, by decide, by decide, by decide,
      Or.inl (by decide), Or.inl (by decide)⟩
  · rw [hside, ← validEntries_emptyTable]
    exact validateEntries_congr rfl

theorem standardOutside_smallDisk (tail : Bytes) : StandardOutside (sideAt (smallDisk tail) 1)
    (totalSectors (smallDisk tail)) (sectorSize (smallDisk tail)) := by
  rw [(sideAt_smallDisk tail).2, totalSectors_smallDisk, sectorSize_smallDisk]
  intro x hx1 hx2
  change 3 ≤ x at hx1
  change x ≤ 97 at hx2
  refine ⟨by omega, ?_, ?_, ?_⟩
  · show x ≠ 99
    omega
  · show ¬ (2 ≤ x ∧ x < 2 + 1)
    omega
  · show ¬ (98 ≤ x ∧ x < 99)
    omega

/-- 最後の sector が空なら、primary から取り戻せる。 -/
theorem recovered_smallDisk :
    Recovered (smallDisk []) quietWriteHost {} (sideAt (smallDisk []) 1) := by
  have hunsigned : ¬ Signed (smallDisk []) 99 := by
    have hzero : slice (headerAt (smallDisk []) 99) 0 8 = zeros 8 := by
      rw [headerAt, Image.slice_read _ _ _ _ _ (by decide)]
      refine (Image.read_write_of_disjoint (Or.inr (by decide))).trans ?_
      refine (Image.read_write_of_disjoint (Or.inr ?_)).trans (Image.read_zero _ _)
      rw [length_makeHeader]
      decide
    rw [Signed, hzero]
    decide
  refine (recovered_iff (d := smallDisk []) (Or.inl ⟨rfl, rfl⟩) (by decide) (gateOpen_quiet {}) rfl
    (validCopy_smallDisk []) (fun h => hunsigned h.signed) (standardOutside_smallDisk [])
    fun h => ?_).mpr (Or.inl hunsigned)
  rw [(sideAt_smallDisk []).2] at h
  cases h

/--
最後の sector に署名だけが残ると（header size は 0 である）、primary が完全に有効でも、
table は読めず修復もできない。
-/
theorem not_recovered_smallDisk :
    ValidCopy (smallDisk SIG) 1 ∧ ¬ ValidCopy (smallDisk SIG) 99 ∧
    StandardOutside (sideAt (smallDisk SIG) 1) 100 512 ∧
    (∃ e, readRedundantTable (smallDisk SIG) = .error e) ∧
    ¬ Recovered (smallDisk SIG) quietWriteHost {} (sideAt (smallDisk SIG) 1) := by
  have hsig : Signed (smallDisk SIG) 99 := by
    rw [Signed, headerAt, Image.slice_read _ _ _ _ _ (by decide)]
    exact Image.read_write_self _ _ _ rfl
  have hsize : (sideAt (smallDisk SIG) 99).headerSize = 0 := by
    have hread : (smallDisk SIG).data.read (99 * 512 + 12) 4 = zeros 4 := by
      refine (Image.read_write_of_disjoint (Or.inr (by decide))).trans ?_
      refine (Image.read_write_of_disjoint (Or.inr ?_)).trans (Image.read_zero _ _)
      rw [length_makeHeader]
      decide
    rw [sideAt_headerSize, headerAt, sectorSize_smallDisk,
      Image.readLe_read _ _ _ _ _ (by decide), hread]
    rfl
  have hfields : ¬ FieldsOk (sideAt (smallDisk SIG) 99) (totalSectors (smallDisk SIG))
      (sectorSize (smallDisk SIG)) := by
    intro hf
    have h := hf.headerSize.1
    rw [hsize] at h
    cases h
  have herr : ∀ t, readRedundantTable (smallDisk SIG) ≠ .ok t := by
    intro t ht
    obtain ⟨_, p, b, _, hb, _⟩ := readRedundantTable_eq_ok_iff.mp ht
    exact hfields ((readSide_eq_ok_iff (by decide) hsig).mp hb).1
  refine ⟨validCopy_smallDisk SIG, fun h => hfields h.fields, standardOutside_smallDisk SIG, ?_, ?_⟩
  · cases hr : readRedundantTable (smallDisk SIG) with
    | ok t => exact absurd hr (herr t)
    | error e => exact ⟨e, rfl⟩
  · rintro ⟨⟨t, ht, _⟩, _⟩
    exact herr t ht

end Gpt

end Fsx
