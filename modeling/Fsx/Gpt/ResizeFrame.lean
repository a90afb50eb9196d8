import Fsx.Gpt.Entries
import Fsx.Gpt.SyncSound

/-!
# `resize_partition` が変えるもの

`write_pair` は header の言う `entries_lba` を使わず、array の位置を計算し直す。primary は使える範囲の直前
（収まらなければ LBA 2）、backup は最後の header の直前である。したがって、既存の header がそこを指していれば、
変わるのは選んだ entry の二つの LBA だけだが、別の道具の作った配置では、header の指していない sector に array を書き、
table の言う位置も変わる（`onlyResizes_iff`）。
-/

namespace Fsx.Gpt

/-- entry `index` の範囲だけを書き換えた table。 -/
def Table.resized (t : Table) (index first last : Nat) : Table :=
  { t with
    partitions := t.partitions.map fun p =>
      if p.index = index then { p with firstLba := first, lastLba := last } else p }

/-- 二つの header の sector と、header が言う二つの array の sector。 -/
def NamedSector (d : Disk) (x : Nat) : Prop :=
  x = 1 ∨ x = totalSectors d - 1 ∨
    ((sideAt d 1).entriesLba ≤ x ∧
      x < (sideAt d 1).entriesLba + (sideAt d 1).arraySectors (sectorSize d)) ∨
    ((sideAt d (totalSectors d - 1)).entriesLba ≤ x ∧
      x < (sideAt d (totalSectors d - 1)).entriesLba +
        (sideAt d (totalSectors d - 1)).arraySectors (sectorSize d))

/-- 成功した `resize_partition` が、変えるべきものだけを変えた。 -/
structure OnlyResizes (host : WriteHost) (options : MutationOptions) (index first last : Nat)
    (d d' : Disk) : Prop where
  sectors : ∀ x, Touched (newEvents (resizePartition host index first last options) d) (sectorSize d) x →
    NamedSector d x
  table : ∀ t, readRedundantTable d = .ok t →
    readRedundantTable d' = .ok (t.resized index first last)
  bytes : ∀ lba, lba = 1 ∨ lba = totalSectors d - 1 → ∀ k,
    ¬ ((index - 1) * (sideAt d 1).entrySize + 32 ≤ k ∧ k < (index - 1) * (sideAt d 1).entrySize + 48) →
    (sideAt d' lba).entries[k]? = (sideAt d lba).entries[k]?

/--
計算し直した位置が、既存の header の言う位置と同じである。例外は、両方の header が LBA 2 を指し、
array が disk の終わりまでを占める配置だけである。
-/
def KeepsPositions (d : Disk) : Prop :=
  primaryEntries (sideAt d 1) (sectorSize d) = (sideAt d 1).entriesLba ∧
    (backupEntries (sideAt d 1) (totalSectors d) (sectorSize d) =
        (sideAt d (totalSectors d - 1)).entriesLba ∨
      (sideAt d (totalSectors d - 1)).entriesLba = 2 ∧
        (sideAt d 1).arraySectors (sectorSize d) = totalSectors d - 2)

/-! ## 揃った写し -/

section Both

variable {d : Disk} (hboth : BothValid d)
include hboth

theorem BothValid.lba_eq : (sideAt d 1).currentLba = 1 ∧ (sideAt d 1).backupLba = totalSectors d - 1 ∧
    (sideAt d (totalSectors d - 1)).currentLba = totalSectors d - 1 := by
  obtain ⟨hp, hb, heq⟩ := hboth
  obtain ⟨-, -, -, -, halt, -⟩ := sidesEqual_iff.mp heq
  have hcur : (sideAt d (totalSectors d - 1)).currentLba = totalSectors d - 1 := hb.fields.current
  exact ⟨hp.fields.current, halt.trans hcur, hcur⟩

theorem BothValid.content_eq : (sideAt d 1).content = (sideAt d (totalSectors d - 1)).content :=
  (sidesEqual_iff.mp hboth.2.2).1

theorem BothValid.arraySectors_eq (ss : Nat) :
    (sideAt d (totalSectors d - 1)).arraySectors ss = (sideAt d 1).arraySectors ss := by
  obtain ⟨-, -, hcount, hsize, -⟩ := content_eq_iff.mp hboth.content_eq
  unfold RawSide.arraySectors RawSide.arrayBytes
  rw [hcount, hsize]

/-- 使える範囲は、最後の sector の手前で終わる。 -/
theorem BothValid.lastUsable_lt : (sideAt d 1).lastUsable < totalSectors d - 1 := by
  obtain ⟨-, -, hcur⟩ := hboth.lba_eq
  obtain ⟨hfu, hlu, -⟩ := content_eq_iff.mp hboth.content_eq
  have hout := hboth.2.1.fields.headerOutside
  have hus := hboth.1.fields.usable
  rw [hcur] at hout
  omega

/--
backup の array は LBA 1 から始まらない。そこは primary の header で、entry として読むと、
代わりの header の LBA を始まりとする、使える範囲の外の partition になってしまう。
-/
theorem BothValid.entriesLba_ne_one : (sideAt d (totalSectors d - 1)).entriesLba ≠ 1 := by
  intro hone
  obtain ⟨-, halt, hcur⟩ := hboth.lba_eq
  have hlast := hboth.lastUsable_lt
  obtain ⟨hfu, hlu, hcount, hsize, -⟩ := content_eq_iff.mp hboth.content_eq
  obtain ⟨hp, hb, -⟩ := hboth
  have hfb := hb.fields
  have hss : 92 ≤ sectorSize d := le_trans hfb.headerSize.1 hfb.headerSize.2
  have hes := hfb.entrySize.1
  have hone' : 1 * (sideAt d (totalSectors d - 1)).entrySize ≤
      (sideAt d (totalSectors d - 1)).arrayBytes := Nat.mul_le_mul_right _ hfb.entryCount.1
  -- entry 0 の先頭は primary の header の先頭である
  have hslice : ∀ o n, o + n ≤ 92 → slice ((sideAt d (totalSectors d - 1)).entry 0) o n =
      slice (headerAt d 1) o n := by
    intro o n hon
    show slice (slice (d.data.read ((sideAt d (totalSectors d - 1)).entriesLba * sectorSize d)
      (sideAt d (totalSectors d - 1)).arrayBytes) (0 * _) _) o n = _
    rw [hone, slice_slice _ _ _ _ _ (by omega), Image.slice_read _ _ _ _ _ (by omega), headerAt,
      Image.slice_read _ _ _ _ _ (by omega), Nat.zero_mul, Nat.zero_add]
  have hguid : zeroGuid (slice ((sideAt d (totalSectors d - 1)).entry 0) 0 16) = false := by
    have hsig : slice (headerAt d 1) 0 8 = SIG := hp.signed
    have h8 : slice (slice (headerAt d 1) 0 16) 0 8 = SIG := by
      rw [slice_slice _ _ _ _ _ (by decide)]
      exact hsig
    rw [hslice 0 16 (by decide), ← Bool.not_eq_true]
    intro hz
    unfold zeroGuid at hz
    rw [List.all_eq_true] at hz
    have hmem : (0x45 : UInt8) ∈ slice (headerAt d 1) 0 16 := by
      have : (0x45 : UInt8) ∈ slice (slice (headerAt d 1) 0 16) 0 8 := by
        rw [h8]
        decide
      unfold slice at this ⊢
      exact List.mem_of_mem_drop (List.mem_of_mem_take this)
    exact absurd (hz _ hmem) (by decide)
  obtain ⟨p, hpart⟩ : ∃ p, partitionOf (sideAt d (totalSectors d - 1)) 0 = some p := by
    unfold partitionOf
    dsimp only
    rw [hguid]
    exact ⟨_, rfl⟩
  have hmem := mem_partitions_iff.mpr ⟨0, hfb.entryCount.1, hpart⟩
  have hle := ((validateEntries_eq_ok hb.entries).1 p hmem).1
  have hfirst : p.firstLba = totalSectors d - 1 := by
    rw [(partitionOf_eq_some hpart).2.1, readLe, hslice 32 8 (by decide), ← halt]
    rfl
  omega

end Both

/-! ## 成功した書き込み -/

/-- `resize_partition` が成功したときに分かること。`c` は書き換えた写しである。 -/
structure Resized (host : WriteHost) (options : MutationOptions) (index first last : Nat)
    (d d' : Disk) (c : RawSide) : Prop where
  side : c = (sideAt d 1).resizeEntry index first last
  disk : d' = d.emit (pairEvents c c.entries (totalSectors d) (sectorSize d))
  total : 100 ≤ totalSectors d
  index_ge : 1 ≤ index
  index_le : index ≤ (sideAt d 1).entryCount
  range : first ≤ last ∧ last ≤ (sideAt d 1).lastUsable
  used : zeroGuid (slice ((sideAt d 1).entry (index - 1)) 0 16) = false
  bounded : Bounded c
  fields : FieldsOk c (totalSectors d) (sectorSize d)
  both : BothValid d'
  events : newEvents (resizePartition host index first last options) d =
    pairEvents c c.entries (totalSectors d) (sectorSize d)

section Success

variable {host : WriteHost} {options : MutationOptions} {index first last : Nat} {d d' : Disk}
  {r : MutationReport}

theorem resized_of_ok (hboth : BothValid d)
    (h : Proc.run (resizePartition host index first last options) d = (.ok r, d')) :
    ∃ c, Resized host options index first last d d' c := by
  have hrun := h
  obtain ⟨c', d0, h0, h1⟩ := Proc.run_bind_eq_ok (by exact h)
  obtain ⟨hc', rfl⟩ := run_reading_eq_ok h0
  obtain ⟨c, hc, ⟨hidx, hcount⟩, hrange, hused, rfl, -⟩ := resizedSide_eq_ok hc'
  have htotal := (writeReady_of_ok h1).total
  have hcan := canonical_of_mutationSource hc
  rw [canonical_of_bothValid (by omega) hboth] at hcan
  cases hcan
  obtain ⟨hf, hb⟩ := canonical_ok (canonical_of_bothValid (by omega) hboth)
  obtain ⟨hboth', -, -, -⟩ := sideAt_of_writePair (bounded_resizeEntry hb) (fieldsOk_resizeEntry hf) h1
  obtain ⟨hemit, -⟩ := emit_of_writePair (bounded_resizeEntry hb) (fieldsOk_resizeEntry hf) h1
  refine ⟨_, rfl, hemit, htotal, hidx, hcount, ⟨hrange.2.1, hrange.2.2⟩, hused,
    bounded_resizeEntry hb, fieldsOk_resizeEntry hf, hboth', ?_⟩
  unfold newEvents
  rw [hrun]
  show d'.events.drop _ = _
  rw [hemit]
  exact List.drop_left

variable {c : RawSide} (h : Resized host options index first last d d' c)
include h

theorem Resized.primary_eq : sideAt d' 1 = pairSide c 1 (totalSectors d - 1)
    (primaryEntries c (sectorSize d)) (sectorSize d) c.entries := by
  rw [h.disk]
  exact sideAt_emit_pairEvents h.bounded h.fields h.total

theorem Resized.arraySectors_eq (ss : Nat) : c.arraySectors ss = (sideAt d 1).arraySectors ss := by
  rw [h.side]
  rfl

theorem Resized.primaryEntries_eq (ss : Nat) :
    primaryEntries c ss = primaryEntries (sideAt d 1) ss := by
  rw [h.side]
  rfl

/-- 書いた後に読めたのだから、primary の array は disk に収まっている。 -/
theorem Resized.primary_fits : 2 ≤ primaryEntries c (sectorSize d) ∧
    primaryEntries c (sectorSize d) + c.arraySectors (sectorSize d) ≤ totalSectors d := by
  have harr := h.both.1.fields.array
  have hss : sectorSize d' = sectorSize d := by rw [h.disk]; rfl
  have htot : totalSectors d' = totalSectors d := by rw [h.disk]; rfl
  rw [h.primary_eq, hss, htot] at harr
  refine ⟨?_, harr⟩
  unfold primaryEntries
  dsimp only
  split <;> omega

/-- primary の array が最後の sector に掛からなければ、backup の header は書いたままである。 -/
theorem Resized.backup_entriesLba
    (hlt : primaryEntries c (sectorSize d) + c.arraySectors (sectorSize d) ≤ totalSectors d - 1) :
    (sideAt d' (totalSectors d - 1)).entriesLba =
      totalSectors d - 1 - c.arraySectors (sectorSize d) := by
  rw [h.disk]
  exact entriesLba_emit_pairEvents h.bounded h.fields h.total hlt

/-- 選んだ entry の二つの LBA のほかの byte。 -/
theorem Resized.entries_getElem? {k : Nat}
    (hk : ¬ ((index - 1) * (sideAt d 1).entrySize + 32 ≤ k ∧
      k < (index - 1) * (sideAt d 1).entrySize + 48)) :
    c.entries[k]? = (sideAt d 1).entries[k]? := by
  rw [h.side, resizeEntry_entries]
  unfold writeLe
  rw [getElem?_patch, length_leBytes, if_neg (by omega), getElem?_patch, length_leBytes,
    if_neg (by omega)]

/-- 書き込みは sector 0 に掛からない。 -/
theorem Resized.protectiveMbrOk_eq : protectiveMbrOk d' = protectiveMbrOk d := by
  have hss := sectorSize_pos d
  obtain ⟨hge, hfit⟩ := h.primary_fits
  have htotal := h.total
  have hread : d'.data.read 0 (sectorSize d) = d.data.read 0 (sectorSize d) := by
    rw [h.disk, Disk.emit_data, replay_pairEvents, ← Image.applyAll_append]
    refine Image.read_applyAll_of_disjoint _ _ _ _ fun w hw => Or.inl ?_
    have hmul : ∀ n, 1 ≤ n → sectorSize d ≤ n * sectorSize d := fun n hn => by
      have := Nat.mul_le_mul_right (sectorSize d) hn
      omega
    simp only [backupWrites, primaryWrites, List.cons_append, List.nil_append, List.mem_cons,
      List.not_mem_nil, or_false] at hw
    rw [Nat.zero_add]
    rcases hw with rfl | rfl | rfl | rfl
    · exact hmul _ (by omega)
    · exact hmul _ (by omega)
    · exact hmul _ (by omega)
    · exact le_refl _
  have hsize : d'.sizeBytes = d.sizeBytes := by rw [h.disk]; rfl
  have hsec : sectorSize d' = sectorSize d := by rw [h.disk]; rfl
  have hexact : d'.readExact 0 (sectorSize d) = d.readExact 0 (sectorSize d) := by
    unfold Disk.readExact
    rw [hsize, hread]
  unfold protectiveMbrOk
  rw [hsec]
  dsimp only
  rw [hexact]

/-- 読み直した partition の列は、選んだ番号のものだけが変わる。 -/
theorem Resized.partitions_eq : c.partitions = (sideAt d 1).partitions.map fun p =>
    if p.index = index then { p with firstLba := first, lastLba := last } else p := by
  have hes := h.fields.entrySize.1
  have hidx := h.index_ge
  have hus := h.fields.usable.2
  have htlt := totalSectors_lt d
  have hrange := h.range
  have hside := h.side
  have hlu : c.lastUsable = (sideAt d 1).lastUsable := by rw [hside]; rfl
  have hsize : c.entrySize = (sideAt d 1).entrySize := by rw [hside]; rfl
  have hcount : c.entryCount = (sideAt d 1).entryCount := by rw [hside]; rfl
  have hlen : (sideAt d 1).entries.length = (sideAt d 1).arrayBytes := Image.length_read ..
  unfold RawSide.partitions
  rw [List.map_filterMap, hcount]
  refine List.filterMap_congr fun i hi => ?_
  by_cases hi' : i = index - 1
  · subst hi'
    cases hp : partitionOf (sideAt d 1) (index - 1) with
    | none =>
      unfold partitionOf at hp
      dsimp only at hp
      rw [h.used] at hp
      cases hp
    | some p =>
      have hpi := partitionOf_index hp
      rw [hside, partitionOf_resizeEntry (by omega) hidx h.index_le hlen (by omega) (by omega) hp,
        Option.map_some, if_pos (by omega)]
  · have hent := @resizeEntry_entry_other (sideAt d 1) index first last i (by omega) hidx hi'
    have hsame : partitionOf c i = partitionOf (sideAt d 1) i := by
      rw [hside]
      unfold partitionOf
      rw [hent]
      rfl
    rw [hsame]
    cases hp : partitionOf (sideAt d 1) i with
    | none => rfl
    | some p =>
      have hpi := partitionOf_index hp
      rw [Option.map_some, if_neg (by omega)]

/-- 読み直した table が言うとおりのものになるのは、array の位置が変わらないときである。 -/
theorem Resized.table_eq_iff (hboth : BothValid d) :
    redundantTable d' (sideAt d' 1) (sideAt d' (totalSectors d - 1)) =
      (redundantTable d (sideAt d 1) (sideAt d (totalSectors d - 1))).resized index first last ↔
    primaryEntries (sideAt d 1) (sectorSize d) = (sideAt d 1).entriesLba ∧
      (sideAt d' (totalSectors d - 1)).entriesLba = (sideAt d (totalSectors d - 1)).entriesLba := by
  have htot : totalSectors d' = totalSectors d := by rw [h.disk]; rfl
  obtain ⟨hvp', hvb', -⟩ := h.both
  rw [htot] at hvb'
  obtain ⟨hvp, hvb, -⟩ := id hboth
  obtain ⟨hcur, halt, -⟩ := hboth.lba_eq
  have hparts : (sideAt d' 1).partitions = (sideAt d 1).partitions.map fun p =>
      if p.index = index then { p with firstLba := first, lastLba := last } else p := by
    rw [h.primary_eq, ← h.partitions_eq]
    rfl
  unfold RawSide.partitions at hparts
  have hpe : (sideAt d' 1).entriesLba = primaryEntries (sideAt d 1) (sectorSize d) := by
    rw [h.primary_eq, ← h.primaryEntries_eq]
    rfl
  have hcount : (sideAt d' 1).entryCount = (sideAt d 1).entryCount := by rw [h.primary_eq, h.side]; rfl
  have hsize : (sideAt d' 1).entrySize = (sideAt d 1).entrySize := by rw [h.primary_eq, h.side]; rfl
  have hguid : (sideAt d' 1).diskGuid = (sideAt d 1).diskGuid := by rw [h.primary_eq, h.side]; rfl
  have hhs : (sideAt d' 1).headerSize = (sideAt d 1).headerSize := by rw [h.primary_eq, h.side]; rfl
  have hfu : (sideAt d' 1).firstUsable = (sideAt d 1).firstUsable := by rw [h.primary_eq, h.side]; rfl
  have hlu : (sideAt d' 1).lastUsable = (sideAt d 1).lastUsable := by rw [h.primary_eq, h.side]; rfl
  have hcur' : (sideAt d' 1).currentLba = 1 := by rw [h.primary_eq]; rfl
  have halt' : (sideAt d' 1).backupLba = totalSectors d - 1 := by rw [h.primary_eq]; rfl
  simp only [redundantTable, Table.resized, tableFromSide, if_pos hvp.valid, if_pos hvp'.valid,
    Table.mk.injEq, hvp'.headerCrc, hvp'.entriesCrc, hvb'.headerCrc, hvb'.entriesCrc, hvp.headerCrc,
    hvp.entriesCrc, hvb.headerCrc, hvb.entriesCrc, h.protectiveMbrOk_eq, hcur, hcur', halt, halt', hfu,
    hlu, hhs, hsize, hguid, hpe, hcount, true_and]
  rw [hcount] at hparts
  constructor
  · rintro ⟨hp, hb, -⟩
    exact ⟨hp, hb⟩
  · rintro ⟨hp, hb⟩
    exact ⟨hp, hb, hparts⟩

end Success

/-! ## 変わるものが言うとおりである条件 -/

section Exact

variable {host : WriteHost} {options : MutationOptions} {index first last : Nat} {d d' : Disk}
  {c : RawSide} (h : Resized host options index first last d d' c) (hboth : BothValid d)
include h hboth

/-- primary の array が最後の sector に掛かるのは、LBA 2 から disk の終わりまでを占めるときだけである。 -/
theorem Resized.whole_of_touch
    (hlt : totalSectors d - 1 < primaryEntries c (sectorSize d) + c.arraySectors (sectorSize d)) :
    primaryEntries c (sectorSize d) = 2 ∧ c.arraySectors (sectorSize d) = totalSectors d - 2 := by
  have hlast := hboth.lastUsable_lt
  have hus := hboth.1.fields.usable
  have htotal := h.total
  obtain ⟨hge, hfit⟩ := h.primary_fits
  have hfu : c.firstUsable = (sideAt d 1).firstUsable := by rw [h.side]; rfl
  unfold primaryEntries at hlt hge hfit ⊢
  dsimp only at hlt hge hfit ⊢
  split
  · next hc =>
    rw [if_pos hc] at hlt
    omega
  · next hc =>
    rw [if_neg hc] at hlt hfit
    omega

/-- 書いた後の backup の header が言う位置。 -/
theorem Resized.backup_position (hpos : primaryEntries (sideAt d 1) (sectorSize d) =
      (sideAt d 1).entriesLba) :
    (sideAt d' (totalSectors d - 1)).entriesLba = (sideAt d (totalSectors d - 1)).entriesLba ↔
      (backupEntries (sideAt d 1) (totalSectors d) (sectorSize d) =
          (sideAt d (totalSectors d - 1)).entriesLba ∨
        (sideAt d (totalSectors d - 1)).entriesLba = 2 ∧
          (sideAt d 1).arraySectors (sectorSize d) = totalSectors d - 2) := by
  have htotal := h.total
  have hsecs := h.arraySectors_eq (sectorSize d)
  have hbe := backupEntries_eq (totalSectors_lt d) hboth.1.fields.arraySectors_le
  obtain ⟨hge, hfit⟩ := h.primary_fits
  rw [hbe]
  rcases Nat.lt_or_ge (totalSectors d - 1)
    (primaryEntries c (sectorSize d) + c.arraySectors (sectorSize d)) with hlt | hle
  · -- array が disk の終わりまでを占める配置では、どちらの header も LBA 2 を指すほかない
    obtain ⟨hpe, hwhole⟩ := h.whole_of_touch hboth hlt
    have htot : totalSectors d' = totalSectors d := by rw [h.disk]; rfl
    have hss : sectorSize d' = sectorSize d := by rw [h.disk]; rfl
    have hsecs' : (sideAt d' 1).arraySectors (sectorSize d) = c.arraySectors (sectorSize d) := by
      rw [h.primary_eq]
      rfl
    have hfu : (sideAt d' 1).firstUsable = (sideAt d 1).firstUsable := by
      rw [h.primary_eq, h.side]
      rfl
    have hlu : (sideAt d' 1).lastUsable = (sideAt d 1).lastUsable := by
      rw [h.primary_eq, h.side]
      rfl
    have hpe' := h.primaryEntries_eq (sectorSize d)
    have hus := hboth.1.fields.usable
    have hout := hboth.1.fields.arrayOutside
    have hone := hboth.1.fields.headerOutside
    rw [hboth.lba_eq.1] at hone
    -- 使える範囲は LBA 0 だけになる
    have hzero : (sideAt d 1).lastUsable = 0 := by omega
    have hbn := hboth.entriesLba_ne_one
    have hbn' := h.both.entriesLba_ne_one
    have hba := hboth.2.1.fields.array
    have hba' := h.both.2.1.fields.array
    have hbo := hboth.2.1.fields.arrayOutside
    have hbo' := h.both.2.1.fields.arrayOutside
    obtain ⟨hbfu, hblu, -⟩ := content_eq_iff.mp hboth.content_eq
    obtain ⟨hbfu', hblu', -⟩ := content_eq_iff.mp h.both.content_eq
    rw [hboth.arraySectors_eq] at hba hbo
    rw [hss, h.both.arraySectors_eq] at hba' hbo'
    rw [htot] at hbn' hba' hbo' hbfu' hblu'
    omega
  · rw [h.backup_entriesLba hle]
    constructor
    · intro heq
      left
      omega
    · rintro (heq | ⟨-, hwhole⟩)
      · omega
      · omega

/-- 位置が変わらなければ、書かれる sector は header の言うものだけである。 -/
theorem Resized.named_of_touched (hkeep : KeepsPositions d) {x : Nat}
    (hx : Touched (newEvents (resizePartition host index first last options) d) (sectorSize d) x) :
    NamedSector d x := by
  have htotal := h.total
  have hsecs := h.arraySectors_eq (sectorSize d)
  have hbsecs := hboth.arraySectors_eq (sectorSize d)
  have hbe := backupEntries_eq (totalSectors_lt d) hboth.1.fields.arraySectors_le
  have hpe := h.primaryEntries_eq (sectorSize d)
  have hpos : 0 < c.arrayBytes :=
    Nat.mul_pos h.fields.entryCount.1 (by have := h.fields.entrySize.1; omega)
  rw [h.events, touched_pairEvents (sectorSize_pos d) h.bounded.entries hpos h.fields.arraySectors_le]
    at hx
  obtain ⟨hp, hb⟩ := hkeep
  obtain ⟨hge, hfit⟩ := h.primary_fits
  unfold NamedSector
  omega

end Exact

/--
**`resize_partition` が変えるもの。** 二つの写しが有効で一致する disk で成功したとき、書かれる sector が header の言う
ものだけで、読み直した table が選んだ entry の二つの LBA だけで違い、array のほかの byte が変わらないのは、
計算し直した array の位置が既存の header の言う位置と同じときであり、そのときに限る。
-/
theorem onlyResizes_iff {host : WriteHost} {options : MutationOptions} {index first last : Nat}
    {d d' : Disk} {r : MutationReport} (hboth : BothValid d)
    (h : Proc.run (resizePartition host index first last options) d = (.ok r, d')) :
    OnlyResizes host options index first last d d' ↔ KeepsPositions d := by
  obtain ⟨c, hr⟩ := resized_of_ok hboth h
  have htotal := hr.total
  have htot : totalSectors d' = totalSectors d := by rw [hr.disk]; rfl
  have htable := readRedundantTable_of_bothValid (by omega) hboth
  have htable' := readRedundantTable_of_bothValid (by omega) hr.both
  rw [htot] at htable'
  constructor
  · intro ho
    have heq := ho.table _ htable
    rw [htable'] at heq
    obtain ⟨hp, hb⟩ := (hr.table_eq_iff hboth).mp (Except.ok.inj heq)
    exact ⟨hp, (hr.backup_position hboth hp).mp hb⟩
  · intro hk
    have heq := (hr.table_eq_iff hboth).mpr ⟨hk.1, (hr.backup_position hboth hk.1).mpr hk.2⟩
    refine ⟨fun x hx => hr.named_of_touched hboth hk hx, ?_, ?_⟩
    · intro t ht
      rw [htable] at ht
      cases ht
      rw [htable', heq]
    · rintro lba (rfl | rfl) k hk'
      · rw [hr.primary_eq]
        exact hr.entries_getElem? hk'
      · have hent' : (sideAt d' 1).entries = (sideAt d' (totalSectors d' - 1)).entries :=
          (content_eq_iff.mp hr.both.content_eq).2.2.2.2
        have hent : (sideAt d 1).entries = (sideAt d (totalSectors d - 1)).entries :=
          (content_eq_iff.mp hboth.content_eq).2.2.2.2
        rw [← hent, ← htot, ← hent', hr.primary_eq]
        exact hr.entries_getElem? hk'

theorem onlyResizes_oneDisk : BothValid oneDisk ∧
    ∃ r, Proc.run (resizePartition quietWriteHost 1 10 15 {}) oneDisk = (.ok r, resizedDisk) ∧
      OnlyResizes quietWriteHost {} 1 10 15 oneDisk resizedDisk := by
  obtain ⟨r, hrun⟩ := run_resize_oneDisk
  obtain ⟨⟨hp, -⟩, hb, -⟩ := copies_oneDisk
  refine ⟨bothValid_oneDisk, r, hrun, (onlyResizes_iff bothValid_oneDisk hrun).mpr ⟨?_, Or.inl ?_⟩⟩
  · rw [sectorSize_oneDisk, hp]
    decide
  · rw [sectorSize_oneDisk, totalSectors_oneDisk, hp, hb]
    decide

/-! ## 使える範囲の前に空きのある disk -/

/-- 使える範囲が LBA 20 から 97 の table。array は LBA 2 と 98 にある。 -/
def gapTable : RawSide := { baseTable with firstUsable := 20 }

/-- 二つの写しが揃い、primary の array と使える範囲の間が空いている disk。 -/
def gapDisk : Disk where
  sizeBytes := 51200
  logicalSector := 512
  isBlockDevice := false
  writable := true
  data := (((Image.write (fun _ => 0) 512 (makeHeader gapTable 1 99 2
    (crc32IeeeFinal (oneEntry 30 40)).toNat 512)).write 1024 (oneEntry 30 40)).write 50176
      (oneEntry 30 40)).write 50688 (makeHeader gapTable 99 1 98
        (crc32IeeeFinal (oneEntry 30 40)).toNat 512)
  events := []
  size_lt := wideDisk_size

theorem sectorSize_gapDisk : sectorSize gapDisk = 512 := by
  unfold sectorSize
  exact if_pos (show (512 : Nat) ≠ 0 by decide)

theorem totalSectors_gapDisk : totalSectors gapDisk = 100 := by
  rw [totalSectors, sectorSize_gapDisk]
  show 51200 / 512 = 100
  decide

theorem bounded_gapTable : Bounded gapTable := by
  refine ⟨?_, ?_, ?_, ?_, ?_, ?_, length_zeros 16, length_zeros 128⟩ <;> decide

/-- 作った disk の二つの側。 -/
theorem sideAt_gapDisk : (Signed gapDisk 1 ∧
      sideAt gapDisk 1 = pairSide gapTable 1 99 2 512 (oneEntry 30 40)) ∧
    Signed gapDisk 99 ∧ sideAt gapDisk 99 = pairSide gapTable 99 1 98 512 (oneEntry 30 40) := by
  have hent := length_oneEntry 30 40
  have hhdr : ∀ a b e z, (makeHeader gapTable a b e z 512).length = 512 :=
    fun _ _ _ _ => length_makeHeader
  have h1 := @sideAt_pairSide gapDisk gapTable 1 99 2 (oneEntry 30 40)
    (by rw [totalSectors_gapDisk]; decide) (by rw [totalSectors_gapDisk]; decide) (by decide)
    bounded_gapTable (by decide) (by rw [sectorSize_gapDisk]; decide)
  have h2 := @sideAt_pairSide gapDisk gapTable 99 1 98 (oneEntry 30 40)
    (by rw [totalSectors_gapDisk]; decide) (by rw [totalSectors_gapDisk]; decide) (by decide)
    bounded_gapTable (by decide) (by rw [sectorSize_gapDisk]; decide)
  rw [sectorSize_gapDisk] at h1 h2
  refine ⟨h1 ?_ ?_, h2 ?_ ?_⟩
  · refine (Image.read_write_of_disjoint (Or.inl (by decide))).trans ?_
    refine (Image.read_write_of_disjoint (Or.inl (by decide))).trans ?_
    refine (Image.read_write_of_disjoint (Or.inl (by decide))).trans ?_
    exact Image.read_write_self _ _ _ (hhdr _ _ _ _)
  · refine (Image.read_write_of_disjoint (Or.inl (by decide))).trans ?_
    refine (Image.read_write_of_disjoint (Or.inl (by decide))).trans ?_
    exact Image.read_write_self _ _ _ hent
  · exact Image.read_write_self _ _ _ (hhdr _ _ _ _)
  · refine (Image.read_write_of_disjoint (Or.inl (by decide))).trans ?_
    exact Image.read_write_self _ _ _ hent

theorem bothValid_gapDisk : BothValid gapDisk := by
  obtain ⟨⟨hs1, hp⟩, hs2, hb⟩ := sideAt_gapDisk
  have hval : ∀ a b e, validateEntries (pairSide gapTable a b e 512 (oneEntry 30 40)) = .ok () :=
    fun _ _ _ => validateEntries_one rfl (by rfl)
  rw [BothValid, totalSectors_gapDisk]
  refine ⟨⟨hs1, ?_, by rw [hp]; rfl, by rw [hp]; rfl, by rw [hp]; exact hval _ _ _⟩,
    ⟨hs2, ?_, by rw [hb]; rfl, by rw [hb]; rfl, by rw [hb]; exact hval _ _ _⟩, ?_⟩
  · rw [hp, totalSectors_gapDisk, sectorSize_gapDisk]
    exact ⟨by decide, rfl, by decide, by decide, by decide, by decide, by decide, Or.inl (by decide),
      Or.inl (by decide)⟩
  · rw [hb, totalSectors_gapDisk, sectorSize_gapDisk]
    exact ⟨by decide, rfl, by decide, by decide, by decide, by decide, by decide, Or.inr (by decide),
      Or.inr (by decide)⟩
  · rw [hp, hb, sidesEqual_iff]
    exact ⟨rfl, rfl, rfl, rfl, rfl, rfl⟩

/-- partition を LBA 30 から 35 に縮めた table。 -/
def gapResized : RawSide := (pairSide gapTable 1 99 2 512 (oneEntry 30 40)).resizeEntry 1 30 35

theorem entries_gapResized : gapResized.entries = oneEntry 30 35 := by
  have h : writeLe 8 (writeLe 8 (oneEntry 30 40) 32 30) 40 35 = oneEntry 30 35 := by decide +kernel
  rw [← h, gapResized, resizeEntry_entries]
  rfl

theorem validateEntries_gapResized : validateEntries gapResized = .ok () := by
  have h : validateEntries { gapResized with entries := oneEntry 30 35 } = .ok () :=
    validateEntries_one rfl (by rfl)
  rw [← h]
  refine validateEntries_congr ?_
  rw [content_eq_iff]
  exact ⟨rfl, rfl, rfl, rfl, entries_gapResized⟩

theorem run_resize_gapDisk : ∃ r, Proc.run (resizePartition quietWriteHost 1 30 35 {}) gapDisk =
    (.ok r, gapDisk.emit (pairEvents gapResized gapResized.entries 100 512)) := by
  obtain ⟨⟨-, hp⟩, -, -⟩ := sideAt_gapDisk
  have hboth := bothValid_gapDisk
  have hsrc : mutationSource gapDisk = .ok (pairSide gapTable 1 99 2 512 (oneEntry 30 40)) := by
    obtain ⟨hvp, hvb, heq⟩ := hboth
    unfold mutationSource
    rw [hvp.readSide_eq (by rw [totalSectors_gapDisk]; decide), Result.ok_bind,
      hvb.readSide_eq (by rw [totalSectors_gapDisk]; decide), Result.ok_bind,
      if_neg (fun hc => hc.2.2 heq), if_pos hvp.valid, hp]
    rfl
  have hside : resizedSide gapDisk 1 30 35 = .ok gapResized := by
    have hval : validateEntries ((pairSide gapTable 1 99 2 512 (oneEntry 30 40)).resizeEntry 1 30 35)
      = .ok () := validateEntries_gapResized
    unfold resizedSide
    rw [hsrc, Result.ok_bind, if_neg (by decide)]
    dsimp only
    rw [if_neg (by decide), if_neg (by decide), hval, Result.ok_bind]
    rfl
  have hlen : gapResized.entries.length = gapResized.arrayBytes := by
    rw [entries_gapResized, length_oneEntry]
    rfl
  have hb : Bounded gapResized :=
    ⟨show 0x00010000 < 2 ^ 32 by decide, bounded_gapTable.headerSize, bounded_gapTable.firstUsable,
      bounded_gapTable.lastUsable, bounded_gapTable.entryCount, bounded_gapTable.entrySize,
      bounded_gapTable.diskGuid, hlen⟩
  have hf : FieldsOk gapResized 100 512 :=
    ⟨by decide, rfl, by decide, by decide, by decide, by decide, by decide, Or.inl (by decide),
      Or.inl (by decide)⟩
  have hl : Layout gapResized 100 512 :=
    ⟨by decide, by decide, Or.inl (by decide), by decide, Or.inl (by decide)⟩
  have hwrite := @run_writePair_self gapDisk gapResized quietWriteHost {} (gateOpen_quiet {}) rfl
    (by rw [totalSectors_gapDisk]) hb (by rw [totalSectors_gapDisk, sectorSize_gapDisk]; exact hf)
    (by rw [totalSectors_gapDisk, sectorSize_gapDisk]; exact hl) validateEntries_gapResized
  rw [totalSectors_gapDisk, sectorSize_gapDisk] at hwrite
  refine ⟨_, Eq.trans ?_ hwrite⟩
  unfold resizePartition
  rw [Proc.run_bind_ok (Proc.run_reading _ gapDisk |>.trans (by rw [hside]))]

/-- primary の array が、header の指していない LBA 19 に書かれる。 -/
theorem resize_moves_array : BothValid gapDisk ∧
    ∃ r d', Proc.run (resizePartition quietWriteHost 1 30 35 {}) gapDisk = (.ok r, d') ∧
      Touched (newEvents (resizePartition quietWriteHost 1 30 35 {}) gapDisk) 512 19 ∧
      ¬ NamedSector gapDisk 19 ∧ ¬ OnlyResizes quietWriteHost {} 1 30 35 gapDisk d' := by
  obtain ⟨r, hrun⟩ := run_resize_gapDisk
  obtain ⟨⟨-, hp⟩, -, hb⟩ := sideAt_gapDisk
  have hlen : gapResized.entries.length = gapResized.arrayBytes := by
    rw [entries_gapResized, length_oneEntry]
    rfl
  have htouch : Touched (newEvents (resizePartition quietWriteHost 1 30 35 {}) gapDisk) 512 19 := by
    unfold newEvents
    rw [hrun]
    show Touched ((gapDisk.emit _).events.drop _) 512 19
    rw [Disk.emit_events, List.drop_left,
      touched_pairEvents (by decide) hlen (by decide) (by decide)]
    decide
  have hnot : ¬ NamedSector gapDisk 19 := by
    unfold NamedSector
    rw [totalSectors_gapDisk, sectorSize_gapDisk, hp, hb]
    decide
  refine ⟨bothValid_gapDisk, r, _, hrun, htouch, hnot, fun ho => hnot (ho.sectors 19 ?_)⟩
  rw [sectorSize_gapDisk]
  exact htouch

end Fsx.Gpt
