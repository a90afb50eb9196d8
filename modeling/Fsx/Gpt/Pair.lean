import Fsx.Gpt.Side

/-!
# 二つの写しを書く

`make_header` の header は `read_side` がそのまま読み戻す。`write_pair` の四つの書き込みは、
entry array の置き場所が重ならなければ、どちらの側からも同じ table として読める。
-/

namespace Fsx

namespace Gpt

/-- 各 field が、その幅に収まっている。 -/
structure Bounded (c : RawSide) : Prop where
  revision : c.revision < 2 ^ 32
  headerSize : c.headerSize < 2 ^ 32
  firstUsable : c.firstUsable < 2 ^ 64
  lastUsable : c.lastUsable < 2 ^ 64
  entryCount : c.entryCount < 2 ^ 32
  entrySize : c.entrySize < 2 ^ 32
  diskGuid : c.diskGuid.length = 16
  entries : c.entries.length = c.arrayBytes

/-- 読み込んだ側の field は幅に収まる。 -/
theorem bounded_sideAt {d : Disk} {lba : Nat} (hss : 92 ≤ sectorSize d) :
    Bounded (sideAt d lba) := by
  have hlen : (headerAt d lba).length = sectorSize d := Image.length_read _ _ _
  refine ⟨readLe_lt 4 _ _, readLe_lt 4 _ _, readLe_lt 8 _ _, readLe_lt 8 _ _, readLe_lt 4 _ _,
    readLe_lt 4 _ _, length_slice ?_, Image.length_read _ _ _⟩
  rw [hlen]
  omega

section MakeHeader

variable {c : RawSide} {current backup entriesLba entriesCrc ss : Nat}

@[simp] theorem length_headerBody :
    (headerBody c current backup entriesLba entriesCrc ss).length = ss := by
  simp only [headerBody, length_writeLe, length_patch, length_zeros]

@[simp] theorem length_makeHeader :
    (makeHeader c current backup entriesLba entriesCrc ss).length = ss := by
  simp only [makeHeader, length_writeLe, length_headerBody]

/-- CRC の field は、書く前は零である。 -/
theorem writeLe_crc_headerBody (hss : 92 ≤ ss) :
    writeLe 4 (headerBody c current backup entriesLba entriesCrc ss) 16 0
      = headerBody c current backup entriesLba entriesCrc ss := by
  have hzero : slice (headerBody c current backup entriesLba entriesCrc ss) 16 4 = leBytes 4 0 := by
    unfold headerBody
    simp (disch := first | omega | simp) only [slice_writeLe_of_disjoint, slice_patch_of_disjoint]
    exact slice_patch_self (length_leBytes 4 0)
      (by simp only [length_writeLe, length_patch, length_zeros]; omega)
  unfold writeLe
  rw [← hzero]
  exact patch_slice

/-- header の field を読み戻す。 -/
theorem makeHeader_fields (hss : 92 ≤ ss) (hb : Bounded c) (hcur : current < 2 ^ 64)
    (hbak : backup < 2 ^ 64) (helba : entriesLba < 2 ^ 64) (hecrc : entriesCrc < 2 ^ 32) :
    let h := makeHeader c current backup entriesLba entriesCrc ss
    slice h 0 8 = SIG ∧
    readLe 4 h 8 = (if c.revision ≠ 0 then c.revision else 0x00010000) ∧
    readLe 4 h 12 = (if c.headerSize ≠ 0 then c.headerSize else 92) ∧
    readLe 8 h 24 = current ∧ readLe 8 h 32 = backup ∧
    readLe 8 h 40 = c.firstUsable ∧ readLe 8 h 48 = c.lastUsable ∧
    slice h 56 16 = c.diskGuid ∧ readLe 8 h 72 = entriesLba ∧
    readLe 4 h 80 = c.entryCount ∧ readLe 4 h 84 = c.entrySize ∧ readLe 4 h 88 = entriesCrc := by
  have hrev : (if c.revision ≠ 0 then c.revision else 0x00010000) < 256 ^ 4 := by
    have := hb.revision
    split <;> omega
  have hhs : (if c.headerSize ≠ 0 then c.headerSize else 92) < 256 ^ 4 := by
    have := hb.headerSize
    split <;> omega
  have hfu : c.firstUsable < 256 ^ 8 := hb.firstUsable
  have hlu : c.lastUsable < 256 ^ 8 := hb.lastUsable
  have hec : c.entryCount < 256 ^ 4 := hb.entryCount
  have hes : c.entrySize < 256 ^ 4 := hb.entrySize
  have hguid := hb.diskGuid
  unfold makeHeader headerBody
  dsimp only
  simp (disch := first | omega | (simp only [length_writeLe, length_patch, length_zeros]; omega)) only
    [slice_writeLe_of_disjoint, slice_patch_of_disjoint, slice_patch_self, readLe_writeLe_self,
      readLe_writeLe_of_disjoint, readLe_patch_of_disjoint, Nat.mod_eq_of_lt hrev,
      Nat.mod_eq_of_lt hhs, Nat.mod_eq_of_lt hfu, Nat.mod_eq_of_lt hlu, Nat.mod_eq_of_lt hec,
      Nat.mod_eq_of_lt hes, Nat.mod_eq_of_lt (show current < 256 ^ 8 from hcur),
      Nat.mod_eq_of_lt (show backup < 256 ^ 8 from hbak),
      Nat.mod_eq_of_lt (show entriesLba < 256 ^ 8 from helba),
      Nat.mod_eq_of_lt (show entriesCrc < 256 ^ 4 from hecrc), and_true]
  exact slice_patch_self rfl (by simp only [length_zeros]; show 0 + 8 ≤ ss; omega)

/-- `make_header` の header を読み、`entries` を添えた側。 -/
def pairSide (c : RawSide) (current backup entriesLba ss : Nat) (entries : Bytes) : RawSide where
  signatureOk := true
  headerCrcOk := true
  entriesCrcOk := true
  lba := current
  currentLba := current
  backupLba := backup
  firstUsable := c.firstUsable
  lastUsable := c.lastUsable
  entriesLba := entriesLba
  revision := if c.revision ≠ 0 then c.revision else 0x00010000
  headerSize := c.headerSize
  entryCount := c.entryCount
  entrySize := c.entrySize
  diskGuid := c.diskGuid
  header := makeHeader c current backup entriesLba (crc32IeeeFinal entries).toNat ss
  entries := entries

/-- **書いた header は、書いたとおりの側として読める。** -/
theorem withEntries_parseHeader_makeHeader (hss : 92 ≤ ss) (hb : Bounded c)
    (hsize : 92 ≤ c.headerSize) (hcur : current < 2 ^ 64) (hbak : backup < 2 ^ 64)
    (helba : entriesLba < 2 ^ 64) (entries : Bytes) :
    (parseHeader (makeHeader c current backup entriesLba (crc32IeeeFinal entries).toNat ss)
        current).withEntries entries = pairSide c current backup entriesLba ss entries := by
  have hecrc : (crc32IeeeFinal entries).toNat < 2 ^ 32 := (crc32IeeeFinal entries).toNat_lt
  obtain ⟨_, hrev, hhs, hc, hba, hfu, hlu, hguid, hel, hec, hes, hcrc⟩ :=
    makeHeader_fields hss hb hcur hbak helba hecrc
  rw [if_pos (show c.headerSize ≠ 0 by omega)] at hhs
  -- 読む側は CRC の field を零に戻してから計算する
  have hstored : (readLe 4 (makeHeader c current backup entriesLba (crc32IeeeFinal entries).toNat ss) 16
      == headerCrc (makeHeader c current backup entriesLba (crc32IeeeFinal entries).toNat ss)
        c.headerSize) = true := by
    have hclear : ∀ v, writeLe 4 (writeLe 4
        (headerBody c current backup entriesLba (crc32IeeeFinal entries).toNat ss) 16 v) 16 0
        = headerBody c current backup entriesLba (crc32IeeeFinal entries).toNat ss := by
      intro v
      have htwice := @writeLe_crc_headerBody c current backup entriesLba
        (crc32IeeeFinal entries).toNat ss hss
      unfold writeLe at htwice ⊢
      rw [patch_patch (by simp only [length_leBytes])]
      exact htwice
    rw [beq_iff_eq]
    unfold headerCrc makeHeader
    dsimp only
    rw [readLe_writeLe_self (by rw [length_headerBody]; omega), hclear]
    exact Nat.mod_eq_of_lt (UInt32.toNat_lt _)
  have hentries : ((crc32IeeeFinal entries).toNat == (crc32IeeeFinal entries).toNat) = true :=
    beq_self_eq_true _
  simp only [parseHeader, RawSide.withEntries, pairSide, hrev, hhs, hc, hba, hfu, hlu, hguid, hel,
    hec, hes, hcrc, hstored, hentries]

end MakeHeader

/-- 置いた header と entry array は、その側になる。 -/
theorem sideAt_pairSide {d : Disk} {c : RawSide} {lba alt elba : Nat} {entries : Bytes}
    (hlba : lba < totalSectors d) (halt : alt < totalSectors d) (helba : elba < 2 ^ 64)
    (hb : Bounded c) (hsize : 92 ≤ c.headerSize) (hss : 92 ≤ sectorSize d)
    (hhdr : d.data.read (lba * sectorSize d) (sectorSize d)
      = makeHeader c lba alt elba (crc32IeeeFinal entries).toNat (sectorSize d))
    (harr : d.data.read (elba * sectorSize d) c.arrayBytes = entries) :
    Signed d lba ∧ sideAt d lba = pairSide c lba alt elba (sectorSize d) entries := by
  have htotal := totalSectors_lt d
  have hecrc : (crc32IeeeFinal entries).toNat < 2 ^ 32 := (crc32IeeeFinal entries).toNat_lt
  obtain ⟨hsig, _, _, _, _, _, _, _, hel, hec, hes, _⟩ :=
    @makeHeader_fields c lba alt elba _ _ hss hb (by omega) (by omega) helba hecrc
  refine ⟨by rw [Signed, headerAt, hhdr]; exact hsig, ?_⟩
  rw [← withEntries_parseHeader_makeHeader hss hb hsize (by omega) (by omega) helba entries]
  have helba' : (parseHeader (headerAt d lba) lba).entriesLba = elba := by
    rw [parseHeader_entriesLba, headerAt, hhdr, hel]
  have hbytes : (parseHeader (headerAt d lba) lba).arrayBytes = c.arrayBytes := by
    rw [parseHeader_arrayBytes, headerAt, hhdr, hec, hes, RawSide.arrayBytes]
  unfold sideAt
  dsimp only
  rw [helba', hbytes, harr, headerAt, hhdr]

/-- 置いた header と entry array は、その側として読める。 -/
theorem readSide_pairSide {d : Disk} {c : RawSide} {lba alt elba : Nat} {entries : Bytes}
    (hlba : lba < totalSectors d) (hb : Bounded c) (hsize : 92 ≤ c.headerSize)
    (hss : 92 ≤ sectorSize d)
    (hhdr : d.data.read (lba * sectorSize d) (sectorSize d)
      = makeHeader c lba alt elba (crc32IeeeFinal entries).toNat (sectorSize d))
    (harr : d.data.read (elba * sectorSize d) c.arrayBytes = entries)
    (hf : FieldsOk (pairSide c lba alt elba (sectorSize d) entries) (totalSectors d) (sectorSize d)) :
    readSide d lba = .ok (pairSide c lba alt elba (sectorSize d) entries) := by
  have htotal := totalSectors_lt d
  have helba : elba < 2 ^ 64 := by
    have h := hf.array
    change elba + _ ≤ _ at h
    omega
  obtain ⟨hsig, hside⟩ := sideAt_pairSide hlba hf.alternate.1 helba hb hsize hss hhdr harr
  rw [readSide_eq_ok_iff hlba hsig, hside]
  exact ⟨hf, rfl⟩

/-! ## entry の検査は table の中身だけで決まる -/

/-- table の中身。header の位置や CRC の結果は含まない。 -/
def RawSide.content (s : RawSide) : RawSide where
  firstUsable := s.firstUsable
  lastUsable := s.lastUsable
  entryCount := s.entryCount
  entrySize := s.entrySize
  entries := s.entries

theorem entryRanges_content (s : RawSide) : ∀ is : List Nat,
    entryRanges s is = entryRanges s.content is
  | [] => rfl
  | i :: is => by
    unfold entryRanges
    rw [entryRanges_content s is]
    rfl

theorem validateEntries_congr {s t : RawSide} (h : s.content = t.content) :
    validateEntries s = validateEntries t := by
  have hs : validateEntries s = validateEntries s.content := by
    unfold validateEntries
    rw [entryRanges_content]
    rfl
  have ht : validateEntries t = validateEntries t.content := by
    unfold validateEntries
    rw [entryRanges_content]
    rfl
  rw [hs, ht, h]

/-- table の partition の列。 -/
def RawSide.partitions (s : RawSide) : List Partition :=
  (List.range s.entryCount).filterMap (partitionOf s)

theorem partitions_congr {s t : RawSide} (h : s.content = t.content) :
    s.partitions = t.partitions := by
  have hs : ∀ s : RawSide, s.partitions = s.content.partitions := fun _ => rfl
  rw [hs s, hs t, h]

/-! ## 置き場所 -/

/-- `write_pair` の置き場所が使える。二つの array は重ならず、使える範囲にもかからない。 -/
structure Layout (c : RawSide) (total ss : Nat) : Prop where
  primary_ge : 2 ≤ primaryEntries c ss
  apart : primaryEntries c ss + c.arraySectors ss ≤ total - 1 - c.arraySectors ss
  primaryOutside : primaryEntries c ss + c.arraySectors ss ≤ c.firstUsable
    ∨ c.lastUsable < primaryEntries c ss
  backupOutside : c.lastUsable < total - 1 - c.arraySectors ss
  headerOutside : 1 < c.firstUsable ∨ c.lastUsable < 1

/--
標準の置き場所が使える範囲の外にある。header は LBA 1 と最後の LBA、array は LBA 2 からと、
最後の header の直前である。
-/
def StandardOutside (c : RawSide) (total ss : Nat) : Prop :=
  ∀ x, c.firstUsable ≤ x → x ≤ c.lastUsable → x ≠ 1 ∧ x ≠ total - 1 ∧
    ¬ (2 ≤ x ∧ x < 2 + c.arraySectors ss) ∧ ¬ (total - 1 - c.arraySectors ss ≤ x ∧ x < total - 1)

/-- 二つの標準の array が重ならない。使える範囲が LBA 0 だけでなければ自動的に成り立つ。 -/
def StandardApart (c : RawSide) (total ss : Nat) : Prop :=
  2 + c.arraySectors ss ≤ total - 1 - c.arraySectors ss

/-- 標準の置き場所が外にあれば、使える範囲は二つの array の間にあるか、LBA 0 だけである。 -/
theorem StandardOutside.cases {c : RawSide} {total ss : Nat} (h : StandardOutside c total ss)
    (hf : FieldsOk c total ss) :
    (c.firstUsable = 0 ∧ c.lastUsable = 0) ∨
      (c.arraySectors ss + 2 ≤ c.firstUsable ∧ c.lastUsable < total - 1 - c.arraySectors ss) := by
  obtain ⟨hle, hlt⟩ := hf.usable
  obtain ⟨f1, f2, f3, f4⟩ := h c.firstUsable (le_refl _) hle
  obtain ⟨l1, l2, l3, l4⟩ := h c.lastUsable hle (le_refl _)
  have hone : c.firstUsable ≤ 1 → c.lastUsable < 1 := by
    intro hfu
    by_contra hlu
    exact (h 1 hfu (by omega)).1 rfl
  by_cases hfu : c.firstUsable ≤ 1
  · left
    have := hone hfu
    omega
  · right
    refine ⟨by omega, ?_⟩
    -- 使える範囲が最後の array をまたぐなら、array の中の LBA が含まれてしまう
    by_contra hge
    have hin : total - 1 - c.arraySectors ss ≤ c.lastUsable := Nat.not_lt.mp hge
    exact l4 ⟨hin, by omega⟩

theorem layout_of_standard {c : RawSide} {total ss : Nat} (h : StandardOutside c total ss)
    (hf : FieldsOk c total ss) (ha : StandardApart c total ss) : Layout c total ss := by
  unfold StandardApart at ha
  rcases h.cases hf with ⟨hfu, hlu⟩ | ⟨hfu, hlu⟩
  · have hpe : primaryEntries c ss = 2 := by
      unfold primaryEntries
      exact if_neg (by omega)
    exact ⟨by omega, by omega, Or.inr (by omega), by omega, Or.inr (by omega)⟩
  · have hle := hf.usable.1
    have hpe : primaryEntries c ss = c.firstUsable - c.arraySectors ss := by
      unfold primaryEntries
      exact if_pos ⟨by omega, by omega⟩
    exact ⟨by omega, by omega, Or.inl (by omega), hlu, Or.inl (by omega)⟩

theorem backupEntries_eq {c : RawSide} {total ss : Nat} (htotal : total < 2 ^ 63)
    (h : c.arraySectors ss ≤ total - 1) :
    backupEntries c total ss = total - 1 - c.arraySectors ss := by
  unfold backupEntries u64
  omega

/-! ## `write_pair` -/

/-- host が書き込みを許す。 -/
structure GateOpen (host : WriteHost) (options : MutationOptions) : Prop where
  offline : host.offline = .ok ()
  block : host.blockDevice = .ok false ∨
    host.blockDevice = .ok true ∧ options.allowBlockDevice = true

theorem GateOpen.writeGate_ok {host : WriteHost} {options : MutationOptions}
    (h : GateOpen host options) (refusal : String) : writeGate host options refusal = .ok () := by
  unfold writeGate
  rw [h.offline, Result.ok_bind]
  rcases h.block with hb | ⟨hb, ha⟩
  · rw [hb]; rfl
  · rw [hb, ha]; rfl

/-- backup の側の二つの書き込み。 -/
def backupWrites (c : RawSide) (entries : Bytes) (total ss : Nat) : List Write :=
  let be := total - 1 - c.arraySectors ss
  [⟨be * ss, entries⟩,
    ⟨(total - 1) * ss, makeHeader c (total - 1) 1 be (crc32IeeeFinal entries).toNat ss⟩]

/-- primary の側の二つの書き込み。 -/
def primaryWrites (c : RawSide) (entries : Bytes) (total ss : Nat) : List Write :=
  let pe := primaryEntries c ss
  [⟨pe * ss, entries⟩,
    ⟨ss, makeHeader c 1 (total - 1) pe (crc32IeeeFinal entries).toNat ss⟩]

/-- `write_pair` の event。 -/
def pairEvents (c : RawSide) (entries : Bytes) (total ss : Nat) : List Event :=
  (backupWrites c entries total ss).map .write ++ [.flush]
    ++ ((primaryWrites c entries total ss).map .write ++ [.flush])

/-- `write_pair` が書く primary の側。 -/
def primarySide (c : RawSide) (entries : Bytes) (total ss : Nat) : RawSide :=
  pairSide c 1 (total - 1) (primaryEntries c ss) ss entries

/-- `write_pair` が書く backup の側。 -/
def backupSide (c : RawSide) (entries : Bytes) (total ss : Nat) : RawSide :=
  pairSide c (total - 1) 1 (total - 1 - c.arraySectors ss) ss entries

section WritePair

variable {c : RawSide} {entries : Bytes} {total ss : Nat}

theorem fieldsOk_primarySide (hf : FieldsOk c total ss) (hl : Layout c total ss) :
    FieldsOk (primarySide c entries total ss) total ss := by
  have hpos := hl.primary_ge
  have hap := hl.apart
  have hlu := hl.backupOutside
  refine ⟨hf.headerSize, rfl, hf.entrySize, hf.entryCount, ?_, ?_, hf.usable, hl.primaryOutside,
    hl.headerOutside⟩
  · show primaryEntries c ss + c.arraySectors ss ≤ total
    omega
  · show total - 1 < total ∧ total - 1 ≠ 1
    omega

theorem fieldsOk_backupSide (hf : FieldsOk c total ss) (hl : Layout c total ss) :
    FieldsOk (backupSide c entries total ss) total ss := by
  have hpos := hl.primary_ge
  have hap := hl.apart
  have hlu := hl.backupOutside
  refine ⟨hf.headerSize, rfl, hf.entrySize, hf.entryCount, ?_, ?_, hf.usable, Or.inr hlu, ?_⟩
  · show total - 1 - c.arraySectors ss + c.arraySectors ss ≤ total
    omega
  · show 1 < total ∧ 1 ≠ total - 1
    omega
  · right
    show c.lastUsable < total - 1
    omega

/-- 書いた二つの側は一致する。 -/
theorem agree_pair {p b : RawSide} (hp : p = primarySide c entries total ss)
    (hb : b = backupSide c entries total ss) (hv : validateEntries { c with entries } = .ok ()) :
    Agree p b := by
  subst hp hb
  refine ⟨Or.inl rfl, fun _ => ?_, fun _ => ?_, fun _ _ => ?_⟩
  · rw [← hv]
    exact validateEntries_congr rfl
  · rw [← hv]
    exact validateEntries_congr rfl
  · simp only [sidesEqual, primarySide, backupSide, pairSide, beq_self_eq_true, Bool.and_self]

/-- backup の側を書いた像から、backup の header と array が読める。 -/
theorem read_backupWrites (hss : 0 < ss) (hlen : entries.length = c.arrayBytes)
    (hs : c.arraySectors ss ≤ total - 1) (img : Image) :
    (img.applyAll (backupWrites c entries total ss)).read ((total - 1) * ss) ss =
        makeHeader c (total - 1) 1 (total - 1 - c.arraySectors ss) (crc32IeeeFinal entries).toNat ss ∧
      (img.applyAll (backupWrites c entries total ss)).read ((total - 1 - c.arraySectors ss) * ss)
        c.arrayBytes = entries := by
  have hbytes := arrayBytes_le (s := c) hss
  have hsum : (total - 1 - c.arraySectors ss) * ss + c.arraySectors ss * ss = (total - 1) * ss := by
    rw [← Nat.add_mul]
    congr 1
    omega
  constructor
  · exact Image.read_write_self _ _ _ length_makeHeader
  · refine (Image.read_write_of_disjoint (Or.inl ?_)).trans (Image.read_write_self _ _ _ hlen)
    show (total - 1 - c.arraySectors ss) * ss + c.arrayBytes ≤ (total - 1) * ss
    omega

/-- primary の側を書いた像から、primary の header と array が読める。 -/
theorem read_primaryWrites (hlen : entries.length = c.arrayBytes)
    (hpe : 2 ≤ primaryEntries c ss) (img : Image) :
    (img.applyAll (primaryWrites c entries total ss)).read ss ss =
        makeHeader c 1 (total - 1) (primaryEntries c ss) (crc32IeeeFinal entries).toNat ss ∧
      (img.applyAll (primaryWrites c entries total ss)).read (primaryEntries c ss * ss)
        c.arrayBytes = entries := by
  have hmul : 2 * ss ≤ primaryEntries c ss * ss := Nat.mul_le_mul_right ss hpe
  constructor
  · exact Image.read_write_self _ _ _ length_makeHeader
  · refine (Image.read_write_of_disjoint (Or.inr ?_)).trans (Image.read_write_self _ _ _ hlen)
    show ss + (makeHeader _ _ _ _ _ _).length ≤ primaryEntries c ss * ss
    rw [length_makeHeader]
    omega

/-- primary の側の書き込みは、backup の array から後ろに触れない。 -/
theorem primaryWrites_below (hss : 0 < ss) (hlen : entries.length = c.arrayBytes)
    (hl : Layout c total ss) {w : Write} (hw : w ∈ primaryWrites c entries total ss) :
    w.off + w.bytes.length ≤ (total - 1 - c.arraySectors ss) * ss := by
  have hbytes := arrayBytes_le (s := c) hss
  have hpe := hl.primary_ge
  have hap : (primaryEntries c ss + c.arraySectors ss) * ss ≤ (total - 1 - c.arraySectors ss) * ss :=
    Nat.mul_le_mul_right ss hl.apart
  have hmul : 2 * ss ≤ primaryEntries c ss * ss := Nat.mul_le_mul_right ss hpe
  rw [Nat.add_mul] at hap
  simp only [primaryWrites, List.mem_cons, List.not_mem_nil, or_false] at hw
  rcases hw with rfl | rfl
  · show primaryEntries c ss * ss + entries.length ≤ _
    omega
  · show ss + (makeHeader _ _ _ _ _ _).length ≤ _
    rw [length_makeHeader]
    omega

end WritePair

/-- `write_pair` を終えた像。 -/
theorem replay_pairEvents (img : Image) (c : RawSide) (entries : Bytes) (total ss : Nat) :
    replay img (pairEvents c entries total ss) =
      (img.applyAll (backupWrites c entries total ss)).applyAll
        (primaryWrites c entries total ss) := rfl

/-- 書いた後の二つの側。 -/
theorem readSide_pairEvents {d : Disk} {c : RawSide} {entries : Bytes} (hb : Bounded c)
    (hf : FieldsOk c (totalSectors d) (sectorSize d))
    (hl : Layout c (totalSectors d) (sectorSize d)) (hlen : entries.length = c.arrayBytes) :
    let d' := d.emit (pairEvents c entries (totalSectors d) (sectorSize d))
    readSide d' 1 = .ok (primarySide c entries (totalSectors d) (sectorSize d)) ∧
      readSide d' (totalSectors d - 1)
        = .ok (backupSide c entries (totalSectors d) (sectorSize d)) := by
  have hss := sectorSize_pos d
  have hpe := hl.primary_ge
  have hap := hl.apart
  have hss92 : 92 ≤ sectorSize d := le_trans hf.headerSize.1 hf.headerSize.2
  let img1 := d.data.applyAll (backupWrites c entries (totalSectors d) (sectorSize d))
  obtain ⟨hph, hpa⟩ := @read_primaryWrites c entries (totalSectors d) _ hlen hpe img1
  obtain ⟨hbh, hba⟩ := read_backupWrites hss hlen
    (show c.arraySectors (sectorSize d) ≤ totalSectors d - 1 by omega) d.data
  -- primary の書き込みは手前だけを変えるので、backup の側は残る
  have hkeep : ∀ o n, (totalSectors d - 1 - c.arraySectors (sectorSize d)) * sectorSize d ≤ o →
      (img1.applyAll (primaryWrites c entries (totalSectors d) (sectorSize d))).read o n
        = img1.read o n := by
    intro o n ho
    refine Image.read_applyAll_of_disjoint _ _ _ _ fun w hw => Or.inr ?_
    exact le_trans (primaryWrites_below hss hlen hl hw) ho
  have hle : (totalSectors d - 1 - c.arraySectors (sectorSize d)) * sectorSize d
      ≤ (totalSectors d - 1) * sectorSize d := Nat.mul_le_mul_right _ (Nat.sub_le _ _)
  constructor
  · refine readSide_pairSide (by show 1 < totalSectors d; omega) hb hf.headerSize.1 hss92 ?_ hpa
      (fieldsOk_primarySide hf hl)
    rw [sectorSize_emit, Disk.emit_data, replay_pairEvents, Nat.one_mul]
    exact hph
  · refine readSide_pairSide (by show totalSectors d - 1 < totalSectors d; omega) hb
      hf.headerSize.1 hss92 ((hkeep _ _ hle).trans hbh) ((hkeep _ _ (le_refl _)).trans hba)
      (fieldsOk_backupSide hf hl)

/-- **`write_pair` は成功し、二つの一致する写しを残す。** -/
theorem run_writePair {d : Disk} {c : RawSide} {entries : Bytes} {host : WriteHost}
    {options : MutationOptions} (hg : GateOpen host options) (hw : d.writable = true)
    (htotal : 100 ≤ totalSectors d) (hb : Bounded c)
    (hf : FieldsOk c (totalSectors d) (sectorSize d))
    (hl : Layout c (totalSectors d) (sectorSize d)) (hlen : entries.length = c.arrayBytes)
    (hv : validateEntries { c with entries } = .ok ()) :
    Proc.run (writePair host c entries options) d = (.ok {
        backupWritten := true, primaryWritten := true, verified := true
        kernelRereadRequested := kernelReread host options d },
      d.emit (pairEvents c entries (totalSectors d) (sectorSize d))) := by
  have hss := sectorSize_pos d
  have hlt := totalSectors_lt d
  have hpe := hl.primary_ge
  have hap := hl.apart
  have hsize := totalSectors_mul_le d
  have hdlt := d.size_lt
  have hbytes := arrayBytes_le (s := c) hss
  have hbe := backupEntries_eq hlt (show c.arraySectors (sectorSize d) ≤ totalSectors d - 1 by omega)
  obtain ⟨hrp, hrb⟩ := readSide_pairEvents hb hf hl hlen
  -- 書く範囲はどれも device に収まる
  have hfit : ∀ k, k + c.arraySectors (sectorSize d) ≤ totalSectors d →
      u64 (k * sectorSize d) = k * sectorSize d ∧
        k * sectorSize d + entries.length ≤ d.sizeBytes := by
    intro k hk
    have hmul : (k + c.arraySectors (sectorSize d)) * sectorSize d
        ≤ totalSectors d * sectorSize d := Nat.mul_le_mul_right _ hk
    rw [Nat.add_mul] at hmul
    exact ⟨u64_of_lt (by omega), by omega⟩
  have hhdr : ∀ k, k < totalSectors d → k * sectorSize d + sectorSize d ≤ d.sizeBytes := by
    intro k hk
    have hmul : (k + 1) * sectorSize d ≤ totalSectors d * sectorSize d :=
      Nat.mul_le_mul_right _ hk
    rw [Nat.add_mul, Nat.one_mul] at hmul
    omega
  obtain ⟨hube, hwbe⟩ := hfit (totalSectors d - 1 - c.arraySectors (sectorSize d)) (by omega)
  obtain ⟨hupe, hwpe⟩ := hfit (primaryEntries c (sectorSize d)) (by omega)
  have hwbh := hhdr (totalSectors d - 1) (by omega)
  have hwph := hhdr 1 (by omega)
  rw [Nat.one_mul] at hwph
  have hverify : verifyPair (d.emit (pairEvents c entries (totalSectors d) (sectorSize d)))
      = .ok () := by
    have htable := (readRedundantTable_eq_ok_iff
      (d := d.emit (pairEvents c entries (totalSectors d) (sectorSize d)))).mpr
      ⟨le_trans (by decide) htotal, _, _, hrp, hrb, agree_pair rfl rfl hv, rfl⟩
    unfold verifyPair
    rw [htable]
    rfl
  unfold writePair
  rw [Proc.run_bind_ok (Proc.run_reading _ d |>.trans (by rw [hg.writeGate_ok])),
    Proc.run_bind_ok (Proc.run_get d), if_neg (by omega)]
  dsimp only
  rw [hbe, hube, hupe,
    Proc.run_bind_ok (DevM.run_write_ok hw hwbe),
    Proc.run_bind_ok (DevM.run_write_ok (by exact hw) (by rw [length_makeHeader]; exact hwbh)),
    Proc.run_bind_ok (DevM.run_flush _),
    Proc.run_bind_ok (DevM.run_write_ok (by exact hw) (by exact hwpe)),
    Proc.run_bind_ok (DevM.run_write_ok (by exact hw) (by rw [length_makeHeader]; exact hwph)),
    Proc.run_bind_ok (DevM.run_flush _)]
  simp only [Disk.emit_emit, List.cons_append, List.nil_append]
  rw [Proc.run_bind_ok (Proc.run_reading _ _ |>.trans (by exact congrArg (·, _) hverify))]
  rfl

/-- 写し自身の entry を書き直す場合。 -/
theorem run_writePair_self {d : Disk} {c : RawSide} {host : WriteHost} {options : MutationOptions}
    (hg : GateOpen host options) (hw : d.writable = true) (htotal : 100 ≤ totalSectors d)
    (hb : Bounded c) (hf : FieldsOk c (totalSectors d) (sectorSize d))
    (hl : Layout c (totalSectors d) (sectorSize d)) (hv : validateEntries c = .ok ()) :
    Proc.run (writePair host c c.entries options) d = (.ok {
        backupWritten := true, primaryWritten := true, verified := true
        kernelRereadRequested := kernelReread host options d },
      d.emit (pairEvents c c.entries (totalSectors d) (sectorSize d))) :=
  run_writePair hg hw htotal hb hf hl hb.entries hv

end Gpt

end Fsx
