import Fsx.Gpt.Crash

/-!
# GPT の metadata の退避と書き戻し

`backup_metadata` は二つの写しが有効であることだけを確かめて退避する。`restore_metadata` はそれに加えて、
退避した sector 0 が protective MBR であることを求める。したがって、sector 0 に protective MBR のない disk の
退避は成功するのに、書き戻せない。書き戻せるのは protective MBR があるときで、そのときに限る（`restores_iff`）。

書き戻す五つの断片は重なっていてもよい。どの断片も退避のときの disk の内容なので、重なったところでも
同じ値になる（`applyAll_copies`）。
-/

namespace Fsx.Gpt

/-! ## もとの像の写し -/

/-- `img` の内容をそのまま写す書き込みである。 -/
def CopiesFrom (img : Image) (w : Write) : Prop := w.bytes = img.read w.off w.bytes.length

/-- 番地 `i` に当たる書き込みがある。 -/
def Covered (ws : List Write) (i : Nat) : Prop :=
  ∃ w ∈ ws, w.off ≤ i ∧ i < w.off + w.bytes.length

theorem covered_cons {w : Write} {ws : List Write} {i : Nat} : Covered (w :: ws) i ↔
    (w.off ≤ i ∧ i < w.off + w.bytes.length) ∨ Covered ws i := by
  unfold Covered
  rw [List.exists_mem_cons_iff]

theorem not_covered_nil (i : Nat) : ¬ Covered [] i := by
  rintro ⟨w, hw, -⟩
  cases hw

/-- 写す書き込みをすべて施すと、当たったところはもとの像になり、ほかは変わらない。 -/
theorem applyAll_copies {src : Image} : ∀ {ws : List Write}, (∀ w ∈ ws, CopiesFrom src w) →
    ∀ (img : Image) (i : Nat), (Covered ws i → img.applyAll ws i = src i) ∧
      (¬ Covered ws i → img.applyAll ws i = img i)
  | [], _, _, i => ⟨fun h => absurd h (not_covered_nil i), fun _ => rfl⟩
  | w :: ws, hcopy, img, i => by
    have hw := hcopy w List.mem_cons_self
    have hone : w.off ≤ i ∧ i < w.off + w.bytes.length → img.write w.off w.bytes i = src i := by
      rintro ⟨h1, h2⟩
      rw [Image.write_apply_of_mem h1 h2]
      unfold CopiesFrom at hw
      rw [hw, List.getD_eq_getElem?_getD, Image.getElem?_read, if_pos (by omega),
        Nat.add_sub_cancel' h1]
      rfl
    have hout : ¬ (w.off ≤ i ∧ i < w.off + w.bytes.length) → img.write w.off w.bytes i = img i :=
      fun h => if_neg h
    obtain ⟨h1, h2⟩ := applyAll_copies (fun v hv => hcopy v (List.mem_cons_of_mem _ hv))
      (img.write w.off w.bytes) i
    rw [covered_cons, Image.applyAll_cons]
    by_cases hc : Covered ws i
    · exact ⟨fun _ => h1 hc, fun h => absurd (Or.inr hc) h⟩
    · constructor
      · intro h
        exact (h2 hc).trans (hone (h.resolve_right hc))
      · intro h
        rw [not_or] at h
        exact (h2 hc).trans (hout h.1)

/-! ## 退避した断片 -/

/-- sector の範囲は device に収まる。 -/
theorem sectors_fit {d : Disk} {lba n len : Nat} (h : lba + n ≤ totalSectors d)
    (hlen : len ≤ n * sectorSize d) : lba * sectorSize d + len ≤ d.sizeBytes := by
  have hmul := totalSectors_mul_le d
  have hle := Nat.mul_le_mul_right (sectorSize d) h
  rw [Nat.add_mul] at hle
  omega

/-- `restore_metadata` が書き戻す五つの断片。 -/
def BackupImage.writes (im : BackupImage) (ss : Nat) : List Write :=
  [⟨im.backupEntries * ss, im.be⟩, ⟨im.backupHeader * ss, im.bh⟩, ⟨im.primaryEntries * ss, im.pe⟩,
    ⟨ss, im.ph⟩, ⟨0, im.mbr⟩]

/-- 揃った disk から退避されるもの。 -/
def savedImage (d : Disk) : BackupImage where
  primaryEntries := (sideAt d 1).entriesLba
  backupEntries := (sideAt d (totalSectors d - 1)).entriesLba
  backupHeader := totalSectors d - 1
  mbr := d.data.read 0 (sectorSize d)
  ph := headerAt d 1
  pe := (sideAt d 1).entries
  be := (sideAt d (totalSectors d - 1)).entries
  bh := headerAt d (totalSectors d - 1)

/-- 断片を並べた payload。 -/
def BackupImage.payload (im : BackupImage) : Bytes := im.mbr ++ im.ph ++ im.pe ++ im.be ++ im.bh

theorem sideAt_entries (d : Disk) (lba : Nat) : (sideAt d lba).entries =
    d.data.read ((sideAt d lba).entriesLba * sectorSize d) (sideAt d lba).arrayBytes := rfl

theorem copies_savedImage (d : Disk) : ∀ w ∈ (savedImage d).writes (sectorSize d),
    CopiesFrom d.data w := by
  intro w hw
  unfold CopiesFrom
  simp only [BackupImage.writes, savedImage, List.mem_cons, List.not_mem_nil, or_false] at hw
  rcases hw with rfl | rfl | rfl | rfl | rfl
  · rw [sideAt_entries, Image.length_read]
  · show headerAt d _ = _
    rw [headerAt, Image.length_read]
  · rw [sideAt_entries, Image.length_read]
  · show headerAt d 1 = _
    rw [headerAt, Image.length_read, Nat.one_mul]
  · show d.data.read 0 _ = _
    rw [Image.length_read]

/-! ## 退避 file -/

/-- 退避できる disk。 -/
structure Saveable (d : Disk) : Prop where
  copies : BothValid d
  total : 2 ≤ totalSectors d
  sector_ge : 512 ≤ sectorSize d
  sector_le : sectorSize d ≤ 65536

section Saved

variable {d : Disk}

theorem Saveable.array_eq (h : Saveable d) :
    (sideAt d (totalSectors d - 1)).arrayBytes = (sideAt d 1).arrayBytes := by
  obtain ⟨hcont, -⟩ := sidesEqual_iff.mp h.copies.2.2
  obtain ⟨-, -, hcount, hsize, -⟩ := content_eq_iff.mp hcont
  unfold RawSide.arrayBytes
  rw [hcount, hsize]

theorem Saveable.first_fits (h : Saveable d) : sectorSize d ≤ d.sizeBytes := by
  have htotal := h.total
  have := @sectors_fit d 0 1 (sectorSize d) (by omega) (by omega)
  omega

/-- payload の長さ。 -/
theorem Saveable.length_payload (h : Saveable d) : (savedImage d).payload.length =
    3 * sectorSize d + 2 * (sideAt d 1).arrayBytes := by
  have harr := h.array_eq
  unfold BackupImage.payload savedImage
  simp only [List.length_append, sideAt_entries, headerAt, Image.length_read, harr]
  omega

/-- 読んだ順に並べた断片。 -/
theorem Saveable.payload_eq (h : Saveable d) : d.data.read 0 (sectorSize d) ++
    d.data.read (sectorSize d) (sectorSize d) ++
    d.data.read ((sideAt d 1).entriesLba * sectorSize d) (sideAt d 1).arrayBytes ++
    d.data.read ((sideAt d (totalSectors d - 1)).entriesLba * sectorSize d) (sideAt d 1).arrayBytes ++
    d.data.read ((totalSectors d - 1) * sectorSize d) (sectorSize d) = (savedImage d).payload := by
  unfold BackupImage.payload savedImage
  dsimp only
  rw [sideAt_entries, sideAt_entries, h.array_eq, headerAt, headerAt, Nat.one_mul]

/-- 揃った disk の table が言う entry array の大きさ。 -/
theorem Saveable.table_bytes (h : Saveable d) :
    (redundantTable d (sideAt d 1) (sideAt d (totalSectors d - 1))).entryCount *
      (redundantTable d (sideAt d 1) (sideAt d (totalSectors d - 1))).entrySize =
        (sideAt d 1).arrayBytes := by
  unfold redundantTable
  rw [if_pos h.copies.1.valid]
  rfl

/-- payload から取り出した断片。 -/
theorem Saveable.payload_slices (h : Saveable d) :
    slice (savedImage d).payload 0 (sectorSize d) = (savedImage d).mbr ∧
    slice (savedImage d).payload (sectorSize d) (sectorSize d) = (savedImage d).ph ∧
    slice (savedImage d).payload (2 * sectorSize d) (sideAt d 1).arrayBytes = (savedImage d).pe ∧
    slice (savedImage d).payload (2 * sectorSize d + (sideAt d 1).arrayBytes)
      (sideAt d 1).arrayBytes = (savedImage d).be ∧
    slice (savedImage d).payload (2 * sectorSize d + 2 * (sideAt d 1).arrayBytes) (sectorSize d) =
      (savedImage d).bh := by
  have l1 : (savedImage d).mbr.length = sectorSize d := Image.length_read ..
  have l2 : (savedImage d).ph.length = sectorSize d := Image.length_read ..
  have l3 : (savedImage d).pe.length = (sideAt d 1).arrayBytes := Image.length_read ..
  have l4 : (savedImage d).be.length = (sideAt d 1).arrayBytes :=
    (Image.length_read ..).trans h.array_eq
  have l5 : (savedImage d).bh.length = sectorSize d := Image.length_read ..
  generalize savedImage d = im at l1 l2 l3 l4 l5 ⊢
  have s1 := slice_append_middle (a := []) (b := im.mbr) (c := im.ph ++ im.pe ++ im.be ++ im.bh)
    List.length_nil l1
  have s2 := slice_append_middle (a := im.mbr) (b := im.ph) (c := im.pe ++ im.be ++ im.bh) l1 l2
  have s3 := slice_append_middle (a := im.mbr ++ im.ph) (b := im.pe) (c := im.be ++ im.bh)
    (k := 2 * sectorSize d) (by rw [List.length_append]; omega) l3
  have s4 := slice_append_middle (a := im.mbr ++ im.ph ++ im.pe) (b := im.be) (c := im.bh)
    (k := 2 * sectorSize d + (sideAt d 1).arrayBytes) (by simp only [List.length_append]; omega) l4
  have s5 := slice_append_middle (a := im.mbr ++ im.ph ++ im.pe ++ im.be) (b := im.bh) (c := [])
    (k := 2 * sectorSize d + 2 * (sideAt d 1).arrayBytes)
    (by simp only [List.length_append]; omega) l5
  simp only [List.nil_append, List.append_nil, ← List.append_assoc] at s1 s2 s3 s4 s5
  exact ⟨s1, s2, s3, s4, s5⟩

end Saved

/-- `backup_metadata` の書く file。 -/
def savedFile (d : Disk) : Bytes :=
  let h := backupHeaderBody (sectorSize d) d.sizeBytes (sideAt d 1).arrayBytes
    (sideAt d 1).entriesLba (sideAt d (totalSectors d - 1)).entriesLba (totalSectors d - 1)
    (3 * sectorSize d + 2 * (sideAt d 1).arrayBytes) (crc32cFinal (savedImage d).payload).toNat
  writeLe 4 h 68 (crc32cFinal h).toNat ++ (savedImage d).payload

theorem readPiece_eq_ok_iff {d : Disk} {size off n : Nat} {payload b : Bytes} :
    readPiece d size off n payload = .ok b ↔
      n ≤ size - payload.length ∧ off + n ≤ d.sizeBytes ∧ b = payload ++ d.data.read off n := by
  unfold readPiece
  rw [Result.guard_bind_eq_ok_iff, Nat.not_lt]
  constructor
  · rintro ⟨hn, h⟩
    obtain ⟨p, hp, h⟩ := Result.bind_eq_ok h
    obtain ⟨hin, rfl⟩ := Disk.readExact_eq_ok_iff.mp hp
    rw [Result.pure_eq_ok_iff] at h
    exact ⟨hn, hin, h⟩
  · rintro ⟨hn, hin, rfl⟩
    rw [Disk.readExact_ok hin, Result.ok_bind]
    exact ⟨hn, rfl⟩

/-- **退避が成功するのは二つの写しが揃っているときで、書かれる内容は決まっている。** -/
theorem backupMetadata_eq_ok {host : BackupHost} {d : Disk} {bytes : Bytes}
    (h : backupMetadata host d = .ok bytes) : Saveable d ∧ bytes = savedFile d ∧
      readRedundantTable d = .ok (redundantTable d (sideAt d 1) (sideAt d (totalSectors d - 1))) := by
  unfold backupMetadata at h
  obtain ⟨t, ht, h⟩ := Result.bind_eq_ok h
  simp only [Result.guard_bind_eq_ok_iff, Result.bind_eq_ok_iff, Result.pure_eq_ok_iff] at h
  obtain ⟨hflags, hss, -, htotal, p1, h1, p2, h2, p3, h3, p4, h4, p5, h5, -, -, -, -, -, hbytes⟩ := h
  simp only [not_or, not_not] at hflags
  obtain ⟨f1, f2, f3, f4⟩ := hflags
  have hboth := bothValid_of_table ht f1 f2 f3 f4
  have hlast : d.sizeBytes / sectorSize d = totalSectors d := rfl
  rw [hlast] at htotal h5 hbytes
  have hp := hboth.1.readSide_eq (by omega)
  have hb := hboth.2.1.readSide_eq (by omega)
  have hsave : Saveable d := ⟨hboth, by omega, by omega, by omega⟩
  obtain ⟨-, p, b, hp', hb', -, rfl⟩ := readRedundantTable_eq_ok_iff.mp ht
  rw [hp] at hp'
  rw [hb] at hb'
  cases hp'
  cases hb'
  rw [hsave.table_bytes] at h3 h4 h5 hbytes
  obtain ⟨-, -, rfl⟩ := readPiece_eq_ok_iff.mp h1
  obtain ⟨-, -, rfl⟩ := readPiece_eq_ok_iff.mp h2
  obtain ⟨-, -, rfl⟩ := readPiece_eq_ok_iff.mp h3
  obtain ⟨-, -, rfl⟩ := readPiece_eq_ok_iff.mp h4
  obtain ⟨-, -, rfl⟩ := readPiece_eq_ok_iff.mp h5
  refine ⟨hsave, ?_, ht⟩
  rw [List.nil_append] at hbytes
  exact hbytes.trans (by rw [savedFile, ← hsave.payload_eq]; rfl)

/-- 二つの写しが揃っていれば、host が断らないかぎり退避は成功する。 -/
theorem backupMetadata_ok {host : BackupHost} {d : Disk} (hs : Saveable d)
    (hcreate : host.createFile = .ok ()) (hpublish : host.publish = .ok ()) :
    backupMetadata host d = .ok (savedFile d) := by
  obtain ⟨hp, hb, heq⟩ := hs.copies
  have htotal := hs.total
  have hss := hs.sector_ge
  have hss' := hs.sector_le
  have hmax := arrayBytes_le_max hp.fields.entryCount.2 hp.fields.entrySize.2
  have htable := readRedundantTable_of_bothValid htotal hs.copies
  have hcount := hs.table_bytes
  have hflags : ¬ (¬ (redundantTable d (sideAt d 1) (sideAt d (totalSectors d - 1))).primaryHeaderCrcOk
      ∨ ¬ (redundantTable d (sideAt d 1) (sideAt d (totalSectors d - 1))).entriesCrcOk
      ∨ ¬ (redundantTable d (sideAt d 1) (sideAt d (totalSectors d - 1))).backupHeaderCrcOk
      ∨ ¬ (redundantTable d (sideAt d 1) (sideAt d (totalSectors d - 1))).backupEntriesCrcOk) := by
    simp only [redundantTable, hp.headerCrc, hp.entriesCrc, hb.headerCrc, hb.entriesCrc,
      not_true_eq_false, or_self, not_false_eq_true]
  have hlast : d.sizeBytes / sectorSize d = totalSectors d := rfl
  have hpl : (redundantTable d (sideAt d 1) (sideAt d (totalSectors d - 1))).primaryEntriesLba =
      (sideAt d 1).entriesLba := rfl
  have hbl : (redundantTable d (sideAt d 1) (sideAt d (totalSectors d - 1))).backupEntriesLba =
      (sideAt d (totalSectors d - 1)).entriesLba := rfl
  have hin0 := @sectors_fit d 0 1 (sectorSize d) (by omega) (by omega)
  have hin1 := @sectors_fit d 1 1 (sectorSize d) (by omega) (by omega)
  have hin2 := sectors_fit hp.fields.array (arrayBytes_le (sectorSize_pos d))
  have hin3 := sectors_fit hb.fields.array (arrayBytes_le (sectorSize_pos d))
  have hin4 := @sectors_fit d (totalSectors d - 1) 1 (sectorSize d) (by omega) (by omega)
  rw [hs.array_eq] at hin3
  have hpay := hs.length_payload
  unfold backupMetadata
  rw [htable, Result.ok_bind]
  dsimp only
  rw [if_neg hflags, if_neg (by omega), hcount, if_neg (by omega), hlast, if_neg (by omega), hpl, hbl,
    readPiece_eq_ok_iff.mpr ⟨by rw [List.length_nil]; omega, by omega, rfl⟩, Result.ok_bind,
    readPiece_eq_ok_iff.mpr ⟨?_, by omega, rfl⟩, Result.ok_bind,
    readPiece_eq_ok_iff.mpr ⟨?_, hin2, rfl⟩, Result.ok_bind,
    readPiece_eq_ok_iff.mpr ⟨?_, hin3, rfl⟩, Result.ok_bind,
    readPiece_eq_ok_iff.mpr ⟨?_, hin4, rfl⟩, Result.ok_bind]
  · rw [List.nil_append, hs.payload_eq, if_neg (not_not.mpr hpay), hcreate, Result.ok_bind, hpublish,
      Result.ok_bind]
    rfl
  all_goals
    simp only [List.length_append, List.length_nil, Image.length_read]
    omega

/-! ## 退避 file を読む -/

/-- 退避 file の header の欄を読み戻す。 -/
theorem backupHeader_fields {ss size eb pe be last ps crc c : Nat} (h1 : ss < 2 ^ 32)
    (h2 : size < 2 ^ 64) (h3 : eb < 2 ^ 64) (h4 : pe < 2 ^ 64) (h5 : be < 2 ^ 64)
    (h6 : last < 2 ^ 64) (h7 : ps < 2 ^ 64) (h8 : crc < 2 ^ 32) {h : Bytes}
    (hh : h = writeLe 4 (backupHeaderBody ss size eb pe be last ps crc) 68 c) :
    slice h 0 8 = backupMagic ∧ readLe 4 h 8 = 1 ∧ readLe 4 h 12 = ss ∧ readLe 8 h 16 = size ∧
      readLe 8 h 24 = eb ∧ readLe 8 h 32 = pe ∧ readLe 8 h 40 = be ∧ readLe 8 h 48 = last ∧
      readLe 8 h 56 = ps ∧ readLe 4 h 64 = crc := by
  have e1 : ss % 256 ^ 4 = ss := Nat.mod_eq_of_lt (by omega)
  have e2 : size % 256 ^ 8 = size := Nat.mod_eq_of_lt (by omega)
  have e3 : eb % 256 ^ 8 = eb := Nat.mod_eq_of_lt (by omega)
  have e4 : pe % 256 ^ 8 = pe := Nat.mod_eq_of_lt (by omega)
  have e5 : be % 256 ^ 8 = be := Nat.mod_eq_of_lt (by omega)
  have e6 : last % 256 ^ 8 = last := Nat.mod_eq_of_lt (by omega)
  have e7 : ps % 256 ^ 8 = ps := Nat.mod_eq_of_lt (by omega)
  have e8 : crc % 256 ^ 4 = crc := Nat.mod_eq_of_lt (by omega)
  rw [hh]
  unfold backupHeaderBody
  simp (disch := first | omega | simp) only [slice_writeLe_of_disjoint, readLe_writeLe_self,
    readLe_writeLe_of_disjoint, e1, e2, e3, e4, e5, e6, e7, e8, and_true]
  exact ⟨slice_patch_self rfl (by simp), by decide⟩

@[simp] theorem length_backupHeaderBody (ss size eb pe be last ps crc : Nat) :
    (backupHeaderBody ss size eb pe be last ps crc).length = 128 := by
  simp only [backupHeaderBody, length_writeLe, length_patch, length_zeros]

/-- 有効な写しは、退避した断片から同じものとして読み戻せる。 -/
theorem sideFromBackupBytes_of_validCopy {d : Disk} {lba : Nat} (h : ValidCopy d lba) :
    sideFromBackupBytes (headerAt d lba) (sideAt d lba).entries lba (totalSectors d) (sectorSize d) =
      .ok (sideAt d lba) := by
  have hlen : (headerAt d lba).length = sectorSize d := Image.length_read ..
  have hfields := (fieldsOk_iff (sectorSize_pos d) (totalSectors_lt d)).mp h.fields
  obtain ⟨hhs, hcur, hgeom, -, -, hval⟩ := hfields
  have hsize : (sideAt d lba).arrayBytes = (sideAt d lba).entries.length := by
    rw [sideAt_entries, Image.length_read]
  have hside : (parseHeader (headerAt d lba) lba).withEntries (sideAt d lba).entries = sideAt d lba :=
    rfl
  have hsig : slice (headerAt d lba) 0 8 = SIG := h.signed
  unfold sideFromBackupBytes
  rw [if_neg (by omega), List.take_of_length_le (by omega)]
  dsimp only
  rw [hside, if_neg (not_not.mpr hsig), if_neg (by exact hhs), if_neg (not_not.mpr (by exact h.headerCrc)),
    if_neg (by exact hcur), if_neg (by exact hgeom), if_neg (not_not.mpr (by exact hsize)),
    if_neg (not_not.mpr h.entriesCrc), hval, Result.ok_bind, h.entries, Result.ok_bind]
  rfl

/-- sector 0 が protective MBR であること。 -/
theorem protectiveMbrOk_iff {d : Disk} (hss : 512 ≤ sectorSize d) (hin : sectorSize d ≤ d.sizeBytes) :
    protectiveMbrOk d = true ↔ readLe 1 (d.data.read 0 (sectorSize d)) 510 = 0x55 ∧
      readLe 1 (d.data.read 0 (sectorSize d)) 511 = 0xaa ∧
      ((List.range 4).any fun i =>
        readLe 1 (d.data.read 0 (sectorSize d)) (446 + i * 16 + 4) == 0xee) = true := by
  unfold protectiveMbrOk
  dsimp only
  rw [if_neg (by omega), Disk.readExact_ok (by omega)]
  simp only [Bool.and_eq_true, beq_iff_eq, and_assoc]

/-- file の内容。 -/
def Holds (file : Disk) (bytes : Bytes) : Prop :=
  file.sizeBytes = bytes.length ∧ file.data.read 0 bytes.length = bytes

theorem Holds.readExact {file : Disk} {bytes : Bytes} (h : Holds file bytes) {off n : Nat}
    (hin : off + n ≤ bytes.length) : file.readExact off n = .ok (slice bytes off n) := by
  rw [Disk.readExact_ok (by rw [h.1]; exact hin)]
  have hs := Image.slice_read file.data 0 bytes.length off n hin
  rw [h.2, Nat.zero_add] at hs
  rw [hs]

section Load

variable {d target file : Disk}

/-- **退避した file の検査のうち、落ちうるのは sector 0 の検査だけである。** -/
theorem loadBackup_savedFile (hs : Saveable d) (hf : Holds file (savedFile d))
    (hsize : target.sizeBytes = d.sizeBytes) (hsector : sectorSize target = sectorSize d)
    {im : BackupImage} :
    loadBackup target file = .ok im ↔ protectiveMbrOk d = true ∧ im = savedImage d := by
  obtain ⟨hp, hb, heq⟩ := hs.copies
  have hss := hs.sector_ge
  have hss' := hs.sector_le
  have htotal := hs.total
  have htlt := totalSectors_lt d
  have hsz := d.size_lt
  have harr := hs.array_eq
  have hplen := hs.length_payload
  have hfp := hp.fields
  have hfb := hb.fields
  have hap := hfp.array
  have hab := hfb.array
  have hmax := arrayBytes_le_max hfp.entryCount.2 hfp.entrySize.2
  have hpos : 0 < (sideAt d 1).arrayBytes :=
    Nat.mul_pos hfp.entryCount.1 (by have := hfp.entrySize.1; omega)
  have hspos : 0 < (sideAt d 1).arraySectors (sectorSize d) :=
    arraySectors_pos (sectorSize_pos d) hfp.entryCount.1 (by have := hfp.entrySize.1; omega)
  have hsecs : (sideAt d (totalSectors d - 1)).arraySectors (sectorSize d) =
      (sideAt d 1).arraySectors (sectorSize d) := by
    unfold RawSide.arraySectors
    rw [harr]
  rw [hsecs] at hab
  -- header の欄
  generalize hbody : backupHeaderBody (sectorSize d) d.sizeBytes (sideAt d 1).arrayBytes
    (sideAt d 1).entriesLba (sideAt d (totalSectors d - 1)).entriesLba (totalSectors d - 1)
    (3 * sectorSize d + 2 * (sideAt d 1).arrayBytes) (crc32cFinal (savedImage d).payload).toNat = body
  have hblen : body.length = 128 := by rw [← hbody, length_backupHeaderBody]
  have hfile : savedFile d = writeLe 4 body 68 (crc32cFinal body).toNat ++ (savedImage d).payload := by
    rw [← hbody]
    rfl
  generalize hhead : writeLe 4 body 68 (crc32cFinal body).toNat = head at hfile
  have hhlen : head.length = 128 := by rw [← hhead, length_writeLe, hblen]
  obtain ⟨f1, f2, f3, f4, f5, f6, f7, f8, f9, f10⟩ := backupHeader_fields (by omega) (by omega)
    (by omega) (by omega) (by omega) (by omega) (by omega) (UInt32.toNat_lt _)
    (by rw [← hhead, ← hbody] : head = writeLe 4 (backupHeaderBody (sectorSize d) d.sizeBytes
      (sideAt d 1).arrayBytes (sideAt d 1).entriesLba (sideAt d (totalSectors d - 1)).entriesLba
      (totalSectors d - 1) (3 * sectorSize d + 2 * (sideAt d 1).arrayBytes)
      (crc32cFinal (savedImage d).payload).toNat) 68 (crc32cFinal body).toNat)
  have hzero : writeLe 4 body 68 0 = body := by
    rw [← hbody]
    exact writeLe_writeLe _ _ _ _ _
  have hcrc : (crc32cFinal (writeLe 4 head 68 0)).toNat = readLe 4 head 68 := by
    rw [← hhead, writeLe_writeLe, hzero, readLe_writeLe_self (by omega)]
    exact (Nat.mod_eq_of_lt (UInt32.toNat_lt _)).symm
  have hflen : (savedFile d).length = 128 + (3 * sectorSize d + 2 * (sideAt d 1).arrayBytes) := by
    rw [hfile, List.length_append, hhlen, hplen]
  have hread : file.readExact 0 128 = .ok head := by
    rw [hf.readExact (by omega), hfile]
    have := slice_append_middle (a := []) (b := head) (c := (savedImage d).payload) List.length_nil
      hhlen
    rw [List.nil_append] at this
    rw [this]
  have hreadp : file.readExact 128 (3 * sectorSize d + 2 * (sideAt d 1).arrayBytes) =
      .ok (savedImage d).payload := by
    rw [hf.readExact (by omega), hfile]
    have := slice_append_middle (a := head) (b := (savedImage d).payload) (c := []) hhlen hplen
    rw [List.append_nil] at this
    rw [this]
  obtain ⟨s1, s2, s3, s4, s5⟩ := hs.payload_slices
  have hps := sideFromBackupBytes_of_validCopy hp
  have hbs := sideFromBackupBytes_of_validCopy hb
  have htotEq : d.sizeBytes / sectorSize d = totalSectors d := rfl
  have hsecEq : ((sideAt d 1).arrayBytes + sectorSize d - 1) / sectorSize d =
      (sideAt d 1).arraySectors (sectorSize d) := rfl
  unfold loadBackup
  rw [hread, Result.ok_bind, if_neg (not_not.mpr f1), if_neg (not_not.mpr f2),
    if_neg (not_not.mpr hcrc)]
  dsimp only
  rw [f3, f4, f5, f6, f7, f8, f9, f10, hf.1, hflen, hsize, hsector, htotEq, hsecEq,
    if_neg (by omega), if_neg (by omega), if_neg (not_not.mpr rfl), if_neg (not_not.mpr rfl),
    if_neg (by omega), if_neg (by omega), hreadp, Result.ok_bind, if_neg (not_not.mpr rfl),
    s1, s2, s3, s4, s5]
  have hfirst := hs.first_fits
  -- 残る検査は、二つの写しが揃っていることから通る
  rw [Result.guard_bind_eq_ok_iff, Result.guard_bind_eq_ok_iff, protectiveMbrOk_iff hss hfirst,
    show sideFromBackupBytes (savedImage d).ph (savedImage d).pe 1 (totalSectors d) (sectorSize d) =
      .ok (sideAt d 1) from hps, Result.ok_bind,
    show sideFromBackupBytes (savedImage d).bh (savedImage d).be (totalSectors d - 1) (totalSectors d)
      (sectorSize d) = .ok (sideAt d (totalSectors d - 1)) from hbs, Result.ok_bind,
    if_neg (by simp), if_neg (not_not.mpr heq), Result.pure_eq_ok_iff, not_or, not_not, not_not, not_not,
    and_assoc, and_assoc, and_assoc]
  rfl

end Load

/-! ## 書き戻し -/

theorem sectorSize_congr {d target : Disk} (h : target.logicalSector = d.logicalSector) :
    sectorSize target = sectorSize d := by
  unfold sectorSize
  rw [h]

section Restore

variable {d target : Disk}

/-- 断片はどれも device に収まる。 -/
theorem Saveable.writes_fit (hs : Saveable d) : ∀ w ∈ (savedImage d).writes (sectorSize d),
    w.off + w.bytes.length ≤ d.sizeBytes := by
  have htotal := hs.total
  intro w hw
  simp only [BackupImage.writes, savedImage, List.mem_cons, List.not_mem_nil, or_false] at hw
  rcases hw with rfl | rfl | rfl | rfl | rfl <;>
    simp only [sideAt_entries, headerAt, Image.length_read]
  · exact sectors_fit hs.copies.2.1.fields.array (arrayBytes_le (sectorSize_pos d))
  · exact @sectors_fit d (totalSectors d - 1) 1 _ (by omega) (by omega)
  · exact sectors_fit hs.copies.1.fields.array (arrayBytes_le (sectorSize_pos d))
  · have := @sectors_fit d 1 1 (sectorSize d) (by omega) (by omega)
    omega
  · have := @sectors_fit d 0 1 (sectorSize d) (by omega) (by omega)
    omega

/-- 書き戻しの操作の列。 -/
def BackupImage.events (im : BackupImage) (ss : Nat) : List Event :=
  halves [⟨im.backupEntries * ss, im.be⟩, ⟨im.backupHeader * ss, im.bh⟩]
    [⟨im.primaryEntries * ss, im.pe⟩, ⟨ss, im.ph⟩, ⟨0, im.mbr⟩]

theorem replay_events (im : BackupImage) (ss : Nat) (img : Image) :
    replay img (im.events ss) = img.applyAll (im.writes ss) := by
  rw [BackupImage.events, replay_halves, ← Image.applyAll_append]
  rfl

/-- 退避した範囲の byte は退避のときのもの、ほかは書き戻す前のものになる。 -/
theorem emit_savedImage (i : Nat) :
    (Covered ((savedImage d).writes (sectorSize d)) i →
      (target.emit ((savedImage d).events (sectorSize d))).data i = d.data i) ∧
    (¬ Covered ((savedImage d).writes (sectorSize d)) i →
      (target.emit ((savedImage d).events (sectorSize d))).data i = target.data i) := by
  rw [Disk.emit_data, replay_events]
  exact applyAll_copies (copies_savedImage d) target.data i

/-- 書き戻した断片を読む。 -/
theorem read_emit_savedImage {w : Write} (hw : w ∈ (savedImage d).writes (sectorSize d)) :
    (target.emit ((savedImage d).events (sectorSize d))).data.read w.off w.bytes.length =
      d.data.read w.off w.bytes.length :=
  Image.read_congr fun i h1 h2 => (emit_savedImage i).1 ⟨w, hw, h1, h2⟩

/-- **書き戻した disk の検証は、もとの disk に protective MBR があれば通る。** -/
theorem verifyRestored_emit (hs : Saveable d) (hsize : target.sizeBytes = d.sizeBytes)
    (hsector : target.logicalSector = d.logicalSector) (hm : protectiveMbrOk d = true) :
    verifyRestored (target.emit ((savedImage d).events (sectorSize d))) = .ok () := by
  have hread := fun w => @read_emit_savedImage d target w
  generalize htgt : target.emit ((savedImage d).events (sectorSize d)) = target' at hread ⊢
  have hsize' : target'.sizeBytes = d.sizeBytes := by rw [← htgt]; exact hsize
  have hsector' : target'.logicalSector = d.logicalSector := by rw [← htgt]; exact hsector
  have hss := sectorSize_congr hsector'
  have htotal : totalSectors target' = totalSectors d := by
    unfold totalSectors
    rw [hsize', hss]
  have hmem : ∀ w ∈ (savedImage d).writes (sectorSize d), target'.data.read w.off w.bytes.length =
      d.data.read w.off w.bytes.length := fun w hw => hread w hw
  simp only [BackupImage.writes, savedImage, List.forall_mem_cons, sideAt_entries, headerAt,
    Image.length_read] at hmem
  obtain ⟨rbe, rbh, rpe, rph, rmbr, -⟩ := hmem
  have hsp : SameCopy d target' 1 := by
    refine ⟨hsize', hsector', ?_, rpe⟩
    unfold headerAt
    rw [hss, Nat.one_mul]
    exact rph
  have hsb : SameCopy d target' (totalSectors d - 1) := by
    refine ⟨hsize', hsector', ?_, rbe⟩
    unfold headerAt
    rw [hss]
    exact rbh
  have htot2 := hs.total
  have hvp := hsp.validCopy hs.copies.1
  have hvb := hsb.validCopy hs.copies.2.1
  have hboth : BothValid target' := by
    rw [BothValid, htotal, hsp.sideAt_eq, hsb.sideAt_eq]
    exact ⟨hvp, hvb, hs.copies.2.2⟩
  have htable := readRedundantTable_of_bothValid (by omega) hboth
  rw [htotal] at htable
  have hfirst := hs.first_fits
  have hmbr : protectiveMbrOk target' = true := by
    rw [protectiveMbrOk_iff (by rw [hss]; exact hs.sector_ge) (by rw [hss, hsize']; exact hfirst), hss,
      rmbr, ← protectiveMbrOk_iff hs.sector_ge hfirst]
    exact hm
  unfold verifyRestored
  rw [htable, Result.ok_bind]
  refine if_neg ?_
  have f1 : (sideAt target' 1).headerCrcOk = true := hvp.headerCrc
  have f2 : (sideAt target' 1).entriesCrcOk = true := hvp.entriesCrc
  have f3 : (sideAt target' (totalSectors d - 1)).headerCrcOk = true := hvb.headerCrc
  have f4 : (sideAt target' (totalSectors d - 1)).entriesCrcOk = true := hvb.entriesCrc
  simp only [redundantTable, tableFromSide, f1, f2, f3, f4, hmbr, not_true_eq_false, or_self,
    not_false_eq_true]

/-- 読めた退避を書き戻す手順は、五つの断片を書いて検証することである。 -/
theorem run_restoreMetadata {file : Disk} {host : WriteHost} {options : MutationOptions}
    {im : BackupImage} (hg : GateOpen host options) (hw : target.writable = true)
    (hload : loadBackup target file = .ok im)
    (hfit : ∀ w ∈ im.writes (sectorSize target), w.off + w.bytes.length ≤ target.sizeBytes)
    (hv : verifyRestored (target.emit (im.events (sectorSize target))) = .ok ()) :
    ∃ r, Proc.run (restoreMetadata host (.ok file) options) target =
      (.ok r, target.emit (im.events (sectorSize target))) := by
  simp only [BackupImage.writes, List.forall_mem_cons] at hfit
  obtain ⟨w1, w2, w3, w4, w5, -⟩ := hfit
  unfold restoreMetadata
  rw [Proc.run_bind_ok (Proc.run_reading _ target |>.trans (by rw [hg.writeGate_ok])),
    Proc.run_bind_ok (Proc.run_reading (fun _ => Except.ok file) target),
    Proc.run_bind_ok (Proc.run_get target),
    Proc.run_bind_ok (Proc.run_reading _ target |>.trans (by rw [hload])),
    Proc.run_bind_ok (DevM.run_write_ok hw w1),
    Proc.run_bind_ok (DevM.run_write_ok (d := target.emit _) hw w2),
    Proc.run_bind_ok (DevM.run_flush _), Disk.emit_emit, Disk.emit_emit,
    Proc.run_bind_ok (DevM.run_write_ok (d := target.emit _) hw w3), Disk.emit_emit,
    Proc.run_bind_ok (DevM.run_write_ok (d := target.emit _) hw w4), Disk.emit_emit,
    Proc.run_bind_ok (DevM.run_write_ok (d := target.emit _) hw w5),
    Proc.run_bind_ok (DevM.run_flush _)]
  simp only [Disk.emit_emit, List.cons_append, List.nil_append]
  have hlast : Proc.run (Proc.reading verifyRestored) (target.emit (im.events (sectorSize target))) =
      (.ok (), target.emit (im.events (sectorSize target))) := by rw [Proc.run_reading, hv]
  exact ⟨_, Proc.run_bind_ok hlast⟩

/-- 書き戻しが成功したなら、退避 file の検査は通っている。 -/
theorem loadBackup_of_restore {file target' : Disk} {host : WriteHost} {options : MutationOptions}
    {r : MutationReport}
    (h : Proc.run (restoreMetadata host (.ok file) options) target = (.ok r, target')) :
    ∃ im, loadBackup target file = .ok im := by
  obtain ⟨-, -, file', im, hfile, him, -⟩ := restore_of_ok h
  cases hfile
  exact ⟨im, him⟩

end Restore

/-! ## 往復 -/

/-- 番地 `i` が、退避された sector 0・二つの header・二つの entry array のどれかに入る。 -/
def InBackup (d : Disk) (t : Table) (i : Nat) : Prop :=
  i < 2 * sectorSize d ∨
  (t.primaryEntriesLba * sectorSize d ≤ i ∧
    i < t.primaryEntriesLba * sectorSize d + t.entryCount * t.entrySize) ∨
  (t.backupEntriesLba * sectorSize d ≤ i ∧
    i < t.backupEntriesLba * sectorSize d + t.entryCount * t.entrySize) ∨
  ((totalSectors d - 1) * sectorSize d ≤ i ∧
    i < (totalSectors d - 1) * sectorSize d + sectorSize d)

theorem covered_iff_inBackup {d : Disk} (hs : Saveable d) (i : Nat) :
    Covered ((savedImage d).writes (sectorSize d)) i ↔
      InBackup d (redundantTable d (sideAt d 1) (sideAt d (totalSectors d - 1))) i := by
  unfold InBackup BackupImage.writes savedImage
  rw [hs.table_bytes]
  simp only [covered_cons, iff_false_intro (not_covered_nil i), sideAt_entries, headerAt,
    Image.length_read, hs.array_eq, redundantTable, or_false]
  omega

/-- 退避した範囲だけが、退避のときの内容に戻っている。 -/
structure PutBack (d : Disk) (t : Table) (target target' : Disk) : Prop where
  saved : ∀ i, InBackup d t i → target'.data i = d.data i
  other : ∀ i, ¬ InBackup d t i → target'.data i = target.data i

/-- 退避した file は、同じ大きさと sector のどの disk にも書き戻せる。 -/
def Restores (d : Disk) (bytes : Bytes) : Prop :=
  ∃ t, readRedundantTable d = .ok t ∧ ∀ file target host options, Holds file bytes →
    target.sizeBytes = d.sizeBytes → target.logicalSector = d.logicalSector →
    target.writable = true → GateOpen host options →
    ∃ r target', Proc.run (restoreMetadata host (.ok file) options) target = (.ok r, target') ∧
      PutBack d t target target'

/-- 検査に落ちた file は、disk に何もしない。 -/
def RejectsQuietly : Prop :=
  ∀ file target host options e, loadBackup target file = .error e →
    ∃ e', Proc.run (restoreMetadata host (.ok file) options) target = (.error e', target)

theorem rejectsQuietly : RejectsQuietly := by
  intro file target host options e h
  unfold restoreMetadata
  cases hg : writeGate host options "GPT restore on a block device requires --allow-block-device" with
  | error e' =>
    rw [Proc.run_bind_error (Proc.run_reading (fun _ => Except.error e') target)]
    exact ⟨e', rfl⟩
  | ok u =>
    rw [Proc.run_bind_ok (Proc.run_reading (fun _ => Except.ok u) target),
      Proc.run_bind_ok (Proc.run_reading (fun _ => Except.ok file) target),
      Proc.run_bind_ok (Proc.run_get target),
      Proc.run_bind_error (Proc.run_reading _ target |>.trans (congrArg (·, target) h))]
    exact ⟨e, rfl⟩

/-- 内容が `bytes` の file。 -/
def fileOf (bytes : Bytes) (h : bytes.length < 2 ^ 63) : Disk where
  sizeBytes := bytes.length
  logicalSector := 512
  isBlockDevice := false
  writable := false
  data := Image.write (fun _ => 0) 0 bytes
  events := []
  size_lt := h

theorem holds_fileOf (bytes : Bytes) (h : bytes.length < 2 ^ 63) : Holds (fileOf bytes h) bytes :=
  ⟨rfl, Image.read_write_self _ _ _ rfl⟩

theorem Saveable.length_savedFile {d : Disk} (hs : Saveable d) : (savedFile d).length < 2 ^ 63 := by
  have hfp := hs.copies.1.fields
  have hmax := arrayBytes_le_max hfp.entryCount.2 hfp.entrySize.2
  have hle := hs.sector_le
  unfold savedFile
  simp only [List.length_append, length_writeLe, length_backupHeaderBody, hs.length_payload]
  omega

/--
**退避の往復。** 成功した退避がどの disk にも書き戻せ、検査に落ちた file が何も書かないのは、
退避のときの sector 0 が protective MBR であるとき、そのときに限る。
-/
theorem restores_iff {host : BackupHost} {d : Disk} {bytes : Bytes}
    (h : backupMetadata host d = .ok bytes) :
    (Restores d bytes ∧ RejectsQuietly) ↔ protectiveMbrOk d = true := by
  obtain ⟨hs, hbytes, ht⟩ := backupMetadata_eq_ok h
  rw [hbytes]
  constructor
  · rintro ⟨⟨t, -, hall⟩, -⟩
    have hf := holds_fileOf (savedFile d) hs.length_savedFile
    obtain ⟨r, target', hrun, -⟩ := hall _ { d with writable := true } quietWriteHost {} hf rfl rfl rfl
      (gateOpen_quiet {})
    obtain ⟨im, hload⟩ := loadBackup_of_restore hrun
    exact ((loadBackup_savedFile hs hf rfl rfl).mp hload).1
  · intro hm
    refine ⟨⟨_, ht, ?_⟩, rejectsQuietly⟩
    intro file target rhost options hf hsize hsector hw hg
    have hss := sectorSize_congr hsector
    have hload := (loadBackup_savedFile hs hf hsize hss).mpr ⟨hm, rfl⟩
    have hv := verifyRestored_emit hs hsize hsector hm
    obtain ⟨r, hrun⟩ := run_restoreMetadata hg hw hload
      (by rw [hss, hsize]; exact hs.writes_fit) (by rw [hss]; exact hv)
    rw [hss] at hrun
    refine ⟨r, _, hrun, fun i hi => ?_, fun i hi => ?_⟩
    · exact (emit_savedImage i).1 ((covered_iff_inBackup hs i).mpr hi)
    · exact (emit_savedImage i).2 (fun hc => hi ((covered_iff_inBackup hs i).mp hc))

/-- 一時 file の作成も公開もできる host。 -/
def quietBackupHost : BackupHost where
  createFile := .ok ()
  publish := .ok ()

/-- 揃った disk に protective MBR を書いたもの。 -/
def protectiveDisk : Disk := oneDisk.emit [.write ⟨450, [0xee]⟩, .write ⟨510, [0x55, 0xaa]⟩]

theorem saveable_oneDisk : Saveable oneDisk :=
  ⟨bothValid_oneDisk, by rw [totalSectors_oneDisk]; decide, by rw [sectorSize_oneDisk],
    by rw [sectorSize_oneDisk]; decide⟩

/-- sector 0 の外は、もとの disk と同じである。 -/
theorem read_protectiveDisk {o n : Nat} (h : 512 ≤ o) :
    protectiveDisk.data.read o n = oneDisk.data.read o n := by
  show ((oneDisk.data.write 450 [0xee]).write 510 [0x55, 0xaa]).read o n = _
  rw [Image.read_write_of_disjoint (Or.inr (by simp only [List.length_cons, List.length_nil]; omega)),
    Image.read_write_of_disjoint (Or.inr (by simp only [List.length_cons, List.length_nil]; omega))]

theorem sameCopy_protectiveDisk {lba : Nat} (hlba : 1 ≤ lba)
    (harr : 1 ≤ (sideAt oneDisk lba).entriesLba) : SameCopy oneDisk protectiveDisk lba := by
  refine ⟨Disk.emit_sizeBytes _ _, Disk.emit_logicalSector _ _, ?_, ?_⟩
  · unfold headerAt
    rw [show sectorSize protectiveDisk = sectorSize oneDisk from sectorSize_emit _ _, sectorSize_oneDisk]
    exact read_protectiveDisk (by omega)
  · rw [sectorSize_oneDisk]
    exact read_protectiveDisk (by omega)

theorem saveable_protectiveDisk : Saveable protectiveDisk := by
  obtain ⟨⟨hp, -⟩, hb, -⟩ := copies_oneDisk
  have hsp := @sameCopy_protectiveDisk 1 (by decide) (by rw [hp]; decide)
  have hsb := @sameCopy_protectiveDisk 99 (by decide) (by rw [hb]; decide)
  obtain ⟨hvp, hvb, heq⟩ := bothValid_oneDisk
  have htotal : totalSectors protectiveDisk = totalSectors oneDisk := totalSectors_emit _ _
  rw [totalSectors_oneDisk] at hvb heq htotal
  have hss : sectorSize protectiveDisk = sectorSize oneDisk := sectorSize_emit _ _
  rw [sectorSize_oneDisk] at hss
  refine ⟨⟨hsp.validCopy hvp, ?_, ?_⟩, by omega, by omega, by omega⟩
  · rw [htotal]
    exact hsb.validCopy hvb
  · rw [htotal, hsp.sideAt_eq, hsb.sideAt_eq]
    exact heq

theorem protectiveMbrOk_protectiveDisk : protectiveMbrOk protectiveDisk = true := by
  decide +kernel

theorem restores_protectiveDisk : ∃ bytes, backupMetadata quietBackupHost protectiveDisk = .ok bytes ∧
    Restores protectiveDisk bytes := by
  have h := @backupMetadata_ok quietBackupHost _ saveable_protectiveDisk rfl rfl
  exact ⟨_, h, ((restores_iff h).mpr protectiveMbrOk_protectiveDisk).1⟩

/-- sector 0 が零の disk の退避は成功するのに、書き戻せない。 -/
theorem backup_not_restorable : ∃ bytes, backupMetadata quietBackupHost oneDisk = .ok bytes ∧
    ¬ Restores oneDisk bytes := by
  have h := @backupMetadata_ok quietBackupHost _ saveable_oneDisk rfl rfl
  refine ⟨_, h, ?_⟩
  rintro ⟨t, -, hall⟩
  have hf := holds_fileOf (savedFile oneDisk) saveable_oneDisk.length_savedFile
  obtain ⟨r, target', hrun, -⟩ := hall _ oneDisk quietWriteHost {} hf rfl rfl rfl (gateOpen_quiet {})
  obtain ⟨im, hload⟩ := loadBackup_of_restore hrun
  have hm := ((loadBackup_savedFile saveable_oneDisk hf rfl rfl).mp hload).1
  exact absurd hm (by decide +kernel)

end Fsx.Gpt
