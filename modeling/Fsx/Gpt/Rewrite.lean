import Fsx.Gpt.Crash
import Fsx.Io.Tear

/-!
# 更新の途中で止まった disk

三つの更新は、どれも同じ形をしている。backup の array と header を書いて flush し、
primary の array と header を書いて flush する（`Rewrite`）。

* 書く table がもとと違えば、前半を flush した時点で、有効な写しが二つ食い違って残る
  （`Rewrite.disagrees`）。
* 書く table も array の位置ももとと同じなら、変わるのは header の CRC と予約領域と
  末尾だけである。どこで止まっても、それぞれの側は、もとの table を表すか、CRC が合わないかの
  どちらかで、食い違うことはない（`Rewrite.acceptable`）。
-/

namespace Fsx.Gpt

/-! ## field の等しい header -/

/-- CRC と予約領域を除いて、二つの header の先頭 92 byte が等しい。 -/
structure SameFields (h h' : Bytes) : Prop where
  length : h'.length = h.length
  bytes : ∀ i : Nat, i < 92 → ¬ (16 ≤ i ∧ i < 24) → h'[i]? = h[i]?

section SameFields

variable {h h' entries : Bytes} {lba : Nat}

theorem SameFields.slice_eq (hs : SameFields h h') {o n : Nat} (hn : o + n ≤ 92)
    (hout : o + n ≤ 16 ∨ 24 ≤ o) : slice h' o n = slice h o n := by
  refine List.ext_getElem? fun i => ?_
  rw [getElem?_slice, getElem?_slice]
  by_cases hi : i < n
  · rw [if_pos hi, if_pos hi, hs.bytes _ (by omega) (by omega)]
  · rw [if_neg hi, if_neg hi]

theorem SameFields.readLe_eq (hs : SameFields h h') {o n : Nat} (hn : o + n ≤ 92)
    (hout : o + n ≤ 16 ∨ 24 ≤ o) : readLe n h' o = readLe n h o :=
  congrArg leNat (hs.slice_eq hn hout)

/-- field の等しい header の側は、header の CRC の結果のほかは同じである。 -/
theorem SameFields.side_eq (hs : SameFields h h') :
    (parseHeader h' lba).withEntries entries = { (parseHeader h lba).withEntries entries with
      headerCrcOk := (parseHeader h' lba).headerCrcOk, header := h' } := by
  have hcrc : readLe 4 h' 88 = readLe 4 h 88 := hs.readLe_eq (by decide) (by decide)
  simp only [RawSide.withEntries, parseHeader, hcrc, hs.readLe_eq (n := 8) (o := 24) (by decide) (by decide),
    hs.readLe_eq (n := 8) (o := 32) (by decide) (by decide),
    hs.readLe_eq (n := 8) (o := 40) (by decide) (by decide),
    hs.readLe_eq (n := 8) (o := 48) (by decide) (by decide),
    hs.readLe_eq (n := 8) (o := 72) (by decide) (by decide),
    hs.readLe_eq (n := 4) (o := 8) (by decide) (by decide),
    hs.readLe_eq (n := 4) (o := 12) (by decide) (by decide),
    hs.readLe_eq (n := 4) (o := 80) (by decide) (by decide),
    hs.readLe_eq (n := 4) (o := 84) (by decide) (by decide),
    hs.slice_eq (n := 16) (o := 56) (by decide) (by decide)]

theorem getElem?_of_slice_eq {o n : Nat} (hs : slice h' o n = slice h o n) {i : Nat} (h1 : o ≤ i)
    (h2 : i < o + n) : h'[i]? = h[i]? := by
  have hi := congrArg (·[i - o]?) hs
  simp only [getElem?_slice, if_pos (show i - o < n by omega),
    show o + (i - o) = i by omega] at hi
  exact hi

theorem slice_eq_of_readLe {o n : Nat} (h1 : o + n ≤ h.length) (h2 : o + n ≤ h'.length)
    (hr : readLe n h' o = readLe n h o) : slice h' o n = slice h o n := by
  have l1 := length_slice h1
  have l2 := length_slice h2
  rw [← leBytes_leNat (slice h' o n), ← leBytes_leNat (slice h o n), l1, l2]
  exact congrArg (leBytes n) hr

/-- 同じ値を持つ二つの側の header は、field が等しい。 -/
theorem sameFields_of_sides {s s' : RawSide} (hlen : h'.length = h.length) (h92 : 92 ≤ h.length)
    (hsig : slice h 0 8 = SIG) (hsig' : slice h' 0 8 = SIG)
    (hs : s = (parseHeader h lba).withEntries entries)
    (hs' : s' = (parseHeader h' lba).withEntries entries)
    (hcont : s.content = s'.content) (hrev : s.revision = s'.revision)
    (hsize : s.headerSize = s'.headerSize) (hguid : s.diskGuid = s'.diskGuid)
    (hcur : s.currentLba = s'.currentLba) (hbak : s.backupLba = s'.backupLba)
    (helba : s.entriesLba = s'.entriesLba) (hcrc : s.entriesCrcOk = true)
    (hcrc' : s'.entriesCrcOk = true) : SameFields h h' := by
  obtain ⟨hfu, hlu, hcount, hes, -⟩ := content_eq_iff.mp hcont
  subst hs hs'
  have hc : readLe 4 h' 88 = readLe 4 h 88 :=
    (beq_iff_eq.mp hcrc').symm.trans (beq_iff_eq.mp hcrc)
  have hword : ∀ o n, o + n ≤ 92 → readLe n h' o = readLe n h o → ∀ i, o ≤ i → i < o + n →
      h'[i]? = h[i]? := fun o n hn hr i h1 h2 =>
    getElem?_of_slice_eq (slice_eq_of_readLe (by omega) (by omega) hr) h1 h2
  refine ⟨hlen, fun i hi hout => ?_⟩
  have hcases : (0 ≤ i ∧ i < 0 + 8) ∨ (8 ≤ i ∧ i < 8 + 4) ∨ (12 ≤ i ∧ i < 12 + 4) ∨
      (24 ≤ i ∧ i < 24 + 8) ∨ (32 ≤ i ∧ i < 32 + 8) ∨ (40 ≤ i ∧ i < 40 + 8) ∨
      (48 ≤ i ∧ i < 48 + 8) ∨ (56 ≤ i ∧ i < 56 + 16) ∨ (72 ≤ i ∧ i < 72 + 8) ∨
      (80 ≤ i ∧ i < 80 + 4) ∨ (84 ≤ i ∧ i < 84 + 4) ∨ (88 ≤ i ∧ i < 88 + 4) := by omega
  rcases hcases with ⟨h1, h2⟩ | ⟨h1, h2⟩ | ⟨h1, h2⟩ | ⟨h1, h2⟩ | ⟨h1, h2⟩ | ⟨h1, h2⟩ | ⟨h1, h2⟩ |
    ⟨h1, h2⟩ | ⟨h1, h2⟩ | ⟨h1, h2⟩ | ⟨h1, h2⟩ | ⟨h1, h2⟩
  · exact getElem?_of_slice_eq (hsig'.trans hsig.symm) h1 h2
  · exact hword _ _ (by decide) hrev.symm _ h1 h2
  · exact hword _ _ (by decide) hsize.symm _ h1 h2
  · exact hword _ _ (by decide) hcur.symm _ h1 h2
  · exact hword _ _ (by decide) hbak.symm _ h1 h2
  · exact hword _ _ (by decide) hfu.symm _ h1 h2
  · exact hword _ _ (by decide) hlu.symm _ h1 h2
  · exact getElem?_of_slice_eq hguid.symm h1 h2
  · exact hword _ _ (by decide) helba.symm _ h1 h2
  · exact hword _ _ (by decide) hcount.symm _ h1 h2
  · exact hword _ _ (by decide) hes.symm _ h1 h2
  · exact hword _ _ (by decide) hc _ h1 h2

end SameFields

/-! ## 片側の途中で止まった disk -/

section Side

variable {d d2 : Disk} {lba : Nat}

/-- header の field と array が変わっていない側は、header の CRC の結果のほかは同じである。 -/
theorem sideAt_of_sameFields (hsector : sectorSize d2 = sectorSize d)
    (hs : SameFields (headerAt d lba) (headerAt d2 lba))
    (harr : d2.data.read ((sideAt d lba).entriesLba * sectorSize d) (sideAt d lba).arrayBytes =
      (sideAt d lba).entries) :
    sideAt d2 lba = { sideAt d lba with
      headerCrcOk := (sideAt d2 lba).headerCrcOk, header := headerAt d2 lba } := by
  have helba : (parseHeader (headerAt d2 lba) lba).entriesLba = (sideAt d lba).entriesLba :=
    hs.readLe_eq (by decide) (by decide)
  have hbytes : (parseHeader (headerAt d2 lba) lba).arrayBytes = (sideAt d lba).arrayBytes :=
    congrArg₂ (· * ·) (hs.readLe_eq (n := 4) (o := 80) (by decide) (by decide))
      (hs.readLe_eq (n := 4) (o := 84) (by decide) (by decide))
  have hside : sideAt d2 lba =
      (parseHeader (headerAt d2 lba) lba).withEntries (sideAt d lba).entries := by
    rw [← harr, ← helba, ← hbytes, ← hsector]
    rfl
  rw [hside]
  exact hs.side_eq

variable (htotal : totalSectors d2 = totalSectors d) (hsector : sectorSize d2 = sectorSize d)
  (hv : ValidCopy d lba) (hs : SameFields (headerAt d lba) (headerAt d2 lba))
  (harr : d2.data.read ((sideAt d lba).entriesLba * sectorSize d) (sideAt d lba).arrayBytes =
    (sideAt d lba).entries)
include htotal hsector hv hs harr

/-- そのような側の field は、検査を通る。 -/
theorem fieldsOk_of_sameFields :
    FieldsOk (sideAt d2 lba) (totalSectors d2) (sectorSize d2) := by
  have hf := hv.fields
  rw [sideAt_of_sameFields hsector hs harr, htotal, hsector]
  exact ⟨hf.headerSize, hf.current, hf.entrySize, hf.entryCount, hf.array, hf.alternate, hf.usable,
    hf.arrayOutside, hf.headerOutside⟩

/-- header の CRC が合っていれば、有効な写しである。 -/
theorem validCopy_of_sameFields (hcrc : (sideAt d2 lba).headerCrcOk = true) : ValidCopy d2 lba := by
  have hside := sideAt_of_sameFields hsector hs harr
  refine ⟨(hs.slice_eq (o := 0) (n := 8) (by decide) (by decide)).trans hv.signed,
    fieldsOk_of_sameFields htotal hsector hv hs harr, hcrc, by rw [hside]; exact hv.entriesCrc, ?_⟩
  rw [hside, ← hv.entries]
  exact validateEntries_congr rfl

/-- そのような側は、有効か、壊れ方が見分けられるかである。 -/
theorem acceptable_of_sameFields : ValidCopy d2 lba ∨ SoftDamage d2 lba := by
  by_cases hcrc : (sideAt d2 lba).headerCrcOk = true
  · exact Or.inl (validCopy_of_sameFields htotal hsector hv hs harr hcrc)
  · exact Or.inr (Or.inr ⟨fieldsOk_of_sameFields htotal hsector hv hs harr, fun h => hcrc h.1⟩)

end Side

/-! ## 更新が置くもの -/

/-- 更新が置くもの。entry array を二か所に、header を二つ置く。 -/
structure Rewrite where
  entries : Bytes
  primaryEntries : Nat
  backupEntries : Nat
  primaryHeader : Bytes
  backupHeader : Bytes
  /-- header の後に LBA 0 へ書くもの -/
  boot : List Write

/-- すべての検査を通る側。 -/
structure Complete (s : RawSide) (total ss : Nat) : Prop where
  fields : FieldsOk s total ss
  headerCrc : s.headerCrcOk = true
  entriesCrc : s.entriesCrcOk = true
  entries : validateEntries s = .ok ()

namespace Rewrite

/-- 最初の flush までに書くもの。 -/
def first (r : Rewrite) (total ss : Nat) : List Write :=
  [⟨r.backupEntries * ss, r.entries⟩, ⟨(total - 1) * ss, r.backupHeader⟩]

/-- 最初の flush の後に書くもの。 -/
def second (r : Rewrite) (ss : Nat) : List Write :=
  [⟨r.primaryEntries * ss, r.entries⟩, ⟨ss, r.primaryHeader⟩] ++ r.boot

/-- 置いた primary の側。 -/
def primarySide (r : Rewrite) : RawSide := (parseHeader r.primaryHeader 1).withEntries r.entries

/-- 置いた backup の側。 -/
def backupSide (r : Rewrite) (total : Nat) : RawSide :=
  (parseHeader r.backupHeader (total - 1)).withEntries r.entries

/-- 置くものが、一致する二つの有効な側である。 -/
structure Sound (r : Rewrite) (total ss : Nat) : Prop where
  primarySig : slice r.primaryHeader 0 8 = SIG
  backupSig : slice r.backupHeader 0 8 = SIG
  primaryLength : r.primaryHeader.length = ss
  backupLength : r.backupHeader.length = ss
  entriesLength : r.entries.length = (r.backupSide total).arrayBytes
  primary : Complete r.primarySide total ss
  backup : Complete (r.backupSide total) total ss
  equal : sidesEqual r.primarySide (r.backupSide total) = true
  primaryAt : r.primarySide.entriesLba = r.primaryEntries
  backupAt : (r.backupSide total).entriesLba = r.backupEntries
  boot : ∀ w ∈ r.boot, w.off + w.bytes.length ≤ ss

/-- backup の array は、もとの primary の array と置く primary の array の後ろ、最後の sector の手前にある。 -/
structure Clear (r : Rewrite) (d : Disk) : Prop where
  header : 2 ≤ r.backupEntries
  old : (sideAt d 1).entriesLba + (sideAt d 1).arraySectors (sectorSize d) ≤ r.backupEntries
  primary : r.primaryEntries + (r.backupSide (totalSectors d)).arraySectors (sectorSize d) ≤
    r.backupEntries
  last : r.backupEntries + (r.backupSide (totalSectors d)).arraySectors (sectorSize d) ≤
    totalSectors d - 1

variable {r : Rewrite} {d : Disk}

/-- 置いた backup の header と array を持つ disk の backup の側は、置いたとおりの有効な写しである。 -/
theorem Sound.placed (hs : r.Sound (totalSectors d) (sectorSize d)) {d2 : Disk}
    (htotal : totalSectors d2 = totalSectors d) (hsector : sectorSize d2 = sectorSize d)
    (hhdr : d2.data.read ((totalSectors d - 1) * sectorSize d) (sectorSize d) = r.backupHeader)
    (harr : d2.data.read (r.backupEntries * sectorSize d) r.entries.length = r.entries) :
    sideAt d2 (totalSectors d - 1) = r.backupSide (totalSectors d) ∧
      ValidCopy d2 (totalSectors d - 1) := by
  have hhead : headerAt d2 (totalSectors d - 1) = r.backupHeader := by
    rw [headerAt, hsector, hhdr]
  have hside : sideAt d2 (totalSectors d - 1) = r.backupSide (totalSectors d) := by
    have harr' : d2.data.read ((parseHeader r.backupHeader (totalSectors d - 1)).entriesLba *
        sectorSize d2) (parseHeader r.backupHeader (totalSectors d - 1)).arrayBytes = r.entries := by
      rw [hsector]
      have h1 : (parseHeader r.backupHeader (totalSectors d - 1)).entriesLba = r.backupEntries :=
        hs.backupAt
      have h2 : (parseHeader r.backupHeader (totalSectors d - 1)).arrayBytes = r.entries.length :=
        hs.entriesLength.symm
      rw [h1, h2]
      exact harr
    unfold sideAt
    rw [hhead]
    dsimp only
    rw [harr']
    rfl
  refine ⟨hside, ?_, ?_, ?_, ?_, ?_⟩
  · rw [Signed, hhead]
    exact hs.backupSig
  · rw [hside, htotal, hsector]
    exact hs.backup.fields
  · rw [hside]
    exact hs.backup.headerCrc
  · rw [hside]
    exact hs.backup.entriesCrc
  · rw [hside]
    exact hs.backup.entries

/-- 置く array は、占める sector に収まる。 -/
theorem Sound.entries_le (hs : r.Sound (totalSectors d) (sectorSize d)) : r.entries.length ≤
    (r.backupSide (totalSectors d)).arraySectors (sectorSize d) * sectorSize d := by
  rw [hs.entriesLength]
  exact arrayBytes_le (sectorSize_pos d)

/-- 前半の書き込みは、もとの primary の写しに触れない。 -/
theorem Clear.first_avoids (hc : r.Clear d) : ∀ w ∈ r.first (totalSectors d) (sectorSize d), Avoids d 1 w := by
  intro w hw
  have hss := sectorSize_pos d
  have hold := Nat.mul_le_mul_right (sectorSize d) hc.old
  have hheader := Nat.mul_le_mul_right (sectorSize d) hc.header
  have hlast := Nat.mul_le_mul_right (sectorSize d) (le_trans (Nat.le_add_right _ _) hc.last)
  have hbytes := arrayBytes_le (s := sideAt d 1) hss
  rw [Nat.add_mul] at hold
  have hoff : r.backupEntries * sectorSize d ≤ w.off := by
    simp only [first, List.mem_cons, List.not_mem_nil, or_false] at hw
    rcases hw with rfl | rfl
    · exact le_refl _
    · exact hlast
  exact ⟨Or.inl (by omega), Or.inl (by omega)⟩

section Places

variable (hs : r.Sound (totalSectors d) (sectorSize d)) (hc : r.Clear d)
include hs hc

/-- 前半を書くと、backup の側が置いたとおりに読める。 -/
theorem Sound.read_first (img : Image) :
    (img.applyAll (r.first (totalSectors d) (sectorSize d))).read
        ((totalSectors d - 1) * sectorSize d) (sectorSize d) = r.backupHeader ∧
      (img.applyAll (r.first (totalSectors d) (sectorSize d))).read (r.backupEntries * sectorSize d)
        r.entries.length = r.entries := by
  have hle := hs.entries_le
  have hlast := Nat.mul_le_mul_right (sectorSize d) hc.last
  rw [Nat.add_mul] at hlast
  constructor
  · exact Image.read_write_self _ _ _ hs.backupLength
  · refine (Image.read_write_of_disjoint (Or.inl ?_)).trans (Image.read_write_self _ _ _ rfl)
    show r.backupEntries * sectorSize d + r.entries.length ≤ (totalSectors d - 1) * sectorSize d
    omega

/-- 後半の書き込みは、backup の array から後ろに触れない。 -/
theorem Sound.second_below {w : Write} (hw : w ∈ r.second (sectorSize d)) :
    w.off + w.bytes.length ≤ r.backupEntries * sectorSize d := by
  have hle := hs.entries_le
  have hprimary := Nat.mul_le_mul_right (sectorSize d) hc.primary
  have hheader := Nat.mul_le_mul_right (sectorSize d) hc.header
  rw [Nat.add_mul] at hprimary
  simp only [second, List.cons_append, List.nil_append, List.mem_cons] at hw
  rcases hw with rfl | rfl | hw
  · show r.primaryEntries * sectorSize d + r.entries.length ≤ _
    omega
  · show sectorSize d + r.primaryHeader.length ≤ _
    rw [hs.primaryLength]
    omega
  · have := hs.boot w hw
    omega

/-- 書き終えた disk の backup の側は、置いたとおりである。 -/
theorem Sound.sideAt_done : sideAt (d.emit (halves (r.first (totalSectors d) (sectorSize d))
    (r.second (sectorSize d)))) (totalSectors d - 1) = r.backupSide (totalSectors d) := by
  obtain ⟨hhdr, harr⟩ := hs.read_first hc d.data
  have hkeep : ∀ o n, r.backupEntries * sectorSize d ≤ o →
      (d.emit (halves (r.first (totalSectors d) (sectorSize d)) (r.second (sectorSize d)))).data.read
        o n = (d.data.applyAll (r.first (totalSectors d) (sectorSize d))).read o n := by
    intro o n ho
    rw [Disk.emit_data, replay_halves]
    exact Image.read_applyAll_of_disjoint _ _ _ _ fun w hw =>
      Or.inr (le_trans (hs.second_below hc hw) ho)
  have hlast := Nat.mul_le_mul_right (sectorSize d) (le_trans (Nat.le_add_right _ _) hc.last)
  refine (@Sound.placed r d hs (d.emit _) rfl rfl ?_ ?_).1
  · rw [hkeep _ _ hlast, hhdr]
  · rw [hkeep _ _ (le_refl _), harr]

/-- 後半の書き込みは、置いた backup の写しに触れない。 -/
theorem Sound.second_avoids : ∀ w ∈ r.second (sectorSize d), Avoids (d.emit (halves
    (r.first (totalSectors d) (sectorSize d)) (r.second (sectorSize d)))) (totalSectors d - 1) w := by
  intro w hw
  have hbelow := hs.second_below hc hw
  have hlast := Nat.mul_le_mul_right (sectorSize d) (le_trans (Nat.le_add_right _ _) hc.last)
  constructor
  · right
    rw [sectorSize_emit]
    omega
  · right
    rw [hs.sideAt_done hc, sectorSize_emit, hs.backupAt]
    exact hbelow

end Places

/-! ## もとと同じ table を同じ場所に書くとき -/

/-- 置くものが、もとの table と array の位置を変えない。 -/
structure Keeps (r : Rewrite) (d : Disk) : Prop where
  equal : sidesEqual (sideAt d 1) (r.backupSide (totalSectors d)) = true
  primary : r.primaryEntries = (sideAt d 1).entriesLba
  backup : r.backupEntries = (sideAt d (totalSectors d - 1)).entriesLba
  header : 2 ≤ r.primaryEntries

section Keeps

variable (hboth : BothValid d) (hk : r.Keeps d)
include hboth hk

/-- 三つの側の array は、どれも置く array である。 -/
theorem Keeps.entries_eq : (sideAt d 1).entries = r.entries ∧
    (sideAt d (totalSectors d - 1)).entries = r.entries := by
  obtain ⟨hcont, -⟩ := sidesEqual_iff.mp hk.equal
  obtain ⟨hcont', -⟩ := sidesEqual_iff.mp hboth.2.2
  have h1 : (sideAt d 1).entries = r.entries := (content_eq_iff.mp hcont).2.2.2.2
  exact ⟨h1, ((content_eq_iff.mp hcont').2.2.2.2.symm).trans h1⟩

variable (hs : r.Sound (totalSectors d) (sectorSize d))
include hs

/-- 置く primary の header は、もとの header と field が等しい。 -/
theorem Keeps.primary_fields : SameFields (headerAt d 1) r.primaryHeader := by
  obtain ⟨hcont, hrev, hsize, hguid, hbak, -⟩ := sidesEqual_iff.mp hk.equal
  obtain ⟨hcont', hrev', hsize', hguid', hbak', -⟩ := sidesEqual_iff.mp hs.equal
  have h92 : 92 ≤ sectorSize d :=
    le_trans hboth.1.fields.headerSize.1 hboth.1.fields.headerSize.2
  have hlen : (headerAt d 1).length = sectorSize d := Image.length_read _ _ _
  refine @sameFields_of_sides _ _ r.entries 1 (sideAt d 1) r.primarySide
    (hs.primaryLength.trans hlen.symm) (h92.trans_eq hlen.symm) hboth.1.signed hs.primarySig ?_ rfl
    (hcont.trans hcont'.symm) (hrev.trans hrev'.symm) (hsize.trans hsize'.symm)
    (hguid.trans hguid'.symm) ?_ (hbak.trans hbak'.symm) ?_ hboth.1.entriesCrc hs.primary.entriesCrc
  · rw [← (hk.entries_eq hboth).1]
    rfl
  · exact hboth.1.fields.current.trans hs.primary.fields.current.symm
  · rw [hs.primaryAt, hk.primary]

/-- 置く backup の header も同じである。 -/
theorem Keeps.backup_fields : SameFields (headerAt d (totalSectors d - 1)) r.backupHeader := by
  obtain ⟨hcont, hrev, hsize, hguid, -, hbak⟩ := sidesEqual_iff.mp hk.equal
  obtain ⟨hcont', hrev', hsize', hguid', -, hbak'⟩ := sidesEqual_iff.mp hboth.2.2
  have h92 : 92 ≤ sectorSize d :=
    le_trans hboth.1.fields.headerSize.1 hboth.1.fields.headerSize.2
  have hlen : (headerAt d (totalSectors d - 1)).length = sectorSize d := Image.length_read _ _ _
  refine @sameFields_of_sides _ _ r.entries (totalSectors d - 1) (sideAt d (totalSectors d - 1))
    (r.backupSide (totalSectors d)) (hs.backupLength.trans hlen.symm) (h92.trans_eq hlen.symm)
    hboth.2.1.signed hs.backupSig ?_ rfl (hcont'.symm.trans hcont) (hrev'.symm.trans hrev)
    (hsize'.symm.trans hsize) (hguid'.symm.trans hguid) ?_ (hbak'.trans hbak.symm) ?_
    hboth.2.1.entriesCrc hs.backup.entriesCrc
  · rw [← (hk.entries_eq hboth).2]
    rfl
  · exact hboth.2.1.fields.current.trans hs.backup.fields.current.symm
  · rw [hs.backupAt, hk.backup]

end Keeps

/-- header の、CRC と予約領域と末尾のほかの byte。 -/
def FieldByte (i : Nat) : Prop := i < 92 ∧ ¬ (16 ≤ i ∧ i < 24)

section Crash

variable (hs : r.Sound (totalSectors d) (sectorSize d)) (hboth : BothValid d) (hk : r.Keeps d)
  {img : Image}
  (hb : Blend d.data (r.first (totalSectors d) (sectorSize d) ++ r.second (sectorSize d)) img)
include hs hboth hk hb

/-- LBA 0 と、二つの header の CRC・予約領域・末尾のほかの byte は、どこで止まっても変わらない。 -/
theorem Keeps.byte_eq {o : Nat} (h0 : sectorSize d ≤ o)
    (h1 : ∀ i, o = sectorSize d + i → i < sectorSize d → FieldByte i)
    (h2 : ∀ i, o = (totalSectors d - 1) * sectorSize d + i → i < sectorSize d → FieldByte i) :
    img o = d.data o := by
  obtain ⟨hpe, hbe⟩ := hk.entries_eq hboth
  have harray : ∀ lba, (sideAt d lba).entries = r.entries →
      (sideAt d lba).entriesLba * sectorSize d ≤ o → ∀ x,
      r.entries[o - (sideAt d lba).entriesLba * sectorSize d]? = some x → x = d.data o := by
    intro lba he hoff x hx
    rw [← he, show (sideAt d lba).entries = d.data.read ((sideAt d lba).entriesLba * sectorSize d)
      (sideAt d lba).arrayBytes from rfl, Image.getElem?_read] at hx
    split at hx
    · rw [Nat.add_sub_of_le hoff] at hx
      exact (Option.some.inj hx).symm
    · cases hx
  have hheader : ∀ lba h', h'.length = sectorSize d → SameFields (headerAt d lba) h' →
      lba * sectorSize d ≤ o → (∀ i, o = lba * sectorSize d + i → i < sectorSize d → FieldByte i) →
      ∀ x, h'[o - lba * sectorSize d]? = some x → x = d.data o := by
    intro lba h' hlen hsame hoff hfield x hx
    have hlt : o - lba * sectorSize d < sectorSize d :=
      lt_of_lt_of_eq (List.getElem?_eq_some_iff.mp hx).1 hlen
    obtain ⟨hi, hout⟩ := hfield _ (Nat.add_sub_of_le hoff).symm hlt
    rw [hsame.bytes _ hi hout, headerAt, Image.getElem?_read, if_pos hlt,
      Nat.add_sub_of_le hoff] at hx
    exact (Option.some.inj hx).symm
  refine hb.apply_eq fun w hw hoff x hx => ?_
  simp only [first, second, List.cons_append, List.nil_append, List.mem_cons] at hw
  rcases hw with rfl | rfl | rfl | rfl | hw
  · rw [hk.backup] at hoff hx
    exact harray _ hbe hoff x hx
  · exact hheader _ _ hs.backupLength (hk.backup_fields hboth hs) hoff h2 x hx
  · rw [hk.primary] at hoff hx
    exact harray _ hpe hoff x hx
  · have hone : 1 * sectorSize d = sectorSize d := Nat.one_mul _
    refine hheader 1 _ hs.primaryLength (hk.primary_fields hboth hs) ?_ ?_ x ?_
    · rw [hone]; exact hoff
    · rw [hone]; exact h1
    · rw [hone]; exact hx
  · have hlt := (List.getElem?_eq_some_iff.mp hx).1
    have hboot := hs.boot w hw
    omega

variable (hc : r.Clear d)
include hc

/-- 二つの array は、どこで止まっても変わらない。 -/
theorem Keeps.array_eq {lba : Nat} (hlba : lba = 1 ∨ lba = totalSectors d - 1) :
    img.read ((sideAt d lba).entriesLba * sectorSize d) (sideAt d lba).arrayBytes =
      (sideAt d lba).entries := by
  have hss := sectorSize_pos d
  have hle := hs.entries_le
  have hprimary := Nat.mul_le_mul_right (sectorSize d) hc.primary
  have hlast := Nat.mul_le_mul_right (sectorSize d) hc.last
  have hheader := Nat.mul_le_mul_right (sectorSize d) hk.header
  have hlow := Nat.mul_le_mul_right (sectorSize d) hc.header
  rw [Nat.add_mul] at hprimary hlast
  obtain ⟨hpe, hbe⟩ := hk.entries_eq hboth
  -- どちらの array も、LBA 2 から最後の sector の手前までにある
  have hplace : 2 * sectorSize d ≤ (sideAt d lba).entriesLba * sectorSize d ∧
      (sideAt d lba).entriesLba * sectorSize d + (sideAt d lba).arrayBytes ≤
        (totalSectors d - 1) * sectorSize d := by
    have hbytes : ∀ k, (sideAt d k).entries = r.entries →
        (sideAt d k).arrayBytes = r.entries.length := by
      intro k hk
      rw [← hk]
      exact (Image.length_read _ _ _).symm
    rcases hlba with rfl | rfl
    · rw [hbytes _ hpe, ← hk.primary]
      omega
    · rw [hbytes _ hbe, ← hk.backup]
      omega
  refine Image.read_congr fun o h1 h2 => ?_
  refine hk.byte_eq hs hboth hb (by omega) (fun i hi hlt => ?_) fun i hi hlt => ?_
  · omega
  · omega

/-- 二つの header の field は、どこで止まっても変わらない。 -/
theorem Keeps.header_fields {lba : Nat} (hlba : lba = 1 ∨ lba = totalSectors d - 1) :
    SameFields (headerAt d lba) (headerAt (d.reboot img) lba) := by
  have h92 : 92 ≤ sectorSize d := le_trans hboth.1.fields.headerSize.1 hboth.1.fields.headerSize.2
  have htwo := Nat.mul_le_mul_right (sectorSize d) (show 2 ≤ totalSectors d - 1 from
    le_trans hc.header (le_trans (Nat.le_add_right _ _) hc.last))
  refine ⟨(Image.length_read _ _ _).trans (Image.length_read _ _ _).symm, fun i hi hout => ?_⟩
  show (img.read (lba * sectorSize d) (sectorSize d))[i]? =
    (d.data.read (lba * sectorSize d) (sectorSize d))[i]?
  rw [Image.getElem?_read, Image.getElem?_read, if_pos (by omega), if_pos (by omega)]
  congr 1
  rcases hlba with rfl | rfl
  · refine hk.byte_eq hs hboth hb (by omega) (fun j hj hlt => ?_) fun j hj hlt => ?_
    · rw [show j = i by omega]
      exact ⟨hi, hout⟩
    · omega
  · refine hk.byte_eq hs hboth hb (by omega) (fun j hj hlt => ?_) fun j hj hlt => ?_
    · omega
    · rw [show j = i by omega]
      exact ⟨hi, hout⟩

/-- **どこで止まっても、二つの側は受け入れられる。** -/
theorem Keeps.acceptable : Acceptable (d.reboot img) := by
  have hf1 := hk.header_fields hs hboth hb hc (Or.inl rfl)
  have hf2 := hk.header_fields hs hboth hb hc (Or.inr rfl)
  have ha1 := hk.array_eq hs hboth hb hc (Or.inl rfl)
  have ha2 := hk.array_eq hs hboth hb hc (Or.inr rfl)
  refine ⟨acceptable_of_sameFields (d := d) rfl rfl hboth.1 hf1 ha1,
    acceptable_of_sameFields (d := d) rfl rfl hboth.2.1 hf2 ha2, fun _ _ => ?_⟩
  show sidesEqual (sideAt (d.reboot img) 1) (sideAt (d.reboot img) (totalSectors d - 1)) = true
  rw [@sideAt_of_sameFields d (d.reboot img) _ rfl hf1 ha1,
    @sideAt_of_sameFields d (d.reboot img) _ rfl hf2 ha2]
  exact hboth.2.2

end Crash

end Rewrite

end Fsx.Gpt
