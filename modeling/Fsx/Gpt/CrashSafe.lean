import Fsx.Core.CrcWindow
import Fsx.Gpt.Backup
import Fsx.Gpt.ResizeFrame
import Fsx.Gpt.Rewrite

/-!
# GPT の更新が crash に耐えるのは、table を変えないときに限る

`resize_partition`・`repair_redundancy`・`restore_metadata` が成功する disk で、その書き込みの途中の
どこで止まっても古い table か新しい table が読めて修復できるのは、呼び出しが table を変えないときに
限る（`crashAtomic_iff`）。変えるかどうかは入力だけで決まる（`Mutation.KeepsTable`）。

* `resize_partition`：選んだ entry がすでにその範囲である
* `restore_metadata`：file の table が disk の table と等しい
* header の revision が 0 なら、`make_header` が 1.0 に書き換えるので、table が変わる

前提は array の置き場所だけである。backup の側の書き込みが古い primary に掛からないこと
（`Mutation.Clear`）と、table を変えない呼び出しでは array が動かないこと（`Mutation.InPlace`）である。
-/

namespace Fsx.Gpt

/-! ## `write_pair` が置くもの -/

/-- `write_pair` が置くもの。 -/
def pairRewrite (c : RawSide) (total ss : Nat) : Rewrite where
  entries := c.entries
  primaryEntries := primaryEntries c ss
  backupEntries := total - 1 - c.arraySectors ss
  primaryHeader := makeHeader c 1 (total - 1) (primaryEntries c ss) (crc32IeeeFinal c.entries).toNat ss
  backupHeader := makeHeader c (total - 1) 1 (total - 1 - c.arraySectors ss)
    (crc32IeeeFinal c.entries).toNat ss
  boot := []

/-- `restore_metadata` が置くもの。 -/
def BackupImage.rewrite (im : BackupImage) : Rewrite where
  entries := im.pe
  primaryEntries := im.primaryEntries
  backupEntries := im.backupEntries
  primaryHeader := im.ph
  backupHeader := im.bh
  boot := [⟨0, im.mbr⟩]

section Pair

variable {c : RawSide} {d : Disk} (hb : Bounded c)
  (hf : FieldsOk c (totalSectors d) (sectorSize d)) (hl : Layout c (totalSectors d) (sectorSize d))
include hb hf hl

theorem sides_pairRewrite :
    (pairRewrite c (totalSectors d) (sectorSize d)).primarySide =
        primarySide c c.entries (totalSectors d) (sectorSize d) ∧
      (pairRewrite c (totalSectors d) (sectorSize d)).backupSide (totalSectors d) =
        backupSide c c.entries (totalSectors d) (sectorSize d) := by
  have hlt := totalSectors_lt d
  have hap := hl.apart
  have hpe := hl.primary_ge
  have hss : 92 ≤ sectorSize d := le_trans hf.headerSize.1 hf.headerSize.2
  exact ⟨withEntries_parseHeader_makeHeader hss hb hf.headerSize.1 (by omega) (by omega) (by omega) _,
    withEntries_parseHeader_makeHeader hss hb hf.headerSize.1 (by omega) (by omega) (by omega) _⟩

/-- 置き場所が使えるなら、`write_pair` は一致する二つの有効な側を置く。 -/
theorem sound_pairRewrite (hv : validateEntries c = .ok ()) :
    (pairRewrite c (totalSectors d) (sectorSize d)).Sound (totalSectors d) (sectorSize d) := by
  obtain ⟨hp, hbk⟩ := sides_pairRewrite hb hf hl
  have hlt := totalSectors_lt d
  have hap := hl.apart
  have hpe := hl.primary_ge
  have hss : 92 ≤ sectorSize d := le_trans hf.headerSize.1 hf.headerSize.2
  have hsig : ∀ cur bak elba, cur < 2 ^ 64 → bak < 2 ^ 64 → elba < 2 ^ 64 →
      slice (makeHeader c cur bak elba (crc32IeeeFinal c.entries).toNat (sectorSize d)) 0 8 = SIG :=
    fun cur bak elba h1 h2 h3 => (makeHeader_fields hss hb h1 h2 h3 (UInt32.toNat_lt _)).1
  have hagree := @agree_pair c c.entries (totalSectors d) (sectorSize d) _ _ rfl rfl hv
  refine ⟨hsig _ _ _ (by omega) (by omega) (by omega), hsig _ _ _ (by omega) (by omega) (by omega),
    length_makeHeader, length_makeHeader, ?_, ?_, ?_, ?_, ?_, ?_, fun w hw => (by cases hw)⟩
  · rw [hbk]
    exact hb.entries
  · rw [hp]
    exact ⟨fieldsOk_primarySide hf hl, rfl, rfl, hagree.primary rfl⟩
  · rw [hbk]
    exact ⟨fieldsOk_backupSide hf hl, rfl, rfl, hagree.backup rfl⟩
  · rw [hp, hbk]
    exact hagree.equal rfl rfl
  · rw [hp]
    rfl
  · rw [hbk]
    rfl

end Pair

/-- 書いた写しは、検査を通る table である。 -/
theorem validateEntries_of_writePair {host : WriteHost} {options : MutationOptions} {c : RawSide}
    {d d' : Disk} {rep : MutationReport} (hb : Bounded c)
    (hf : FieldsOk c (totalSectors d) (sectorSize d))
    (hrun : Proc.run (writePair host c c.entries options) d = (.ok rep, d')) :
    validateEntries c = .ok () := by
  obtain ⟨hboth', -, -, hside⟩ := sideAt_of_writePair hb hf hrun
  rw [← hboth'.1.entries, hside]
  exact validateEntries_congr rfl

/--
使える範囲の手前に array の入る余地があれば、成功した `write_pair` は array を使える範囲の
直前と、最後の header の直前に置いている。
-/
theorem layout_of_writePair {host : WriteHost} {options : MutationOptions} {c : RawSide} {d d' : Disk}
    {rep : MutationReport} (hboth : BothValid d) (hb : Bounded c)
    (hf : FieldsOk c (totalSectors d) (sectorSize d))
    (hlu : c.lastUsable = (sideAt d 1).lastUsable)
    (hfront : c.arraySectors (sectorSize d) ≤ c.firstUsable)
    (hrun : Proc.run (writePair host c c.entries options) d = (.ok rep, d')) :
    Layout c (totalSectors d) (sectorSize d) ∧
      primaryEntries c (sectorSize d) + c.arraySectors (sectorSize d) = c.firstUsable := by
  obtain ⟨hboth', hsector, -, hside⟩ := sideAt_of_writePair hb hf hrun
  obtain ⟨hemit, htotal⟩ := emit_of_writePair hb hf hrun
  have htot : totalSectors d' = totalSectors d := by rw [hemit]; rfl
  have hpos := arraySectors_pos (sectorSize_pos d) hf.entryCount.1
    (lt_of_lt_of_le (by decide) hf.entrySize.1)
  have hlast := hboth.lastUsable_lt
  have hus := hf.usable
  have hfields := hboth'.1.fields
  rw [hside, hsector, htot] at hfields
  have hout : primaryEntries c (sectorSize d) + c.arraySectors (sectorSize d) ≤ c.firstUsable ∨
      c.lastUsable < primaryEntries c (sectorSize d) := hfields.arrayOutside
  have hhdr : 1 < c.firstUsable ∨ c.lastUsable < 1 := hfields.headerOutside
  -- 余地があるので使える範囲は LBA 1 より後ろにあり、array はその直前に置かれる
  have hpe : primaryEntries c (sectorSize d) + c.arraySectors (sectorSize d) = c.firstUsable ∧
      2 ≤ primaryEntries c (sectorSize d) := by
    unfold primaryEntries at hout ⊢
    dsimp only at hout ⊢
    split at hout
    · next h =>
      rw [if_pos h]
      omega
    · next h => omega
  have hbk : (sideAt d' (totalSectors d - 1)).entriesLba =
      totalSectors d - 1 - c.arraySectors (sectorSize d) := by
    rw [hemit]
    exact entriesLba_emit_pairEvents hb hf htotal (by omega)
  -- 読み直した backup の array も、使える範囲の外にある
  have hequal := hboth'.content_eq
  rw [htot, hside] at hequal
  obtain ⟨efu, elu, ecount, esize, -⟩ := content_eq_iff.mp hequal
  have hsec : (sideAt d' (totalSectors d - 1)).arraySectors (sectorSize d) =
      c.arraySectors (sectorSize d) := by
    unfold RawSide.arraySectors RawSide.arrayBytes
    rw [← ecount, ← esize]
    rfl
  have hbout := hboth'.2.1.fields.arrayOutside
  rw [htot, hsector, hbk, hsec, ← efu, ← elu] at hbout
  have hsecle := hf.arraySectors_le
  have hbelow : c.lastUsable < totalSectors d - 1 - c.arraySectors (sectorSize d) := by
    rcases hbout with h | h
    · change _ ≤ c.firstUsable at h
      omega
    · exact h
  exact ⟨⟨hpe.2, by omega, Or.inl (by omega), hbelow, Or.inl (by omega)⟩, hpe.1⟩

/-! ## 条件と前提 -/

namespace Mutation

/-- 更新が table を変えない。 -/
def KeepsTable (m : Mutation) (d : Disk) : Prop :=
  match m with
  | .resize index newFirst newLast =>
    (sideAt d 1).revision ≠ 0 ∧ readLe 8 ((sideAt d 1).entry (index - 1)) 32 = newFirst ∧
      readLe 8 ((sideAt d 1).entry (index - 1)) 40 = newLast
  | .repair => (sideAt d 1).revision ≠ 0
  | .restore backup => ∃ file im, backup = .ok file ∧ loadBackup d file = .ok im ∧
      sidesEqual (sideAt d 1) (im.rewrite.backupSide (totalSectors d)) = true

/--
backup の側の書き込みが、古い primary に掛からない。

`resize_partition` と `repair_redundancy` では、primary の array が使える範囲の手前にあればよい。
`restore_metadata` では、file の言う backup の array が、二つの primary の array より後ろ、
最後の sector より手前にあればよい。
-/
def Clear (m : Mutation) (d : Disk) : Prop :=
  match m with
  | .resize _ _ _ | .repair =>
    (sideAt d 1).entriesLba + (sideAt d 1).arraySectors (sectorSize d) ≤ (sideAt d 1).firstUsable
  | .restore backup => ∀ file im, backup = .ok file → loadBackup d file = .ok im →
      im.rewrite.Clear d

/--
更新が array を動かさない。

`resize_partition` と `repair_redundancy` では、array が使える範囲の直前と最後の header の
直前にある。`restore_metadata` では file と disk の言う位置が等しく、さらに disk が修復できる
（100 sector 以上あり、標準の置き場所が使える範囲に掛からない）。
-/
def InPlace (m : Mutation) (d : Disk) : Prop :=
  match m with
  | .resize _ _ _ | .repair =>
    (sideAt d 1).entriesLba + (sideAt d 1).arraySectors (sectorSize d) = (sideAt d 1).firstUsable ∧
      (sideAt d (totalSectors d - 1)).entriesLba + (sideAt d 1).arraySectors (sectorSize d) =
        totalSectors d - 1
  | .restore backup => 100 ≤ totalSectors d ∧ 2 ≤ (sideAt d 1).entriesLba ∧
      Repairable (sideAt d 1) (totalSectors d) (sectorSize d) ∧
      ∀ file im, backup = .ok file → loadBackup d file = .ok im →
        im.primaryEntries = (sideAt d 1).entriesLba ∧
          im.backupEntries = (sideAt d (totalSectors d - 1)).entriesLba

end Mutation

/-! ## 成功した更新 -/

/-- 成功した更新が、`r` を二段に書いたものである。 -/
structure Writes (m : Mutation) (host : WriteHost) (options : MutationOptions) (d d' : Disk)
    (r : Rewrite) : Prop where
  disk : d' = d.emit (halves (r.first (totalSectors d) (sectorSize d)) (r.second (sectorSize d)))
  gate : GateOpen host options
  writable : d.writable = true
  sound : r.Sound (totalSectors d) (sectorSize d)
  clear : r.Clear d
  keeps : m.KeepsTable d ↔ sidesEqual (sideAt d 1) (r.backupSide (totalSectors d)) = true
  inPlace : m.InPlace d → 100 ≤ totalSectors d ∧
    Repairable (sideAt d 1) (totalSectors d) (sectorSize d) ∧ 2 ≤ r.primaryEntries ∧
      r.primaryEntries = (sideAt d 1).entriesLba ∧
        r.backupEntries = (sideAt d (totalSectors d - 1)).entriesLba

section Pair

variable {host : WriteHost} {options : MutationOptions} {d d' : Disk} {rep : MutationReport}
  {entries : Bytes} {index newFirst newLast : Nat}

/-- 書き直した backup がもとの primary と等しいのは、revision が 0 でなく、entry が変わらないときである。 -/
theorem sidesEqual_backupSide (hboth : BothValid d) :
    sidesEqual (sideAt d 1) (backupSide { sideAt d 1 with entries } entries (totalSectors d)
      (sectorSize d)) = true ↔ (sideAt d 1).revision ≠ 0 ∧ (sideAt d 1).entries = entries := by
  obtain ⟨hcur, hbak, -⟩ := hboth.lba_eq
  rw [sidesEqual_iff, content_eq_iff]
  constructor
  · rintro ⟨⟨-, -, -, -, he⟩, hrev, -⟩
    refine ⟨fun hzero => ?_, he⟩
    change (sideAt d 1).revision = if (sideAt d 1).revision ≠ 0 then _ else 0x00010000 at hrev
    rw [hzero] at hrev
    cases hrev
  · rintro ⟨hrev, he⟩
    exact ⟨⟨rfl, rfl, rfl, rfl, he⟩, (if_pos hrev).symm, rfl, rfl, hbak, hcur.symm⟩

/-- 選んだ entry の二つの LBA は、array の中の位置から読める。 -/
theorem readLe_entry {s : RawSide} {i o : Nat} (h : o + 8 ≤ s.entrySize) :
    readLe 8 (s.entry i) o = readLe 8 s.entries (i * s.entrySize + o) := by
  unfold readLe RawSide.entry
  rw [slice_slice _ _ _ _ _ h]

/-- 書き換えで entry array が変わらないのは、選んだ entry がすでにその範囲のときである。 -/
theorem resizeEntry_entries_eq_iff {c : RawSide} (hlen : c.entries.length = c.arrayBytes)
    (hes : 128 ≤ c.entrySize) (hidx : 1 ≤ index) (hcount : index ≤ c.entryCount)
    (hfirst : newFirst < 2 ^ 64) (hlast : newLast < 2 ^ 64) :
    c.entries = (c.resizeEntry index newFirst newLast).entries ↔
      readLe 8 (c.entry (index - 1)) 32 = newFirst ∧ readLe 8 (c.entry (index - 1)) 40 = newLast := by
  have hmul := Nat.mul_le_mul_right c.entrySize hcount
  rw [show index = index - 1 + 1 by omega, Nat.add_mul, Nat.one_mul] at hmul
  have hfit : (index - 1) * c.entrySize + 48 ≤ c.entries.length := by
    rw [hlen, RawSide.arrayBytes]
    omega
  have hm : ∀ v : Nat, v < 2 ^ 64 → v % 256 ^ 8 = v := fun v hv => Nat.mod_eq_of_lt hv
  rw [resizeEntry_entries, readLe_entry (by omega), readLe_entry (by omega)]
  generalize (index - 1) * c.entrySize = k at hfit ⊢
  constructor
  · intro h
    constructor
    · rw [h, readLe_writeLe_of_disjoint (Or.inl (by omega)), readLe_writeLe_self (by omega),
        hm _ hfirst]
    · rw [h, readLe_writeLe_self (by rw [length_writeLe]; omega), hm _ hlast]
  · rintro ⟨h1, h2⟩
    have hself : writeLe 8 c.entries (k + 32) newFirst = c.entries :=
      writeLe_eq_self (by omega) (by rw [h1, hm _ hfirst])
    rw [hself, writeLe_eq_self (by omega) (by rw [h2, hm _ hlast])]

/-- `write_pair` は、もとの table と同じ幾何の写しを二段に書く。 -/
theorem writes_pair {m : Mutation} (hboth : BothValid d)
    (hb : Bounded { sideAt d 1 with entries })
    (hclear : (sideAt d 1).entriesLba + (sideAt d 1).arraySectors (sectorSize d) ≤
      (sideAt d 1).firstUsable)
    (hrun : Proc.run (writePair host { sideAt d 1 with entries } entries options) d = (.ok rep, d'))
    (hkeeps : m.KeepsTable d ↔ (sideAt d 1).revision ≠ 0 ∧ (sideAt d 1).entries = entries)
    (hplace : m.InPlace d →
      (sideAt d 1).entriesLba + (sideAt d 1).arraySectors (sectorSize d) = (sideAt d 1).firstUsable ∧
        (sideAt d (totalSectors d - 1)).entriesLba + (sideAt d 1).arraySectors (sectorSize d) =
          totalSectors d - 1) :
    Writes m host options d d'
      (pairRewrite { sideAt d 1 with entries } (totalSectors d) (sectorSize d)) := by
  have hf1 := hboth.1.fields
  have hf : FieldsOk { sideAt d 1 with entries } (totalSectors d) (sectorSize d) :=
    ⟨hf1.headerSize, hf1.current, hf1.entrySize, hf1.entryCount, hf1.array, hf1.alternate, hf1.usable,
      hf1.arrayOutside, hf1.headerOutside⟩
  have hpos := arraySectors_pos (sectorSize_pos d) hf1.entryCount.1
    (lt_of_lt_of_le (by decide) hf1.entrySize.1)
  have hus := hf1.usable
  obtain ⟨hl, hpe⟩ := layout_of_writePair hboth hb hf rfl (le_trans (Nat.le_add_left _ _) hclear) hrun
  obtain ⟨hemit, htotal⟩ := emit_of_writePair hb hf hrun
  obtain ⟨-, hbk⟩ := sides_pairRewrite hb hf hl
  have hready := writeReady_of_ok hrun
  have hge := hl.primary_ge
  have hap := hl.apart
  have hout := hl.backupOutside
  change primaryEntries (sideAt d 1) (sectorSize d) + (sideAt d 1).arraySectors (sectorSize d) =
    (sideAt d 1).firstUsable at hpe
  change 2 ≤ primaryEntries (sideAt d 1) (sectorSize d) at hge
  change _ + (sideAt d 1).arraySectors (sectorSize d) ≤
    totalSectors d - 1 - (sideAt d 1).arraySectors (sectorSize d) at hap
  change (sideAt d 1).lastUsable < totalSectors d - 1 - (sideAt d 1).arraySectors (sectorSize d) at hout
  refine ⟨hemit, hready.gate, hready.writable,
    sound_pairRewrite hb hf hl (validateEntries_of_writePair hb hf hrun), ⟨?_, ?_, ?_, ?_⟩, ?_, ?_⟩
  · show 2 ≤ totalSectors d - 1 - (sideAt d 1).arraySectors (sectorSize d)
    omega
  · show _ ≤ totalSectors d - 1 - (sideAt d 1).arraySectors (sectorSize d)
    omega
  · rw [hbk]
    exact hap
  · rw [hbk]
    show totalSectors d - 1 - (sideAt d 1).arraySectors (sectorSize d) +
      (sideAt d 1).arraySectors (sectorSize d) ≤ totalSectors d - 1
    omega
  · rw [hbk, hkeeps, sidesEqual_backupSide hboth]
  · intro hin
    obtain ⟨h1, h2⟩ := hplace hin
    refine ⟨htotal, ⟨fun x hx1 hx2 => by omega, ?_⟩, hge, ?_, ?_⟩
    · unfold StandardApart
      omega
    · show primaryEntries (sideAt d 1) (sectorSize d) = _
      omega
    · show totalSectors d - 1 - (sideAt d 1).arraySectors (sectorSize d) = _
      omega

end Pair

/-! ## 退避した file の検査 -/

/-- 検査を通った断片は、すべての検査を通る側を表す。array が disk に収まることは別に調べる。 -/
theorem sideFromBackupBytes_eq_ok {header entries : Bytes} {lba total ss : Nat} {s : RawSide}
    (hlen : header.length = ss) (hss : 0 < ss) (htotal : total < 2 ^ 63)
    (h : sideFromBackupBytes header entries lba total ss = .ok s)
    (harr : s.entriesLba < total ∧ (entries.length + ss - 1) / ss ≤ total - s.entriesLba) :
    s = (parseHeader header lba).withEntries entries ∧ slice header 0 8 = SIG ∧
      entries.length = s.arrayBytes ∧ Complete s total ss := by
  unfold sideFromBackupBytes at h
  simp only [List.take_of_length_le (le_of_eq hlen), Result.bind_eq_ok_iff,
    Result.guard_bind_eq_ok_iff, Result.pure_eq_ok_iff] at h
  obtain ⟨-, hsig, hsize, hcrc, hcur, hgeom, hbytes, hecrc, _, hval, _, hent, rfl⟩ := h
  rw [not_not] at hsig hcrc hbytes hecrc
  refine ⟨rfl, hsig, hbytes.symm, (fieldsOk_iff hss htotal).mpr ⟨hsize, hcur, hgeom, ?_, ?_, hval⟩,
    hcrc, hecrc, hent⟩
  · have hmax : (parseHeader header lba).arrayBytes ≤ 64 * 1024 * 1024 :=
      arrayBytes_le_max (by omega) (by omega)
    exact Nat.not_lt.mpr hmax
  · rw [← hbytes] at harr
    change _ ∧ ((parseHeader header lba).withEntries entries).arraySectors ss ≤ _ at harr
    omega

/-- `load_backup` の検査を通った断片。 -/
structure Loaded (d : Disk) (im : BackupImage) (ps bs : RawSide) : Prop where
  mbrLength : im.mbr.length = sectorSize d
  primaryLength : im.ph.length = sectorSize d
  backupLength : im.bh.length = sectorSize d
  header : im.backupHeader = totalSectors d - 1
  primary : sideFromBackupBytes im.ph im.pe 1 (totalSectors d) (sectorSize d) = .ok ps
  backup : sideFromBackupBytes im.bh im.be (totalSectors d - 1) (totalSectors d) (sectorSize d) = .ok bs
  primaryAt : ps.entriesLba = im.primaryEntries
  backupAt : bs.entriesLba = im.backupEntries
  primaryFits : im.primaryEntries < totalSectors d ∧
    (im.pe.length + sectorSize d - 1) / sectorSize d ≤ totalSectors d - im.primaryEntries
  backupFits : im.backupEntries < totalSectors d ∧
    (im.be.length + sectorSize d - 1) / sectorSize d ≤ totalSectors d - im.backupEntries
  equal : sidesEqual ps bs = true

theorem loadBackup_eq_ok {d file : Disk} {im : BackupImage} (h : loadBackup d file = .ok im) :
    ∃ ps bs, Loaded d im ps bs := by
  unfold loadBackup at h
  simp only [Result.bind_eq_ok_iff, Result.guard_bind_eq_ok_iff, Result.pure_eq_ok_iff] at h
  obtain ⟨hd, -, -, -, -, hgeom, -, hpay, -, htot, harr, payload, hread, -, -, -, ps, hps, bs, hbs,
    hlba, heq, rfl⟩ := h
  simp only [not_or, not_not] at hgeom hlba htot heq hpay
  obtain ⟨hsector, hsize⟩ := hgeom
  obtain ⟨hpl, hbl⟩ := hlba
  have htotal : readLe 8 hd 16 / readLe 4 hd 12 = totalSectors d := by
    rw [hsector, hsize]
    rfl
  have hlen : payload.length = 3 * sectorSize d + 2 * readLe 8 hd 24 := by
    rw [(Disk.readExact_eq_ok_iff.mp hread).2, Image.length_read, hpay, hsector]
  rw [htotal] at htot harr hps hbs
  rw [hsector] at harr hps hbs
  rw [htot.2] at hbs
  have hpe : (slice payload (2 * sectorSize d) (readLe 8 hd 24)).length = readLe 8 hd 24 :=
    length_slice (by omega)
  have hbe : (slice payload (2 * sectorSize d + readLe 8 hd 24) (readLe 8 hd 24)).length =
      readLe 8 hd 24 := length_slice (by omega)
  rw [hsector]
  refine ⟨ps, bs, length_slice (by omega), length_slice (by omega), length_slice (by omega), htot.2,
    hps, hbs, hpl, hbl, ?_, ?_, heq⟩
  · rw [hpe]
    show readLe 8 hd 32 < _ ∧ _ ≤ _ - readLe 8 hd 32
    omega
  · rw [hbe]
    show readLe 8 hd 40 < _ ∧ _ ≤ _ - readLe 8 hd 40
    omega

/-- **検査を通った file の断片は、一致する二つの有効な側である。** -/
theorem Loaded.sound {d : Disk} {im : BackupImage} {ps bs : RawSide} (h : Loaded d im ps bs) :
    im.rewrite.Sound (totalSectors d) (sectorSize d) ∧ im.be = im.pe := by
  have hss := sectorSize_pos d
  have htlt := totalSectors_lt d
  obtain ⟨hps, psig, plen, pcomplete⟩ := sideFromBackupBytes_eq_ok h.primaryLength hss htlt h.primary
    (by rw [h.primaryAt]; exact h.primaryFits)
  obtain ⟨hbs, bsig, blen, bcomplete⟩ := sideFromBackupBytes_eq_ok h.backupLength hss htlt h.backup
    (by rw [h.backupAt]; exact h.backupFits)
  have heq := h.equal
  obtain ⟨-, -, -, -, hent⟩ := content_eq_iff.mp (sidesEqual_iff.mp heq).1
  rw [hps, hbs] at hent
  have hbe : im.be = im.pe := hent.symm
  rw [hbe] at hbs blen
  have hp : im.rewrite.primarySide = ps := hps.symm
  have hb : im.rewrite.backupSide (totalSectors d) = bs := hbs.symm
  refine ⟨⟨psig, bsig, h.primaryLength, h.backupLength, ?_, ?_, ?_, ?_, ?_, ?_, fun w hw => ?_⟩, hbe⟩
  · rw [hb]
    exact blen
  · rw [hp]
    exact pcomplete
  · rw [hb]
    exact bcomplete
  · rw [hp, hb]
    exact heq
  · rw [hp]
    exact h.primaryAt
  · rw [hb]
    exact h.backupAt
  · obtain rfl := List.mem_singleton.mp hw
    show 0 + im.mbr.length ≤ _
    rw [h.mbrLength, Nat.zero_add]

/-- `restore_metadata` は、file の table を二段に書く。 -/
theorem writes_restore {host : WriteHost} {options : MutationOptions} {backup : Result Disk}
    {d d' : Disk} {rep : MutationReport} (hclear : (Mutation.restore backup).Clear d)
    (hrun : Proc.run (restoreMetadata host backup options) d = (.ok rep, d')) :
    ∃ r, Writes (.restore backup) host options d d' r := by
  obtain ⟨⟨_, hgate⟩, hw, file, im, hfile, him, hemit, -⟩ := restore_of_ok hrun
  obtain ⟨ps, bs, hl⟩ := loadBackup_eq_ok him
  obtain ⟨hsound, hbe⟩ := hl.sound
  rw [hbe, hl.header] at hemit
  refine ⟨im.rewrite, hemit, gateOpen_of_writeGate hgate, hw, hsound, hclear file im hfile him, ?_, ?_⟩
  · constructor
    · rintro ⟨file', im', hfile', him', heq⟩
      rw [hfile] at hfile'
      cases hfile'
      rw [him] at him'
      cases him'
      exact heq
    · exact fun heq => ⟨file, im, hfile, him, heq⟩
  · rintro ⟨htotal, hge, hrep, hat⟩
    obtain ⟨hp, hb⟩ := hat file im hfile him
    exact ⟨htotal, hrep, (show 2 ≤ im.primaryEntries by rw [hp]; exact hge), hp, hb⟩

/-- **成功した更新は、どれも一つの table を二段に書く。** -/
theorem writes_of_update {m : Mutation} {host : WriteHost} {options : MutationOptions} {d d' : Disk}
    (hu : Update m host options d d') (hclear : m.Clear d) : ∃ r, Writes m host options d d' r := by
  obtain ⟨hboth, rep, hrun⟩ := hu
  have hss : 92 ≤ sectorSize d :=
    le_trans hboth.1.fields.headerSize.1 hboth.1.fields.headerSize.2
  have hb : Bounded (sideAt d 1) := bounded_sideAt hss
  cases m with
  | resize index newFirst newLast =>
    obtain ⟨c', d0, h0, h1⟩ := Proc.run_bind_eq_ok (by exact hrun)
    obtain ⟨hc', rfl⟩ := run_reading_eq_ok h0
    obtain ⟨c, hc, ⟨hidx, hcount⟩, hrange, -, rfl, -⟩ := resizedSide_eq_ok hc'
    have hcan := canonical_of_mutationSource hc
    have htotal := (writeReady_of_ok h1).total
    rw [canonical_of_bothValid (by omega) hboth] at hcan
    cases hcan
    have hus := hboth.1.fields.usable.2
    have hlt := totalSectors_lt d0
    refine ⟨_, writes_pair hboth (bounded_resizeEntry hb) hclear h1 ?_ id⟩
    have hiff := resizeEntry_entries_eq_iff hb.entries hboth.1.fields.entrySize.1 hidx hcount
      (show newFirst < 2 ^ 64 by omega) (show newLast < 2 ^ 64 by omega)
    exact and_congr_right fun _ => hiff.symm
  | repair =>
    obtain ⟨c, d0, h0, h1⟩ := Proc.run_bind_eq_ok (by exact hrun)
    obtain ⟨hc, rfl⟩ := run_reading_eq_ok h0
    have hcan := canonical_of_repairSource hc
    have htotal := (writeReady_of_ok h1).total
    rw [canonical_of_bothValid (by omega) hboth] at hcan
    cases hcan
    exact ⟨_, writes_pair hboth hb hclear h1 ⟨fun h => ⟨h, rfl⟩, fun h => h.1⟩ id⟩
  | restore backup => exact writes_restore hclear hrun

/-! ## crash に耐える更新 -/

/-- どこで止まっても、古い table か新しい table が読めて修復できる。 -/
def CrashAtomic (m : Mutation) (host : WriteHost) (options : MutationOptions) (d d' : Disk) : Prop :=
  ∀ img, CrashImage MixedTear d.data (m.events host options d) img →
    AtomicAfter host options (d.reboot img) (sideAt d 1) (sideAt d' (totalSectors d - 1))

section Crash

variable {m : Mutation} {host : WriteHost} {options : MutationOptions} {d d' : Disk} {r : Rewrite}

theorem Writes.events_eq (h : Writes m host options d d' r) (hu : Update m host options d d') :
    m.events host options d =
      halves (r.first (totalSectors d) (sectorSize d)) (r.second (sectorSize d)) := by
  obtain ⟨rep, hrun⟩ := hu.runs
  rw [Mutation.events, hrun, h.disk]
  exact List.drop_left

theorem Writes.separate (h : Writes m host options d d' r) (hu : Update m host options d d') :
    Separate m host options d d' := by
  constructor
  · rw [h.events_eq hu, firstHalf_halves]
    exact h.clear.first_avoids
  · rw [h.events_eq hu, secondHalf_halves, h.disk]
    exact h.sound.second_avoids h.clear

theorem Writes.sideAt_eq (h : Writes m host options d d' r) :
    sideAt d' (totalSectors d - 1) = r.backupSide (totalSectors d) := by
  rw [h.disk]
  exact h.sound.sideAt_done h.clear

/--
**GPT の更新が crash に対して原子的であるのは、table を変えないときに限る。**

disk の二つの写しは有効で一致していて、呼び出しは成功する（`Update`）。書き込みはどの時点でも
止まり、flush されていない書き込みは、残るか、残らないか、byte の単位で混ざる（`MixedTear`）。
table を変える呼び出しでは、array が動いてもよい。
-/
theorem crashAtomic_iff (hu : Update m host options d d') (hclear : m.Clear d)
    (hplace : m.KeepsTable d → m.InPlace d) :
    CrashAtomic m host options d d' ↔ m.KeepsTable d := by
  obtain ⟨r, hr⟩ := writes_of_update hu hclear
  have hsep := hr.separate hu
  rw [hr.keeps]
  constructor
  · intro hatomic
    by_contra hne
    rw [← hr.sideAt_eq] at hne
    obtain ⟨img, hcrash, -, -, hfail⟩ := split_brain MixedTear hu hsep hne
    obtain ⟨_, _, ⟨t, ht, _⟩, _⟩ := hatomic img hcrash
    exact hfail t ht
  · intro heq img hcrash
    obtain ⟨htotal, hrep, hge, hp, hb⟩ := hr.inPlace (hplace (hr.keeps.mpr heq))
    have hacc : Acceptable (d.reboot img) := by
      refine Rewrite.Keeps.acceptable hr.sound hu.before ⟨heq, hp, hb, hge⟩ ?_ hr.clear
      rw [hr.events_eq hu] at hcrash
      exact hcrash.blend
    refine atomicAfter_of_acceptable hu hsep htotal hr.gate hr.writable hrep ?_
      (hcrash.mono fun _ _ _ _ => trivial) hacc
    rw [hr.sideAt_eq]
    exact hrep.congr (sidesEqual_iff.mp heq).1.symm

end Crash

/-! ## 修復の途中で primary の header が壊れた disk -/

/-- CRC を書き直した header は、CRC が合う。 -/
theorem headerCrcOk_writeLe {h : Bytes} {lba : Nat} (hlen : 20 ≤ h.length) :
    (parseHeader (writeLe 4 h 16 (headerCrc h (readLe 4 h 12))) lba).headerCrcOk = true := by
  have hlt : headerCrc h (readLe 4 h 12) < 256 ^ 4 := UInt32.toNat_lt _
  have hsize : readLe 4 (writeLe 4 h 16 (headerCrc h (readLe 4 h 12))) 12 = readLe 4 h 12 :=
    readLe_writeLe_of_disjoint (Or.inl (by decide))
  have hcrc : headerCrc (writeLe 4 h 16 (headerCrc h (readLe 4 h 12))) (readLe 4 h 12) =
      headerCrc h (readLe 4 h 12) := by
    unfold headerCrc
    rw [writeLe_writeLe]
  show (readLe 4 _ 16 == headerCrc _ (readLe 4 _ 12)) = true
  rw [hsize, hcrc, readLe_writeLe_self hlen, Nat.mod_eq_of_lt hlt, beq_self_eq_true]

/-- 予約領域に `w` を入れ、CRC を書き直した header。 -/
def withReserved (h w : Bytes) : Bytes :=
  writeLe 4 (patch h 20 w) 16 (headerCrc (patch h 20 w) (readLe 4 (patch h 20 w) 12))

theorem sameFields_withReserved {h w : Bytes} (hw : w.length = 4) :
    SameFields h (withReserved h w) := by
  refine ⟨by simp only [withReserved, length_writeLe, length_patch], fun i _ hout => ?_⟩
  unfold withReserved writeLe
  rw [getElem?_patch, length_leBytes, if_neg (by omega), getElem?_patch, if_neg (by omega)]

theorem slice_withReserved {h w : Bytes} (hw : w.length = 4) (hlen : 24 ≤ h.length) :
    slice (withReserved h w) 20 4 = w := by
  unfold withReserved
  rw [slice_writeLe_of_disjoint (Or.inr (by decide))]
  exact slice_patch_self hw hlen

/-- 予約領域を書き換えた disk も、二つの写しが揃っている。 -/
theorem bothValid_withReserved {d : Disk} {w : Bytes} (hboth : BothValid d) (hw : w.length = 4)
    (htotal : 3 ≤ totalSectors d) (hp : 2 ≤ (sideAt d 1).entriesLba)
    (hb : 2 ≤ (sideAt d (totalSectors d - 1)).entriesLba) {d2 : Disk}
    (hd2 : d2 = d.emit [.write ⟨sectorSize d, withReserved (headerAt d 1) w⟩]) :
    BothValid d2 ∧ headerAt d2 1 = withReserved (headerAt d 1) w ∧
      sideAt d2 1 = { sideAt d 1 with headerCrcOk := true, header := headerAt d2 1 } ∧
      sideAt d2 (totalSectors d - 1) = sideAt d (totalSectors d - 1) := by
  have hs := @sameFields_withReserved (headerAt d 1) w hw
  have hlen : (withReserved (headerAt d 1) w).length = sectorSize d :=
    hs.length.trans (Image.length_read _ _ _)
  have hsector : sectorSize d2 = sectorSize d := by rw [hd2]; rfl
  have htot : totalSectors d2 = totalSectors d := by rw [hd2]; rfl
  have hread : ∀ k n, 2 ≤ k → d2.data.read (k * sectorSize d) n = d.data.read (k * sectorSize d) n := by
    intro k n hk
    have hmul := Nat.mul_le_mul_right (sectorSize d) hk
    rw [hd2]
    refine Image.read_write_of_disjoint (Or.inr ?_)
    show sectorSize d + (withReserved (headerAt d 1) w).length ≤ k * sectorSize d
    omega
  have hhdr : headerAt d2 1 = withReserved (headerAt d 1) w := by
    rw [headerAt, hsector, hd2, Nat.one_mul]
    exact Image.read_write_self _ _ _ hlen
  rw [← hhdr] at hs
  have harr := hread _ (sideAt d 1).arrayBytes hp
  have hside := sideAt_of_sameFields hsector hs harr
  have h92 : 92 ≤ sectorSize d := le_trans hboth.1.fields.headerSize.1 hboth.1.fields.headerSize.2
  have hcrc : (sideAt d2 1).headerCrcOk = true := by
    show (parseHeader (headerAt d2 1) 1).headerCrcOk = true
    rw [hhdr]
    refine headerCrcOk_writeLe ?_
    rw [length_patch, headerAt, Image.length_read]
    omega
  have hsame : SameCopy d d2 (totalSectors d - 1) := by
    refine ⟨by rw [hd2]; rfl, by rw [hd2]; rfl, ?_, hread _ _ hb⟩
    rw [headerAt, headerAt, hsector]
    exact hread _ _ (by omega)
  refine ⟨⟨validCopy_of_sameFields htot hsector hboth.1 hs harr hcrc, ?_, ?_⟩, hhdr, ?_,
    hsame.sideAt_eq⟩
  · rw [htot]
    exact hsame.validCopy hboth.2.1
  · rw [htot, hside, hsame.sideAt_eq]
    exact hboth.2.2
  · rw [hcrc] at hside
    exact hside

/-- 途中まで届いた列の byte は、届いたところまで新しい。 -/
theorem getElem?_take_append_drop {new old : Bytes} {k : Nat} (hk : k ≤ new.length) (i : Nat) :
    (new.take k ++ old.drop k)[i]? = if i < k then new[i]? else old[i]? := by
  have htake : (new.take k).length = k := List.length_take_of_le hk
  split
  · next h => rw [List.getElem?_append_left (by omega), List.getElem?_take, if_pos h]
  · next h =>
    rw [List.getElem?_append_right (by omega), List.getElem?_drop, htake]
    congr 1
    omega

/-- CRC の field を零にした先頭 92 byte では、予約領域の二 byte だけが違う。 -/
theorem take_zeroed_torn {new old : Bytes} (hs : SameFields old new) (hlen : 92 ≤ new.length) :
    (writeLe 4 (new.take 22 ++ old.drop 22) 16 0).take 92 =
      patch ((writeLe 4 new 16 0).take 92) 22 (slice old 22 2) := by
  have hold := hs.length
  have htake : (new.take 22).length = 22 := List.length_take_of_le (by omega)
  have hl2 : (slice old 22 2).length = 2 := length_slice (by omega)
  refine List.ext_getElem? fun i => ?_
  unfold writeLe
  rw [List.getElem?_take, getElem?_patch, getElem?_patch, hl2, length_leBytes, List.length_take,
    length_patch, List.getElem?_take, getElem?_patch, length_leBytes, getElem?_slice,
    List.length_append, htake, List.length_drop, getElem?_take_append_drop (by omega)]
  by_cases hi : i < 92
  · rw [if_pos hi, if_pos hi]
    by_cases h16 : 16 ≤ i ∧ i < 16 + 4
    · rw [if_pos h16, if_pos (show i < 22 + (old.length - 22) by omega),
        if_neg (show ¬ (22 ≤ i ∧ i < 22 + 2) by omega), if_pos h16,
        if_pos (show i < new.length by omega)]
    · rw [if_neg h16, if_neg h16]
      by_cases h22 : 22 ≤ i ∧ i < 22 + 2
      · rw [if_pos h22, if_neg (by omega), if_pos (by omega), if_pos (by omega)]
        congr 1
        omega
      · rw [if_neg h22]
        split
        · rfl
        · exact (hs.bytes i hi (by omega)).symm
  · rw [if_neg hi, if_neg (by omega), if_neg hi]

/-- CRC の field を零にしても、予約領域の二 byte は変わらない。 -/
theorem slice_take_zeroed (b : Bytes) : slice ((writeLe 4 b 16 0).take 92) 22 2 = slice b 22 2 := by
  refine List.ext_getElem? fun i => ?_
  unfold writeLe
  rw [getElem?_slice, getElem?_slice, List.getElem?_take, getElem?_patch, length_leBytes]
  split
  · rw [if_pos (by omega), if_neg (by omega)]
  · rfl

/-- 新しい header の予約領域の途中まで届いた header は、CRC が合わない。 -/
theorem headerCrcOk_torn {new old : Bytes} {lba : Nat} (hs : SameFields old new)
    (hlen : 92 ≤ new.length) (hsize : readLe 4 new 12 = 92)
    (hcrc : (parseHeader new lba).headerCrcOk = true) (hne : slice new 22 2 ≠ slice old 22 2) :
    ¬ (parseHeader (new.take 22 ++ old.drop 22) lba).headerCrcOk = true := by
  have hold := hs.length
  have hlow : ∀ o, o + 4 ≤ 22 → readLe 4 (new.take 22 ++ old.drop 22) o = readLe 4 new o := by
    intro o ho
    refine congrArg leNat (List.ext_getElem? fun i => ?_)
    rw [getElem?_slice, getElem?_slice]
    split
    · rw [getElem?_take_append_drop (by omega), if_pos (by omega)]
    · rfl
  have hcrc' : readLe 4 new 16 = headerCrc new 92 := by
    rw [← hsize]
    exact beq_iff_eq.mp hcrc
  show ¬ (readLe 4 _ 16 == headerCrc _ (readLe 4 _ 12)) = true
  rw [hlow 16 (by decide), hlow 12 (by decide), hsize, hcrc', beq_iff_eq]
  unfold headerCrc
  rw [take_zeroed_torn hs hlen]
  intro heq
  have hl2 : (slice old 22 2).length = 2 := length_slice (by omega)
  refine @crc32IeeeFinal_patch_ne ((writeLe 4 new 16 0).take 92) (slice old 22 2) 22 ?_ ?_ ?_
    (UInt32.toNat_inj.mp heq.symm)
  · rw [hl2, List.length_take, length_writeLe]
    omega
  · omega
  · rw [hl2, slice_take_zeroed]
    exact hne

/-- `make_header` は予約領域を零にする。 -/
theorem slice_reserved_makeHeader {c : RawSide} {current backup entriesLba entriesCrc ss : Nat}
    (hss : 92 ≤ ss) : slice (makeHeader c current backup entriesLba entriesCrc ss) 22 2 = zeros 2 := by
  have hzero : slice (makeHeader c current backup entriesLba entriesCrc ss) 20 4 = leBytes 4 0 := by
    unfold makeHeader headerBody
    dsimp only
    simp (disch := first | omega | simp) only [slice_writeLe_of_disjoint, slice_patch_of_disjoint]
    exact slice_patch_self (length_leBytes 4 0)
      (by simp only [length_writeLe, length_patch, length_zeros]; omega)
  rw [← slice_slice _ 20 4 2 2 (by decide), hzero]
  rfl

section Torn

variable {d : Disk} {host : WriteHost} {options : MutationOptions} (hboth : BothValid d)
  (hl : Layout (sideAt d 1) (totalSectors d) (sectorSize d))
include hboth hl

/-- 揃った disk の修復は成功し、primary の header の途中で止まることがある。 -/
theorem repair_torn (hg : GateOpen host options) (hw : d.writable = true)
    (htotal : 100 ≤ totalSectors d) : ∃ d' img, Update .repair host options d d' ∧
    CrashImage MixedTear d.data (Mutation.repair.events host options d) img ∧
    headerAt (d.reboot img) 1 = (makeHeader (sideAt d 1) 1 (totalSectors d - 1)
      (primaryEntries (sideAt d 1) (sectorSize d)) (crc32IeeeFinal (sideAt d 1).entries).toNat
        (sectorSize d)).take 22 ++ (headerAt d 1).drop 22 := by
  have hf := hboth.1.fields
  have hss : 92 ≤ sectorSize d := le_trans hf.headerSize.1 hf.headerSize.2
  have hb : Bounded (sideAt d 1) := bounded_sideAt hss
  have hwrite := run_writePair_self hg hw htotal hb hf hl hboth.1.entries
  have hsrc : repairSource d = .ok (sideAt d 1) := by
    have h := repairSource_eq_ok (hboth.1.readSide_eq (by omega)) (hboth.2.1.readSide_eq (by omega))
      ⟨Or.inl hboth.1.valid, fun _ => hboth.1.entries, fun _ => hboth.2.1.entries,
        fun _ _ => hboth.2.2⟩
    rw [if_pos hboth.1.valid] at h
    exact h
  have hrun : Proc.run (Mutation.repair.run host options) d =
      Proc.run (writePair host (sideAt d 1) (sideAt d 1).entries options) d := by
    show Proc.run (repairRedundancy host options) d = _
    unfold repairRedundancy
    rw [Proc.run_bind_ok (Proc.run_reading _ d |>.trans (by rw [hsrc]))]
  have hupdate := hrun.trans hwrite
  have hevents : Mutation.repair.events host options d =
      halves (backupWrites (sideAt d 1) (sideAt d 1).entries (totalSectors d) (sectorSize d))
        (primaryWrites (sideAt d 1) (sideAt d 1).entries (totalSectors d) (sectorSize d)) := by
    rw [Mutation.events, hupdate]
    exact List.drop_left
  -- backup の側を flush した後、primary の header の 22 byte だけが届いて止まる
  have hlen : (makeHeader (sideAt d 1) 1 (totalSectors d - 1)
      (primaryEntries (sideAt d 1) (sectorSize d)) (crc32IeeeFinal (sideAt d 1).entries).toNat
        (sectorSize d)).length = sectorSize d := length_makeHeader
  have hkept : (d.data.applyAll (backupWrites (sideAt d 1) (sideAt d 1).entries (totalSectors d)
      (sectorSize d))).read (sectorSize d) (sectorSize d) = headerAt d 1 := by
    have hpe := hl.primary_ge
    have hap := hl.apart
    rw [headerAt, Nat.one_mul]
    refine Image.read_applyAll_of_disjoint _ _ _ _ fun w hw => Or.inl ?_
    have hmul : ∀ k, 2 ≤ k → sectorSize d + sectorSize d ≤ k * sectorSize d := fun k hk => by
      have := Nat.mul_le_mul_right (sectorSize d) hk
      omega
    simp only [backupWrites, List.mem_cons, List.not_mem_nil, or_false] at hw
    rcases hw with rfl | rfl
    · exact hmul _ (by omega)
    · exact hmul _ (by omega)
  have htear := mixedTear_prefix (d.data.applyAll (backupWrites (sideAt d 1) (sideAt d 1).entries
    (totalSectors d) (sectorSize d))) ⟨sectorSize d, makeHeader (sideAt d 1) 1 (totalSectors d - 1)
      (primaryEntries (sideAt d 1) (sectorSize d)) (crc32IeeeFinal (sideAt d 1).entries).toNat
        (sectorSize d)⟩ 22 (by rw [hlen]; omega)
  rw [hlen, hkept] at htear
  have hold : (headerAt d 1).length = sectorSize d := Image.length_read _ _ _
  have hcrash := @crashImage_second_tear MixedTear d.data _
    [⟨primaryEntries (sideAt d 1) (sectorSize d) * sectorSize d, (sideAt d 1).entries⟩] [] _ _ htear ?_
  · refine ⟨_, _, ⟨hboth, _, hupdate⟩, hevents ▸ hcrash, ?_⟩
    rw [headerAt, Nat.one_mul]
    refine Image.read_write_self _ _ _ ?_
    rw [List.length_append, List.length_take, List.length_drop, hlen, hold]
    show min 22 (sectorSize d) + (sectorSize d - 22) = sectorSize d
    omega
  · rw [List.length_append, List.length_take, List.length_drop, hlen, hold]
    omega

/-- 予約領域が零でなければ、そのとき primary の CRC は合わない。 -/
theorem not_validCopy_torn (hrev : (sideAt d 1).revision ≠ 0) (hplace : Mutation.repair.InPlace d)
    (hpe : primaryEntries (sideAt d 1) (sectorSize d) = (sideAt d 1).entriesLba)
    (hsize : (sideAt d 1).headerSize = 92) (hres : slice (headerAt d 1) 22 2 ≠ zeros 2) {img : Image}
    (himg : headerAt (d.reboot img) 1 = (makeHeader (sideAt d 1) 1 (totalSectors d - 1)
      (primaryEntries (sideAt d 1) (sectorSize d)) (crc32IeeeFinal (sideAt d 1).entries).toNat
        (sectorSize d)).take 22 ++ (headerAt d 1).drop 22) : ¬ ValidCopy (d.reboot img) 1 := by
  intro hv
  have hf := hboth.1.fields
  have hss : 92 ≤ sectorSize d := le_trans hf.headerSize.1 hf.headerSize.2
  have hb : Bounded (sideAt d 1) := bounded_sideAt hss
  have hsound := sound_pairRewrite hb hf hl hboth.1.entries
  obtain ⟨-, hbk⟩ := hplace
  have hkeeps : (pairRewrite (sideAt d 1) (totalSectors d) (sectorSize d)).Keeps d := by
    refine ⟨?_, hpe, ?_, hl.primary_ge⟩
    · rw [(sides_pairRewrite hb hf hl).2]
      exact (sidesEqual_backupSide hboth).mpr ⟨hrev, rfl⟩
    · show totalSectors d - 1 - (sideAt d 1).arraySectors (sectorSize d) = _
      omega
  have hfields := hkeeps.primary_fields hboth hsound
  refine @headerCrcOk_torn _ _ 1 hfields ?_ ?_ hsound.primary.headerCrc ?_ ?_
  · rw [hsound.primaryLength]
    exact hss
  · exact (hfields.readLe_eq (by decide) (by decide)).trans hsize
  · rw [show (pairRewrite (sideAt d 1) (totalSectors d) (sectorSize d)).primaryHeader =
      makeHeader _ _ _ _ _ _ from rfl, slice_reserved_makeHeader hss]
    exact hres.symm
  · have hcrc : (parseHeader (headerAt (d.reboot img) 1) 1).headerCrcOk = true := hv.headerCrc
    rw [himg] at hcrc
    exact hcrc

end Torn

/-- 二つの写しが揃った disk。primary の header の予約領域だけが零でない。 -/
def reservedDisk : Disk :=
  oneDisk.emit [.write ⟨sectorSize oneDisk, withReserved (headerAt oneDisk 1) [7, 7, 7, 7]⟩]

theorem arraySectors_congr {s t : RawSide} (hcount : s.entryCount = t.entryCount)
    (hsize : s.entrySize = t.entrySize) (ss : Nat) : s.arraySectors ss = t.arraySectors ss := by
  rw [RawSide.arraySectors, RawSide.arrayBytes, hcount, hsize, RawSide.arraySectors,
    RawSide.arrayBytes]

theorem reservedDisk_sides : BothValid reservedDisk ∧
    headerAt reservedDisk 1 = withReserved (headerAt oneDisk 1) [7, 7, 7, 7] ∧
    sideAt reservedDisk 1 = { sideAt oneDisk 1 with
      headerCrcOk := true, header := headerAt reservedDisk 1 } ∧
    sideAt reservedDisk 99 = sideAt oneDisk 99 := by
  have h := @bothValid_withReserved oneDisk [7, 7, 7, 7] bothValid_oneDisk rfl
    (by rw [totalSectors_oneDisk]; decide) (by rw [copies_oneDisk.1.1]; decide)
    (by rw [totalSectors_oneDisk, copies_oneDisk.2.1]; decide) reservedDisk rfl
  rw [totalSectors_oneDisk] at h
  exact h

/-- 二つの写しの field は、もとの disk のものである。 -/
theorem reservedDisk_fields :
    ((sideAt reservedDisk 1).entriesLba = 2 ∧ (sideAt reservedDisk 1).firstUsable = 3 ∧
      (sideAt reservedDisk 1).lastUsable = 97 ∧ (sideAt reservedDisk 1).revision ≠ 0 ∧
      (sideAt reservedDisk 1).headerSize = 92 ∧ (sideAt reservedDisk 1).arraySectors 512 = 1) ∧
    (sideAt reservedDisk 99).entriesLba = 98 := by
  obtain ⟨-, -, hp, hb⟩ := reservedDisk_sides
  refine ⟨?_, by rw [hb, copies_oneDisk.2.1]; decide⟩
  rw [arraySectors_congr (t := sideAt oneDisk 1) (by rw [hp]) (by rw [hp]), hp]
  dsimp only
  rw [copies_oneDisk.1.1]
  decide

/--
修復の途中、backup の側を書き終え、primary の header が予約領域の途中まで届いて止まった disk。
primary の CRC は合わないが、table は読めて修復できる。
-/
theorem repair_survives_torn_header : ∃ d' img,
    Update .repair quietWriteHost {} reservedDisk d' ∧
    CrashImage MixedTear reservedDisk.data (Mutation.repair.events quietWriteHost {} reservedDisk) img ∧
    ¬ ValidCopy (reservedDisk.reboot img) 1 ∧
    AtomicAfter quietWriteHost {} (reservedDisk.reboot img) (sideAt reservedDisk 1)
      (sideAt d' (totalSectors reservedDisk - 1)) := by
  obtain ⟨hboth, hhdr, -, -⟩ := reservedDisk_sides
  obtain ⟨⟨helba, hfu, hlu, hrev, hsize, hsec⟩, hbelba⟩ := reservedDisk_fields
  have htotal : totalSectors reservedDisk = 100 := by
    rw [reservedDisk, totalSectors_emit, totalSectors_oneDisk]
  have hsector : sectorSize reservedDisk = 512 := by
    rw [reservedDisk, sectorSize_emit, sectorSize_oneDisk]
  have hw : reservedDisk.writable = true := rfl
  rw [← hsector] at hsec
  rw [show 99 = totalSectors reservedDisk - 1 by rw [htotal]] at hbelba
  -- 以下では、disk の中身は上の事実を通してだけ使う
  generalize reservedDisk = d at hboth hhdr helba hfu hlu hrev hsize hsec hbelba htotal hsector hw ⊢
  have hpe : primaryEntries (sideAt d 1) (sectorSize d) = 2 := by
    unfold primaryEntries
    dsimp only
    rw [hfu, hsec]
    decide
  have hl : Layout (sideAt d 1) (totalSectors d) (sectorSize d) :=
    ⟨by omega, by omega, Or.inl (by omega), by omega, Or.inl (by omega)⟩
  have hclear : Mutation.repair.Clear d := by
    show (sideAt d 1).entriesLba + (sideAt d 1).arraySectors (sectorSize d) ≤ (sideAt d 1).firstUsable
    omega
  have hplace : Mutation.repair.InPlace d := by
    show (sideAt d 1).entriesLba + (sideAt d 1).arraySectors (sectorSize d) = (sideAt d 1).firstUsable ∧
      (sideAt d (totalSectors d - 1)).entriesLba + (sideAt d 1).arraySectors (sectorSize d) =
        totalSectors d - 1
    omega
  obtain ⟨d', img, hu, hcrash, himg⟩ := repair_torn hboth hl (gateOpen_quiet {}) hw htotal.ge
  have hres : slice (headerAt d 1) 22 2 ≠ zeros 2 := by
    have hlen : (headerAt oneDisk 1).length = 512 := by
      rw [headerAt, Image.length_read, sectorSize_oneDisk]
    rw [hhdr, ← slice_slice _ 20 4 2 2 (by decide), slice_withReserved rfl (by omega)]
    decide
  exact ⟨d', img, hu, hcrash,
    not_validCopy_torn hboth hl hrev hplace (hpe.trans helba.symm) hsize hres himg,
    (crashAtomic_iff hu hclear fun _ => hplace).mpr hrev img hcrash⟩

end Fsx.Gpt
