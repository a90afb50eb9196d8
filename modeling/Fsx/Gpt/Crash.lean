import Fsx.Gpt.Repair

/-!
# GPT の更新と crash

`resize_partition`・`repair_redundancy`・`restore_metadata` は、backup の側を書いて flush し、
primary の側を書いて flush する。二つの側の sector が重ならなければ、途中で止まっても
古い primary か新しい backup のどちらかは必ず残る（`survivor`）。

残ったものが読めるかどうかは、もう一方の側による。壊れ方が見分けられるか、同じ table なら
読めて修復もできる（`atomicAfter_of_acceptable`）。table が変わる更新では、backup を flush した直後に
古い primary と新しい backup がともに有効なまま食い違うので、必ず読めなくなる時点がある
（`split_brain`）。
-/

namespace Fsx

namespace Gpt

/-! ## 更新 -/

/-- GPT を書き換える三つの操作。 -/
inductive Mutation where
  | resize (index newFirst newLast : Nat)
  | repair
  | restore (backup : Result Disk)

namespace Mutation

def run (host : WriteHost) (options : MutationOptions) : Mutation → DevM MutationReport
  | .resize index newFirst newLast => resizePartition host index newFirst newLast options
  | .repair => repairRedundancy host options
  | .restore backup => restoreMetadata host backup options

/-- 操作が disk に残す event。 -/
def events (m : Mutation) (host : WriteHost) (options : MutationOptions) (d : Disk) : List Event :=
  (Proc.run (m.run host options) d).2.events.drop d.events.length

end Mutation

/-- 最初の flush までの書き込み。 -/
def firstHalf : List Event → List Write
  | .write w :: es => w :: firstHalf es
  | _ => []

/-- 最初の flush の後の書き込み。 -/
def secondHalf : List Event → List Write
  | .write _ :: es => secondHalf es
  | .flush :: es => firstHalf es
  | [] => []

theorem firstHalf_writes : ∀ (ws : List Write) (es : List Event),
    firstHalf (ws.map .write ++ .flush :: es) = ws
  | [], _ => rfl
  | w :: ws, es => congrArg (w :: ·) (firstHalf_writes ws es)

theorem secondHalf_writes : ∀ (ws : List Write) (es : List Event),
    secondHalf (ws.map .write ++ .flush :: es) = firstHalf es
  | [], _ => rfl
  | _ :: ws, es => secondHalf_writes ws es

theorem firstHalf_halves (ws vs : List Write) : firstHalf (halves ws vs) = ws := by
  unfold halves
  rw [List.append_assoc]
  exact firstHalf_writes ws _

theorem secondHalf_halves (ws vs : List Write) : secondHalf (halves ws vs) = vs := by
  unfold halves
  rw [List.append_assoc]
  exact (secondHalf_writes ws _).trans (firstHalf_writes vs [])

/-! ## 成功した更新 -/

theorem run_write_eq_ok {d d' : Disk} {off : Nat} {bytes : Bytes} {u : Unit}
    (h : Proc.run (DevM.write off bytes) d = (.ok u, d')) : d' = d.emit [.write ⟨off, bytes⟩] := by
  cases hw : d.writeExact off bytes with
  | error e =>
    have herr : Proc.run (DevM.write off bytes) d = (.error e, d) := Proc.run_stepping_error hw
    rw [herr] at h
    cases h
  | ok d'' =>
    have hok : Proc.run (DevM.write off bytes) d = (.ok (), d'') := Proc.run_stepping_ok hw
    rw [hok] at h
    cases h
    exact (Disk.writeExact_eq_ok_iff.mp hw).2.2

theorem run_flush_eq_ok {d d' : Disk} {u : Unit} (h : Proc.run DevM.flush d = (.ok u, d')) :
    d' = d.emit [.flush] := by
  rw [DevM.run_flush] at h
  cases h
  rfl

theorem run_reading_eq_ok {α : Type} {d d' : Disk} {f : Disk → Result α} {a : α}
    (h : Proc.run (Proc.reading f) d = (.ok a, d')) : f d = .ok a ∧ d' = d := by
  rw [Proc.run_reading] at h
  cases hf : f d with
  | error e => rw [hf] at h; cases h
  | ok b => rw [hf] at h; cases h; exact ⟨rfl, rfl⟩

/-- 二つの写しがともに有効で一致している。 -/
def BothValid (d : Disk) : Prop :=
  ValidCopy d 1 ∧ ValidCopy d (totalSectors d - 1) ∧
    sidesEqual (sideAt d 1) (sideAt d (totalSectors d - 1)) = true

/-- CRC が合っているとされた側は、完全に有効な写しである。 -/
theorem validCopy_of_flags {d : Disk} {lba : Nat} {s : RawSide} (hlba : lba < totalSectors d)
    (hs : readSide d lba = .ok s) (hh : s.headerCrcOk = true) (he : s.entriesCrcOk = true)
    (hv : s.valid = true → validateEntries s = .ok ()) : s = sideAt d lba ∧ ValidCopy d lba := by
  by_cases hsig : Signed d lba
  · obtain ⟨hf, rfl⟩ := (readSide_eq_ok_iff hlba hsig).mp hs
    exact ⟨rfl, hsig, hf, hh, he, hv ((valid_sideAt d lba).mpr ⟨hh, he⟩)⟩
  · rw [readSide_of_unsigned hlba hsig] at hs
    cases hs
    cases hh

/-- 読み直しで四つの CRC が合っていれば、二つの写しは揃っている。 -/
theorem bothValid_of_table {d : Disk} {t : Table} (ht : readRedundantTable d = .ok t)
    (h1 : t.primaryHeaderCrcOk = true) (h2 : t.entriesCrcOk = true)
    (h3 : t.backupHeaderCrcOk = true) (h4 : t.backupEntriesCrcOk = true) : BothValid d := by
  obtain ⟨htotal, p, b, hp, hb, ha, rfl⟩ := readRedundantTable_eq_ok_iff.mp ht
  obtain ⟨rfl, hcp⟩ := validCopy_of_flags (by omega) hp h1 h2 ha.primary
  obtain ⟨rfl, hcb⟩ := validCopy_of_flags (by omega) hb h3 h4 ha.backup
  exact ⟨hcp, hcb, ha.equal hcp.valid hcb.valid⟩

/-- 二つの写しが揃っていれば、table が読める。 -/
theorem readRedundantTable_of_bothValid {d : Disk} (htotal : 2 ≤ totalSectors d) (h : BothValid d) :
    readRedundantTable d = .ok (redundantTable d (sideAt d 1) (sideAt d (totalSectors d - 1))) := by
  obtain ⟨hp, hb, heq⟩ := h
  exact readRedundantTable_eq_ok_iff.mpr ⟨htotal, _, _, hp.readSide_eq (by omega),
    hb.readSide_eq (by omega), ⟨Or.inl hp.valid, fun _ => hp.entries, fun _ => hb.entries,
      fun _ _ => heq⟩, rfl⟩

/-- 二段の書き込みで、終わりには写しが揃っている。 -/
def TwoPhase (d d' : Disk) : Prop := ∃ ws vs, d' = d.emit (halves ws vs) ∧ BothValid d'

theorem verifyPair_eq_ok {d : Disk} {u : Unit} (h : verifyPair d = .ok u) : BothValid d := by
  obtain ⟨t, ht, hflags⟩ := Result.bind_eq_ok h
  rw [Result.guard_eq_ok_iff] at hflags
  obtain ⟨hflags, _⟩ := hflags
  simp only [not_or, not_not] at hflags
  obtain ⟨h1, h2, h3, h4⟩ := hflags
  exact bothValid_of_table ht h1 h2 h3 h4

theorem verifyRestored_eq_ok {d : Disk} {u : Unit} (h : verifyRestored d = .ok u) :
    BothValid d := by
  obtain ⟨t, ht, hflags⟩ := Result.bind_eq_ok h
  rw [Result.guard_eq_ok_iff] at hflags
  obtain ⟨hflags, _⟩ := hflags
  simp only [not_or, not_not] at hflags
  obtain ⟨h1, h2, h3, h4, _⟩ := hflags
  exact bothValid_of_table ht h1 h2 h3 h4

theorem twoPhase_writePair {host : WriteHost} {options : MutationOptions} {c : RawSide}
    {entries : Bytes} {d d' : Disk} {r : MutationReport}
    (h : Proc.run (writePair host c entries options) d = (.ok r, d')) : TwoPhase d d' := by
  unfold writePair at h
  obtain ⟨_, d0, h0, k0⟩ := Proc.run_bind_eq_ok h
  obtain ⟨_, rfl⟩ := run_reading_eq_ok h0
  rw [Proc.run_bind_ok (Proc.run_get d0)] at k0
  by_cases htotal : totalSectors d0 < 100
  · rw [if_pos htotal] at k0; cases k0
  rw [if_neg htotal] at k0
  obtain ⟨_, d1, h1, k1⟩ := Proc.run_bind_eq_ok k0
  obtain ⟨_, d2, h2, k2⟩ := Proc.run_bind_eq_ok k1
  obtain ⟨_, d3, h3, k3⟩ := Proc.run_bind_eq_ok k2
  obtain ⟨_, d4, h4, k4⟩ := Proc.run_bind_eq_ok k3
  obtain ⟨_, d5, h5, k5⟩ := Proc.run_bind_eq_ok k4
  obtain ⟨_, d6, h6, k6⟩ := Proc.run_bind_eq_ok k5
  obtain ⟨_, d7, h7, k7⟩ := Proc.run_bind_eq_ok k6
  obtain rfl := run_write_eq_ok h1
  obtain rfl := run_write_eq_ok h2
  obtain rfl := run_flush_eq_ok h3
  obtain rfl := run_write_eq_ok h4
  obtain rfl := run_write_eq_ok h5
  obtain rfl := run_flush_eq_ok h6
  obtain ⟨hv, rfl⟩ := run_reading_eq_ok h7
  cases k7
  simp only [Disk.emit_emit, List.cons_append, List.nil_append] at hv ⊢
  exact ⟨[_, _], [_, _], rfl, verifyPair_eq_ok hv⟩

/-- 書き込めたなら、device は書き込みのために開かれている。 -/
theorem writable_of_run_write {d d' : Disk} {off : Nat} {bytes : Bytes} {u : Unit}
    (h : Proc.run (DevM.write off bytes) d = (.ok u, d')) : d.writable = true := by
  cases hw : d.writeExact off bytes with
  | error e =>
    have herr : Proc.run (DevM.write off bytes) d = (.error e, d) := Proc.run_stepping_error hw
    rw [herr] at h
    cases h
  | ok d'' => exact (Disk.writeExact_eq_ok_iff.mp hw).1

/-- 成功した `restore_metadata` は、検査を通った file の断片を二段に書いている。 -/
theorem restore_of_ok {host : WriteHost} {options : MutationOptions} {backup : Result Disk}
    {d d' : Disk} {r : MutationReport}
    (h : Proc.run (restoreMetadata host backup options) d = (.ok r, d')) :
    (∃ refusal, writeGate host options refusal = .ok ()) ∧ d.writable = true ∧
      ∃ file im, backup = .ok file ∧ loadBackup d file = .ok im ∧
        d' = d.emit (halves
          [⟨im.backupEntries * sectorSize d, im.be⟩, ⟨im.backupHeader * sectorSize d, im.bh⟩]
          [⟨im.primaryEntries * sectorSize d, im.pe⟩, ⟨sectorSize d, im.ph⟩, ⟨0, im.mbr⟩]) ∧
        BothValid d' := by
  unfold restoreMetadata at h
  obtain ⟨_, d0, h0, k0⟩ := Proc.run_bind_eq_ok h
  obtain ⟨hgate, rfl⟩ := run_reading_eq_ok h0
  obtain ⟨file, d1, h1, k1⟩ := Proc.run_bind_eq_ok k0
  obtain ⟨hfile, rfl⟩ := run_reading_eq_ok h1
  rw [Proc.run_bind_ok (Proc.run_get d1)] at k1
  obtain ⟨im, d2, h2, k2⟩ := Proc.run_bind_eq_ok k1
  obtain ⟨him, rfl⟩ := run_reading_eq_ok h2
  obtain ⟨_, d3, h3, k3⟩ := Proc.run_bind_eq_ok k2
  obtain ⟨_, d4, h4, k4⟩ := Proc.run_bind_eq_ok k3
  obtain ⟨_, d5, h5, k5⟩ := Proc.run_bind_eq_ok k4
  obtain ⟨_, d6, h6, k6⟩ := Proc.run_bind_eq_ok k5
  obtain ⟨_, d7, h7, k7⟩ := Proc.run_bind_eq_ok k6
  obtain ⟨_, d8, h8, k8⟩ := Proc.run_bind_eq_ok k7
  obtain ⟨_, d9, h9, k9⟩ := Proc.run_bind_eq_ok k8
  obtain ⟨_, d10, h10, k10⟩ := Proc.run_bind_eq_ok k9
  have hw := writable_of_run_write h3
  obtain rfl := run_write_eq_ok h3
  obtain rfl := run_write_eq_ok h4
  obtain rfl := run_flush_eq_ok h5
  obtain rfl := run_write_eq_ok h6
  obtain rfl := run_write_eq_ok h7
  obtain rfl := run_write_eq_ok h8
  obtain rfl := run_flush_eq_ok h9
  obtain ⟨hv, rfl⟩ := run_reading_eq_ok h10
  cases k10
  simp only [Disk.emit_emit, List.cons_append, List.nil_append] at hv ⊢
  exact ⟨⟨_, hgate⟩, hw, file, im, hfile, him, rfl, verifyRestored_eq_ok hv⟩

theorem twoPhase_restore {host : WriteHost} {options : MutationOptions} {backup : Result Disk}
    {d d' : Disk} {r : MutationReport}
    (h : Proc.run (restoreMetadata host backup options) d = (.ok r, d')) : TwoPhase d d' := by
  obtain ⟨-, -, file, im, -, -, hemit, hboth⟩ := restore_of_ok h
  exact ⟨_, _, hemit, hboth⟩

/-- **成功した更新は、どれも二段の書き込みである。** -/
theorem Mutation.twoPhase {m : Mutation} {host : WriteHost} {options : MutationOptions}
    {d d' : Disk} {r : MutationReport} (h : Proc.run (m.run host options) d = (.ok r, d')) :
    TwoPhase d d' := by
  cases m with
  | resize index newFirst newLast =>
    obtain ⟨c, d0, h0, k0⟩ := Proc.run_bind_eq_ok (by exact h)
    obtain ⟨_, rfl⟩ := run_reading_eq_ok h0
    exact twoPhase_writePair k0
  | repair =>
    obtain ⟨c, d0, h0, k0⟩ := Proc.run_bind_eq_ok (by exact h)
    obtain ⟨_, rfl⟩ := run_reading_eq_ok h0
    exact twoPhase_writePair k0
  | restore backup => exact twoPhase_restore h

/-! ## 残る写し -/

/-- 書き込み `w` は、LBA `lba` の写しの header にも array にも当たらない。 -/
structure Avoids (d : Disk) (lba : Nat) (w : Write) : Prop where
  header : lba * sectorSize d + sectorSize d ≤ w.off
    ∨ w.off + w.bytes.length ≤ lba * sectorSize d
  array : (sideAt d lba).entriesLba * sectorSize d + (sideAt d lba).arrayBytes ≤ w.off
    ∨ w.off + w.bytes.length ≤ (sideAt d lba).entriesLba * sectorSize d

/-- 二つの disk の LBA `lba` の写しが、byte まで同じである。 -/
structure SameCopy (d d' : Disk) (lba : Nat) : Prop where
  size : d'.sizeBytes = d.sizeBytes
  sector : d'.logicalSector = d.logicalSector
  header : headerAt d' lba = headerAt d lba
  array : d'.data.read ((sideAt d lba).entriesLba * sectorSize d) (sideAt d lba).arrayBytes
    = d.data.read ((sideAt d lba).entriesLba * sectorSize d) (sideAt d lba).arrayBytes

theorem SameCopy.sideAt_eq {d d' : Disk} {lba : Nat} (h : SameCopy d d' lba) :
    sideAt d' lba = sideAt d lba := by
  have hss : sectorSize d' = sectorSize d := by unfold sectorSize; rw [h.sector]
  have harr := h.array
  unfold sideAt at harr ⊢
  dsimp only at harr ⊢
  rw [h.header, hss]
  exact congrArg _ harr

theorem SameCopy.validCopy {d d' : Disk} {lba : Nat} (h : SameCopy d d' lba)
    (hv : ValidCopy d lba) : ValidCopy d' lba := by
  have hss : sectorSize d' = sectorSize d := by unfold sectorSize; rw [h.sector]
  have htotal : totalSectors d' = totalSectors d := by unfold totalSectors; rw [h.size, hss]
  obtain ⟨h1, h2, h3, h4, h5⟩ := hv
  refine ⟨?_, ?_, ?_, ?_, ?_⟩
  · rw [Signed, h.header]; exact h1
  · rw [h.sideAt_eq, htotal, hss]; exact h2
  · rw [h.sideAt_eq]; exact h3
  · rw [h.sideAt_eq]; exact h4
  · rw [h.sideAt_eq]; exact h5

/-- 写しを避ける書き込みは、どう落ち着いても写しを変えない。 -/
theorem sameCopy_settle {Torn : Write → Bytes → Prop} {d d' : Disk} {lba : Nat} {base : Image}
    {us ws : List Write} (hav : ∀ w ∈ ws, Avoids d lba w) (hsub : ∀ u ∈ us, u ∈ ws)
    (hbase : ∀ o n, (∀ w ∈ ws, o + n ≤ w.off ∨ w.off + w.bytes.length ≤ o) →
      d.data.read o n = base.read o n)
    (hset : Settle Torn base us d'.data) (hsize : d'.sizeBytes = d.sizeBytes)
    (hsector : d'.logicalSector = d.logicalSector) : SameCopy d d' lba := by
  have hss : sectorSize d' = sectorSize d := by unfold sectorSize; rw [hsector]
  have hread : ∀ o n, (∀ w ∈ ws, o + n ≤ w.off ∨ w.off + w.bytes.length ≤ o) →
      d'.data.read o n = d.data.read o n := by
    intro o n hd
    rw [hset.read_of_disjoint fun u hu => hd u (hsub u hu), hbase o n hd]
  refine ⟨hsize, hsector, ?_, hread _ _ fun w hw => (hav w hw).array⟩
  unfold headerAt
  rw [hss]
  exact hread _ _ fun w hw => (hav w hw).header

/-- 媒体がどう壊れてもよい。 -/
def AnyBytes : Image → Write → Bytes → Prop := fun _ _ _ => True

/-- 更新の前後の disk。前は二つの写しが揃っていて、更新は成功する。 -/
structure Update (m : Mutation) (host : WriteHost) (options : MutationOptions) (d d' : Disk) :
    Prop where
  before : BothValid d
  runs : ∃ r, Proc.run (m.run host options) d = (.ok r, d')

/-- 更新の二つの段階が、互いの写しを避けて書く。 -/
structure Separate (m : Mutation) (host : WriteHost) (options : MutationOptions) (d d' : Disk) :
    Prop where
  first : ∀ w ∈ firstHalf (m.events host options d), Avoids d 1 w
  second : ∀ w ∈ secondHalf (m.events host options d), Avoids d' (totalSectors d - 1) w

section Crash

variable {m : Mutation} {host : WriteHost} {options : MutationOptions} {d d' : Disk} {img : Image}

/-- **途中で止まっても、古い primary か新しい backup が残る。** -/
theorem survivor (hu : Update m host options d d') (hs : Separate m host options d d')
    (hc : CrashImage AnyBytes d.data (m.events host options d) img) :
    SameCopy d (d.reboot img) 1 ∨ SameCopy d' (d.reboot img) (totalSectors d - 1) := by
  obtain ⟨r, hrun⟩ := hu.runs
  obtain ⟨ws, vs, rfl, _⟩ := m.twoPhase hrun
  have hev : m.events host options d = halves ws vs := by
    rw [Mutation.events, hrun]
    exact List.drop_left
  obtain ⟨hfirst, hsecond⟩ := hs
  rw [hev, firstHalf_halves] at hfirst
  rw [hev, secondHalf_halves] at hsecond
  rw [hev] at hc
  obtain ⟨us, hsub, hset⟩ | ⟨us, hsub, hset⟩ := hc.of_halves
  · exact Or.inl (sameCopy_settle hfirst hsub (fun _ _ _ => rfl) hset rfl rfl)
  · -- 後半の書き込みは新しい backup を避けるので、終わった disk と同じ写しが残る
    refine Or.inr (sameCopy_settle hsecond hsub (fun o n hd => ?_) hset rfl rfl)
    rw [Disk.emit_data, replay_halves]
    exact Image.read_applyAll_of_disjoint vs _ o n hd

/-- `s` の table を表している。 -/
structure Shows (t : Table) (s : RawSide) : Prop where
  usable : t.firstUsableLba = s.firstUsable ∧ t.lastUsableLba = s.lastUsable
  geometry : t.headerSize = s.headerSize ∧ t.entryCount = s.entryCount ∧ t.entrySize = s.entrySize
  diskGuid : t.diskGuid = s.diskGuid
  partitions : t.partitions = s.partitions

/-- 古い table か新しい table が読め、修復すれば二つの写しが揃う。 -/
def AtomicAfter (host : WriteHost) (options : MutationOptions) (d : Disk) (old new : RawSide) :
    Prop :=
  ∃ s, (s = old ∨ s = new) ∧ (∃ t, readRedundantTable d = .ok t ∧ Shows t s) ∧
    ∃ r d', Proc.run (repairRedundancy host options) d = (.ok r, d') ∧ Restored d' s

/-- 止まった後の二つの側が受け入れられる。どちらも有効か壊れ方が見分けられ、食い違わない。 -/
structure Acceptable (d : Disk) : Prop where
  primary : ValidCopy d 1 ∨ SoftDamage d 1
  backup : ValidCopy d (totalSectors d - 1) ∨ SoftDamage d (totalSectors d - 1)
  equal : ValidCopy d 1 → ValidCopy d (totalSectors d - 1) →
    sidesEqual (sideAt d 1) (sideAt d (totalSectors d - 1)) = true

/-- 修復のための置き場所がある。 -/
structure Repairable (c : RawSide) (total ss : Nat) : Prop where
  outside : StandardOutside c total ss
  apart : StandardApart c total ss

theorem content_eq_iff {a b : RawSide} : a.content = b.content ↔
    a.firstUsable = b.firstUsable ∧ a.lastUsable = b.lastUsable ∧ a.entryCount = b.entryCount ∧
      a.entrySize = b.entrySize ∧ a.entries = b.entries := by
  simp only [RawSide.content, RawSide.mk.injEq, true_and]

theorem sidesEqual_iff {a b : RawSide} : sidesEqual a b = true ↔
    a.content = b.content ∧ a.revision = b.revision ∧ a.headerSize = b.headerSize ∧
      a.diskGuid = b.diskGuid ∧ a.backupLba = b.currentLba ∧ b.backupLba = a.currentLba := by
  simp only [sidesEqual, Bool.and_eq_true, beq_iff_eq, RawSide.content, RawSide.mk.injEq, true_and]
  tauto

/-- 有効か、壊れ方が見分けられる側は読める。 -/
theorem readSide_of_acceptable {lba : Nat} (hlba : lba < totalSectors d)
    (h : ValidCopy d lba ∨ SoftDamage d lba) : ∃ s, readSide d lba = .ok s ∧
      (s.valid = true → s = sideAt d lba ∧ ValidCopy d lba) := by
  rcases h with h | h
  · exact ⟨_, h.readSide_eq hlba, fun _ => ⟨rfl, h⟩⟩
  · obtain ⟨s, hs, hv⟩ := h.readSide_eq hlba
    exact ⟨s, hs, fun hv' => by rw [hv] at hv'; cases hv'⟩

theorem readSide_valid_of_validCopy {lba : Nat} {s : RawSide} (hlba : lba < totalSectors d)
    (hs : readSide d lba = .ok s) (h : ValidCopy d lba) : s = sideAt d lba := by
  rw [h.readSide_eq hlba] at hs
  cases hs
  rfl

/-- 読める側は、有効か、壊れ方が見分けられるかである。 -/
theorem acceptable_of_readSide {lba : Nat} {s : RawSide} (hlba : lba < totalSectors d)
    (hs : readSide d lba = .ok s) (hv : s.valid = true → validateEntries s = .ok ()) :
    ValidCopy d lba ∨ SoftDamage d lba := by
  by_cases hvc : ValidCopy d lba
  · exact Or.inl hvc
  · exact Or.inr (softDamage_of_readSide hlba hs hv hvc)

theorem acceptable_of_table {t : Table} (ht : readRedundantTable d = .ok t) : Acceptable d := by
  obtain ⟨htotal, p, b, hp, hb, ha, _⟩ := readRedundantTable_eq_ok_iff.mp ht
  have h1 : 1 < totalSectors d := by omega
  have hl : totalSectors d - 1 < totalSectors d := by omega
  refine ⟨acceptable_of_readSide h1 hp ha.primary, acceptable_of_readSide hl hb ha.backup,
    fun hvp hvb => ?_⟩
  obtain rfl := readSide_valid_of_validCopy h1 hp hvp
  obtain rfl := readSide_valid_of_validCopy hl hb hvb
  exact ha.equal hvp.valid hvb.valid

theorem Repairable.congr {c c' : RawSide} {total ss : Nat} (h : c.content = c'.content)
    (hr : Repairable c' total ss) : Repairable c total ss := by
  obtain ⟨hfu, hlu, hcount, hsize, _⟩ := content_eq_iff.mp h
  have hsec : c.arraySectors ss = c'.arraySectors ss := by
    rw [RawSide.arraySectors, RawSide.arrayBytes, hcount, hsize, RawSide.arraySectors,
      RawSide.arrayBytes]
  obtain ⟨hout, hap⟩ := hr
  refine ⟨fun x hx1 hx2 => ?_, ?_⟩
  · rw [hsec]
    exact hout x (by rw [← hfu]; exact hx1) (by rw [← hlu]; exact hx2)
  · unfold StandardApart at hap ⊢
    rw [hsec]
    exact hap

/-- 選ばれた写しが `s` と同じ table なら、読んだ table は `s` を表す。 -/
theorem shows_redundantTable {p b c s : RawSide} (hc : (if p.valid then p else b) = c)
    (hcont : c.content = s.content) (hsize : c.headerSize = s.headerSize)
    (hguid : c.diskGuid = s.diskGuid) : Shows (redundantTable d p b) s := by
  have hbase : redundantTable d p b = { tableFromSide c (protectiveMbrOk d) with
      primaryHeaderCrcOk := p.headerCrcOk
      entriesCrcOk := p.entriesCrcOk
      backupHeaderCrcOk := b.headerCrcOk
      backupEntriesCrcOk := b.entriesCrcOk
      primaryEntriesLba := p.entriesLba
      backupEntriesLba := b.entriesLba } := by
    rw [redundantTable, hc]
  rw [hbase]
  obtain ⟨hfu, hlu, hcount, hes, _⟩ := content_eq_iff.mp hcont
  exact ⟨⟨hfu, hlu⟩, ⟨hsize, hcount, hes⟩, hguid, partitions_congr hcont⟩

/-- 受け入れられる disk に残った写しは、読めて修復できる。 -/
theorem recover_of_survivor {lba : Nat} (hacc : Acceptable d) (htotal : 100 ≤ totalSectors d)
    (hg : GateOpen host options) (hw : d.writable = true)
    (hlba : lba = 1 ∨ lba = totalSectors d - 1) (hv : ValidCopy d lba)
    (hrep : Repairable (sideAt d lba) (totalSectors d) (sectorSize d)) :
    (∃ t, readRedundantTable d = .ok t ∧ Shows t (sideAt d lba)) ∧
      ∃ r d', Proc.run (repairRedundancy host options) d = (.ok r, d') ∧
        Restored d' (sideAt d lba) := by
  have h1 : 1 < totalSectors d := by omega
  have hl : totalSectors d - 1 < totalSectors d := by omega
  obtain ⟨p, hp, hpv⟩ := readSide_of_acceptable h1 hacc.primary
  obtain ⟨b, hb, hbv⟩ := readSide_of_acceptable hl hacc.backup
  have ha : Agree p b := by
    refine ⟨?_, fun h => ?_, fun h => ?_, fun h h' => ?_⟩
    · rcases hlba with rfl | rfl
      · left
        rw [readSide_valid_of_validCopy h1 hp hv]; exact hv.valid
      · right
        rw [readSide_valid_of_validCopy hl hb hv]; exact hv.valid
    · obtain ⟨rfl, hvc⟩ := hpv h; exact hvc.entries
    · obtain ⟨rfl, hvc⟩ := hbv h; exact hvc.entries
    · obtain ⟨rfl, hvp⟩ := hpv h
      obtain ⟨rfl, hvb⟩ := hbv h'
      exact hacc.equal hvp hvb
  -- 選ばれる写しは残った写しそのものか、それと一致する primary である
  obtain ⟨k, hk, hkv, hc, hcont, hsize, hguid⟩ : ∃ k, k < totalSectors d ∧ ValidCopy d k ∧
      (if p.valid then p else b) = sideAt d k ∧ (sideAt d k).content = (sideAt d lba).content ∧
      (sideAt d k).headerSize = (sideAt d lba).headerSize ∧
      (sideAt d k).diskGuid = (sideAt d lba).diskGuid := by
    by_cases hpval : p.valid = true
    · obtain ⟨rfl, hvp⟩ := hpv hpval
      refine ⟨1, h1, hvp, if_pos hpval, ?_⟩
      rcases hlba with rfl | rfl
      · exact ⟨rfl, rfl, rfl⟩
      · obtain ⟨hcont, _, hsize, hguid, _⟩ := sidesEqual_iff.mp (hacc.equal hvp hv)
        exact ⟨hcont, hsize, hguid⟩
    · obtain ⟨rfl, hvb⟩ := hbv (ha.some_valid.resolve_left hpval)
      refine ⟨_, hl, hvb, if_neg hpval, ?_⟩
      rcases hlba with rfl | rfl
      · rw [readSide_valid_of_validCopy h1 hp hv] at hpval
        exact absurd hv.valid hpval
      · exact ⟨rfl, rfl, rfl⟩
  obtain ⟨hout, hap⟩ := hrep.congr hcont
  have hss92 : 92 ≤ sectorSize d := le_trans hkv.fields.headerSize.1 hkv.fields.headerSize.2
  obtain ⟨r, d', hrun, p', b', hp', hb', hvp', hvb', ha', hpp, hbp⟩ :=
    repair_restores hp hb ha hc hg hw htotal (bounded_sideAt hss92) hkv.fields
      (layout_of_standard hout hkv.fields hap) hkv.entries
  refine ⟨⟨_, readRedundantTable_eq_ok_iff.mpr ⟨by omega, p, b, hp, hb, ha, rfl⟩,
    shows_redundantTable hc hcont hsize hguid⟩, r, d', hrun, p', b', hp', hb', hvp', hvb', ha', ?_, ?_⟩
  · exact hpp.trans (partitions_congr hcont)
  · exact hbp.trans (partitions_congr hcont)

/--
**止まった後の二つの側が受け入れられるなら、古い table か新しい table が読めて修復できる。**

二つの段階は互いの写しを避けて書き、どちらの table にも修復のための標準の置き場所があるとする。
-/
theorem atomicAfter_of_acceptable (hu : Update m host options d d')
    (hs : Separate m host options d d') (htotal : 100 ≤ totalSectors d)
    (hg : GateOpen host options) (hw : d.writable = true)
    (hold : Repairable (sideAt d 1) (totalSectors d) (sectorSize d))
    (hnew : Repairable (sideAt d' (totalSectors d - 1)) (totalSectors d) (sectorSize d))
    (hc : CrashImage AnyBytes d.data (m.events host options d) img)
    (hacc : Acceptable (d.reboot img)) :
    AtomicAfter host options (d.reboot img) (sideAt d 1) (sideAt d' (totalSectors d - 1)) := by
  obtain ⟨r, hrun⟩ := hu.runs
  obtain ⟨ws, vs, rfl, _, hvb, _⟩ := m.twoPhase hrun
  rcases survivor hu hs hc with hsame | hsame
  · have hrep : Repairable (sideAt (d.reboot img) 1) (totalSectors d) (sectorSize d) := by
      rw [hsame.sideAt_eq]; exact hold
    have hrec := recover_of_survivor (d := d.reboot img) hacc htotal hg hw (Or.inl rfl)
      (hsame.validCopy hu.before.1) hrep
    rw [hsame.sideAt_eq] at hrec
    exact ⟨_, Or.inl rfl, hrec⟩
  · have hrep : Repairable (sideAt (d.reboot img) (totalSectors d - 1)) (totalSectors d)
        (sectorSize d) := by
      rw [hsame.sideAt_eq]; exact hnew
    have hrec := recover_of_survivor (d := d.reboot img) hacc htotal hg hw (Or.inr rfl)
      (hsame.validCopy hvb) hrep
    rw [show totalSectors (d.reboot img) - 1 = totalSectors d - 1 from rfl, hsame.sideAt_eq] at hrec
    exact ⟨_, Or.inr rfl, hrec⟩

/--
**table を変える更新には、必ず読めなくなる時点がある。** backup を flush した直後は、
古い primary と新しい backup がともに有効なまま食い違う。何も壊れていなくてもそうなる。
-/
theorem split_brain (Torn : Image → Write → Bytes → Prop) (hu : Update m host options d d')
    (hs : Separate m host options d d')
    (hchg : ¬ sidesEqual (sideAt d 1) (sideAt d' (totalSectors d - 1)) = true) :
    ∃ img, CrashImage Torn d.data (m.events host options d) img ∧
      ValidCopy (d.reboot img) 1 ∧ ValidCopy (d.reboot img) (totalSectors d - 1) ∧
      ∀ t, readRedundantTable (d.reboot img) ≠ .ok t := by
  obtain ⟨r, hrun⟩ := hu.runs
  obtain ⟨ws, vs, rfl, _, hvb, _⟩ := m.twoPhase hrun
  have hev : m.events host options d = halves ws vs := by
    rw [Mutation.events, hrun]
    exact List.drop_left
  obtain ⟨hfirst, hsecond⟩ := hs
  rw [hev, firstHalf_halves] at hfirst
  rw [hev, secondHalf_halves] at hsecond
  have hp : SameCopy d (d.reboot (d.data.applyAll ws)) 1 :=
    sameCopy_settle hfirst (fun u hu => hu) (fun _ _ _ => rfl)
      (Settle.keepAll (fun _ _ => False) ws d.data) rfl rfl
  have hb : SameCopy (d.emit (halves ws vs)) (d.reboot (d.data.applyAll ws))
      (totalSectors d - 1) := by
    have hset : Settle (fun _ _ => False) (d.data.applyAll ws) [] (d.data.applyAll ws) := .nil _
    refine sameCopy_settle hsecond (fun u hu => (by cases hu)) (fun o n hd => ?_) hset rfl rfl
    rw [Disk.emit_data, replay_halves]
    exact Image.read_applyAll_of_disjoint vs _ o n hd
  have hvp := hp.validCopy hu.before.1
  have hvb' := hb.validCopy hvb
  refine ⟨_, hev ▸ crashImage_first_half Torn d.data ws vs, hvp, hvb', fun t ht => hchg ?_⟩
  rw [← hp.sideAt_eq, ← hb.sideAt_eq]
  exact (acceptable_of_table ht).equal hvp hvb'

end Crash

/-! ## partition を一つ持つ disk -/

/-- LBA `first` から `last` までの partition を一つ持つ entry array。 -/
def oneEntry (first last : Nat) : Bytes :=
  (1 :: zeros 31) ++ leBytes 8 first ++ leBytes 8 last ++ zeros 80

/-- 使える範囲が LBA 3 から 97 の、entry を一つ持つ table。 -/
def baseTable : RawSide := { emptyTable with backupLba := 1 }

theorem fieldsOk_baseTable : FieldsOk baseTable 100 512 :=
  ⟨by decide, rfl, by decide, by decide, by decide, by decide, by decide, Or.inl (by decide),
    Or.inl (by decide)⟩

theorem layout_baseTable : Layout baseTable 100 512 :=
  ⟨by decide, by decide, Or.inl (by decide), by decide, Or.inl (by decide)⟩

theorem bounded_baseTable : Bounded baseTable := by
  refine ⟨?_, ?_, ?_, ?_, ?_, ?_, length_zeros 16, length_zeros 128⟩ <;> decide

/-- 二つの写しが揃った disk。LBA `first` から `last` までの partition を一つ持つ。 -/
def diskWith (first last : Nat) : Disk :=
  (smallDisk []).emit (pairEvents baseTable (oneEntry first last) 100 512)

/-- 二つの写しが揃った disk。partition は LBA 10 から 20 である。 -/
def oneDisk : Disk := (smallDisk []).emit (pairEvents baseTable (oneEntry 10 20) 100 512)

theorem sectorSize_oneDisk : sectorSize oneDisk = 512 := by
  rw [oneDisk, sectorSize_emit, sectorSize_smallDisk]

theorem totalSectors_oneDisk : totalSectors oneDisk = 100 := by
  rw [oneDisk, totalSectors_emit, totalSectors_smallDisk]

theorem length_oneEntry (first last : Nat) : (oneEntry first last).length = 128 := by
  simp only [oneEntry, List.length_append, List.length_cons, length_zeros, length_leBytes]

/-- 一つの partition だけなら、範囲の中にあれば受け入れられる。 -/
theorem validateEntries_one {s : RawSide} {first last : Nat} (hcount : s.entryCount = 1)
    (hranges : entryRanges s (List.range 1) = .ok [(first, last)]) :
    validateEntries s = .ok () := by
  unfold validateEntries
  rw [hcount, hranges, Result.ok_bind, List.mergeSort_singleton]
  rfl

/-- 作った disk の二つの側。 -/
theorem readSide_diskWith (first last : Nat) :
    readSide (diskWith first last) 1 = .ok (primarySide baseTable (oneEntry first last) 100 512) ∧
    readSide (diskWith first last) 99
      = .ok (backupSide baseTable (oneEntry first last) 100 512) := by
  have h := @readSide_pairEvents (smallDisk []) baseTable (oneEntry first last) bounded_baseTable
    (by rw [totalSectors_smallDisk, sectorSize_smallDisk]; exact fieldsOk_baseTable)
    (by rw [totalSectors_smallDisk, sectorSize_smallDisk]; exact layout_baseTable)
    (length_oneEntry first last)
  rw [totalSectors_smallDisk, sectorSize_smallDisk] at h
  exact h

theorem totalSectors_diskWith (first last : Nat) : totalSectors (diskWith first last) = 100 := by
  rw [diskWith, totalSectors_emit, totalSectors_smallDisk]

theorem readSide_oneDisk : readSide oneDisk 1 = .ok (primarySide baseTable (oneEntry 10 20) 100 512) ∧
    readSide oneDisk 99 = .ok (backupSide baseTable (oneEntry 10 20) 100 512) :=
  readSide_diskWith 10 20

theorem validateEntries_oneTable :
    validateEntries { baseTable with entries := oneEntry 10 20 } = .ok () :=
  validateEntries_one rfl (by rfl)

theorem copies_oneDisk :
    (sideAt oneDisk 1 = primarySide baseTable (oneEntry 10 20) 100 512 ∧ ValidCopy oneDisk 1) ∧
    (sideAt oneDisk 99 = backupSide baseTable (oneEntry 10 20) 100 512 ∧ ValidCopy oneDisk 99) := by
  obtain ⟨hp, hb⟩ := readSide_oneDisk
  have ha : Agree (primarySide baseTable (oneEntry 10 20) 100 512)
      (backupSide baseTable (oneEntry 10 20) 100 512) :=
    agree_pair rfl rfl validateEntries_oneTable
  obtain ⟨hp1, hp2⟩ := validCopy_of_flags (by rw [totalSectors_oneDisk]; decide) hp rfl rfl ha.primary
  obtain ⟨hb1, hb2⟩ := validCopy_of_flags (by rw [totalSectors_oneDisk]; decide) hb rfl rfl ha.backup
  exact ⟨⟨hp1.symm, hp2⟩, hb1.symm, hb2⟩

theorem bothValid_oneDisk : BothValid oneDisk := by
  obtain ⟨⟨hp, hvp⟩, hb, hvb⟩ := copies_oneDisk
  have ha : Agree (primarySide baseTable (oneEntry 10 20) 100 512)
      (backupSide baseTable (oneEntry 10 20) 100 512) :=
    agree_pair rfl rfl validateEntries_oneTable
  rw [BothValid, totalSectors_oneDisk]
  refine ⟨hvp, hvb, ?_⟩
  rw [hp, hb]
  exact ha.equal rfl rfl

theorem resizeEntry_entries (c : RawSide) (index first last : Nat) :
    (c.resizeEntry index first last).entries = writeLe 8 (writeLe 8 c.entries
      ((index - 1) * c.entrySize + 32) first) ((index - 1) * c.entrySize + 40) last := rfl

theorem fieldsOk_resizeEntry {c : RawSide} {index first last total ss : Nat}
    (h : FieldsOk c total ss) : FieldsOk (c.resizeEntry index first last) total ss :=
  ⟨h.headerSize, h.current, h.entrySize, h.entryCount, h.array, h.alternate, h.usable,
    h.arrayOutside, h.headerOutside⟩

/-- partition を LBA 10 から 15 に縮めた table。 -/
def resizedTable : RawSide :=
  (primarySide baseTable (oneEntry 10 20) 100 512).resizeEntry 1 10 15

theorem entries_resizedTable : resizedTable.entries = oneEntry 10 15 := by
  have h : writeLe 8 (writeLe 8 (oneEntry 10 20) 32 10) 40 15 = oneEntry 10 15 := by decide +kernel
  rw [← h, resizedTable, resizeEntry_entries]
  rfl

theorem validateEntries_resizedTable : validateEntries resizedTable = .ok () := by
  have h : validateEntries { resizedTable with entries := oneEntry 10 15 } = .ok () :=
    validateEntries_one rfl (by rfl)
  rw [← h]
  refine validateEntries_congr ?_
  rw [content_eq_iff]
  exact ⟨rfl, rfl, rfl, rfl, entries_resizedTable⟩

theorem fieldsOk_resizedTable : FieldsOk resizedTable 100 512 :=
  fieldsOk_resizeEntry (fieldsOk_primarySide fieldsOk_baseTable layout_baseTable)

theorem layout_resizedTable : Layout resizedTable 100 512 :=
  ⟨layout_baseTable.primary_ge, layout_baseTable.apart, layout_baseTable.primaryOutside,
    layout_baseTable.backupOutside, layout_baseTable.headerOutside⟩

theorem bounded_resizedTable : Bounded resizedTable :=
  ⟨show 0x00010000 < 2 ^ 32 by decide, bounded_baseTable.headerSize, bounded_baseTable.firstUsable,
    bounded_baseTable.lastUsable, bounded_baseTable.entryCount, bounded_baseTable.entrySize,
    bounded_baseTable.diskGuid, by rw [entries_resizedTable, length_oneEntry]; rfl⟩

/-- 縮めた後の disk。 -/
def resizedDisk : Disk := oneDisk.emit (pairEvents resizedTable (oneEntry 10 15) 100 512)

theorem resizedSide_oneDisk : resizedSide oneDisk 1 10 15 = .ok resizedTable := by
  obtain ⟨hp, hb⟩ := readSide_oneDisk
  have ha : Agree (primarySide baseTable (oneEntry 10 20) 100 512)
      (backupSide baseTable (oneEntry 10 20) 100 512) :=
    agree_pair rfl rfl validateEntries_oneTable
  have hsrc : mutationSource oneDisk = .ok (primarySide baseTable (oneEntry 10 20) 100 512) := by
    have hdis : ¬ ((primarySide baseTable (oneEntry 10 20) 100 512).valid = true
        ∧ (backupSide baseTable (oneEntry 10 20) 100 512).valid = true
        ∧ ¬ sidesEqual (primarySide baseTable (oneEntry 10 20) 100 512)
          (backupSide baseTable (oneEntry 10 20) 100 512) = true) := by
      rintro ⟨h1, h2, h3⟩
      exact h3 (ha.equal h1 h2)
    unfold mutationSource
    rw [hp, Result.ok_bind, totalSectors_oneDisk, hb, Result.ok_bind, if_neg hdis]
    rfl
  have hval : validateEntries ((primarySide baseTable (oneEntry 10 20) 100 512).resizeEntry 1 10 15)
      = .ok () := validateEntries_resizedTable
  unfold resizedSide
  rw [hsrc, Result.ok_bind, if_neg (by decide)]
  dsimp only
  rw [if_neg (by decide), if_neg (by decide), hval, Result.ok_bind]
  rfl

theorem run_resize_oneDisk : ∃ r, Proc.run ((Mutation.resize 1 10 15).run quietWriteHost {}) oneDisk
    = (.ok r, resizedDisk) := by
  have hwrite := @run_writePair_self oneDisk resizedTable quietWriteHost {} (gateOpen_quiet {}) rfl
    (by rw [totalSectors_oneDisk]) bounded_resizedTable
    (by rw [totalSectors_oneDisk, sectorSize_oneDisk]; exact fieldsOk_resizedTable)
    (by rw [totalSectors_oneDisk, sectorSize_oneDisk]; exact layout_resizedTable)
    validateEntries_resizedTable
  rw [totalSectors_oneDisk, sectorSize_oneDisk, entries_resizedTable] at hwrite
  refine ⟨_, Eq.trans ?_ hwrite⟩
  show Proc.run (resizePartition quietWriteHost 1 10 15 {}) oneDisk = _
  unfold resizePartition
  rw [Proc.run_bind_ok (Proc.run_reading _ oneDisk |>.trans (by rw [resizedSide_oneDisk])),
    entries_resizedTable]

theorem update_oneDisk : Update (.resize 1 10 15) quietWriteHost {} oneDisk resizedDisk :=
  ⟨bothValid_oneDisk, run_resize_oneDisk⟩

theorem events_oneDisk : (Mutation.resize 1 10 15).events quietWriteHost {} oneDisk =
    halves (backupWrites resizedTable (oneEntry 10 15) 100 512)
      (primaryWrites resizedTable (oneEntry 10 15) 100 512) := by
  obtain ⟨r, hrun⟩ := run_resize_oneDisk
  rw [Mutation.events, hrun]
  exact List.drop_left

/-- 縮めた後の backup の側。 -/
theorem sideAt_resizedDisk :
    sideAt resizedDisk 99 = backupSide resizedTable (oneEntry 10 15) 100 512 := by
  have hv : validateEntries { resizedTable with entries := oneEntry 10 15 } = .ok () :=
    validateEntries_one rfl (by rfl)
  have h := @readSide_pairEvents oneDisk resizedTable (oneEntry 10 15) bounded_resizedTable
    (by rw [totalSectors_oneDisk, sectorSize_oneDisk]; exact fieldsOk_resizedTable)
    (by rw [totalSectors_oneDisk, sectorSize_oneDisk]; exact layout_resizedTable)
    (length_oneEntry 10 15)
  rw [totalSectors_oneDisk, sectorSize_oneDisk] at h
  have hagree : Agree (primarySide resizedTable (oneEntry 10 15) 100 512)
      (backupSide resizedTable (oneEntry 10 15) 100 512) := agree_pair rfl rfl hv
  have htotal : 99 < totalSectors resizedDisk := by
    rw [resizedDisk, totalSectors_emit, totalSectors_oneDisk]
    decide
  exact (validCopy_of_flags htotal h.2 rfl rfl hagree.backup).1.symm

theorem separate_oneDisk : Separate (.resize 1 10 15) quietWriteHost {} oneDisk resizedDisk := by
  have hss : sectorSize resizedDisk = 512 := by
    rw [resizedDisk, sectorSize_emit, sectorSize_oneDisk]
  have hlen := length_oneEntry 10 15
  constructor
  · intro w hw
    rw [events_oneDisk, firstHalf_halves] at hw
    simp only [backupWrites, List.mem_cons, List.not_mem_nil, or_false] at hw
    rcases hw with rfl | rfl
    · refine ⟨Or.inl ?_, Or.inl ?_⟩
      · rw [sectorSize_oneDisk]; decide
      · rw [sectorSize_oneDisk, copies_oneDisk.1.1]; decide
    · refine ⟨Or.inl ?_, Or.inl ?_⟩
      · rw [sectorSize_oneDisk]; decide
      · rw [sectorSize_oneDisk, copies_oneDisk.1.1]; decide
  · intro w hw
    rw [events_oneDisk, secondHalf_halves] at hw
    rw [totalSectors_oneDisk]
    simp only [primaryWrites, List.mem_cons, List.not_mem_nil, or_false] at hw
    rcases hw with rfl | rfl
    · refine ⟨Or.inr ?_, Or.inr ?_⟩
      · rw [hss, hlen]; decide
      · rw [hss, hlen, sideAt_resizedDisk]; decide
    · refine ⟨Or.inr ?_, Or.inr ?_⟩
      · rw [hss, length_makeHeader]; decide
      · rw [hss, length_makeHeader, sideAt_resizedDisk]; decide

/-- 縮める途中で、古い primary と新しい backup が食い違い、table が読めなくなる。 -/
theorem resize_split_brain : ∃ img,
    Update (.resize 1 10 15) quietWriteHost {} oneDisk resizedDisk ∧
    CrashImage Atomic oneDisk.data ((Mutation.resize 1 10 15).events quietWriteHost {} oneDisk) img ∧
    ¬ AtomicAfter quietWriteHost {} (oneDisk.reboot img) (sideAt oneDisk 1)
      (sideAt resizedDisk (totalSectors oneDisk - 1)) := by
  have hchg : (sideAt oneDisk 1).content ≠ (sideAt resizedDisk (totalSectors oneDisk - 1)).content := by
    rw [totalSectors_oneDisk, copies_oneDisk.1.1, sideAt_resizedDisk]
    intro h
    have he : oneEntry 10 20 = oneEntry 10 15 := (content_eq_iff.mp h).2.2.2.2
    exact absurd he (by decide +kernel)
  obtain ⟨img, hc, _, _, hfail⟩ := split_brain Atomic update_oneDisk separate_oneDisk
    fun h => hchg (sidesEqual_iff.mp h).1
  refine ⟨img, update_oneDisk, hc, ?_⟩
  rintro ⟨_, _, ⟨t, ht, _⟩, _⟩
  exact hfail t ht

end Gpt

end Fsx
