import Fsx.Fat.Stream

/-!
# FAT の検査の正しさ

読み書きの失敗と中断のない検査は、割り当て表について次のことをちょうど判定する。

1. どの cluster の entry も、空、壊れた cluster の印、鎖の終わりの印、cluster の番号の
   いずれかである（`scanEntries_spec`）。
2. 割り当て表の写しは、どれもはじめの表に等しい（`compareCopies_spec`）。

entry の検査は窓を通して読むが、結果は表の全体から読んだ値で決まる（`get_spec`）。
-/

namespace Fsx.Fat

/-- 正しい entry。 -/
def ValidEntry (v : Volume) (e : Nat) : Prop :=
  e = 0 ∨ e = v.kind.bad ∨ v.kind.eoc ≤ e ∨ 2 ≤ e ∧ e < v.clusterCount + 2

/-- 中断されない検査。 -/
def quiet : CheckHost where
  scanCancelled _ := false
  compareCancelled _ _ := false

section Scan

variable {d : Disk} {v : Volume}

theorem checkEntry_errors (v : Volume) (e : Nat) (out : CheckReport) :
    (checkEntry v e out).errors = out.errors ∧
      (checkEntry v e out).mirroredFatMismatches = out.mirroredFatMismatches := by
  unfold checkEntry
  dsimp only
  split
  · exact ⟨rfl, rfl⟩
  · split <;> exact ⟨rfl, rfl⟩

/-- 正しくない entry だけが数えられる。 -/
theorem checkEntry_count (v : Volume) (fat : Bytes) (c : Nat) (out : CheckReport) :
    out.invalidClusterEntries ≤
        (checkEntry v (plainEntry v.kind fat c) out).invalidClusterEntries ∧
      ((checkEntry v (plainEntry v.kind fat c) out).invalidClusterEntries =
          out.invalidClusterEntries ↔ ValidEntry v (plainEntry v.kind fat c)) := by
  unfold checkEntry ValidEntry
  rw [plainEntry_and_mask]
  generalize plainEntry v.kind fat c = e
  dsimp only
  by_cases hmark : e = 0 ∨ e = v.kind.bad ∨ e ≥ v.kind.eoc
  · rw [if_pos hmark]
    refine ⟨Nat.le_refl _, fun _ => ?_, fun _ => rfl⟩
    rcases hmark with h | h | h
    · exact Or.inl h
    · exact Or.inr (Or.inl h)
    · exact Or.inr (Or.inr (Or.inl h))
  · rw [if_neg hmark]
    by_cases hout : e < 2 ∨ e > v.clusterCount + 1
    · rw [if_pos hout]
      dsimp only
      refine ⟨Nat.le_succ _, fun h => by omega, fun h => ?_⟩
      rcases h with h | h | h | h
      · exact absurd (Or.inl h) hmark
      · exact absurd (Or.inr (Or.inl h)) hmark
      · exact absurd (Or.inr (Or.inr h)) hmark
      · omega
    · rw [if_neg hout]
      exact ⟨Nat.le_refl _, fun _ => Or.inr (Or.inr (Or.inr (by omega))), fun _ => rfl⟩

/-- **entry のループは、正しくない entry があるときに限って数を増やす。** -/
theorem scanEntries_spec (hv : Sound d v) : ∀ {n c : Nat} {s : FatStream} {out : CheckReport},
    Open d v s → c + n ≤ v.clusterCount + 2 →
    ∃ out', scanEntries quiet d v n c s out = .ok out' ∧ out'.errors = out.errors ∧
      out'.mirroredFatMismatches = out.mirroredFatMismatches ∧
      out.invalidClusterEntries ≤ out'.invalidClusterEntries ∧
      (out'.invalidClusterEntries = out.invalidClusterEntries ↔
        ∀ k, c ≤ k → k < c + n → ValidEntry v (plainEntry v.kind (fatCopy d v 0) k)) := by
  intro n
  induction n with
  | zero =>
    intro c s out _ _
    exact ⟨out, rfl, rfl, rfl, Nat.le_refl _, fun _ k h1 h2 => by omega, fun _ => rfl⟩
  | succ n ih =>
    intro c s out hs hc
    obtain ⟨s', hget, hs'⟩ := get_spec hs hv (hv.entry_le (c := c) (by omega))
    have hstep : scanEntries quiet d v (n + 1) c s out =
        scanEntries quiet d v n (c + 1) s'
          (checkEntry v (plainEntry v.kind (fatCopy d v 0) c) out) := by
      rw [scanEntries, if_neg (show ¬ quiet.scanCancelled c = true from Bool.false_ne_true), hget]
    obtain ⟨herr, hmis⟩ := checkEntry_errors v (plainEntry v.kind (fatCopy d v 0) c) out
    obtain ⟨hle, hiff⟩ := checkEntry_count v (fatCopy d v 0) c out
    obtain ⟨out', hrun, herr', hmis', hle', hiff'⟩ :=
      @ih (c + 1) s' (checkEntry v (plainEntry v.kind (fatCopy d v 0) c) out) hs' (by omega)
    refine ⟨out', hstep.trans hrun, herr'.trans herr, hmis'.trans hmis, le_trans hle hle',
      fun h k h1 h2 => ?_, fun h => ?_⟩
    · -- 数が増えていなければ、どの一歩でも増えていない
      rcases Nat.eq_or_lt_of_le h1 with rfl | hlt
      · exact hiff.mp (by omega)
      · exact hiff'.mp (by omega) k hlt (by omega)
    · have hrest := hiff'.mpr fun k h1 h2 => h k (by omega) (by omega)
      rw [hrest]
      exact hiff.mpr (h c (Nat.le_refl c) (by omega))

end Scan

/-! ## 写しの比較 -/

section Compare

variable {d : Disk} {v : Volume}

/-- `copy` 番の写しの、`done` から後ろ。 -/
def fatRest (d : Disk) (v : Volume) (copy done : Nat) : Bytes :=
  d.data.read (v.fatBase + copy * v.fatBytes + done) (v.fatBytes - done)

theorem compareCopy_spec (hv : Sound d v) {copy : Nat} (hcopy : copy < v.fatCount) :
    ∀ {fuel done : Nat} {out : CheckReport}, v.fatBytes - done ≤ fuel * compareChunk →
    ∃ out', compareCopy quiet d v copy fuel done out = .ok out' ∧ out'.errors = out.errors ∧
      out'.invalidClusterEntries = out.invalidClusterEntries ∧
      out.mirroredFatMismatches ≤ out'.mirroredFatMismatches ∧
      (out'.mirroredFatMismatches = out.mirroredFatMismatches ↔
        fatRest d v 0 done = fatRest d v copy done) := by
  have hregion : v.fatBase + copy * v.fatBytes + v.fatBytes ≤ d.sizeBytes := by
    have hmul : (copy + 1) * v.fatBytes ≤ v.fatCount * v.fatBytes := Nat.mul_le_mul_right _ hcopy
    have := hv.region
    rw [Nat.succ_mul] at hmul
    omega
  have hfirst := hv.first_le
  -- 表の終わりでは、比べるものは残っていない
  have hend : ∀ {done : Nat}, v.fatBytes ≤ done → fatRest d v 0 done = fatRest d v copy done := by
    intro done h
    unfold fatRest
    rw [Nat.sub_eq_zero_of_le h]
    rfl
  intro fuel
  induction fuel with
  | zero =>
    intro done out h
    rw [Nat.zero_mul] at h
    exact ⟨out, rfl, rfl, rfl, Nat.le_refl _, fun _ => hend (by omega), fun _ => rfl⟩
  | succ fuel ih =>
    intro done out hfuel
    rw [Nat.succ_mul] at hfuel
    unfold compareCopy
    by_cases hdone : done < v.fatBytes
    · generalize hn : min compareChunk (v.fatBytes - done) = n
      have ha : d.readExact (v.fatBase + done) n = .ok (d.data.read (v.fatBase + done) n) :=
        Disk.readExact_ok (by omega)
      have hb : d.readExact (v.fatBase + copy * v.fatBytes + done) n =
          .ok (d.data.read (v.fatBase + copy * v.fatBytes + done) n) :=
        Disk.readExact_ok (by omega)
      have hsplit : ∀ i, fatRest d v i done =
          d.data.read (v.fatBase + i * v.fatBytes + done) n ++ fatRest d v i (done + n) := by
        intro i
        unfold fatRest
        rw [← Nat.add_assoc, ← Image.read_append]
        congr 1
        omega
      have hzero : v.fatBase + 0 * v.fatBytes + done = v.fatBase + done := by omega
      rw [if_pos hdone]
      dsimp only
      rw [if_neg (show ¬ quiet.compareCancelled copy done = true from Bool.false_ne_true), ha,
        Result.ok_bind, hb, Result.ok_bind]
      obtain ⟨out', hrun, herr, hinv, hle, hiff⟩ := @ih (done + n)
        { out with
          mirroredFatMismatches := out.mirroredFatMismatches +
            if d.data.read (v.fatBase + done) n =
              d.data.read (v.fatBase + copy * v.fatBytes + done) n then 0 else 1
          fatBytesCompared := out.fatBytesCompared + n } (by omega)
      dsimp only at herr hinv hle hiff
      refine ⟨out', hrun, herr, hinv, by omega, ?_⟩
      rw [hsplit 0, hsplit copy, hzero]
      by_cases hsame : d.data.read (v.fatBase + done) n =
          d.data.read (v.fatBase + copy * v.fatBytes + done) n
      · rw [if_pos hsame, Nat.add_zero] at hiff
        rw [hiff, hsame]
        exact ⟨fun h => by rw [h], fun h => List.append_cancel_left h⟩
      · rw [if_neg hsame] at hle
        refine ⟨fun h => by omega, fun h => absurd ?_ hsame⟩
        exact (List.append_inj h (by rw [Image.length_read, Image.length_read])).1
    · rw [if_neg hdone]
      exact ⟨out, rfl, rfl, rfl, Nat.le_refl _, fun _ => hend (Nat.le_of_not_lt hdone),
        fun _ => rfl⟩

/-- **写しの比較は、異なる写しがあるときに限って数を増やす。** -/
theorem compareCopies_spec (hv : Sound d v) : ∀ {copies : List Nat} {out : CheckReport},
    (∀ i ∈ copies, i < v.fatCount) →
    ∃ out', compareCopies quiet d v copies out = .ok out' ∧ out'.errors = out.errors ∧
      out'.invalidClusterEntries = out.invalidClusterEntries ∧
      out.mirroredFatMismatches ≤ out'.mirroredFatMismatches ∧
      (out'.mirroredFatMismatches = out.mirroredFatMismatches ↔
        ∀ i ∈ copies, fatCopy d v i = fatCopy d v 0) := by
  intro copies
  induction copies with
  | nil =>
    intro out _
    exact ⟨out, rfl, rfl, rfl, Nat.le_refl _, fun _ i hi => absurd hi List.not_mem_nil, fun _ => rfl⟩
  | cons copy rest ih =>
    intro out h
    have hfuel : v.fatBytes - 0 ≤ (v.fatBytes / compareChunk + 1) * compareChunk :=
      Nat.le_of_lt (Nat.lt_mul_of_div_lt (Nat.lt_succ_self _) (by decide))
    obtain ⟨out₁, hrun, herr, hinv, hle, hiff⟩ :=
      @compareCopy_spec d v hv copy (h copy List.mem_cons_self) _ 0 out hfuel
    obtain ⟨out', hrun', herr', hinv', hle', hiff'⟩ :=
      @ih out₁ fun i hi => h i (List.mem_cons_of_mem _ hi)
    have hrest : ∀ i, fatRest d v i 0 = fatCopy d v i := fun i => rfl
    rw [hrest, hrest] at hiff
    refine ⟨out', ?_, herr'.trans herr, hinv'.trans hinv, le_trans hle hle', fun hc i hi => ?_,
      fun hc => ?_⟩
    · rw [compareCopies, hrun]
      exact hrun'
    · rcases List.mem_cons.mp hi with rfl | hi
      · exact (hiff.mp (by omega)).symm
      · exact hiff'.mp (by omega) i hi
    · rw [hiff'.mpr fun i hi => hc i (List.mem_cons_of_mem _ hi)]
      exact hiff.mpr (hc copy List.mem_cons_self).symm

end Compare

/-! ## 検査 -/

theorem conclude_clean (out : CheckReport) : (conclude out).clean = true ↔
    out.errors = [] ∧ out.invalidClusterEntries = 0 ∧ out.mirroredFatMismatches = 0 := by
  unfold conclude
  by_cases hi : out.invalidClusterEntries = 0 <;> by_cases hm : out.mirroredFatMismatches = 0 <;>
    simp [hi, hm]

/--
**FAT の検査は、割り当て表の正しさをちょうど判定する。**
`earlier` はそれまでに読んだ entry の番号で、どのような列でもよい。
-/
theorem check_decides {d : Disk} {v : Volume} (h : readVolume d = .ok v) :
    (∀ earlier : List Nat, ∀ c, 2 ≤ c → c < v.clusterCount + 2 → ∃ s',
      Proc.run (FatStream.get d c)
          ((FatStream.create v.fatBase v.fatBytes v.kind).after d earlier) =
        (.ok (plainEntry v.kind (fatCopy d v 0) c), s') ∧ ∀ t ∈ s'.touched, Permits v t) ∧
    (∀ c, 2 ≤ c → c < v.clusterCount + 2 → c ≠ v.kind.bad ∧ c < v.kind.eoc) ∧
    ∃ report, check quiet d = .ok report ∧
      (report.clean = true ↔
        (∀ c, 2 ≤ c → c < v.clusterCount + 2 →
          ValidEntry v (plainEntry v.kind (fatCopy d v 0) c)) ∧
        ∀ i < v.fatCount, fatCopy d v i = fatCopy d v 0) := by
  have hv := sound_of_readVolume h
  refine ⟨fun earlier c _ hc => ?_, fun c _ hc => ?_, ?_⟩
  · obtain ⟨s', hrun, hs'⟩ := get_spec ((Open.create d v).after hv earlier) hv (hv.entry_le hc)
    exact ⟨s', hrun, hs'.touched⟩
  · obtain ⟨hbad, heoc⟩ := hv.lt_bad hc
    exact ⟨Nat.ne_of_lt hbad, heoc⟩
  · obtain ⟨out, hscan, herr, hmis, -, hinv⟩ := @scanEntries_spec d v hv v.clusterCount 2 _ {}
      (Open.create d v) (by omega)
    obtain ⟨out', hcomp, herr', hinv', -, hmis'⟩ := @compareCopies_spec d v hv
      (List.range' 1 (v.fatCount - 1)) out fun i hi => by
        have := List.mem_range'_1.mp hi
        omega
    dsimp only at herr hmis hinv
    refine ⟨conclude out', ?_, ?_⟩
    · unfold check
      rw [h, Result.ok_bind, hscan, Result.ok_bind, hcomp]
      rfl
    · rw [conclude_clean, herr', herr, hinv', hinv]
      rw [hmis] at hmis'
      rw [hmis']
      refine ⟨fun ⟨_, hs, hm⟩ => ⟨fun c h1 h2 => hs c h1 (by omega), fun i hi => ?_⟩,
        fun ⟨hs, hm⟩ => ⟨rfl, fun k h1 h2 => hs k h1 (by omega), fun i hi => hm i ?_⟩⟩
      · rcases Nat.eq_zero_or_pos i with rfl | hpos
        · rfl
        · exact hm i (List.mem_range'_1.mpr (by omega))
      · have := List.mem_range'_1.mp hi
        omega

namespace Floppy

/-- FAT12 の volume。cluster は 16 個で、表の写しは二つある。 -/
def disk : Disk where
  sizeBytes := 10240
  logicalSector := 512
  isBlockDevice := false
  writable := false
  data := fun i => match i with
    | 12 => 2
    | 13 => 1
    | 14 => 1
    | 16 => 2
    | 17 => 16
    | 19 => 20
    | 21 => 0xf8
    | 22 => 1
    | 510 => 0x55
    | 511 => 0xaa
    | _ => 0
  events := []
  size_lt := by decide

theorem accepted : ∃ v, readVolume disk = .ok v ∧ v.kind = .fat12 ∧ v.clusterCount = 16 :=
  ⟨{ kind := .fat12, bytesPerSector := 512, sectorsPerCluster := 1, reservedSectors := 1,
     fatCount := 2, sectorsPerFat := 1, totalSectors := 20, rootDirSectors := 1,
     firstDataSector := 4, dataSectors := 16, clusterCount := 16, rootCluster := 0, media := 0xf8,
     serial := 0, label := [] }, by decide +kernel, rfl, rfl⟩

end Floppy

theorem check_decides_floppy : ∃ v report, readVolume Floppy.disk = .ok v ∧
    check quiet Floppy.disk = .ok report ∧
    (report.clean = true ↔
      (∀ c, 2 ≤ c → c < 18 → ValidEntry v (plainEntry .fat12 (fatCopy Floppy.disk v 0) c)) ∧
      ∀ i < v.fatCount, fatCopy Floppy.disk v i = fatCopy Floppy.disk v 0) := by
  obtain ⟨v, h, hkind, hcount⟩ := Floppy.accepted
  obtain ⟨-, -, report, hrun, hiff⟩ := check_decides h
  rw [hkind, hcount] at hiff
  exact ⟨v, report, h, hrun, hiff⟩

end Fsx.Fat
