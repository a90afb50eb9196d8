import Fsx.Ext4.Checksums
import Fsx.Ext4.RepairRun
import Fsx.Ext4.SuperCopies

/-!
# superblock の写しを書く二つの関数（`src/ext4/resize.cpp`・`src/ext4/maintenance.cpp`）

`write_super_copies` と `write_superblock_copies` は、写しを置く group の選び方も書き込みのループも
別々に書かれている。前者は番地を検査し、後者は検査しない。

受け入れられた superblock の上では、どの group の先頭も filesystem の中にあるので検査は落ちず、
二つは同じ列を書く。書いた後、選ばれた group の先頭には group の番号と checksum だけが違う写しがある。
-/

namespace Fsx.Ext4

/-! ## 冪の判定 -/

/-- 割り切れるあいだ割り続けて 1 になるのは、冪だけである。 -/
theorem isPowerLoop_iff {base : Nat} (hb : 2 ≤ base) {fuel n : Nat} (hn : 0 < n) (hfuel : n ≤ fuel) :
    isPowerLoop base fuel n = true ↔ ∃ k, n = base ^ k := by
  induction fuel generalizing n with
  | zero => omega
  | succ fuel ih =>
    unfold isPowerLoop
    by_cases hmod : n % base = 0
    · -- 割り切れるので指数は 0 でない
      have hmul : base * (n / base) = n := Nat.mul_div_cancel' (Nat.dvd_of_mod_eq_zero hmod)
      have hlt : n / base < n := Nat.div_lt_self hn hb
      have hpos : 0 < n / base := by
        refine Nat.pos_of_ne_zero fun h => ?_
        rw [h, Nat.mul_zero] at hmul
        omega
      rw [if_pos hmod, ih hpos (by omega)]
      constructor
      · rintro ⟨k, hk⟩
        refine ⟨k + 1, ?_⟩
        rw [Nat.pow_succ, Nat.mul_comm, ← hk, hmul]
      · rintro ⟨k, hk⟩
        cases k with
        | zero =>
          rw [Nat.pow_zero] at hk
          rw [hk, Nat.mod_eq_of_lt (by omega)] at hmod
          omega
        | succ k =>
          refine ⟨k, ?_⟩
          rw [hk, Nat.pow_succ, Nat.mul_div_cancel _ (by omega)]
    · rw [if_neg hmod, decide_eq_true_eq]
      constructor
      · rintro rfl
        exact ⟨0, rfl⟩
      · rintro ⟨k, hk⟩
        cases k with
        | zero => exact hk
        | succ k =>
          rw [hk, Nat.pow_succ, Nat.mul_mod_left] at hmod
          exact absurd rfl hmod

theorem isPower_iff {n base : Nat} (hb : 2 ≤ base) : isPower n base = true ↔ ∃ k, n = base ^ k := by
  unfold isPower
  by_cases hn : n < 1
  · rw [if_pos hn]
    constructor
    · intro h
      cases h
    · rintro ⟨k, hk⟩
      have := Nat.pow_pos (n := k) (show 0 < base by omega)
      omega
  · rw [if_neg hn]
    exact isPowerLoop_iff hb (by omega) (Nat.le_refl n)

/-! ## group の選び方 -/

namespace Maintenance

/-- `is_power` のループ（`src/ext4/maintenance.cpp`）。 -/
def isPowerLoop (base : Nat) : Nat → Nat → Bool
  | 0, n => decide (n = 1)
  | fuel + 1, n => if n % base = 0 then isPowerLoop base fuel (n / base) else decide (n = 1)

/-- `is_power`（`src/ext4/maintenance.cpp`）。 -/
def isPower (n base : Nat) : Bool := if n < 1 then false else isPowerLoop base n n

/-- `group_has_super`（`src/ext4/maintenance.cpp`）。 -/
def groupHasSuper (raw : Bytes) (group : Nat) : Bool :=
  let compat := readLe 4 raw 0x5c
  let ro := readLe 4 raw 0x64
  if group = 0 then true
  else if compat &&& 0x0200 ≠ 0 then
    decide (group = readLe 4 raw 0x24c) || decide (group = readLe 4 raw 0x250)
  else if ro &&& 0x0001 = 0 then true
  else if group = 1 then true
  else isPower group 3 || isPower group 5 || isPower group 7

end Maintenance

theorem Maintenance.isPowerLoop_eq (base : Nat) : ∀ fuel n,
    Maintenance.isPowerLoop base fuel n = Fsx.Ext4.isPowerLoop base fuel n
  | 0, _ => rfl
  | fuel + 1, n => by
    unfold Maintenance.isPowerLoop Fsx.Ext4.isPowerLoop
    rw [Maintenance.isPowerLoop_eq base fuel]

/-- 二つの選び方は一致する。 -/
theorem Maintenance.groupHasSuper_eq (raw : Bytes) (g : Nat) :
    Maintenance.groupHasSuper raw g = Fsx.Ext4.groupHasSuper raw g := by
  have hpow : ∀ base, Maintenance.isPower g base = Fsx.Ext4.isPower g base := by
    intro base
    unfold Maintenance.isPower Fsx.Ext4.isPower
    rw [Maintenance.isPowerLoop_eq]
  unfold Maintenance.groupHasSuper Fsx.Ext4.groupHasSuper
  simp only [hpow]

/-- 写しを置く group。`sparse_super2` では名指しの二つ、`sparse_super` では 1 と 3・5・7 の冪、
どちらもなければすべてである。 -/
def HoldsSuper (raw : Bytes) (g : Nat) : Prop :=
  g = 0 ∨
  if readLe 4 raw 0x5c &&& 0x0200 ≠ 0 then g = readLe 4 raw 0x24c ∨ g = readLe 4 raw 0x250
  else readLe 4 raw 0x64 &&& 0x0001 = 0 ∨ g = 1 ∨
    (∃ k, g = 3 ^ k) ∨ (∃ k, g = 5 ^ k) ∨ ∃ k, g = 7 ^ k

/-- **`group_has_super` が選ぶのは、写しを置く group である。** -/
theorem groupHasSuper_iff (raw : Bytes) (g : Nat) : groupHasSuper raw g = true ↔ HoldsSuper raw g := by
  unfold groupHasSuper HoldsSuper
  by_cases h0 : g = 0
  · simp [h0]
  · by_cases hc : readLe 4 raw 0x5c &&& 0x0200 ≠ 0
    · simp [h0, hc]
    · by_cases h1 : g = 1
      · simp [hc, h1]
      · simp [h0, hc, h1, isPower_iff, or_assoc]

/-! ## 書く列 -/

section Writers

variable {ctx : MetadataContext} {primary : Bytes} {size : Nat}

/-- 番地を検査するほうのループも、選ばれた group の先頭に写しを一つずつ書く。 -/
theorem backupSupers_eq (ha : ctx.sb.Accepted size) (hsize : size < 2 ^ 63)
    (hlen : primary.length = 1024) {n g : Nat} (hg : g ≠ 0) (hn : g + n ≤ ctx.sb.groupsCount) :
    backupSupers ctx primary n g =
      ((List.range' g n).filter (groupHasSuper primary)).map (superWrite ctx.sb primary) := by
  induction n generalizing g with
  | zero => rfl
  | succ n ih =>
    unfold backupSupers
    rw [List.range'_succ, ih (Nat.succ_ne_zero g) (by omega)]
    by_cases hb : groupHasSuper primary g = true
    · have hcopy := @updateSuperblockChecksum_eq (writeLe 2 primary 0x5a g)
        (by rw [length_writeLe, hlen])
      obtain ⟨copy, hok, -, -⟩ := backupSuper_ok ha hsize hlen (g := g) (by omega)
      have hw : superWrite ctx.sb primary g = ⟨ctx.sb.groupStartBlock g * ctx.sb.blockSize, copy⟩ := by
        unfold backupSuper at hok
        simp only [Result.guard_bind_eq_ok_iff, hcopy, Result.ok_bind, Result.pure_eq_ok_iff] at hok
        unfold superWrite Superblock.superBase
        rw [if_neg hg, if_neg hg]
        exact hok.2.symm
      rw [if_pos hb, List.filter_cons_of_pos hb, List.map_cons, hw, hok]
      rfl
    · rw [if_neg hb, List.filter_cons_of_neg hb, List.nil_append]

/-- 二つの関数は同じ列を書く。 -/
theorem superCopies_eq (ha : ctx.sb.Accepted size) (hsize : size < 2 ^ 63)
    (hlen : primary.length = 1024) : superCopies ctx primary = superWrites ctx.sb primary := by
  have hpos := Nat.pos_of_ne_zero ha.groups_pos
  unfold superCopies superWrites
  rw [backupSupers_eq ha hsize hlen Nat.one_ne_zero (by omega), copyGroups_eq hpos]
  rfl

/-- 写しの置き場所は device の中にある。 -/
theorem superBase_room (ha : ctx.sb.Accepted size) (hsize : size < 2 ^ 63) (hroom : 2048 ≤ size)
    {k : Nat} (hk : k < ctx.sb.groupsCount) : ctx.sb.superBase k + 1024 ≤ size := by
  unfold Superblock.superBase
  by_cases h : k = 0
  · rw [if_pos h]
    omega
  · rw [if_neg h]
    obtain ⟨-, -, -, hin⟩ := backupSuper_ok ha hsize (length_zeros 1024) hk
    exact hin

theorem run_writeSuperblockCopies_readonly {d : Disk} (hlen : primary.length = 1024)
    (hw : d.writable = false) : Proc.run (writeSuperblockCopies ctx primary) d =
      (.error { code := .permission, message := "device is read-only" }, d) := by
  unfold writeSuperblockCopies
  rw [if_neg (not_not.mpr hlen)]
  refine Proc.run_bind_error (Proc.run_stepping_error ?_)
  unfold Disk.writeExact
  rw [if_pos hw]

/-- **二つの関数は、どの device の上でも同じ答えを返し、同じことを起こす。** -/
theorem run_writers_agree {w : World} (ha : ctx.sb.Accepted w.disk.sizeBytes)
    (hroom : 2048 ≤ w.disk.sizeBytes) (hlen : primary.length = 1024) :
    (Proc.run (writeSuperCopies ctx primary) w).1 =
        (Proc.run (writeSuperblockCopies ctx primary) w.disk).1 ∧
      (Proc.run (writeSuperCopies ctx primary) w).2.disk =
        (Proc.run (writeSuperblockCopies ctx primary) w.disk).2 := by
  have hlt := w.disk.size_lt
  cases hw : w.disk.writable with
  | false =>
    rw [run_writeSuperblockCopies_readonly hlen hw]
    have hge := ha.blockSize_ge
    have hrun : Proc.run (writeSuperCopies ctx primary) w =
        (.error { code := .permission, message := "device is read-only" }, w) := by
      unfold writeSuperCopies
      rw [if_neg (by omega), if_neg (not_not.mpr hlen)]
      refine Proc.run_bind_error (Proc.run_stepping_error ?_)
      unfold Disk.writeExact
      rw [if_pos hw]
      rfl
    rw [hrun]
    exact ⟨rfl, rfl⟩
  | true =>
    rw [run_writeSuperCopies ha hroom hlen hw,
      run_writeSuperblockCopies hlen (Nat.pos_of_ne_zero ha.groups_pos) hw fun k hk =>
        superBase_room ha hlt hroom (mem_copyGroups.mp hk).1]
    refine ⟨rfl, ?_⟩
    rw [World.emit_disk, superEvents, superCopies_eq ha hlt hlen]

end Writers

/-! ## 書いた後 -/

/-- `copy` は、group の番号と checksum だけが違う `primary` の写しである。 -/
structure SuperCopy (primary : Bytes) (g : Nat) (copy : Bytes) : Prop where
  length : copy.length = primary.length
  same : ∀ i, ¬ (0x5a ≤ i ∧ i < 0x5c) → ¬ (0x3fc ≤ i ∧ i < 0x400) → copy[i]? = primary[i]?
  number : readLe 2 copy 0x5a = g % 2 ^ 16
  verifies : verifySuperblockChecksum copy = true

theorem superCopy_sealedSuper {primary : Bytes} (hlen : primary.length = 1024) (g : Nat) :
    SuperCopy primary g (sealedSuper (writeLe 2 primary 0x5a g)) := by
  have hlen' : (writeLe 2 primary 0x5a g).length = 1024 := by rw [length_writeLe, hlen]
  obtain ⟨b, hup, hver, -, hlenb, hframe⟩ := seals_superblock hlen'
  rw [updateSuperblockChecksum_eq hlen'] at hup
  have hb := Except.ok.inj hup
  rw [hb]
  refine ⟨by rw [hlenb, length_writeLe], fun i h1 h2 => ?_, ?_, Except.ok.inj hver⟩
  · rw [hframe i (by omega), getElem?_writeLe_of_disjoint (by omega)]
  · rw [← hb, readLe_sealedSuper (by omega), readLe_writeLe_self (by omega)]
    rfl

section After

variable {ctx : MetadataContext} {primary : Bytes} {size : Nat}

/-- group の先頭は、番号の大きい group ほど後ろにある。 -/
theorem superBase_add_le (ha : ctx.sb.Accepted size) (hsize : size < 2 ^ 63) {j k : Nat} (hj : j ≠ 0)
    (hjk : j < k) (hk : k < ctx.sb.groupsCount) :
    ctx.sb.superBase j + ctx.sb.blockSize ≤ ctx.sb.superBase k := by
  have hpos := ha.perGroup_pos
  have hmul : (j + 1) * ctx.sb.blocksPerGroup ≤ k * ctx.sb.blocksPerGroup :=
    Nat.mul_le_mul_right _ hjk
  have hstart : ctx.sb.groupStartBlock j + 1 ≤ ctx.sb.groupStartBlock k := by
    rw [ha.groupStartBlock_eq hsize (hjk.trans hk), ha.groupStartBlock_eq hsize hk]
    rw [Nat.succ_mul] at hmul
    omega
  have hbs := Nat.mul_le_mul_right ctx.sb.blockSize hstart
  unfold Superblock.superBase
  rw [if_neg hj, if_neg (by omega)]
  rwa [Nat.succ_mul] at hbs

@[simp] theorem length_superWrite (sb : Superblock) (raw : Bytes) (k : Nat) :
    (superWrite sb raw k).bytes.length = raw.length := by
  unfold superWrite
  dsimp only
  split <;> simp

/-- primary と写しは互いに重ならない。 -/
theorem apart_superWrites (ha : ctx.sb.Accepted size) (hsize : size < 2 ^ 63)
    (hlen : primary.length = 1024)
    (hapart : ∀ g, 0 < g → g < ctx.sb.groupsCount → groupHasSuper primary g = true →
      ctx.sb.groupStartBlock g * ctx.sb.blockSize + 1024 ≤ 1024 ∨
        2048 ≤ ctx.sb.groupStartBlock g * ctx.sb.blockSize) :
    (superWrites ctx.sb primary).Pairwise Write.Apart := by
  have hge := ha.blockSize_ge
  unfold superWrites
  rw [List.pairwise_map]
  have hsorted : (copyGroups ctx.sb primary).Pairwise (· < ·) :=
    List.Pairwise.filter _ List.pairwise_lt_range
  refine hsorted.imp_of_mem fun {j k} hj hk hjk => ?_
  obtain ⟨hkg, hks⟩ := mem_copyGroups.mp hk
  unfold Write.Apart
  rw [length_superWrite, length_superWrite, hlen]
  show ctx.sb.superBase j + 1024 ≤ ctx.sb.superBase k ∨
    ctx.sb.superBase k + 1024 ≤ ctx.sb.superBase j
  by_cases hj0 : j = 0
  · have := hapart k (by omega) hkg hks
    unfold Superblock.superBase
    rw [if_pos hj0, if_neg (by omega)]
    omega
  · exact Or.inl (by have := superBase_add_le ha hsize hj0 hjk hkg; omega)

/-- group の先頭は filesystem の中にあり、その byte 番地は溢れない。 -/
theorem groupStart_room (ha : ctx.sb.Accepted size) (hsize : size < 2 ^ 63) {g : Nat}
    (hg : g < ctx.sb.groupsCount) : ctx.sb.groupStartBlock g < ctx.sb.blocksCount ∧
      ctx.sb.groupStartBlock g * ctx.sb.blockSize + ctx.sb.blockSize ≤ size := by
  have hstart := ha.groupStartBlock_eq hsize hg
  have hlt := ha.lt_groupsCount_iff.mp hg
  have hin : ctx.sb.groupStartBlock g < ctx.sb.blocksCount := by omega
  have hmul := (Nat.mul_le_mul_right ctx.sb.blockSize (Nat.succ_le_of_lt hin)).trans ha.fits
  rw [Nat.succ_mul] at hmul
  exact ⟨hin, hmul⟩

/-- 異なる group の block は重ならない。 -/
theorem group_blocks_apart (ha : ctx.sb.Accepted size) (hsize : size < 2 ^ 63) {g k off : Nat}
    (hg : g < ctx.sb.groupsCount) (hk : k < ctx.sb.groupsCount) (hne : k ≠ g)
    (hlo : ctx.sb.groupStartBlock g * ctx.sb.blockSize ≤ off)
    (hhi : off < (ctx.sb.groupStartBlock g + ctx.sb.groupBlockCount g) * ctx.sb.blockSize) :
    off < ctx.sb.groupStartBlock k * ctx.sb.blockSize ∨
      ctx.sb.groupStartBlock k * ctx.sb.blockSize + ctx.sb.blockSize ≤ off := by
  have hpos := ha.perGroup_pos
  have hstartg := ha.groupStartBlock_eq hsize hg
  have hstartk := ha.groupStartBlock_eq hsize hk
  have hcount := ha.groupBlockCount_eq hsize hg
  rcases Nat.lt_or_gt_of_ne hne with hlt | hgt
  · have hmul := Nat.mul_le_mul_right ctx.sb.blocksPerGroup (Nat.succ_le_of_lt hlt)
    rw [Nat.succ_mul] at hmul
    have hbs := Nat.mul_le_mul_right ctx.sb.blockSize
      (show ctx.sb.groupStartBlock k + 1 ≤ ctx.sb.groupStartBlock g by omega)
    rw [Nat.succ_mul] at hbs
    omega
  · have hmul := Nat.mul_le_mul_right ctx.sb.blocksPerGroup (Nat.succ_le_of_lt hgt)
    rw [Nat.succ_mul] at hmul
    have hbs := Nat.mul_le_mul_right ctx.sb.blockSize
      (show ctx.sb.groupStartBlock g + ctx.sb.groupBlockCount g ≤ ctx.sb.groupStartBlock k by omega)
    omega

/--
**superblock の写しを書く二つの関数は一致する。**

選ばれる group は同じで、どの device の上でも同じ答えを返し、同じ書き込みを残す。番地は filesystem を
出ない。書ける device の上では成功し、選ばれた group の先頭には番号と checksum だけが違う写しがあり、
checksum は合う。primary と写しのほかの byte、したがって選ばれない group の block は変わらない。
-/
theorem superCopyWriters_agree {d₀ : Disk} {w : World} (hsb : readSuperblock d₀ = .ok ctx.sb)
    (hsize : d₀.sizeBytes = w.disk.sizeBytes) (hlen : primary.length = 1024)
    (hapart : ∀ g, 0 < g → g < ctx.sb.groupsCount → groupHasSuper primary g = true →
      ctx.sb.groupStartBlock g * ctx.sb.blockSize + 1024 ≤ 1024 ∨
        2048 ≤ ctx.sb.groupStartBlock g * ctx.sb.blockSize) :
    (∀ g, Maintenance.groupHasSuper primary g = groupHasSuper primary g) ∧
    (∀ g, groupHasSuper primary g = true ↔ HoldsSuper primary g) ∧
    (Proc.run (writeSuperCopies ctx primary) w).1 =
      (Proc.run (writeSuperblockCopies ctx primary) w.disk).1 ∧
    (Proc.run (writeSuperCopies ctx primary) w).2.disk =
      (Proc.run (writeSuperblockCopies ctx primary) w.disk).2 ∧
    (∀ g < ctx.sb.groupsCount, ctx.sb.groupStartBlock g < ctx.sb.blocksCount ∧
      ctx.sb.groupStartBlock g * ctx.sb.blockSize + ctx.sb.blockSize ≤ w.disk.sizeBytes) ∧
    (w.disk.writable = true →
      ∃ d', Proc.run (writeSuperblockCopies ctx primary) w.disk = (.ok (), d') ∧
        d'.data.read 1024 1024 = primary ∧
        (∀ g, 0 < g → g < ctx.sb.groupsCount → groupHasSuper primary g = true →
          SuperCopy primary g (d'.data.read (ctx.sb.groupStartBlock g * ctx.sb.blockSize) 1024)) ∧
        (∀ off, off < 1024 ∨ 2048 ≤ off →
          (∀ g, 0 < g → g < ctx.sb.groupsCount → groupHasSuper primary g = true →
            off < ctx.sb.groupStartBlock g * ctx.sb.blockSize ∨
              ctx.sb.groupStartBlock g * ctx.sb.blockSize + 1024 ≤ off) →
          d'.data off = w.disk.data off) ∧
        ∀ g < ctx.sb.groupsCount, groupHasSuper primary g = false → ∀ off,
          ctx.sb.groupStartBlock g * ctx.sb.blockSize ≤ off →
          off < (ctx.sb.groupStartBlock g + ctx.sb.groupBlockCount g) * ctx.sb.blockSize →
          off < 1024 ∨ 2048 ≤ off → d'.data off = w.disk.data off) := by
  have ha := accepted_of_readSuperblock hsb
  have hroom : 2048 ≤ d₀.sizeBytes := by
    obtain ⟨b, hb, -⟩ := Result.bind_eq_ok hsb
    exact (Disk.readExact_eq_ok_iff.mp hb).1
  rw [hsize] at ha hroom
  have hlt := w.disk.size_lt
  have hpos := Nat.pos_of_ne_zero ha.groups_pos
  have hge := ha.blockSize_ge
  obtain ⟨hres, hdisk⟩ := @run_writers_agree ctx _ _ ha hroom hlen
  refine ⟨Maintenance.groupHasSuper_eq primary, groupHasSuper_iff primary, hres, hdisk,
    fun g hg => groupStart_room ha hlt hg, fun hw => ⟨_, run_writeSuperblockCopies hlen hpos hw
      fun k hk => superBase_room ha hlt hroom (mem_copyGroups.mp hk).1, ?_⟩⟩
  have hdata : (w.disk.emit ((superWrites ctx.sb primary).map .write ++ [.flush])).data =
      w.disk.data.applyAll (superWrites ctx.sb primary) := by
    rw [Disk.emit_data, replay_append, replay_writes]
    rfl
  have hpair := apart_superWrites ha hlt hlen hapart
  have hread : ∀ k < ctx.sb.groupsCount, groupHasSuper primary k = true →
      (w.disk.data.applyAll (superWrites ctx.sb primary)).read (ctx.sb.superBase k) 1024 =
        (superWrite ctx.sb primary k).bytes := by
    intro k hk hs
    have hmem : superWrite ctx.sb primary k ∈ superWrites ctx.sb primary :=
      List.mem_map_of_mem (mem_copyGroups.mpr ⟨hk, hs⟩)
    have := Image.read_applyAll_of_mem hpair hmem w.disk.data
    rwa [length_superWrite, hlen] at this
  have hframe : ∀ off, off < 1024 ∨ 2048 ≤ off →
      (∀ g, 0 < g → g < ctx.sb.groupsCount → groupHasSuper primary g = true →
        off < ctx.sb.groupStartBlock g * ctx.sb.blockSize ∨
          ctx.sb.groupStartBlock g * ctx.sb.blockSize + 1024 ≤ off) →
      w.disk.data.applyAll (superWrites ctx.sb primary) off = w.disk.data off := by
    intro off hprim hcopies
    refine Image.applyAll_apply_of_misses fun x hx => ?_
    obtain ⟨k, hk, rfl⟩ := List.mem_map.mp hx
    obtain ⟨hkg, hks⟩ := mem_copyGroups.mp hk
    rw [length_superWrite, hlen]
    show off < ctx.sb.superBase k ∨ ctx.sb.superBase k + 1024 ≤ off
    unfold Superblock.superBase
    by_cases hk0 : k = 0
    · rw [if_pos hk0]
      exact hprim
    · rw [if_neg hk0]
      exact hcopies k (Nat.pos_of_ne_zero hk0) hkg hks
  rw [hdata]
  refine ⟨?_, fun g hg0 hg hs => ?_, hframe, fun g hg hno off hlo hhi hprim => ?_⟩
  · have hzero : groupHasSuper primary 0 = true := by
      unfold groupHasSuper
      rw [if_pos rfl]
    exact hread 0 hpos hzero
  · have hbase : ctx.sb.superBase g = ctx.sb.groupStartBlock g * ctx.sb.blockSize :=
      if_neg (Nat.ne_of_gt hg0)
    rw [← hbase, hread g hg hs]
    unfold superWrite
    rw [if_neg (Nat.ne_of_gt hg0)]
    exact superCopy_sealedSuper hlen g
  · refine hframe off hprim fun k _ hk hs => ?_
    have hne : k ≠ g := by
      rintro rfl
      rw [hno] at hs
      cases hs
    have := group_blocks_apart ha hlt hg hk hne hlo hhi
    omega

end After

namespace Twin

/-- 二つの group からなる filesystem。 -/
def image : Image :=
  Image.applyAll (fun _ => 0) [
    ⟨1024, leBytes 4 16⟩, ⟨1024 + 0x04, leBytes 4 16⟩, ⟨1024 + 0x18, leBytes 4 1⟩,
    ⟨1024 + 0x20, leBytes 4 8⟩, ⟨1024 + 0x28, leBytes 4 8⟩, ⟨1024 + 0x38, leBytes 2 extMagic⟩,
    ⟨1024 + 0x58, leBytes 2 128⟩]

theorem size_lt : 32768 < 2 ^ 63 := by decide

def disk : Disk where
  sizeBytes := 32768
  logicalSector := 512
  isBlockDevice := false
  writable := true
  data := image
  events := []
  size_lt := size_lt

def ctx : MetadataContext := contextAt disk

def world : World := ⟨disk, none, []⟩

theorem load : readSuperblock disk = .ok ctx.sb := by decide +kernel

theorem geometry : ctx.sb.groupsCount = 2 ∧ 2048 ≤ ctx.sb.groupStartBlock 1 * ctx.sb.blockSize := by
  decide +kernel

end Twin

/-- 二つ目の group の先頭に写しができる。 -/
theorem superCopyWriters_agree_twin : ∃ d',
    Proc.run (writeSuperblockCopies Twin.ctx (rawSuper Twin.disk)) Twin.world.disk = (.ok (), d') ∧
      d'.data.read 1024 1024 = rawSuper Twin.disk := by
  obtain ⟨-, -, -, -, -, h⟩ := @superCopyWriters_agree Twin.ctx (rawSuper Twin.disk) Twin.disk
    Twin.world Twin.load rfl (Image.length_read _ _ _) fun g h0 hg _ => by
      obtain ⟨hgroups, hstart⟩ := Twin.geometry
      have h1 : g = 1 := by omega
      rw [h1]
      exact Or.inr hstart
  obtain ⟨d', hrun, hread, -⟩ := h rfl
  exact ⟨d', hrun, hread⟩

end Fsx.Ext4
