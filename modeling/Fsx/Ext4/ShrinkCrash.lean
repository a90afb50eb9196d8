import Fsx.Ext4.Session
import Fsx.Ext4.SuperCopies

/-!
# 縮小の確定の途中で止まったとき

`finalize_metadata_only_shrink` は、clean に戻す前に新しい大きさの superblock を書く。
その直後に止まると、filesystem は dirty のまま、大きさはすでに target である。
やり直しは `build_owner_relocation_plan` から始まるが、これは target が filesystem より
小さいことを要求するので、同じ target では二度と始められない。
-/

namespace Fsx.Ext4

open Proc

/-! ## 新しい大きさの superblock -/

theorem updateSuperblockChecksum_ok {raw raw' : Bytes} (h : updateSuperblockChecksum raw = .ok raw') :
    raw'.length = raw.length ∧
      ∀ n off, off + n ≤ 0x3fc → readLe n raw' off = readLe n raw off := by
  unfold updateSuperblockChecksum at h
  split at h
  · cases h
  · split at h
    · cases h
      exact ⟨rfl, fun _ _ _ => rfl⟩
    · cases h
      exact ⟨length_writeLe _ _ _ _, fun n off hoff => readLe_writeLe_of_disjoint (Or.inl hoff)⟩

/-- 下位と上位に分けて書いた値は、そのまま読み戻せる。 -/
theorem readLoHi_setLoHi {b : Bytes} {wide : Bool} {lo hi v : Nat} (hlo : lo + 4 ≤ hi)
    (hhi : hi + 4 ≤ b.length) (hv : v < 2 ^ 64) (hnarrow : wide = false → v < 2 ^ 32) :
    readLoHi (setLoHi b lo hi v) wide lo hi = v := by
  unfold readLoHi setLoHi
  rw [readLe_writeLe_of_disjoint (Or.inl hlo), readLe_writeLe_self (by omega),
    readLe_writeLe_self (by rw [length_writeLe]; omega)]
  cases wide with
  | false =>
    have := hnarrow rfl
    simp only [Bool.false_eq_true, if_false, Nat.or_zero]
    exact Nat.mod_eq_of_lt (by omega)
  | true =>
    have hlow : v % 256 ^ 4 < 2 ^ 32 := Nat.mod_lt _ (by decide)
    rw [if_pos rfl, Nat.or_comm, ← Nat.shiftLeft_add_eq_or_of_lt hlow, Nat.shiftLeft_eq,
      Nat.shiftRight_eq_div_pow, Nat.mod_eq_of_lt (show v / 2 ^ 32 < 256 ^ 4 by omega)]
    omega

theorem readLe_setLoHi {b : Bytes} {lo hi v n off : Nat}
    (h1 : off + n ≤ lo ∨ lo + 4 ≤ off) (h2 : off + n ≤ hi ∨ hi + 4 ≤ off) :
    readLe n (setLoHi b lo hi v) off = readLe n b off := by
  unfold setLoHi
  rw [readLe_writeLe_of_disjoint h2, readLe_writeLe_of_disjoint h1]

@[simp] theorem length_setLoHi (b : Bytes) (lo hi v : Nat) : (setLoHi b lo hi v).length = b.length := by
  unfold setLoHi
  rw [length_writeLe, length_writeLe]

/-- 新しい superblock の大きさは target で、dirty である。 -/
theorem decode_shrunkSuper {ctx : MetadataContext} {raw shrunk : Bytes} {state target : Nat}
    (hlen : raw.length = 1024) (h : shrunkSuper ctx raw state target = .ok shrunk)
    (htarget : target < 2 ^ 64)
    (hnarrow : readLe 4 raw 0x60 &&& incompat64bit = 0 → target < 2 ^ 32) :
    (decodeSuperblock shrunk).blocksCount = target ∧
      (decodeSuperblock shrunk).blockSize = (decodeSuperblock raw).blockSize ∧
      (decodeSuperblock shrunk).state &&& 1 = 0 := by
  unfold shrunkSuper at h
  rw [Result.guard_bind_eq_ok_iff] at h
  obtain ⟨-, h⟩ := h
  obtain ⟨-, hread⟩ := updateSuperblockChecksum_ok h
  have hfield : ∀ n off, off + n ≤ 0x3fc → (off + n ≤ 0x04 ∨ 0x10 ≤ off) →
      (off + n ≤ 0x3a ∨ 0x3c ≤ off) → (off + n ≤ 0x150 ∨ 0x15c ≤ off) →
      readLe n shrunk off = readLe n raw off := by
    intro n off h1 h2 h3 h4
    rw [hread n off h1, readLe_writeLe_of_disjoint (by omega),
      readLe_setLoHi (by omega) (by omega), readLe_setLoHi (by omega) (by omega),
      readLe_setLoHi (by omega) (by omega)]
  have hcount : ∀ wide : Bool, (wide = false → target < 2 ^ 32) →
      readLoHi shrunk wide 0x04 0x150 = target := by
    intro wide hw
    have hset : readLoHi (setLoHi raw 0x04 0x150 target) wide 0x04 0x150 = target :=
      readLoHi_setLoHi (by decide) (by omega) htarget hw
    have hlo : readLe 4 shrunk 0x04 = readLe 4 (setLoHi raw 0x04 0x150 target) 0x04 := by
      rw [hread 4 0x04 (by decide), readLe_writeLe_of_disjoint (by decide),
        readLe_setLoHi (by decide) (by decide), readLe_setLoHi (by decide) (by decide)]
    have hhi : readLe 4 shrunk 0x150 = readLe 4 (setLoHi raw 0x04 0x150 target) 0x150 := by
      rw [hread 4 0x150 (by decide), readLe_writeLe_of_disjoint (by decide),
        readLe_setLoHi (by decide) (by decide), readLe_setLoHi (by decide) (by decide)]
    unfold readLoHi at hset ⊢
    rw [hlo, hhi]
    exact hset
  refine ⟨?_, ?_, ?_⟩
  · show readLoHi shrunk (decide (readLe 4 shrunk 0x60 &&& incompat64bit ≠ 0)) 0x04 0x150 = target
    rw [hfield 4 0x60 (by decide) (by decide) (by decide) (by decide)]
    refine hcount _ fun hw => hnarrow ?_
    by_contra hne
    rw [decide_eq_true hne] at hw
    cases hw
  · unfold Superblock.blockSize
    show (if readLe 4 shrunk 0x18 ≤ 6 then 1024 <<< readLe 4 shrunk 0x18 else 0) =
      if readLe 4 raw 0x18 ≤ 6 then 1024 <<< readLe 4 raw 0x18 else 0
    rw [hfield 4 0x18 (by decide) (by decide) (by decide) (by decide)]
  · show readLe 2 shrunk 0x3a &&& 1 = 0
    rw [hread 2 0x3a (by decide), readLe_writeLe_self (by simp only [length_setLoHi]; omega)]
    rw [Nat.and_one_is_mod, Nat.mod_mod_of_dvd _ (by decide), ← Nat.and_one_is_mod, Nat.and_assoc]
    exact Nat.and_zero _

/-! ## 操作の記録は伸びるだけである -/

section Grows

variable {t : List WorldEvent}

/-- 記録が `t` で始まる。 -/
def StartsWith (t : List WorldEvent) (w : World) : Prop := t <+: w.trace

theorem steady_startsWith : Steady (StartsWith t) where
  dev := by
    rintro w d es ⟨u, hu⟩
    exact ⟨u ++ es.map .dev, by rw [← List.append_assoc, hu]⟩
  journal := by
    rintro w j j' op es ⟨u, hu⟩ _ _
    exact ⟨u ++ es, by rw [← List.append_assoc, hu]⟩

/-- superblock を書いた記録は、書き終えた後の記録に残っている。 -/
theorem triple_writeSuperCopies {ctx : MetadataContext} {primary : Bytes} :
    Triple (fun _ => True) (writeSuperCopies ctx primary)
      (fun _ w => primary.length = 1024 ∧
        ∃ t, StartsWith (t ++ [.dev (.write ⟨1024, primary⟩)]) w) (fun _ => True) := by
  refine Triple.guard (fun _ h => h) fun _ => Triple.guard (fun _ h => h) fun hlen => ?_
  refine Triple.bind (R := fun _ w => ∃ t, StartsWith (t ++ [.dev (.write ⟨1024, primary⟩)]) w)
    (Triple.stepping (fun w w' _ hw => ?_) fun _ h => h) fun _ => ?_
  · obtain ⟨d, -, hd⟩ := Result.bind_eq_ok hw
    cases hd
    exact ⟨w.trace, List.prefix_rfl⟩
  · rintro w ⟨t, ht⟩
    have hrest : Keeps (StartsWith (t ++ [.dev (.write ⟨1024, primary⟩)])) (do
        writeBackupSupers ctx primary (ctx.sb.groupsCount - 1) 1
        Engine.flush) :=
      Triple.bind (steady_startsWith.keeps_writeBackupSupers _ _) fun _ =>
        steady_startsWith.keeps_flush
    exact hrest.mono (fun _ h => h) (fun _ _ h => ⟨not_not.mp hlen, t, h⟩) (fun _ _ => trivial) w ht

end Grows

/-! ## 大きさを書いた直後 -/

theorem triple_completeFinalize {host : Host} {ctx : MetadataContext} {shrunk : Bytes}
    {state : Nat} : Triple (fun _ => True) (completeFinalize host ctx shrunk state)
      (fun _ w => shrunk.length = 1024 ∧
        ∃ t, StartsWith (t ++ [.dev (.write ⟨1024, shrunk⟩)]) w) (fun _ => True) := by
  refine Triple.bind triple_writeSuperCopies fun _ => ?_
  rintro w ⟨hlen, t, ht⟩
  have hrest : Keeps (StartsWith (t ++ [.dev (.write ⟨1024, shrunk⟩)])) (do
      let r ← Engine.device fun d => verifyMetadata host.verifyCancelled d
      if r.clean = false then
        throw { code := .corrupt
                message := "post-shrink metadata verification failed; filesystem intentionally left unclean" }
      let clean ← Engine.device fun _ =>
        updateSuperblockChecksum (writeLe 2 shrunk 0x3a (state ||| 1))
      writeSuperCopies ctx clean
      Engine.append { type := .filesystemMarkedClean }
      Engine.checkpoint .filesystemShrunk) := by
    refine Triple.bind keeps_device fun _ => Triple.guard (fun _ h => h) fun _ => ?_
    exact Triple.bind keeps_device fun _ =>
      Triple.bind steady_startsWith.keeps_writeSuperCopies fun _ =>
        Triple.bind steady_startsWith.keeps_journalOp fun _ => steady_startsWith.keeps_journalOp
  exact hrest.mono (fun _ h => h) (fun _ _ h => ⟨hlen, t, h⟩) (fun _ _ => trivial) w ht

/-- 何をしても真である。途中の状態を問わない手続きに使う。 -/
theorem triple_true {α : Type} {p : EngineM α} :
    Triple (fun _ => True) p (fun _ _ => True) (fun _ => True) :=
  fun _ _ => ⟨fun _ _ _ => trivial, fun _ _ _ => trivial⟩

/-- 成功した確定は、はじめの device から決まる新しい superblock を書いている。 -/
theorem triple_finalize {host : Host} {missing : Error} {targetBytes : Nat}
    {opts : FinalizeOptions} {w₀ : World} :
    Triple (fun w => w = w₀) (finalizeMetadataOnlyShrink host missing targetBytes opts)
      (fun _ w => ∃ ctx sbraw raw shrunk,
        checkFinalize host w₀.disk targetBytes = .ok ctx ∧
        readRawSuperblock w₀.disk = .ok sbraw ∧
        updateSuperblockChecksum (writeLe 2 sbraw 0x3a (readLe 2 sbraw 0x3a &&& 0xfffe)) =
          .ok raw ∧
        shrunkSuper ctx raw (readLe 2 sbraw 0x3a) (targetBytes / ctx.sb.blockSize) = .ok shrunk ∧
        shrunk.length = 1024 ∧ ∃ t, StartsWith (t ++ [.dev (.write ⟨1024, shrunk⟩)]) w)
      (fun _ => True) := by
  refine Triple.guard (fun _ _ => trivial) fun _ => ?_
  refine Triple.bind (R := fun _ w => w = w₀) (Triple.reading (fun _ _ h _ => h)
    fun _ _ => trivial) fun _ => ?_
  refine Triple.bind (R := fun ctx w => w = w₀ ∧ checkFinalize host w₀.disk targetBytes = .ok ctx)
    (Triple.reading ?_ fun _ _ => trivial) fun ctx => ?_
  · rintro w ctx rfl hctx
    exact ⟨rfl, hctx⟩
  refine Triple.bind (R := fun _ w => w = w₀ ∧ checkFinalize host w₀.disk targetBytes = .ok ctx)
    (Triple.reading (fun _ _ h _ => h) fun _ _ => trivial) fun j => ?_
  refine Triple.bind (R := fun _ w => w = w₀ ∧ checkFinalize host w₀.disk targetBytes = .ok ctx)
    (Triple.reading (fun _ _ h _ => h) fun _ _ => trivial) fun _ => ?_
  refine Triple.bind (R := fun b _ => readRawSuperblock w₀.disk = .ok b ∧
    checkFinalize host w₀.disk targetBytes = .ok ctx) (Triple.reading ?_ fun _ _ => trivial)
    fun sbraw => ?_
  · rintro w b ⟨rfl, hctx⟩ hb
    exact ⟨hb, hctx⟩
  refine Triple.bind (R := fun raw _ => readRawSuperblock w₀.disk = .ok sbraw ∧
    checkFinalize host w₀.disk targetBytes = .ok ctx ∧
    updateSuperblockChecksum (writeLe 2 sbraw 0x3a (readLe 2 sbraw 0x3a &&& 0xfffe)) = .ok raw)
    (Triple.reading (fun _ _ h hr => ⟨h.1, h.2, hr⟩) fun _ _ => trivial) fun raw => ?_
  rintro w ⟨hsb, hctx, hraw⟩
  suffices h : Triple (fun _ => True) (do
      beginFinalize ctx raw
      shrinkTail ctx raw (targetBytes / ctx.sb.blockSize)
      let shrunk ← Engine.device fun _ =>
        shrunkSuper ctx raw (readLe 2 sbraw 0x3a) (targetBytes / ctx.sb.blockSize)
      completeFinalize host ctx shrunk (readLe 2 sbraw 0x3a))
      (fun _ w => ∃ shrunk,
        shrunkSuper ctx raw (readLe 2 sbraw 0x3a) (targetBytes / ctx.sb.blockSize) = .ok shrunk ∧
        shrunk.length = 1024 ∧ ∃ t, StartsWith (t ++ [.dev (.write ⟨1024, shrunk⟩)]) w)
      (fun _ => True) by
    refine (h.mono (fun _ h => h) ?_ fun _ h => h) w trivial
    rintro _ w' ⟨shrunk, hsh, hlen, ht⟩
    exact ⟨ctx, sbraw, raw, shrunk, hctx, hsb, hraw, hsh, hlen, ht⟩
  refine Triple.bind triple_true fun _ => Triple.bind triple_true fun _ => ?_
  refine Triple.bind (R := fun shrunk _ =>
    shrunkSuper ctx raw (readLe 2 sbraw 0x3a) (targetBytes / ctx.sb.blockSize) = .ok shrunk)
    (Triple.reading (fun _ _ _ h => h) fun _ h => h) fun shrunk => ?_
  intro w hsh
  refine (triple_completeFinalize.mono (fun _ h => h) ?_ fun _ h => h) w trivial
  exact fun _ w' h => ⟨shrunk, hsh, h.1, h.2⟩

/-! ## やり直し -/

/-- やり直しの手順。計画を作り直して確定し、同じ target で縮小を確定する。 -/
def forwardPath (host : Host) (missing : Error) (targetBytes : Nat) (copts : CommitOptions)
    (fopts : FinalizeOptions) : EngineM Unit := do
  let plan ← Engine.device fun d => buildOwnerRelocationPlan host d targetBytes
  let _ ← commitStagedRelocation host plan copts
  finalizeMetadataOnlyShrink host missing targetBytes fopts

/-- 縮小の確定がどこで止まっても、やり直しが成功する。 -/
def Finishable (targetBytes : Nat) (start : World) (trace : List WorldEvent) : Prop :=
  ∀ pre, pre <+: trace → ∃ host missing copts fopts w,
    Proc.run (forwardPath host missing targetBytes copts fopts) (start.stoppedAt pre) = (.ok (), w)

/-- 検査を通った target は、いまの大きさより小さく、block の境界にある。 -/
theorem checkFinalize_target {host : Host} {d : Disk} {targetBytes : Nat} {ctx : MetadataContext}
    {sbraw : Bytes} (h : checkFinalize host d targetBytes = .ok ctx)
    (hraw : readRawSuperblock d = .ok sbraw) :
    ctx.sb = decodeSuperblock sbraw ∧ readSuperblock d = .ok ctx.sb ∧
      targetBytes < ctx.sb.sizeBytes ∧ targetBytes % ctx.sb.blockSize = 0 := by
  unfold checkFinalize at h
  obtain ⟨ready, hready, h⟩ := Result.bind_eq_ok h
  rw [Result.guard_bind_eq_ok_iff] at h
  obtain ⟨ctx', hctx, h⟩ := Result.bind_eq_ok h.2
  simp only [Result.guard_bind_eq_ok_iff, Result.pure_eq_ok_iff] at h
  obtain ⟨-, rfl⟩ := h
  unfold analyzeShrinkReadiness at hready
  obtain ⟨sb, hsb, hready⟩ := Result.bind_eq_ok hready
  simp only [Result.guard_bind_eq_ok_iff] at hready
  unfold loadMetadataContext at hctx
  obtain ⟨sb', hsb', hctx⟩ := Result.bind_eq_ok hctx
  cases hsb.symm.trans hsb'
  obtain ⟨raw', -, hctx⟩ := Result.bind_eq_ok hctx
  simp only [Result.guard_bind_eq_ok_iff, Result.pure_eq_ok_iff] at hctx
  obtain ⟨-, rfl⟩ := hctx
  refine ⟨?_, hsb, Nat.not_le.mp hready.1, not_not.mp hready.2.1⟩
  obtain ⟨b, hb, hsb⟩ := Result.bind_eq_ok hsb
  obtain ⟨-, -, hsb⟩ := Result.bind_eq_ok hsb
  cases hsb
  cases hraw.symm.trans hb
  rfl

/-- 大きさが target の filesystem には、もう計画を作れない。 -/
theorem buildOwnerRelocationPlan_stuck {host : Host} {d : Disk} {targetBytes : Nat} {b : Bytes}
    (hread : d.readExact 1024 1024 = .ok b) (hsize : (decodeSuperblock b).sizeBytes ≤ targetBytes) :
    ∀ plan, buildOwnerRelocationPlan host d targetBytes ≠ .ok plan := by
  intro plan h
  unfold buildOwnerRelocationPlan at h
  obtain ⟨sb, hsb, h⟩ := Result.bind_eq_ok h
  rw [Result.guard_bind_eq_ok_iff] at h
  obtain ⟨-, hdec, -⟩ := readSuperblock_eq_ok_iff.mp hsb
  rw [(Disk.readExact_eq_ok_iff.mp hread).2, hdec] at hsize
  exact h.1 hsize

theorem forwardPath_stuck {host : Host} {missing : Error} {targetBytes : Nat}
    {copts : CommitOptions} {fopts : FinalizeOptions} {w w' : World} {b : Bytes}
    (hread : w.disk.readExact 1024 1024 = .ok b)
    (hsize : (decodeSuperblock b).sizeBytes = targetBytes) :
    Proc.run (forwardPath host missing targetBytes copts fopts) w ≠ (.ok (), w') := by
  intro hrun
  obtain ⟨plan, v, hplan, -⟩ := run_bind_eq_ok hrun
  exact buildOwnerRelocationPlan_stuck hread hsize.le plan (congrArg Prod.fst hplan)

/--
成功する確定には、途中で止まるとやり直せなくなる時点がある。
そこでは superblock の大きさがすでに target で、まだ clean の印がない。
-/
theorem exists_stuck {host : Host} {missing : Error} {targetBytes : Nat} {opts : FinalizeOptions}
    {start w : World}
    (h : Proc.run (finalizeMetadataOnlyShrink host missing targetBytes opts) start = (.ok (), w)) :
    ∃ pre b, pre <+: w.trace ∧
      (start.stoppedAt pre).disk.readExact 1024 1024 = .ok b ∧
      (decodeSuperblock b).sizeBytes = targetBytes ∧ (decodeSuperblock b).state &&& 1 = 0 := by
  obtain ⟨ctx, sbraw, raw, shrunk, hcheck, hsb, hraw, hshrunk, hlen, t, ht⟩ :=
    triple_finalize.ok rfl h
  obtain ⟨hdec, hread, hlt, halign⟩ := checkFinalize_target hcheck hsb
  obtain ⟨hfit, hsbraw⟩ := Disk.readExact_eq_ok_iff.mp hsb
  have hsblen : sbraw.length = 1024 := by rw [hsbraw, Image.length_read]
  obtain ⟨hrawlen, hfield⟩ := updateSuperblockChecksum_ok hraw
  rw [length_writeLe, hsblen] at hrawlen
  have hinc : readLe 4 raw 0x60 = readLe 4 sbraw 0x60 := by
    rw [hfield 4 0x60 (by decide), readLe_writeLe_of_disjoint (by decide)]
  have hlog : (decodeSuperblock raw).blockSize = ctx.sb.blockSize := by
    rw [hdec]
    unfold Superblock.blockSize
    show (if readLe 4 raw 0x18 ≤ 6 then 1024 <<< readLe 4 raw 0x18 else 0) =
      if readLe 4 sbraw 0x18 ≤ 6 then 1024 <<< readLe 4 sbraw 0x18 else 0
    rw [hfield 4 0x18 (by decide), readLe_writeLe_of_disjoint (by decide)]
  have hacc := accepted_of_readSuperblock hread
  have hge := hacc.blockSize_ge
  have hfits : ctx.sb.blocksCount * ctx.sb.blockSize ≤ start.disk.sizeBytes := hacc.fits
  have hdev := start.disk.size_lt
  rw [hacc.sizeBytes_eq hdev] at hlt
  have hmul : targetBytes / ctx.sb.blockSize * ctx.sb.blockSize = targetBytes :=
    Nat.div_mul_cancel (Nat.dvd_of_mod_eq_zero halign)
  have htarget : targetBytes / ctx.sb.blockSize < ctx.sb.blocksCount :=
    (Nat.div_lt_iff_lt_mul (by omega)).mpr hlt
  have hcount : ctx.sb.blocksCount ≤ ctx.sb.blocksCount * ctx.sb.blockSize :=
    Nat.le_mul_of_pos_right _ (by omega)
  have hnarrow : readLe 4 raw 0x60 &&& incompat64bit = 0 →
      targetBytes / ctx.sb.blockSize < 2 ^ 32 := by
    intro hw
    rw [hinc] at hw
    have hc : ctx.sb.blocksCount = readLe 4 sbraw 0x04 ||| 0 := by
      rw [hdec]
      show readLoHi sbraw (decide (readLe 4 sbraw 0x60 &&& incompat64bit ≠ 0)) 0x04 0x150 = _
      unfold readLoHi
      rw [if_neg (by rw [decide_eq_true_eq]; exact not_not.mpr hw)]
    have := readLe_lt 4 sbraw 0x04
    rw [Nat.or_zero] at hc
    omega
  obtain ⟨hblocks, hbs, hstate⟩ := decode_shrunkSuper hrawlen hshrunk (by omega) hnarrow
  refine ⟨_, shrunk, ht, ?_, ?_, hstate⟩
  · -- 最後に書かれたのが新しい superblock である
    have hdata : (start.stoppedAt (t ++ [.dev (.write ⟨1024, shrunk⟩)])).disk.data =
        (replay start.disk.data (devEvents t)).write 1024 shrunk := by
      unfold World.stoppedAt
      rw [devEvents_append, replay_append]
      rfl
    refine Disk.readExact_eq_ok_iff.mpr ⟨hfit, ?_⟩
    rw [hdata, Image.read_write_self _ _ _ hlen]
  · unfold Superblock.sizeBytes
    rw [hblocks, hbs, hlog, if_neg, hmul]
    rw [not_or, Nat.not_lt, Nat.le_div_iff_mul_le (by omega), hmul]
    unfold u64Max
    omega

/--
**成功するどの縮小の確定にも、止まるとやり直しのきかない時点がある。**
-/
theorem not_finishable {host : Host} {missing : Error} {targetBytes : Nat} {opts : FinalizeOptions}
    {start w : World}
    (h : Proc.run (finalizeMetadataOnlyShrink host missing targetBytes opts) start = (.ok (), w)) :
    ¬ Finishable targetBytes start w.trace := by
  intro hfin
  obtain ⟨pre, b, hpre, hread, hsize, -⟩ := exists_stuck h
  obtain ⟨host', missing', copts, fopts, w', hrun⟩ := hfin pre hpre
  exact forwardPath_stuck hread hsize hrun

namespace Tiny

/-- file が block 5 にあり、移動の済んだ世界。 -/
def compacted : World :=
  ⟨disk (((image 32769 []).write 4096 [0x3f, 0]).write 9532 (leBytes 4 5)),
    some {
      view := {
        identity := {
          operationUuid := Uuid.ofBytes (zeros 16), filesystemUuid := Uuid.ofBytes (zeros 16)
          deviceSize := 32768, targetSize := 20480 }
        phase := .compacted
        records := [] }
      capacity := 100 }, []⟩

def finalizeOptions : FinalizeOptions where
  journalPath := "journal"

/-- 開けない journal の失敗。 -/
def missing : Error := { code := .notFound, message := "relocation journal does not exist" }

/-- 小さな filesystem の縮小の確定は成功する。 -/
theorem run_finalize : ∃ w, Proc.run (finalizeMetadataOnlyShrink host missing 20480 finalizeOptions)
    compacted = (.ok (), w) := by
  have hok : (Proc.run (finalizeMetadataOnlyShrink host missing 20480 finalizeOptions)
      compacted).1 = .ok () := by decide +kernel
  cases hrun : Proc.run (finalizeMetadataOnlyShrink host missing 20480 finalizeOptions) compacted with
  | mk r w =>
    rw [hrun] at hok
    exact ⟨w, Prod.ext hok rfl⟩

end Tiny

theorem not_finishable_tiny : ∃ w, Proc.run (finalizeMetadataOnlyShrink Tiny.host Tiny.missing 20480
    Tiny.finalizeOptions) Tiny.compacted = (.ok (), w) ∧
    ¬ Finishable 20480 Tiny.compacted w.trace := by
  obtain ⟨w, hw⟩ := Tiny.run_finalize
  exact ⟨w, hw, not_finishable hw⟩

/-- 途中で止まった縮小の確定は、いつもやり直せるわけではない。 -/
theorem finalize_crash_stuck : ¬ ∀ (host : Host) (missing : Error) (targetBytes : Nat)
    (opts : FinalizeOptions) (start w : World), start.trace = [] →
    Proc.run (finalizeMetadataOnlyShrink host missing targetBytes opts) start = (.ok (), w) →
    Finishable targetBytes start w.trace := by
  intro h
  obtain ⟨w, hw⟩ := Tiny.run_finalize
  obtain ⟨pre, b, hpre, hread, hsize, -⟩ := exists_stuck hw
  obtain ⟨host, missing, copts, fopts, w', hrun⟩ := h Tiny.host Tiny.missing 20480
    Tiny.finalizeOptions Tiny.compacted w rfl hw pre hpre
  exact forwardPath_stuck hread hsize hrun

end Fsx.Ext4
