import Fsx.Ext4.SuperCopies
import Fsx.Ext4.ShrinkCrash
import Fsx.Gpt.SyncSound

/-!
# journal の identity の検査

journal を取る四つの入り口は、journal が同じ filesystem・同じ device・同じ target のものかを
それぞれの手で確かめる。`stage_relocation` と `commit_staged_relocation` は三つの欄をすべて見るが、
`finalize_metadata_only_shrink` と `sync_gpt_partition_to_ext4` は device の大きさを見ない。

違う操作の journal が何も変えずに断られるのがいつかを、入り口ごとに言い切る。
-/

namespace Fsx

open Ext4 Gpt PartitionSync Proc

/-! ## 四つの入り口 -/

/-- journal を取る入り口と、その引数。 -/
inductive Entry where
  | stage (host : Host) (jhost : JournalHost) (plan : OwnerRelocationPlan) (opts : StageOptions)
  | commit (host : Host) (plan : OwnerRelocationPlan) (opts : CommitOptions)
  | finalize (host : Host) (missing : Error) (targetBytes : Nat) (opts : FinalizeOptions)
  | sync (host : SyncHost) (missing : Error) (index : Nat) (opts : PartitionSyncOptions)

/-- engine の手続きを、filesystem の device と journal の上で走らせる。 -/
def onEngine {α : Type} (p : EngineM α) : SyncM Unit := fun w =>
  ((Proc.run p ⟨w.filesystem, w.journal, []⟩).1.map fun _ => (),
    { w with
      filesystem := (Proc.run p ⟨w.filesystem, w.journal, []⟩).2.disk
      journal := (Proc.run p ⟨w.filesystem, w.journal, []⟩).2.journal })

namespace Entry

/-- 入り口を呼ぶ。 -/
def call : Entry → SyncM Unit
  | stage host jhost plan opts => onEngine (stageRelocation host jhost plan opts)
  | commit host plan opts => onEngine (commitStagedRelocation host plan opts)
  | finalize host missing targetBytes opts =>
    onEngine (finalizeMetadataOnlyShrink host missing targetBytes opts)
  | sync host missing index opts => do
    let _ ← syncGptPartitionToExt4 host missing index opts

/-- journal を見る呼び出しか。空の計画の `stage` と、path のない `sync` は見ない。 -/
def UsesJournal : Entry → Prop
  | stage _ _ plan _ => plan.moves ≠ []
  | commit _ _ _ => True
  | finalize _ _ _ _ => True
  | sync _ _ _ opts => opts.journalPath ≠ ""

/-- 求められた大きさ。`sync` では filesystem のいまの大きさである。 -/
def target (sb : Superblock) : Entry → Nat
  | stage _ _ plan _ => plan.targetBytes
  | commit _ plan _ => plan.targetBytes
  | finalize _ _ targetBytes _ => targetBytes
  | sync _ _ _ _ => sb.sizeBytes

end Entry

/-! ## 違う操作の journal -/

/-- 媒体に残るもの。 -/
def SyncWorld.media (w : SyncWorld) : Image × Image × Option JournalFile :=
  (w.filesystem.data, w.disk.data, w.journal)

/-- 違う filesystem・違う大きさの device・違う target の journal。 -/
def Foreign (e : Entry) (w : SyncWorld) (j : JournalFile) (sb : Superblock) : Prop :=
  parseUuid sb.uuid ≠ .ok j.view.identity.filesystemUuid ∨
    j.view.identity.deviceSize.toNat ≠ w.filesystem.sizeBytes ∨
    j.view.identity.targetSize.toNat ≠ e.target sb

/-- 違う操作の journal なら、何も変えずに断る。 -/
def RefusesForeign (e : Entry) (w : SyncWorld) (j : JournalFile) (sb : Superblock) : Prop :=
  e.UsesJournal → Foreign e w j sb → Declines SyncWorld.media e.call w

/-- 違うのは device の大きさだけである。 -/
def OnlyDeviceDiffers (e : Entry) (w : SyncWorld) (j : JournalFile) (sb : Superblock) : Prop :=
  parseUuid sb.uuid = .ok j.view.identity.filesystemUuid ∧
    j.view.identity.deviceSize.toNat ≠ w.filesystem.sizeBytes ∧
    j.view.identity.targetSize.toNat = e.target sb

/-- `finalize` が identity のほかの検査を通り、journal か device を変えるところまで進む。 -/
def FinalizeStarts (host : Host) (targetBytes : Nat) (opts : FinalizeOptions) (w : SyncWorld)
    (j : JournalFile) : Prop :=
  opts.journalPath ≠ "" ∧
    checkDeviceSafety host opts.allowBlockDevice "block-device shrink requires --allow-block-device"
      = .ok () ∧
    w.filesystem.writable = true ∧ (j.view.phase = .compacted ∨ j.view.phase = .staged) ∧
    ∃ ctx raw, checkFinalize host w.filesystem targetBytes = .ok ctx ∧
      stateUpdate w.filesystem false = .ok raw ∧
      (j.HasRoom ∨ w.filesystem.data.applyAll (superCopies ctx raw) ≠ w.filesystem.data)

/-- `sync` が identity のほかの検査を通り、成功するか、journal か disk を変えるところまで進む。 -/
def SyncStarts (host : SyncHost) (index : Nat) (opts : PartitionSyncOptions) (w : SyncWorld)
    (j : JournalFile) (sb : Superblock) : Prop :=
  syncGate host opts = .ok () ∧ ∃ plan, planSync w.filesystem w.disk index = .ok (sb, plan) ∧
    ((j.view.phase = .complete ∧ plan.newLast = plan.part.lastLba) ∨
      (j.view.phase = .filesystemShrunk ∧ j.HasRoom) ∨
      (j.view.phase = .partitionPending ∧ plan.newLast = plan.part.lastLba ∧ j.HasRoom) ∨
      (j.view.phase = .partitionPending ∧ plan.newLast ≠ plan.part.lastLba ∧
        w.disk.writable = true ∧ 100 ≤ totalSectors w.disk ∧
        ∃ c, resizedSide w.disk index plan.part.firstLba plan.newLast = .ok c))

/-- device の大きさの違いを見落として進む呼び出し。 -/
def Overlooked (e : Entry) (w : SyncWorld) (j : JournalFile) (sb : Superblock) : Prop :=
  e.UsesJournal ∧ OnlyDeviceDiffers e w j sb ∧
    match e with
    | .stage _ _ _ _ => False
    | .commit _ _ _ => False
    | .finalize host _ targetBytes opts => FinalizeStarts host targetBytes opts w j
    | .sync host _ index opts => SyncStarts host index opts w j sb

/-! ## 断る側 -/

/-- engine の手続きが断れば、二つの device と journal も変わらない。 -/
theorem declines_onEngine {α : Type} {p : EngineM α} {w : SyncWorld}
    (h : Declines (fun v : World => (v.disk.data, v.journal)) p ⟨w.filesystem, w.journal, []⟩) :
    Declines SyncWorld.media (onEngine p) w := by
  obtain ⟨⟨e, he⟩, hobs⟩ := h
  obtain ⟨h1, h2⟩ := Prod.mk.inj hobs
  refine ⟨⟨e, ?_⟩, ?_⟩
  · show (Proc.run p _).1.map _ = _
    rw [he]
    rfl
  · show ((Proc.run p _).2.disk.data, w.disk.data, (Proc.run p _).2.journal) = _
    rw [h1, h2]
    rfl

theorem checkIdentity_eq_ok {id : JournalIdentity} {fu : Uuid} {size : Nat}
    {plan : OwnerRelocationPlan} {text : String}
    (h : checkIdentity id fu size plan text = .ok ()) :
    id.filesystemUuid = fu ∧ id.deviceSize.toNat = size ∧ id.targetSize.toNat = plan.targetBytes := by
  unfold checkIdentity at h
  simp only [Result.guard_bind_eq_ok_iff, Result.guard_eq_ok_iff] at h
  obtain ⟨h1, h2, h3, -⟩ := h
  exact ⟨not_not.mp h1, not_not.mp h2, not_not.mp h3⟩

/-- 検査を通った journal は、同じ操作のものである。 -/
theorem not_foreign_of_checkIdentity {e : Entry} {w : SyncWorld} {j : JournalFile} {sb : Superblock}
    {fu : Uuid} {plan : OwnerRelocationPlan} {text : String} (hfu : parseUuid sb.uuid = .ok fu)
    (htarget : e.target sb = plan.targetBytes)
    (h : checkIdentity j.view.identity fu w.filesystem.sizeBytes plan text = .ok ()) :
    ¬ Foreign e w j sb := by
  obtain ⟨h1, h2, h3⟩ := checkIdentity_eq_ok h
  rintro (hc | hc | hc)
  · exact hc (by rw [hfu, h1])
  · exact hc h2
  · exact hc (by rw [h3, htarget])

theorem readSuperblock_of_checkStage {host : Host} {d : Disk} {sb : Superblock}
    (h : checkStageFilesystem host d = .ok sb) : readSuperblock d = .ok sb := by
  unfold checkStageFilesystem at h
  obtain ⟨sb', hsb, h⟩ := Result.bind_eq_ok h
  simp only [Result.guard_bind_eq_ok_iff] at h
  obtain ⟨-, -, h⟩ := h
  split at h
  · obtain ⟨r, -, h⟩ := Result.bind_eq_ok h
    simp only [Result.guard_bind_eq_ok_iff, Result.pure_eq_ok_iff] at h
    rw [h.2]
    exact hsb
  · rw [Result.pure_eq_ok_iff] at h
    rw [h]
    exact hsb

theorem refuses_stage {host : Host} {jhost : JournalHost} {plan : OwnerRelocationPlan}
    {opts : StageOptions} {w : SyncWorld} {j : JournalFile} {sb : Superblock}
    (hj : w.journal = some j) (hsb : readSuperblock w.filesystem = .ok sb) :
    RefusesForeign (.stage host jhost plan opts) w j sb := by
  intro hne hf
  refine declines_onEngine (Declines.guard fun _ => Declines.reading_bind fun _ _ => ?_)
  rw [if_neg hne]
  refine Declines.reading_bind fun sb' hsb' => Declines.reading_bind fun fu hfu => ?_
  have heq := readSuperblock_of_checkStage hsb'
  cases hsb.symm.trans heq
  refine Declines.reading_bind fun prof _ => Declines.bind ?_
  refine Declines.bind_ok (run_get _) rfl ?_
  rw [hj]
  refine Declines.bind (Declines.reading fun _ hid => ?_)
  exact not_foreign_of_checkIdentity hfu rfl hid hf

theorem refuses_commit {host : Host} {plan : OwnerRelocationPlan} {opts : CommitOptions}
    {w : SyncWorld} {j : JournalFile} {sb : Superblock} (hj : w.journal = some j)
    (hsb : readSuperblock w.filesystem = .ok sb) :
    RefusesForeign (.commit host plan opts) w j sb := by
  intro _ hf
  refine declines_onEngine (Declines.guard fun _ => Declines.reading_bind fun _ _ => ?_)
  refine Declines.reading_bind fun ctx hctx => Declines.reading_bind fun j' hj' => ?_
  simp only [hj] at hj'
  cases hj'
  unfold checkCommitFilesystem at hctx
  obtain ⟨ctx', hload, hctx⟩ := Result.bind_eq_ok hctx
  simp only [Result.guard_bind_eq_ok_iff, Result.pure_eq_ok_iff] at hctx
  obtain ⟨-, -, -, rfl⟩ := hctx
  cases hsb.symm.trans (readSuperblock_of_loadMetadataContext hload)
  refine Declines.bind (Declines.reading fun _ hid => ?_)
  unfold checkCommitJournal at hid
  obtain ⟨fu, hfu, hid⟩ := Result.bind_eq_ok hid
  obtain ⟨_, hid, -⟩ := Result.bind_eq_ok hid
  exact not_foreign_of_checkIdentity hfu rfl hid hf

/-! ## `finalize` -/

theorem refuses_finalize {host : Host} {missing : Error} {targetBytes : Nat}
    {opts : FinalizeOptions} {w : SyncWorld} {j : JournalFile} {sb : Superblock}
    (hj : w.journal = some j) (hsb : readSuperblock w.filesystem = .ok sb)
    (hno : ¬ Overlooked (.finalize host missing targetBytes opts) w j sb) :
    RefusesForeign (.finalize host missing targetBytes opts) w j sb := by
  intro hu hf
  refine declines_onEngine (Declines.guard fun hpath => Declines.reading_bind fun _ hsafe => ?_)
  refine Declines.reading_bind fun ctx hctx => Declines.reading_bind fun j' hj' => ?_
  simp only [hj] at hj'
  cases hj'
  refine Declines.reading_bind fun _ hid => Declines.reading_bind fun sbraw hraw =>
    Declines.reading_bind fun raw hupd => Declines.bind ?_
  have hst := stateUpdate_false hraw hupd
  obtain ⟨hlen, hsize⟩ := length_of_stateUpdate hst
  obtain ⟨-, hsb', -⟩ := checkFinalize_target hctx hraw
  cases hsb.symm.trans hsb'
  obtain ⟨huuid, htarget, hphase⟩ := checkFinalizeJournal_eq_ok hid
  have honly : OnlyDeviceDiffers (.finalize host missing targetBytes opts) w j ctx.sb := by
    refine ⟨huuid, ?_, htarget⟩
    rcases hf with hc | hc | hc
    · exact absurd huuid hc
    · exact hc
    · exact absurd htarget hc
  cases hw : w.filesystem.writable with
  | false =>
    obtain ⟨e, he⟩ := @run_writeSuperCopies_readonly ctx raw ⟨w.filesystem, w.journal, []⟩ hw
    exact Declines.bind (Declines.of_run he rfl)
  | true =>
    -- 検査を通って断られるのは、journal が満ちていて書き込みが何も変えないときだけである
    have hstuck : ¬ (j.HasRoom ∨
        w.filesystem.data.applyAll (superCopies ctx raw) ≠ w.filesystem.data) := fun h =>
      hno ⟨hu, honly, hpath, hsafe, hw, hphase, ctx, raw, hctx, hst, h⟩
    rw [not_or, not_not] at hstuck
    refine Declines.bind_ok (run_writeSuperCopies (w := ⟨w.filesystem, w.journal, []⟩)
      (accepted_of_readSuperblock hsb) hsize hlen hw) ?_ (Declines.bind (Declines.stepping ?_))
    · show (replay w.filesystem.data _, w.journal) = (w.filesystem.data, w.journal)
      rw [replay_superEvents, hstuck.2]
    · intro w' hw'
      rw [World.emit_journal] at hw'
      simp only [hj] at hw'
      obtain ⟨j', hstep, -⟩ := Result.bind_eq_ok hw'
      exact (step_of_cost_one rfl).1 hstuck.1 j' hstep

/-! ## 見落として進む側 -/

/-- 見落とされた `finalize` は、superblock の写しを書いて journal への追記に進む。 -/
theorem run_finalize_started {host : Host} {missing : Error} {targetBytes : Nat}
    {opts : FinalizeOptions} {w : SyncWorld} {j : JournalFile} {sb : Superblock} {ctx : MetadataContext}
    {raw : Bytes} (hj : w.journal = some j) (hsb : readSuperblock w.filesystem = .ok sb)
    (honly : OnlyDeviceDiffers (.finalize host missing targetBytes opts) w j sb)
    (hpath : opts.journalPath ≠ "")
    (hsafe : checkDeviceSafety host opts.allowBlockDevice
      "block-device shrink requires --allow-block-device" = .ok ())
    (hw : w.filesystem.writable = true)
    (hphase : j.view.phase = .compacted ∨ j.view.phase = .staged)
    (hctx : checkFinalize host w.filesystem targetBytes = .ok ctx)
    (hst : stateUpdate w.filesystem false = .ok raw) : ∃ k : EngineM Unit,
      (∀ n, Keeps (fun w => Grown n w.journal) k) ∧
      Proc.run (finalizeMetadataOnlyShrink host missing targetBytes opts)
        ⟨w.filesystem, w.journal, []⟩ = Proc.run (do
          Engine.append { type := .filesystemMarkedDirty }
          k) (World.emit ⟨w.filesystem, w.journal, []⟩ (superEvents ctx raw)) := by
  have hst' := hst
  unfold stateUpdate at hst'
  obtain ⟨sbraw, hraw, hupd⟩ := Result.bind_eq_ok hst'
  obtain ⟨-, hsb', -⟩ := checkFinalize_target hctx hraw
  cases hsb.symm.trans hsb'
  obtain ⟨hlen, hsize⟩ := length_of_stateUpdate hst
  obtain ⟨huuid, -, htarget⟩ := honly
  have hid : checkFinalizeJournal ctx j.view targetBytes = .ok () := by
    unfold checkFinalizeJournal
    rw [huuid, Result.ok_bind, if_neg (by rw [not_or, not_not, not_not]; exact ⟨rfl, htarget⟩),
      if_neg (by rw [not_and_or, not_not, not_not]; exact hphase)]
    rfl
  have hcopies := run_writeSuperCopies (w := ⟨w.filesystem, some j, []⟩)
    (accepted_of_readSuperblock hsb) hsize hlen hw
  refine ⟨do
    Engine.checkpoint .metadataFinalize
    shrinkTail ctx raw (targetBytes / ctx.sb.blockSize)
    let shrunk ← Engine.device fun _ =>
      shrunkSuper ctx raw (readLe 2 sbraw 0x3a) (targetBytes / ctx.sb.blockSize)
    completeFinalize host ctx shrunk (readLe 2 sbraw 0x3a), ?_, ?_⟩
  · intro n
    have hI := steady_grown n
    exact Triple.bind hI.keeps_journalOp fun _ => Triple.bind hI.keeps_shrinkTail fun _ =>
      Triple.bind keeps_device fun _ => hI.keeps_completeFinalize
  · unfold finalizeMetadataOnlyShrink beginFinalize
    rw [hj, if_neg hpath, run_device_bind hsafe, run_device_bind hctx]
    rw [Proc.run_bind_ok (show Proc.run (Engine.journal missing) ⟨w.filesystem, some j, []⟩ =
      (.ok j, _) from rfl)]
    rw [run_device_bind hid, run_device_bind hraw, run_device_bind hupd]
    simp only [bind_assoc]
    rw [Proc.run_bind_ok hcopies]

/-- record を置く操作で始まる手続きは、空きがあれば journal を変え、なければ何も変えない。 -/
theorem append_then {w : World} {j : JournalFile} {r : JournalRecord} {k : EngineM Unit}
    (hj : w.journal = some j) (hk : ∀ n, Keeps (fun w => Grown n w.journal) k) :
    (j.HasRoom → (Proc.run (Engine.append r >>= fun _ => k) w).2.journal ≠ some j) ∧
      (¬ j.HasRoom → (Proc.run (Engine.append r >>= fun _ => k) w).2 = w) := by
  constructor
  · -- 追記した record は、その後も journal に残る
    intro hroom hsame
    obtain ⟨j', hstep, hlt⟩ := (@step_of_cost_one _ (.appendBatch [r]) rfl).2 hroom
    have happend := run_journalOp_ok hj hstep
    unfold Engine.append at hsame
    rw [Proc.run_bind_ok happend] at hsame
    obtain ⟨f, hf, hn⟩ := (hk j.view.records.length).holds (s := { w with
      journal := some j'
      trace := w.trace ++ (JournalOp.states j.view (.appendBatch [r])).map fun v =>
        .journal { j with view := v } }) ⟨j', rfl, hlt⟩
    rw [hsame] at hf
    cases hf
    exact Nat.lt_irrefl _ hn
  · intro hroom
    have hfull : Declines (fun v : World => v) (Engine.append r) w := by
      refine Declines.stepping fun w' hw' => ?_
      rw [hj] at hw'
      obtain ⟨j', hstep, -⟩ := Result.bind_eq_ok hw'
      exact (step_of_cost_one rfl).1 hroom j' hstep
    exact (hfull.bind (k := fun _ => k)).2

/-- 見落とされた `finalize` は、断られない。 -/
theorem not_refuses_finalize {host : Host} {missing : Error} {targetBytes : Nat}
    {opts : FinalizeOptions} {w : SyncWorld} {j : JournalFile} {sb : Superblock}
    (hj : w.journal = some j) (hsb : readSuperblock w.filesystem = .ok sb)
    (h : Overlooked (.finalize host missing targetBytes opts) w j sb) :
    ¬ RefusesForeign (.finalize host missing targetBytes opts) w j sb := by
  obtain ⟨hu, honly, hpath, hsafe, hw, hphase, ctx, raw, hctx, hst, hstart⟩ := h
  intro href
  obtain ⟨-, hmedia⟩ := href hu (Or.inr (Or.inl honly.2.1))
  obtain ⟨hdata, hmedia⟩ := Prod.mk.inj hmedia
  obtain ⟨-, hjournal⟩ := Prod.mk.inj hmedia
  obtain ⟨k, hk, hrun⟩ := run_finalize_started hj hsb honly hpath hsafe hw hphase hctx hst
  change (Proc.run (finalizeMetadataOnlyShrink host missing targetBytes opts) _).2.disk.data = _
    at hdata
  change (Proc.run (finalizeMetadataOnlyShrink host missing targetBytes opts) _).2.journal = _
    at hjournal
  rw [hrun, hj] at hdata hjournal
  obtain ⟨hgrows, hfull⟩ := append_then (w := World.emit ⟨w.filesystem, some j, []⟩
    (superEvents ctx raw)) (r := { type := .filesystemMarkedDirty }) rfl hk
  by_cases hroom : j.HasRoom
  · exact hgrows hroom hjournal
  · rw [hfull hroom] at hdata
    refine (hstart.resolve_left hroom) ?_
    rw [← replay_superEvents]
    exact hdata

/-! ## `sync` -/

theorem validateJournal_eq_ok_iff {v : JournalView} {sb : Superblock} {target : Nat} :
    validateJournal v sb target = .ok () ↔
      parseUuid sb.uuid = .ok v.identity.filesystemUuid ∧ v.identity.targetSize.toNat = target ∧
        (v.phase = .filesystemShrunk ∨ v.phase = .partitionPending ∨ v.phase = .complete) := by
  unfold validateJournal
  simp only [Result.bind_eq_ok_iff, Result.guard_bind_eq_ok_iff, Result.guard_eq_ok_iff,
    not_and_or, not_not]
  constructor
  · rintro ⟨u, hu, h1, h2, h3, -⟩
    exact ⟨by rw [hu, h1], h2, h3⟩
  · rintro ⟨h1, h2, h3⟩
    exact ⟨_, h1, rfl, h2, h3, rfl⟩

/-- path があれば、journal は identity の二つの欄と phase で選ばれる。 -/
theorem run_openJournal {opts : PartitionSyncOptions} {missing : Error} {sb : Superblock}
    {plan : SyncPlan} {w : SyncWorld} {j : JournalFile} (hpath : opts.journalPath ≠ "")
    (hj : w.journal = some j) : Proc.run (openJournal opts missing sb plan) w =
      ((do
        validateJournal j.view sb plan.filesystemBytes
        return some j.view), w) := by
  unfold openJournal
  rw [run_reading, if_neg hpath, hj]

/-- 計画の target は、filesystem のいまの大きさである。 -/
theorem filesystemBytes_of_planSync {filesystem disk : Disk} {index : Nat} {sb : Superblock}
    {plan : SyncPlan} (h : planSync filesystem disk index = .ok (sb, plan)) :
    readSuperblock filesystem = .ok sb ∧ plan.filesystemBytes = sb.sizeBytes := by
  have hp := planSync_eq_ok h
  refine ⟨hp.super, ?_⟩
  rw [hp.size, (accepted_of_readSuperblock hp.super).sizeBytes_eq filesystem.size_lt]

/-- disk への手続きが断れば、全体も断る。 -/
theorem declines_onDisk {α : Type} {p : DevM α} {w : SyncWorld}
    (h : Declines (fun d : Disk => d.data) p w.disk) : Declines SyncWorld.media (onDisk p) w := by
  obtain ⟨⟨e, he⟩, hobs⟩ := h
  change (Proc.run p w.disk).2.data = w.disk.data at hobs
  refine ⟨⟨e, he⟩, ?_⟩
  show (w.filesystem.data, (Proc.run p w.disk).2.data, w.journal) = _
  rw [hobs]
  rfl

/-- 書き込みに進まない `resize_partition` は、何も変えずに断る。 -/
theorem declines_resizePartition {host : WriteHost} {options : MutationOptions}
    {index first last : Nat} {d : Disk} (h : ∀ c, resizedSide d index first last = .ok c →
      ¬ WriteReady host options d) :
    Declines (fun d : Disk => d.data) (resizePartition host index first last options) d := by
  refine Declines.reading_bind fun c hc => ?_
  have hsame := @writePair_not_ready _ _ c _ c.entries (h c hc)
  cases hr : Proc.run (writePair host c c.entries options) d with
  | mk r d' =>
    cases r with
    | ok r => exact absurd (writeReady_of_ok hr) (h c hc)
    | error e =>
      rw [hr] at hsame
      exact Declines.of_run hr (congrArg Disk.data hsame)

/-- あと一つも置けない journal への操作は、何も変えずに断る。 -/
theorem declines_journalOp {w : SyncWorld} {j : JournalFile} {op : JournalOp}
    (hj : w.journal = some j) (hcost : journalCost op = 1) (hroom : ¬ j.HasRoom) :
    Declines SyncWorld.media (PartitionSync.journalOp op) w := by
  refine Declines.stepping fun w' hw' => ?_
  rw [hj] at hw'
  obtain ⟨j', hstep, -⟩ := Result.bind_eq_ok hw'
  exact (step_of_cost_one hcost).1 hroom j' hstep

theorem refuses_sync {host : SyncHost} {missing : Error} {index : Nat}
    {opts : PartitionSyncOptions} {w : SyncWorld} {j : JournalFile} {sb : Superblock}
    (hj : w.journal = some j) (hsb : readSuperblock w.filesystem = .ok sb)
    (hno : ¬ Overlooked (.sync host missing index opts) w j sb) :
    RefusesForeign (.sync host missing index opts) w j sb := by
  intro hu hf
  refine Declines.bind (Declines.reading_bind fun _ hgate => Declines.reading_bind ?_)
  rintro ⟨sb', plan⟩ hplan
  obtain ⟨hsb', hbytes⟩ := filesystemBytes_of_planSync hplan
  cases hsb.symm.trans hsb'
  cases hval : validateJournal j.view sb plan.filesystemBytes with
  | error e =>
    refine Declines.bind (@Declines.of_run _ _ _ _ _ _ e w ((run_openJournal hu hj).trans ?_) rfl)
    rw [hval]
    rfl
  | ok u =>
    refine Declines.bind_ok ((run_openJournal hu hj).trans (by rw [hval]; rfl)) rfl ?_
    obtain ⟨huuid, htarget, hphase⟩ := validateJournal_eq_ok_iff.mp hval
    rw [hbytes] at htarget
    have honly : OnlyDeviceDiffers (.sync host missing index opts) w j sb := by
      refine ⟨huuid, ?_, htarget⟩
      rcases hf with hc | hc | hc
      · exact absurd huuid hc
      · exact hc
      · exact absurd htarget hc
    have hstop := fun h => hno ⟨hu, honly, hgate, plan, hplan, h⟩
    by_cases hc : j.view.phase = .complete
    · unfold applySync
      rw [if_pos (by rw [Option.map_some, hc])]
      exact Declines.guard fun heq => absurd (Or.inl ⟨hc, not_not.mp heq⟩) hstop
    · unfold applySync
      rw [if_neg (by rw [Option.map_some]; exact fun h => hc (Option.some.inj h))]
      by_cases heq : plan.newLast = plan.part.lastLba
      · rw [if_pos heq]
        refine Declines.bind (declines_journalOp hj rfl fun hroom => hstop ?_)
        rcases hphase with hp | hp | hp
        · exact Or.inr (Or.inl ⟨hp, hroom⟩)
        · exact Or.inr (Or.inr (Or.inl ⟨hp, heq, hroom⟩))
        · exact absurd hp hc
      · rw [if_neg heq]
        by_cases hp : j.view.phase = .partitionPending
        · -- 意図はすでに残っているので、まず `resize_partition` に進む
          refine @Declines.bind_ok _ _ _ _ _ _ _ _ () w ?_ rfl
            (Declines.bind (declines_onDisk (declines_resizePartition fun c hside hready => ?_)))
          · unfold announce
            dsimp only
            rw [if_pos hp]
            rfl
          · exact hstop (Or.inr (Or.inr (Or.inr ⟨hp, heq, hready.writable, hready.total, c, hside⟩)))
        · refine Declines.bind ?_
          unfold announce
          dsimp only
          rw [if_neg hp]
          refine Declines.bind (declines_journalOp hj rfl fun hroom => hstop ?_)
          rcases hphase with hp' | hp' | hp'
          · exact Or.inr (Or.inl ⟨hp', hroom⟩)
          · exact absurd hp' hp
          · exact absurd hp' hc

theorem snd_run_discard {α : Type} (p : SyncM α) (w : SyncWorld) :
    (Proc.run (do let _ ← p : SyncM Unit) w).2 = (Proc.run p w).2 := by
  rw [Proc.run_bind]
  cases Proc.run p w with
  | mk r w' => cases r <;> rfl

/-- 成功した手続きは、断られていない。 -/
theorem not_declines_of_ok {α : Type} {p : SyncM α} {w w' : SyncWorld} {a : α}
    (h : Proc.run p w = (.ok a, w')) :
    ¬ Declines SyncWorld.media (do let _ ← p : SyncM Unit) w := by
  rintro ⟨⟨e, he⟩, -⟩
  rw [Proc.run_bind_ok h] at he
  cases he

/-- journal への操作は、record を減らさない。 -/
theorem keeps_grown_journalOp {n : Nat} {op : JournalOp} :
    Keeps (fun w : SyncWorld => Grown n w.journal) (PartitionSync.journalOp op) := by
  refine Triple.stepping (fun w w' h hw => ?_) fun _ h => h
  obtain ⟨f, hf, hn⟩ := h
  rw [hf] at hw
  obtain ⟨j', hstep, hw'⟩ := Result.bind_eq_ok hw
  cases hw'
  exact grown_step hstep hn

theorem keeps_grown_onDisk {α : Type} {n : Nat} {p : DevM α} :
    Keeps (fun w : SyncWorld => Grown n w.journal) (onDisk p) := by
  intro w hw
  constructor
  · intro a w' h
    obtain ⟨-, rfl⟩ := Prod.mk.inj h
    exact hw
  · intro e w' h
    obtain ⟨-, rfl⟩ := Prod.mk.inj h
    exact hw

theorem keeps_grown_conclude {n : Nat} {j : Option JournalView} {index : Nat} {plan : SyncPlan} :
    Keeps (fun w : SyncWorld => Grown n w.journal) (conclude j index plan) := by
  cases j with
  | none => exact Triple.pure fun _ h => h
  | some v => exact Triple.bind keeps_grown_journalOp fun _ => keeps_grown_journalOp

theorem run_sync_journalOp_ok {w : SyncWorld} {j j' : JournalFile} {op : JournalOp}
    (hj : w.journal = some j) (h : j.step op = .ok j') :
    Proc.run (PartitionSync.journalOp op) w = (.ok (), { w with journal := some j' }) := by
  refine Proc.run_stepping_ok ?_
  rw [hj]
  dsimp only
  rw [h]
  rfl

section Applied

variable {host : SyncHost} {index : Nat} {opts : PartitionSyncOptions} {plan : SyncPlan}
  {report : PartitionSyncReport} {w : SyncWorld} {j : JournalFile}

/-- GPT がすでに合っていれば、phase が complete か、journal に空きがあれば成功する。 -/
theorem applySync_equal (hj : w.journal = some j) (heq : plan.newLast = plan.part.lastLba)
    (h : j.view.phase = .complete ∨ j.HasRoom) : ∃ r w',
      Proc.run (applySync host index opts plan report (some j.view)) w = (.ok r, w') := by
  unfold applySync
  by_cases hc : j.view.phase = .complete
  · rw [if_pos (by rw [Option.map_some, hc]), if_neg (not_not.mpr heq)]
    exact ⟨_, w, rfl⟩
  · obtain ⟨j', hstep, -⟩ := (@step_of_cost_one _ (.checkpoint .complete) rfl).2
      (h.resolve_left hc)
    rw [if_neg (by rw [Option.map_some]; exact fun h => hc (Option.some.inj h)), if_pos heq,
      Proc.run_bind_ok (p := settle (some j.view)) (run_sync_journalOp_ok hj hstep)]
    exact ⟨_, _, rfl⟩

/-- 書き換えの意図を残せば、journal は変わる。 -/
theorem applySync_announced (hj : w.journal = some j) (hne : plan.newLast ≠ plan.part.lastLba)
    (hp : j.view.phase = .filesystemShrunk) (hroom : j.HasRoom) :
    (Proc.run (applySync host index opts plan report (some j.view)) w).2.journal ≠ some j := by
  intro hsame
  obtain ⟨j', hstep, hlt⟩ := (@step_of_cost_one _ (.appendBatch
    [partitionRecord .partitionIntent index plan]) rfl).2 hroom
  unfold applySync at hsame
  rw [if_neg (by rw [Option.map_some, hp]; decide), if_neg hne] at hsame
  have hk : Keeps (fun w : SyncWorld => Grown j.view.records.length w.journal) (do
      PartitionSync.journalOp (.checkpoint .partitionPending)
      let changed ← onDisk (resizePartition host.disk index plan.part.firstLba plan.newLast
        { allowBlockDevice := opts.allowBlockDevice })
      if changed.verified = false then
        throw { code := .io, message := "GPT resize did not pass post-write verification" }
      conclude (some j.view) index plan
      return { report with changed := true, journalCompleted := (some j.view).isSome }) := by
    refine Triple.bind keeps_grown_journalOp fun _ => Triple.bind keeps_grown_onDisk fun _ => ?_
    exact Triple.guard (fun _ h => h) fun _ => Triple.bind keeps_grown_conclude fun _ =>
      Triple.pure fun _ h => h
  unfold announce at hsame
  dsimp only at hsame
  rw [if_neg (by rw [hp]; decide), bind_assoc,
    Proc.run_bind_ok (run_sync_journalOp_ok hj hstep)] at hsame
  obtain ⟨f, hf, hn⟩ := hk.holds (s := { w with journal := some j' }) ⟨j', rfl, hlt⟩
  rw [hsame] at hf
  cases hf
  exact Nat.lt_irrefl _ hn

/-- 意図の残った journal なら、`resize_partition` の書き込みが disk に残る。 -/
theorem applySync_resumed (hne : plan.newLast ≠ plan.part.lastLba)
    (hp : j.view.phase = .partitionPending) :
    (Proc.run (applySync host index opts plan report (some j.view)) w).2.disk =
      (Proc.run (resizePartition host.disk index plan.part.firstLba plan.newLast
        { allowBlockDevice := opts.allowBlockDevice }) w.disk).2 := by
  unfold applySync
  rw [if_neg (by rw [Option.map_some, hp]; decide), if_neg hne]
  have hann : Proc.run (announce (some j.view) index plan) w = (.ok (), w) := by
    unfold announce
    dsimp only
    rw [if_pos hp]
    rfl
  rw [Proc.run_bind_ok hann]
  refine @Triple.holds _ _ (fun v : SyncWorld => v = w) (fun v : SyncWorld => v.disk = _) _
    (Triple.bind (R := fun _ v => v.disk = _) ?_ fun r => Triple.guard (fun _ h => h) fun _ =>
      Triple.bind (triple_conclude (P := fun _ d => d = _) (some j.view) fun _ h => h) fun _ =>
        Triple.pure fun _ h => h) _ rfl
  rintro v rfl
  constructor
  · intro a w' h
    obtain ⟨-, rfl⟩ := Prod.mk.inj h
    rfl
  · intro e w' h
    obtain ⟨-, rfl⟩ := Prod.mk.inj h
    rfl

end Applied

/-- 計画どおりの `resize_partition` は、書き込みに進めば disk を変える。 -/
theorem resizePartition_changes {host : SyncHost} {opts : PartitionSyncOptions}
    {filesystem disk : Disk} {index : Nat} {sb : Superblock} {plan : SyncPlan} {c : RawSide}
    (hp : Planned filesystem disk index sb plan) (hgate : syncGate host opts = .ok ())
    (hw : disk.writable = true) (htotal : 100 ≤ totalSectors disk)
    (hne : plan.newLast ≠ plan.part.lastLba)
    (hside : resizedSide disk index plan.part.firstLba plan.newLast = .ok c) :
    (Proc.run (resizePartition host.disk index plan.part.firstLba plan.newLast
      { allowBlockDevice := opts.allowBlockDevice }) disk).2.data ≠ disk.data := by
  have hopen : GateOpen host.disk { allowBlockDevice := opts.allowBlockDevice } := by
    unfold syncGate at hgate
    obtain ⟨_, _, hgate⟩ := Result.bind_eq_ok hgate
    exact gateOpen_of_writeGate hgate
  have hrun : Proc.run (resizePartition host.disk index plan.part.firstLba plan.newLast
      { allowBlockDevice := opts.allowBlockDevice }) disk = Proc.run (writePair host.disk c c.entries
        { allowBlockDevice := opts.allowBlockDevice }) disk := by
    unfold resizePartition
    rw [Proc.run_bind_ok (Proc.run_reading _ disk |>.trans (by rw [hside]))]
  obtain ⟨s, hs, _, _, _, rfl, _⟩ := resizedSide_eq_ok hside
  have hcan := canonical_of_mutationSource hs
  rw [canonical_of_bothValid hp.total hp.both] at hcan
  cases hcan
  obtain ⟨hf, hb⟩ := canonical_ok (canonical_of_bothValid hp.total hp.both)
  have hord := hp.exact.shrinks
  have hlast : plan.part.lastLba < 2 ^ 64 := by
    rw [(partitionOf_eq_some hp.part).2.2]
    exact readLe_lt 8 _ _
  have hfirst := hp.exact.ordered
  rw [hrun]
  refine writePair_changes (bounded_resizeEntry hb) (fieldsOk_resizeEntry hf) ⟨hopen, hw, htotal⟩
    hp.both (i := index - 1) ?_
  rw [partitionOf_resizeEntry hf.entrySize.1 hp.index_pos hp.index_le hb.entries (by omega) (by omega)
    hp.part, hp.part]
  intro h
  exact hne (congrArg Partition.lastLba (Option.some.inj h))

/-- 見落とされた `sync` は、断られない。 -/
theorem not_refuses_sync {host : SyncHost} {missing : Error} {index : Nat}
    {opts : PartitionSyncOptions} {w : SyncWorld} {j : JournalFile} {sb : Superblock}
    (hj : w.journal = some j) (h : Overlooked (.sync host missing index opts) w j sb) :
    ¬ RefusesForeign (.sync host missing index opts) w j sb := by
  obtain ⟨hu, honly, hgate, plan, hplan, hstart⟩ := h
  intro href
  have hdecl := href hu (Or.inr (Or.inl honly.2.1))
  obtain ⟨huuid, -, htarget⟩ := honly
  have hp := planSync_eq_ok hplan
  obtain ⟨-, hbytes⟩ := filesystemBytes_of_planSync hplan
  have hphase : j.view.phase = .filesystemShrunk ∨ j.view.phase = .partitionPending ∨
      j.view.phase = .complete := by
    rcases hstart with h | h | h | h
    · exact Or.inr (Or.inr h.1)
    · exact Or.inl h.1
    · exact Or.inr (Or.inl h.1)
    · exact Or.inr (Or.inl h.1)
  have hval : validateJournal j.view sb plan.filesystemBytes = .ok () :=
    validateJournal_eq_ok_iff.mpr ⟨huuid, by rw [hbytes]; exact htarget, hphase⟩
  obtain ⟨report, hrun⟩ : ∃ report, Proc.run (syncGptPartitionToExt4 host missing index opts) w =
      Proc.run (applySync host index opts plan report (some j.view)) w := by
    unfold syncGptPartitionToExt4
    rw [Proc.run_bind_ok (Proc.run_reading _ w |>.trans (by rw [hgate])),
      Proc.run_bind_ok (Proc.run_reading _ w |>.trans (by rw [hplan]))]
    dsimp only
    rw [Proc.run_bind_ok ((run_openJournal hu hj).trans (by rw [hval]; rfl))]
    exact ⟨_, rfl⟩
  have hok : ∀ r w', Proc.run (applySync host index opts plan report (some j.view)) w ≠
      (.ok r, w') := fun r w' h => not_declines_of_ok (hrun.trans h) hdecl
  have hmedia : (Proc.run (applySync host index opts plan report (some j.view)) w).2.media
      = w.media := by
    rw [← hrun, ← snd_run_discard]
    exact hdecl.2
  obtain ⟨-, hmedia⟩ := Prod.mk.inj hmedia
  obtain ⟨hdisk, hjournal⟩ := Prod.mk.inj hmedia
  have hequal : plan.newLast = plan.part.lastLba → j.view.phase = .complete ∨ j.HasRoom → False := by
    intro heq h
    obtain ⟨r, w', hr⟩ := @applySync_equal host index opts _ report _ _ hj heq h
    exact hok r w' hr
  rcases hstart with ⟨hc, heq⟩ | ⟨hc, hroom⟩ | ⟨_, heq, hroom⟩ | ⟨hc, hne, hw, htotal, c, hside⟩
  · exact hequal heq (Or.inl hc)
  · by_cases heq : plan.newLast = plan.part.lastLba
    · exact hequal heq (Or.inr hroom)
    · exact applySync_announced hj heq hc hroom (hjournal.trans hj)
  · exact hequal heq (Or.inr hroom)
  · rw [applySync_resumed hne hc] at hdisk
    exact resizePartition_changes hp hgate hw htotal hne hside hdisk

/-! ## 四つの入り口をまとめて -/

/--
**違う操作の journal が断られるのは、見落とされないときであり、そのときに限る。**

`stage` と `commit` は決して見落とさない。`finalize` と `sync` が見落とすのは、違いが device の大きさだけで、
ほかの検査をすべて通る呼び出しである。
-/
theorem refusesForeign_iff (e : Entry) {w : SyncWorld} {j : JournalFile} {sb : Superblock}
    (hj : w.journal = some j) (hsb : readSuperblock w.filesystem = .ok sb) :
    RefusesForeign e w j sb ↔ ¬ Overlooked e w j sb := by
  cases e with
  | stage host jhost plan opts => exact ⟨fun _ h => h.2.2, fun _ => refuses_stage hj hsb⟩
  | commit host plan opts => exact ⟨fun _ h => h.2.2, fun _ => refuses_commit hj hsb⟩
  | finalize host missing targetBytes opts =>
    exact ⟨fun h ho => not_refuses_finalize hj hsb ho h, refuses_finalize hj hsb⟩
  | sync host missing index opts =>
    exact ⟨fun h ho => not_refuses_sync hj ho h, refuses_sync hj hsb⟩

namespace Ext4.Tiny

/-- device の大きさだけが違う journal。 -/
def foreignJournal : JournalFile where
  view := {
    identity := {
      operationUuid := Uuid.ofBytes (zeros 16), filesystemUuid := Uuid.ofBytes (zeros 16)
      deviceSize := 65536, targetSize := 20480 }
    phase := .compacted
    records := [] }
  capacity := 100

/-- 移動の済んだ filesystem に、その journal を渡した世界。 -/
def foreignWorld : SyncWorld := ⟨compacted.disk, compacted.disk, some foreignJournal⟩

/-- その superblock。 -/
def foreignSuper : Superblock := decodeSuperblock (compacted.disk.data.read 1024 1024)

theorem readSuperblock_foreign : readSuperblock foreignWorld.filesystem = .ok foreignSuper := by
  decide +kernel

end Ext4.Tiny

theorem refusesForeign_tiny : ∃ e w j sb, w.journal = some j ∧ readSuperblock w.filesystem = .ok sb ∧
    (RefusesForeign e w j sb ↔ ¬ Overlooked e w j sb) :=
  ⟨.finalize Tiny.host Tiny.missing 20480 Tiny.finalizeOptions, Tiny.foreignWorld,
    Tiny.foreignJournal, Tiny.foreignSuper, rfl, Tiny.readSuperblock_foreign,
    refusesForeign_iff _ rfl Tiny.readSuperblock_foreign⟩

/-- 大きさの違う device の journal で、縮小の確定が成功する。 -/
theorem finalize_accepts_foreign : ∃ e w j sb, w.journal = some j ∧
    readSuperblock w.filesystem = .ok sb ∧ e.UsesJournal ∧
    j.view.identity.deviceSize.toNat ≠ w.filesystem.sizeBytes ∧
    (Proc.run e.call w).1 = .ok () ∧ ¬ RefusesForeign e w j sb := by
  have hok : (Proc.run (Entry.finalize Tiny.host Tiny.missing 20480 Tiny.finalizeOptions).call
      Tiny.foreignWorld).1 = .ok () := by decide +kernel
  have hdev : Tiny.foreignJournal.view.identity.deviceSize.toNat ≠
      Tiny.foreignWorld.filesystem.sizeBytes := by decide
  refine ⟨.finalize Tiny.host Tiny.missing 20480 Tiny.finalizeOptions, Tiny.foreignWorld,
    Tiny.foreignJournal, Tiny.foreignSuper, rfl, Tiny.readSuperblock_foreign, trivial, hdev, hok, ?_⟩
  intro h
  obtain ⟨⟨e, he⟩, -⟩ := h trivial (Or.inr (Or.inl hdev))
  rw [hok] at he
  cases he

end Fsx
