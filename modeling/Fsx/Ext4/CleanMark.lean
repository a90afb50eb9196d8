import Fsx.Ext4.MarkedCommit

/-!
# clean の印は検証の後にだけ付く

移動の確定、縮小の確定、拡大の三つの呼び出しについて、どこで止まっても、残った superblock が
clean だと言うなら、ほかの metadata は呼び出しの前のままか、その呼び出しの検証が通ったときの
ままであることを示す。

三つとも、検証の手前までの手続きと、検証から後の手続きに分けて扱う。
-/

namespace Fsx.Ext4

open Proc Engine

/-! ## 検証の前と後 -/

/-- `commit_staged_relocation` の検証の手前まで。検証に進むなら `true` を添える。 -/
def prepareCommit (host : Host) (plan : OwnerRelocationPlan) (opts : CommitOptions) :
    EngineM (CommitReport × Bool) := do
  if opts.journalPath = "" then
    throw { code := .invalidArgument, message := "commit requires --journal=FILE" }
  device fun _ => checkDeviceSafety host opts.allowBlockDevice
    "block-device metadata commit requires explicit --allow-block-device"
  let ctx ← device checkCommitFilesystem
  let j ← journal { code := .notFound, message := "relocation journal does not exist" }
  device fun d => checkCommitJournal d ctx j.view plan
  if j.view.phase = .compacted then return (compactedReport ctx plan, false)
  beginCommit ctx
  let report ← commitMoves host ctx plan.blockSize j.view.records 0
    (stableSort OwnerMove.before plan.moves) { movesTotal := plan.moves.length }
  return (report, !report.paused)

theorem commitStagedRelocation_eq_prepare (host : Host) (plan : OwnerRelocationPlan)
    (opts : CommitOptions) : commitStagedRelocation host plan opts = (do
      let r ← prepareCommit host plan opts
      if r.2 then finishCommit host opts r.1 else return r.1) := by
  unfold commitStagedRelocation prepareCommit
  by_cases hpath : opts.journalPath = ""
  · simp only [if_pos hpath, bind_assoc]
    rfl
  · simp only [if_neg hpath, bind_assoc]
    refine bind_congr fun _ => bind_congr fun ctx => bind_congr fun j => bind_congr fun _ => ?_
    by_cases hphase : j.view.phase = .compacted
    · simp only [if_pos hphase, pure_bind]
      rfl
    · simp only [if_neg hphase, bind_assoc, pure_bind]
      refine bind_congr fun _ => bind_congr fun report => ?_
      cases hp : report.paused <;> rfl

/-- `finalize_metadata_only_shrink` の検証の手前まで。 -/
def prepareShrink (host : Host) (missing : Error) (targetBytes : Nat) (opts : FinalizeOptions) :
    EngineM Resized := do
  if opts.journalPath = "" then
    throw { code := .invalidArgument, message := "shrink finalization requires --journal=FILE" }
  device fun _ => checkDeviceSafety host opts.allowBlockDevice
    "block-device shrink requires --allow-block-device"
  let ctx ← device fun d => checkFinalize host d targetBytes
  let j ← journal missing
  device fun _ => checkFinalizeJournal ctx j.view targetBytes
  let sbraw ← device readRawSuperblock
  let state := readLe 2 sbraw 0x3a
  let raw ← device fun _ => updateSuperblockChecksum (writeLe 2 sbraw 0x3a (state &&& 0xfffe))
  beginFinalize ctx raw
  let target := targetBytes / ctx.sb.blockSize
  shrinkTail ctx raw target
  let shrunk ← device fun _ => shrunkSuper ctx raw state target
  writeSuperCopies ctx shrunk
  return { ctx, raw := shrunk, state }

/-- `finalize_metadata_only_shrink` の検証から後。 -/
def completeShrink (host : Host) (r : Resized) : EngineM Unit := do
  let v ← device fun d => verifyMetadata host.verifyCancelled d
  if v.clean = false then
    throw { code := .corrupt
            message := "post-shrink metadata verification failed; filesystem intentionally left unclean" }
  let clean ← device fun _ => updateSuperblockChecksum (writeLe 2 r.raw 0x3a (r.state ||| 1))
  writeSuperCopies r.ctx clean
  append { type := .filesystemMarkedClean }
  checkpoint .filesystemShrunk

theorem finalizeMetadataOnlyShrink_eq_prepare (host : Host) (missing : Error) (targetBytes : Nat)
    (opts : FinalizeOptions) : finalizeMetadataOnlyShrink host missing targetBytes opts = (do
      let r ← prepareShrink host missing targetBytes opts
      completeShrink host r) := by
  unfold finalizeMetadataOnlyShrink prepareShrink completeShrink completeFinalize
  by_cases hpath : opts.journalPath = ""
  · simp only [if_pos hpath, bind_assoc]
    rfl
  · simp only [if_neg hpath, bind_assoc, pure_bind]

/-! ## 三つの呼び出し -/

/-- 大きさや配置を変える呼び出し。 -/
inductive SizeChange where
  | commit (plan : OwnerRelocationPlan) (opts : CommitOptions)
  | shrink (missing : Error) (targetBytes : Nat) (opts : FinalizeOptions)
  | grow (targetBytes : Nat) (opts : GrowOptions)

namespace SizeChange

def call (host : Host) : SizeChange → EngineM Unit
  | .commit plan opts => do
    let _ ← commitStagedRelocation host plan opts
  | .shrink missing targetBytes opts => finalizeMetadataOnlyShrink host missing targetBytes opts
  | .grow targetBytes opts => do
    let _ ← growWithinLastGroup host targetBytes opts

/-- 検証の手前まで。検証に進むかを返す。 -/
def toVerify (host : Host) : SizeChange → EngineM Bool
  | .commit plan opts => do
    let r ← prepareCommit host plan opts
    return r.2
  | .shrink missing targetBytes opts => do
    let _ ← prepareShrink host missing targetBytes opts
    return true
  | .grow targetBytes opts => do
    let _ ← prepareGrow host targetBytes opts
    return true

/-- 検証を省いていない。 -/
def verifies : SizeChange → Bool
  | .commit _ opts => opts.verifyMetadataAfter
  | .shrink _ _ _ => true
  | .grow _ opts => opts.verifyAfter

/-- 印を書き換える superblock の番地。移動の確定は primary だけを書く。 -/
def copies (d : Disk) : SizeChange → List Nat
  | .commit _ _ => [1024]
  | .shrink _ _ _ | .grow _ _ =>
    superOffsets (decodeSuperblock (d.data.read 1024 1024)) (d.data.read 1024 1024)

/--
`d` の配置で、呼び出しが書く metadata が primary superblock に重ならない。
`sb` は呼び出しを始めたときの superblock である。
-/
def Apart (host : Host) (sb : Superblock) (d : Disk) : SizeChange → Prop
  | .commit plan _ => CommitApart host.srt sb plan.moves d
  | .shrink _ _ _ | .grow _ _ => ∀ gd, readGroupDesc d sb (sb.groupsCount - 1) = .ok gd →
    Away (gd.blockBitmap * sb.blockSize) sb.blockSize

/-- `v` は、この呼び出しの検証が通ったときの世界である。 -/
def Verified (host : Host) (c : SizeChange) (boot v : World) : Prop :=
  Proc.run (c.toVerify host) boot = (.ok true, v) ∧
    ∃ r, verifyMetadata host.verifyCancelled v.disk = .ok r ∧ r.clean = true

/-- 残った像 `img` が clean だと言うなら、呼び出しの前のままか、検証が通ったときのままである。 -/
def Honest (host : Host) (c : SizeChange) (boot : World) (img : Image) : Prop :=
  MarkedClean img → AsBefore (c.copies boot.disk) boot.disk.data img ∨
    ∃ v, c.Verified host boot v ∧ SameMetadata (c.copies boot.disk) v.disk.data img

end SizeChange

/-! ## 印を書き換えた superblock -/

theorem and_fffe_and_one (v : Nat) : (v &&& 0xfffe) % 256 ^ 2 &&& 1 = 0 := by
  rw [Nat.and_one_is_mod, Nat.mod_mod_of_dvd _ (by decide), ← Nat.and_one_is_mod, Nat.and_assoc]
  exact Nat.and_zero _

/-- 状態の欄だけを dirty にした superblock。 -/
theorem dirty_spec {b b' : Bytes} {v : Nat} (hlen : b.length = 1024)
    (h : updateSuperblockChecksum (writeLe 2 b 0x3a (v &&& 0xfffe)) = .ok b') :
    b'.length = 1024 ∧ SameFields b b' ∧ readLe 2 b' 0x3a &&& 1 = 0 := by
  have hsame := (sameFields_state b _).trans (sameFields_checksum h)
  refine ⟨hsame.1.trans hlen, hsame, ?_⟩
  rw [(updateSuperblockChecksum_ok h).2 2 0x3a (by decide), readLe_writeLe_self (by omega)]
  exact and_fffe_and_one v

theorem shrunkSuper_spec {ctx : MetadataContext} {raw shrunk : Bytes} {state target : Nat}
    (hlen : raw.length = 1024) (h : shrunkSuper ctx raw state target = .ok shrunk) :
    shrunk.length = 1024 ∧ readLe 2 shrunk 0x3a &&& 1 = 0 ∧
      ∀ g, groupHasSuper shrunk g = groupHasSuper raw g := by
  unfold shrunkSuper at h
  rw [Result.guard_bind_eq_ok_iff] at h
  obtain ⟨hlen', hsame, hstate⟩ := dirty_spec (by simp only [length_setLoHi]; exact hlen) h.2
  refine ⟨hlen', hstate, fun g => ?_⟩
  rw [hsame.groupHasSuper]
  refine groupHasSuper_congr ?_ ?_ ?_ ?_ g <;>
    rw [readLe_setLoHi (by decide) (by decide), readLe_setLoHi (by decide) (by decide),
      readLe_setLoHi (by decide) (by decide)]

theorem grownSuper_spec {ctx : MetadataContext} {raw grown : Bytes} {state target : Nat}
    (hlen : raw.length = 1024) (h : grownSuper ctx raw state target = .ok grown) :
    grown.length = 1024 ∧ readLe 2 grown 0x3a &&& 1 = 0 ∧
      ∀ g, groupHasSuper grown g = groupHasSuper raw g := by
  unfold grownSuper at h
  rw [Result.guard_bind_eq_ok_iff] at h
  obtain ⟨hlen', hsame, hstate⟩ := dirty_spec (by simp only [length_setLoHi]; exact hlen) h.2
  refine ⟨hlen', hstate, fun g => ?_⟩
  rw [hsame.groupHasSuper]
  refine groupHasSuper_congr ?_ ?_ ?_ ?_ g <;>
    rw [readLe_setLoHi (by decide) (by decide), readLe_setLoHi (by decide) (by decide)]

/-! ## 縮小と拡大 -/

/-- どこで止まっても `A` が成り立つ。 -/
def Safe (A : Image → Prop) (boot w : World) : Prop :=
  Always A boot.disk.data (devEvents w.trace)

theorem Guarded.safe {A : Image → Prop} {boot w : World} (h : Guarded A boot w) :
    Safe A boot w := by
  obtain ⟨base, pend, hat, -⟩ := h
  exact hat.reaches.always

/-- 新しい大きさの superblock を書き終えた世界。 -/
structure Prepared (A : Image → Prop) (boot : World) (copies : List Nat) (r : Resized)
    (w : World) : Prop where
  accepted : r.ctx.sb.Accepted boot.disk.sizeBytes
  room : 2048 ≤ boot.disk.sizeBytes
  length : r.raw.length = 1024
  offsets : superOffsets r.ctx.sb r.raw = copies
  settled : Settled A boot w
  fields : ∀ o ∈ copies, ∀ i < 1024, ¬ Stamp i → r.raw[i]? = some (w.disk.data (o + i))

section Resize

variable {A : Image → Prop} {boot : World} {fin : List WorldEvent} {ctx : MetadataContext}
  {raw : Bytes} (hA : ∀ img, ¬ MarkedClean img → A img)
  (ha : ctx.sb.Accepted boot.disk.sizeBytes) (hroom : 2048 ≤ boot.disk.sizeBytes)
include hA ha hroom

/-- 末尾の group から、新しい大きさの superblock まで。 -/
theorem until_resize {raw : Bytes} {state : Nat} {tail : EngineM Unit} {new : Result Bytes}
    {copies : List Nat} (hcopies : superOffsets ctx.sb raw = copies)
    (htail : Triple (Until fin (Settled A boot)) tail (fun _ => Until fin (Settled A boot))
      (Until fin (Guarded A boot)))
    (hnew : ∀ b, new = .ok b → b.length = 1024 ∧ readLe 2 b 0x3a &&& 1 = 0 ∧
      ∀ g, groupHasSuper b g = groupHasSuper raw g) :
    Triple (Until fin (Settled A boot)) (do
        tail
        let b ← device fun _ => new
        writeSuperCopies ctx b
        return ({ ctx, raw := b, state } : Resized))
      (fun r => Until fin (Prepared A boot copies r)) (Until fin (Safe A boot)) := by
  have hsafe : ∀ w, Until fin (Guarded A boot) w → Until fin (Safe A boot) w :=
    fun _ h => h.mono fun _ => Guarded.safe
  refine Triple.bind (htail.mono (fun _ h => h) (fun _ _ h => h) hsafe) fun _ => ?_
  refine Triple.bind (R := fun b w => Until fin (Settled A boot) w ∧ new = .ok b)
    (Triple.reading (fun _ _ h hb => ⟨h, hb⟩) fun w h => hsafe w (h.mono fun _ => Settled.guarded))
    fun b => ?_
  rintro w ⟨hw, hb⟩
  obtain ⟨hlen, hstate, hgroups⟩ := hnew b hb
  have hrewrite := triple_rewriteMark (A := A) ha hroom hlen hA hstate
  have hlift := @Until.lift fin _ _ _ _ _ (fun t => steady_startsWith.keeps_writeSuperCopies) hrewrite
  refine Triple.bind (hlift.mono (fun _ h => h) (fun _ _ h => h) hsafe) (fun _ => ?_) w hw
  refine Triple.pure fun w' h => h.mono fun w' hw' => ?_
  have hoff : superOffsets ctx.sb b = copies := (superOffsets_congr hgroups).trans hcopies
  exact ⟨ha, hroom, hlen, hoff, hw'.1, fun o ho => hw'.2 o (hoff ▸ ho)⟩

end Resize

/-- 手を付ける前の検査が通った filesystem。 -/
structure Opened (boot : World) (ctx : MetadataContext) : Prop where
  sb : ctx.sb = decodeSuperblock (boot.disk.data.read 1024 1024)
  accepted : ctx.sb.Accepted boot.disk.sizeBytes
  room : 2048 ≤ boot.disk.sizeBytes

theorem opened_of_readSuperblock {boot : World} {ctx : MetadataContext}
    (h : readSuperblock boot.disk = .ok ctx.sb) : Opened boot ctx := by
  obtain ⟨hsize, hdec, -⟩ := readSuperblock_eq_ok_iff.mp h
  exact ⟨hdec.symm, accepted_of_readSuperblock h, hsize⟩

section Prepare

variable {A : Image → Prop} {boot : World} {fin : List WorldEvent} {copies : List Nat}
  (hA : ∀ img, ¬ MarkedClean img → A img)
  (hbefore : ∀ img, AsBefore copies boot.disk.data img → A img)
  (hcopies : superOffsets (decodeSuperblock (boot.disk.data.read 1024 1024))
    (boot.disk.data.read 1024 1024) = copies)

include hbefore hcopies in
/-- はじめの印を書くところ。書き終えれば dirty で、写しの番地は変わらない。 -/
theorem triple_mark {ctx : MetadataContext} (ho : Opened boot ctx) {sbraw raw : Bytes} {v : Nat}
    (hsb : sbraw = boot.disk.data.read 1024 1024)
    (hraw : updateSuperblockChecksum (writeLe 2 sbraw 0x3a (v &&& 0xfffe)) = .ok raw) :
    Triple (At A boot boot.disk.data []) (writeSuperCopies ctx raw)
      (fun _ => Until fin (Settled A boot)) (Until fin (Safe A boot)) ∧
    raw.length = 1024 ∧ superOffsets ctx.sb raw = copies := by
  have hlen : sbraw.length = 1024 := by rw [hsb, Image.length_read]
  obtain ⟨hrawlen, hsame, hstate⟩ := dirty_spec hlen hraw
  have hoff : superOffsets ctx.sb raw = copies := by
    rw [superOffsets_congr hsame.groupHasSuper, ho.sb, hsb]
    exact hcopies
  refine ⟨?_, hrawlen, hoff⟩
  have hmark := triple_beginMark (A := A) ho.accepted ho.room hrawlen hoff hbefore ?_ hstate
  · exact hmark.mono (fun _ h => h) (fun _ _ h _ => h) fun _ h _ => h.reaches.always
  · intro i hi hs
    rw [hsame.2 i hs, hsb, Image.getElem?_read, if_pos hi]

include hA hbefore hcopies

theorem marked_prepareShrink (hboot : boot.trace = []) {host : Host} {missing : Error}
    {targetBytes : Nat} {opts : FinalizeOptions}
    (hap : ∀ pre, pre <+: fin → SizeChange.Apart host
      (decodeSuperblock (boot.disk.data.read 1024 1024)) (boot.disk.emit (devEvents pre))
      (.shrink missing targetBytes opts)) :
    Triple (fun w => w = boot) (prepareShrink host missing targetBytes opts)
      (fun r => Until fin (Prepared A boot copies r)) (Until fin (Safe A boot)) := by
  have hstart : At A boot boot.disk.data [] boot :=
    At.ofBoot hboot (hbefore _ (asBefore_refl copies _))
  have hE : ∀ w, w = boot → Until fin (Safe A boot) w := by
    rintro w rfl _
    exact hstart.reaches.always
  refine Triple.guard hE fun _ => ?_
  refine Triple.bind (R := fun _ w => w = boot) (Triple.reading (fun _ _ h _ => h) hE) fun _ => ?_
  refine Triple.bind (R := fun ctx w => w = boot ∧ checkFinalize host boot.disk targetBytes = .ok ctx)
    (Triple.reading ?_ hE) fun ctx => ?_
  · rintro w ctx rfl h
    exact ⟨rfl, h⟩
  refine Triple.bind (R := fun _ w => w = boot ∧ checkFinalize host boot.disk targetBytes = .ok ctx)
    (Triple.reading (fun _ _ h _ => h) fun w h => hE w h.1) fun j => ?_
  refine Triple.bind (R := fun _ w => w = boot ∧ checkFinalize host boot.disk targetBytes = .ok ctx)
    (Triple.reading (fun _ _ h _ => h) fun w h => hE w h.1) fun _ => ?_
  refine Triple.bind (R := fun b w => w = boot ∧ checkFinalize host boot.disk targetBytes = .ok ctx ∧
    readRawSuperblock boot.disk = .ok b) (Triple.reading ?_ fun w h => hE w h.1) fun sbraw => ?_
  · rintro w b ⟨rfl, hctx⟩ hb
    exact ⟨rfl, hctx, hb⟩
  refine Triple.bind (R := fun raw w => w = boot ∧ checkFinalize host boot.disk targetBytes = .ok ctx ∧
    readRawSuperblock boot.disk = .ok sbraw ∧
    updateSuperblockChecksum (writeLe 2 sbraw 0x3a (readLe 2 sbraw 0x3a &&& 0xfffe)) = .ok raw)
    (Triple.reading (fun _ _ h hr => ⟨h.1, h.2.1, h.2.2, hr⟩) fun w h => hE w h.1) fun raw => ?_
  rintro w ⟨rfl, hctx, hsb, hraw⟩
  have ho : Opened w ctx := opened_of_readSuperblock (checkFinalize_target hctx hsb).2.1
  have hsbraw := (Disk.readExact_eq_ok_iff.mp hsb).2
  obtain ⟨hmark, hlen, hoff⟩ := (@triple_mark _ _ fin) hbefore hcopies ho hsbraw hraw
  have hjournal : ∀ op, Triple (Until fin (Settled A w)) (journalOp op)
      (fun _ => Until fin (Settled A w)) (Until fin (Safe A w)) := fun op =>
    until_journalOp.mono (fun _ h => h) (fun _ _ h => h) fun _ h => h.mono fun _ => Guarded.safe
  have hbegin : Triple (At A w w.disk.data []) (beginFinalize ctx raw)
      (fun _ => Until fin (Settled A w)) (Until fin (Safe A w)) :=
    Triple.bind hmark fun _ => Triple.bind (hjournal _) fun _ => hjournal _
  refine Triple.bind hbegin (fun _ => until_resize hA ho.accepted ho.room hoff ?_
    fun b hb => shrunkSuper_spec hlen hb) w hstart
  refine Triple.bind (until_device (p := fun u => KeepsDirty u.1 ∧ KeepsDirty u.2)
    (fun _ => Settled.guarded) fun pre hpre u hu => ?_) fun u => ?_
  · refine tailUpdate_keepsDirty ho.accepted (fun gd hgd => ?_) hu
    rw [ho.sb] at hgd ⊢
    exact hap pre hpre gd hgd
  · exact (until_writeTail hA ho.accepted).mono (fun _ h => h.mono fun _ hw => ⟨hw.1.guarded, hw.2⟩)
      (fun _ _ h => h) fun _ h => h

theorem marked_prepareGrow (hboot : boot.trace = []) {host : Host} {targetBytes : Nat}
    {opts : GrowOptions}
    (hap : ∀ pre, pre <+: fin → SizeChange.Apart host
      (decodeSuperblock (boot.disk.data.read 1024 1024)) (boot.disk.emit (devEvents pre))
      (.grow targetBytes opts)) :
    Triple (fun w => w = boot) (prepareGrow host targetBytes opts)
      (fun r => Until fin (Prepared A boot copies r)) (Until fin (Safe A boot)) := by
  have hstart : At A boot boot.disk.data [] boot :=
    At.ofBoot hboot (hbefore _ (asBefore_refl copies _))
  have hE : ∀ w, w = boot → Until fin (Safe A boot) w := by
    rintro w rfl _
    exact hstart.reaches.always
  refine Triple.bind (R := fun _ w => w = boot) (Triple.reading (fun _ _ h _ => h) hE) fun _ => ?_
  refine Triple.bind (R := fun ctx w => w = boot ∧ checkGrow boot.disk targetBytes = .ok ctx)
    (Triple.reading ?_ hE) fun ctx => ?_
  · rintro w ctx rfl h
    exact ⟨rfl, h⟩
  refine Triple.bind (R := fun t w => w = boot ∧ checkGrow boot.disk targetBytes = .ok ctx ∧
    readLastGroup boot.disk ctx (targetBytes / ctx.sb.blockSize) = .ok t)
    (Triple.reading ?_ fun w h => hE w h.1) fun t => ?_
  · rintro w t ⟨rfl, hctx⟩ ht
    exact ⟨rfl, hctx, ht⟩
  refine Triple.bind (R := fun b w => w = boot ∧ checkGrow boot.disk targetBytes = .ok ctx ∧
    readLastGroup boot.disk ctx (targetBytes / ctx.sb.blockSize) = .ok t ∧
    readRawSuperblock boot.disk = .ok b) (Triple.reading ?_ fun w h => hE w h.1) fun sbraw => ?_
  · rintro w b ⟨rfl, hctx, ht⟩ hb
    exact ⟨rfl, hctx, ht, hb⟩
  refine Triple.bind (R := fun raw w => w = boot ∧ checkGrow boot.disk targetBytes = .ok ctx ∧
    readLastGroup boot.disk ctx (targetBytes / ctx.sb.blockSize) = .ok t ∧
    readRawSuperblock boot.disk = .ok sbraw ∧
    updateSuperblockChecksum (writeLe 2 sbraw 0x3a (readLe 2 sbraw 0x3a &&& 0xfffe)) = .ok raw)
    (Triple.reading (fun _ _ h hr => ⟨h.1, h.2.1, h.2.2.1, h.2.2.2, hr⟩) fun w h => hE w h.1)
    fun raw => ?_
  rintro w ⟨rfl, hctx, ht, hsb, hraw⟩
  obtain ⟨ctx', hload, hctx⟩ := Result.bind_eq_ok hctx
  simp only [Result.guard_bind_eq_ok_iff, Result.pure_eq_ok_iff] at hctx
  obtain ⟨-, -, -, -, -, -, -, -, -, rfl⟩ := hctx
  have ho : Opened w ctx := opened_of_readSuperblock (readSuperblock_of_loadMetadataContext hload)
  have hsbraw := (Disk.readExact_eq_ok_iff.mp hsb).2
  obtain ⟨hmark, hlen, hoff⟩ := (@triple_mark _ _ fin) hbefore hcopies ho hsbraw hraw
  unfold readLastGroup at ht
  obtain ⟨gd, hgd, ht⟩ := Result.bind_eq_ok ht
  obtain ⟨raw', -, ht⟩ := Result.bind_eq_ok ht
  obtain ⟨bm, hbm, ht⟩ := Result.bind_eq_ok ht
  obtain ⟨_, -, ht⟩ := Result.bind_eq_ok ht
  cases ht
  refine Triple.bind hmark (fun _ => until_resize hA ho.accepted ho.room hoff ?_
    fun b hb => grownSuper_spec hlen hb) w hstart
  refine Triple.bind (until_device (p := fun u => KeepsDirty u.1 ∧ KeepsDirty u.2)
    (fun _ => Settled.guarded) fun pre hpre u hu => ?_) fun u => ?_
  · refine grownTail_keepsDirty ho.accepted ?_ (length_of_readBlockBitmap hbm) hu
    -- 末尾の group は、呼び出しを始めたときの device から読んである
    have h0 := hap [] (List.nil_prefix) gd
    rw [devEvents, Disk.emit_nil, ← ho.sb] at h0
    exact h0 hgd
  · exact (until_writeTail hA ho.accepted).mono (fun _ h => h.mono fun _ hw => ⟨hw.1.guarded, hw.2⟩)
      (fun _ _ h => h) fun _ h => h

end Prepare

/-! ## 検証の後 -/

theorem Settled.at_data {A : Image → Prop} {boot w : World} (h : Settled A boot w) :
    At A boot w.disk.data [] w := by
  obtain ⟨base, hat, -⟩ := h
  rw [hat.data, Image.applyAll_nil]
  exact hat

/-- journal への操作は、flush し終えた device を変えない。 -/
theorem triple_journalOp_at {A : Image → Prop} {boot : World} {op : JournalOp} :
    Keeps (fun w => ∃ v, At A boot v [] w) (journalOp op) := by
  refine Triple.stepping (fun w w' h hw => ?_) fun _ h => h
  obtain ⟨v, hat⟩ := h
  cases hj : w.journal with
  | none =>
    rw [hj] at hw
    cases hw
  | some j =>
    rw [hj] at hw
    obtain ⟨j', -, hw'⟩ := Result.bind_eq_ok hw
    cases hw'
    exact ⟨v, hat.journal (devEvents_map_journal _ _)⟩

section Complete

variable {A : Image → Prop} {boot w₁ : World} {copies : List Nat} {r : Resized} {host : Host}
  (hp : Prepared A boot copies r w₁)

include hp

/-- clean の印を書くところ。 -/
theorem triple_stamp {clean : Bytes} (hend : ∀ img, SameMetadata copies w₁.disk.data img → A img)
    (hclean : updateSuperblockChecksum (writeLe 2 r.raw 0x3a (r.state ||| 1)) = .ok clean) :
    Triple (fun w => w = w₁) (writeSuperCopies r.ctx clean) (fun _ w => ∃ v, At A boot v [] w)
      (fun w => ∃ v, At A boot v [] w) := by
  have hsame := (sameFields_state r.raw _).trans (sameFields_checksum hclean)
  have hoff : superOffsets r.ctx.sb clean = copies :=
    (superOffsets_congr hsame.groupHasSuper).trans hp.offsets
  have htriple := triple_endMark hp.accepted hp.room (hsame.1.trans hp.length) hoff hend
    fun o ho i hi hs => (hsame.2 i hs).trans (hp.fields o ho i hi hs)
  refine htriple.mono (fun w hw => ?_) (fun _ _ h => h) fun _ h => h
  rw [hw]
  exact hp.settled.at_data

/-- 検証に通ったときだけ clean の印を書く。`rest` は印の後の手続きである。 -/
theorem triple_verified {α : Type} {text : String} {rest : EngineM α}
    (hrest : Triple (fun w => ∃ v, At A boot v [] w) rest (fun _ => Safe A boot) (Safe A boot))
    (hend : (∃ v, verifyMetadata host.verifyCancelled w₁.disk = .ok v ∧ v.clean = true) →
      ∀ img, SameMetadata copies w₁.disk.data img → A img) :
    Triple (fun w => w = w₁) (do
        let v ← device fun d => verifyMetadata host.verifyCancelled d
        if v.clean = false then throw { code := .corrupt, message := text }
        let clean ← device fun _ => updateSuperblockChecksum (writeLe 2 r.raw 0x3a (r.state ||| 1))
        writeSuperCopies r.ctx clean
        rest) (fun _ => Safe A boot) (Safe A boot) := by
  have hE : ∀ w, w = w₁ → Safe A boot w := by
    rintro w rfl
    exact hp.settled.guarded.safe
  refine Triple.bind (R := fun v w => w = w₁ ∧
    verifyMetadata host.verifyCancelled w₁.disk = .ok v) (Triple.reading ?_ hE) fun v => ?_
  · rintro w v rfl hv
    exact ⟨rfl, hv⟩
  refine Triple.guard (fun w h => hE w h.1) fun hclean => ?_
  refine Triple.bind (R := fun clean w => w = w₁ ∧ verifyMetadata host.verifyCancelled w₁.disk = .ok v ∧
    updateSuperblockChecksum (writeLe 2 r.raw 0x3a (r.state ||| 1)) = .ok clean)
    (Triple.reading (fun _ _ h hc => ⟨h.1, h.2, hc⟩) fun w h => hE w h.1) fun clean => ?_
  rintro w ⟨rfl, hv, hc⟩
  have hstamp := triple_stamp hp (hend ⟨v, hv, by simpa using hclean⟩) hc
  exact Triple.bind (hstamp.mono (fun _ h => h) (fun _ _ h => h) fun _ ⟨_, h⟩ => h.reaches.always)
    (fun _ => hrest) w rfl

end Complete

/-! ## 移動の確定 -/

section Commit

variable {A : Image → Prop} {boot : World} {fin : List WorldEvent}

/-- primary superblock だけを書いて flush する。 -/
theorem triple_writePrimary {base : Image} {raw : Bytes}
    (hA : ∀ img, Settle (Atomic base) base [⟨1024, raw⟩] img → A img) :
    Triple (At A boot base []) (do
        write 1024 raw
        flush) (fun _ => At A boot (base.apply ⟨1024, raw⟩) []) (Safe A boot) := by
  refine Triple.bind (R := fun _ => At A boot base [⟨1024, raw⟩]) ?_ fun _ => ?_
  · refine Triple.stepping (fun w w' h hw => ?_) fun _ h => h.reaches.always
    obtain ⟨d, hd, hw'⟩ := Result.bind_eq_ok hw
    obtain ⟨-, -, rfl⟩ := Disk.writeExact_eq_ok_iff.mp hd
    cases hw'
    exact h.emit (h.reaches.write hA)
  · refine Triple.stepping (fun w w' h hw => ?_) fun _ h => h.reaches.always
    obtain ⟨d, hd, hw'⟩ := Result.bind_eq_ok hw
    cases hd
    cases hw'
    exact h.emit h.reaches.flush

/-- 状態の欄だけを書き換えた superblock。 -/
theorem stateUpdate_spec {d : Disk} {clean : Bool} {raw : Bytes}
    (h : stateUpdate d clean = .ok raw) :
    raw.length = 1024 ∧ SameFields (d.data.read 1024 1024) raw ∧
      (clean = false → readLe 2 raw 0x3a &&& 1 = 0) := by
  unfold stateUpdate at h
  obtain ⟨b, hb, h⟩ := Result.bind_eq_ok h
  have hb := (Disk.readExact_eq_ok_iff.mp hb).2
  have hlen : b.length = 1024 := by rw [hb, Image.length_read]
  have hsame := (sameFields_state b _).trans (sameFields_checksum h)
  refine ⟨hsame.1.trans hlen, hb ▸ hsame, ?_⟩
  rintro rfl
  exact (dirty_spec hlen h).2.2

/-- 印の書き換えは、印のほかの欄をそのまま書く。 -/
theorem refresh_primary {d : Disk} {clean : Bool} {raw : Bytes}
    (h : stateUpdate d clean = .ok raw) :
    Refresh [1024] (fun o i => d.data (o + i)) ⟨1024, raw⟩ := by
  obtain ⟨hlen, hsame, -⟩ := stateUpdate_spec h
  refine ⟨List.mem_singleton.mpr rfl, hlen, fun i hi hs => ?_⟩
  show raw[i]? = some (d.data (1024 + i))
  rw [hsame.2 i hs, Image.getElem?_read, if_pos hi]

theorem decodeSuperblock_state (b : Bytes) : (decodeSuperblock b).state = readLe 2 b 0x3a := rfl

theorem dvd_primary : ∀ o ∈ [1024], 1024 ∣ o := by
  intro o ho
  rw [List.mem_singleton.mp ho]

variable (hA : ∀ img, ¬ MarkedClean img → A img)
  (hbefore : ∀ img, AsBefore [1024] boot.disk.data img → A img)
include hA hbefore

omit hA in
/-- はじめに dirty でなければ dirty にする。どちらでも、その後は dirty である。 -/
theorem marked_beginCommit {ctx : MetadataContext} (ho : Opened boot ctx) (hboot : boot.trace = []) :
    Triple (fun w => w = boot) (beginCommit ctx) (fun _ => Until fin (Settled A boot))
      (Until fin (Safe A boot)) := by
  have hstart : At A boot boot.disk.data [] boot :=
    At.ofBoot hboot (hbefore _ (asBefore_refl [1024] _))
  have hjournal : ∀ op, Triple (Until fin (Settled A boot)) (journalOp op)
      (fun _ => Until fin (Settled A boot)) (Until fin (Safe A boot)) := fun op =>
    until_journalOp.mono (fun _ h => h) (fun _ _ h => h) fun _ h => h.mono fun _ => Guarded.safe
  unfold beginCommit
  dsimp only
  refine Triple.ite (fun _ => ?_) fun hdirty => ?_
  · refine Triple.bind ?_ fun _ => Triple.bind (hjournal _) fun _ => hjournal _
    refine Triple.bind (R := fun raw w => w = boot ∧ stateUpdate boot.disk false = .ok raw)
      (Triple.reading ?_ ?_) fun raw => ?_
    · rintro w raw rfl h
      exact ⟨rfl, h⟩
    · rintro w rfl _
      exact hstart.reaches.always
    · rintro w ⟨rfl, hraw⟩
      obtain ⟨hlen, -, hstate⟩ := stateUpdate_spec hraw
      have hwrite := @triple_writePrimary A w w.disk.data raw
        fun img hset => hbefore img (hset.preserves (asBefore_refl [1024] _) fun u hu i hi => by
          rw [List.mem_singleton.mp hu]
          refine hi.apply dvd_primary ?_
          obtain ⟨hmem, hlen, hsame⟩ := refresh_primary hraw
          exact ⟨hmem, hlen, hsame⟩)
      have hdirty := not_markedClean_of_write (w := ⟨1024, raw⟩) rfl hlen (hstate rfl) w.disk.data
      have hmark : Triple (At A w w.disk.data []) (do
          write 1024 raw
          flush) (fun _ => Until fin (Settled A w)) (Until fin (Safe A w)) :=
        hwrite.mono (fun _ h => h) (fun _ _ hw' _ => ⟨_, hw', hdirty⟩) fun _ h _ => h
      exact hmark w hstart
  · refine (hjournal _).mono ?_ (fun _ _ h => h) fun _ h => h
    rintro w rfl _
    refine ⟨_, hstart, ?_⟩
    rw [ho.sb, decodeSuperblock_state, not_not] at hdirty
    unfold MarkedClean
    rw [hdirty]
    decide

theorem marked_prepareCommit (hboot : boot.trace = []) {host : Host} {plan : OwnerRelocationPlan}
    {opts : CommitOptions}
    (hap : ∀ pre, pre <+: fin → CommitApart host.srt
      (decodeSuperblock (boot.disk.data.read 1024 1024)) plan.moves
      (boot.disk.emit (devEvents pre))) :
    Triple (fun w => w = boot) (prepareCommit host plan opts)
      (fun r => Until fin fun w => Safe A boot w ∧ (r.2 = true → Settled A boot w))
      (Until fin (Safe A boot)) := by
  have hstart : At A boot boot.disk.data [] boot :=
    At.ofBoot hboot (hbefore _ (asBefore_refl [1024] _))
  have hE : ∀ w, w = boot → Until fin (Safe A boot) w := by
    rintro w rfl _
    exact hstart.reaches.always
  refine Triple.guard hE fun _ => ?_
  refine Triple.bind (R := fun _ w => w = boot) (Triple.reading (fun _ _ h _ => h) hE) fun _ => ?_
  refine Triple.bind (R := fun ctx w => w = boot ∧ checkCommitFilesystem boot.disk = .ok ctx)
    (Triple.reading ?_ hE) fun ctx => ?_
  · rintro w ctx rfl h
    exact ⟨rfl, h⟩
  refine Triple.bind (R := fun _ w => w = boot ∧ checkCommitFilesystem boot.disk = .ok ctx)
    (Triple.reading (fun _ _ h _ => h) fun w h => hE w h.1) fun j => ?_
  refine Triple.bind (R := fun _ w => w = boot ∧ checkCommitFilesystem boot.disk = .ok ctx)
    (Triple.reading (fun _ _ h _ => h) fun w h => hE w h.1) fun _ => ?_
  rintro w ⟨rfl, hctx⟩
  unfold checkCommitFilesystem at hctx
  obtain ⟨ctx', hload, hctx⟩ := Result.bind_eq_ok hctx
  simp only [Result.guard_bind_eq_ok_iff, Result.pure_eq_ok_iff] at hctx
  obtain ⟨-, -, -, rfl⟩ := hctx
  have ho : Opened w ctx := opened_of_readSuperblock (readSuperblock_of_loadMetadataContext hload)
  refine Triple.ite (P := fun w' => w' = w) (fun _ => Triple.pure fun w' hw' _ => ?_)
    (fun _ => ?_) w rfl
  · rw [hw']
    exact ⟨hstart.reaches.always, fun h => by cases h⟩
  · refine Triple.bind (marked_beginCommit hbefore ho hboot) fun _ => ?_
    have hmoves := @until_commitMoves _ _ fin _ _ _ hA ho.accepted (by rw [ho.sb]; exact hap) host
      rfl plan.blockSize j.view.records (stableSort OwnerMove.before plan.moves) 0
      { movesTotal := plan.moves.length } fun m hm => (List.perm_insertionSort _ plan.moves).mem_iff.mp hm
    refine Triple.bind (hmoves.mono (fun _ h => h) (fun _ _ h => h)
      fun _ h => h.mono fun _ => Guarded.safe) fun report => ?_
    exact Triple.pure fun w' h => h.mono fun _ hw' => ⟨hw'.guarded.safe, fun _ => hw'⟩

end Commit

/-- 検証に通ったときだけ clean の印を書く。 -/
theorem marked_finishCommit {A : Image → Prop} {boot w₁ : World} {host : Host}
    {opts : CommitOptions} {report : CommitReport} (hw₁ : Settled A boot w₁)
    (hverify : opts.verifyMetadataAfter = true)
    (hend : (∃ v, verifyMetadata host.verifyCancelled w₁.disk = .ok v ∧ v.clean = true) →
      ∀ img, SameMetadata [1024] w₁.disk.data img → A img) :
    Triple (fun w => w = w₁) (finishCommit host opts report) (fun _ => Safe A boot)
      (Safe A boot) := by
  have hE : ∀ w, w = w₁ → Safe A boot w := by
    rintro w rfl
    exact hw₁.guarded.safe
  have hjournal : ∀ op, Triple (fun w => ∃ v, At A boot v [] w) (journalOp op)
      (fun _ w => ∃ v, At A boot v [] w) (Safe A boot) := fun op =>
    triple_journalOp_at.mono (fun _ h => h) (fun _ _ h => h) fun _ ⟨_, h⟩ => h.reaches.always
  unfold finishCommit
  rw [if_pos hverify]
  refine Triple.bind (R := fun v w => w = w₁ ∧
    verifyMetadata host.verifyCancelled w₁.disk = .ok v) (Triple.reading ?_ hE) fun v => ?_
  · rintro w v rfl hv
    exact ⟨rfl, hv⟩
  refine Triple.guard (fun w h => hE w h.1) fun hclean => ?_
  dsimp only
  have hlast : ∀ report' : CommitReport, Triple (fun w => ∃ v, At A boot v [] w) (do
      checkpoint .compacted
      return report') (fun _ => Safe A boot) (Safe A boot) := fun report' =>
    Triple.bind (hjournal _) fun _ => Triple.pure fun _ ⟨_, h⟩ => h.reaches.always
  refine Triple.ite (fun _ => ?_) fun _ => ?_
  · refine Triple.bind (R := fun _ w => ∃ v, At A boot v [] w) ?_ fun _ =>
      Triple.bind (hjournal _) fun _ => hlast _
    refine Triple.bind (R := fun raw w => w = w₁ ∧ verifyMetadata host.verifyCancelled w₁.disk = .ok v ∧
      stateUpdate w₁.disk true = .ok raw) (Triple.reading ?_ fun w h => hE w h.1) fun raw => ?_
    · rintro w raw ⟨rfl, hv⟩ hraw
      exact ⟨rfl, hv, hraw⟩
    · rintro w ⟨rfl, hv, hraw⟩
      have hend := hend ⟨v, hv, by simpa using hclean⟩
      have hwrite := @triple_writePrimary A boot w.disk.data raw
        fun img hset => hend img (hset.preserves (sameMetadata_refl [1024] _) fun u hu i hi => by
          rw [List.mem_singleton.mp hu]
          exact hi.apply dvd_primary (refresh_primary hraw))
      exact (hwrite.mono (fun _ h => h) (fun _ _ h => ⟨_, h⟩) fun _ h => h) w hw₁.at_data
  · refine (hlast _).mono ?_ (fun _ _ h => h) fun _ h => h
    rintro w ⟨rfl, -⟩
    exact ⟨_, hw₁.at_data⟩

/-! ## どこで止まっても -/

/-- 二つに分けた手続きの、後ろの手続きは前の手続きの後から始まる。 -/
theorem safe_of_split {A : Image → Prop} {boot w : World} {β γ : Type} {p : EngineM β}
    {k : β → EngineM γ} {Q : β → World → Prop} {r : Result γ}
    (hrun : Proc.run (p >>= k) boot = (r, w))
    (hp : Triple (fun w => w = boot) p (fun b => Until w.trace (Q b)) (Until w.trace (Safe A boot)))
    (hgrow : ∀ b t, Keeps (StartsWith t) (k b))
    (hk : ∀ b w₁, Proc.run p boot = (.ok b, w₁) → Q b w₁ →
      Triple (fun w => w = w₁) (k b) (fun _ => Safe A boot) (Safe A boot)) : Safe A boot w := by
  rw [Proc.run_bind] at hrun
  cases hp' : Proc.run p boot with
  | mk r₁ w₁ =>
    rw [hp'] at hrun
    cases r₁ with
    | error e =>
      cases hrun
      exact hp.error rfl hp' List.prefix_rfl
    | ok b =>
      have hrest : Proc.run (k b) w₁ = (r, w) := hrun
      cases r with
      | ok c =>
        have hpre := (hgrow b w₁.trace).ok List.prefix_rfl hrest
        exact (hk b w₁ hp' (hp.ok rfl hp' hpre)).ok rfl hrest
      | error e =>
        have hpre := (hgrow b w₁.trace).error List.prefix_rfl hrest
        exact (hk b w₁ hp' (hp.ok rfl hp' hpre)).error rfl hrest

/-- 値を捨てても、終わった世界は同じである。 -/
theorem run_of_discard {α : Type} {p : EngineM α} {boot w : World} {r : Result Unit}
    (h : Proc.run (do let _ ← p) boot = (r, w)) : ∃ r', Proc.run p boot = (r', w) := by
  rw [Proc.run_bind] at h
  cases hp : Proc.run p boot with
  | mk r' w' =>
    rw [hp] at h
    cases r' with
    | ok a =>
      cases h
      exact ⟨_, rfl⟩
    | error e =>
      cases h
      exact ⟨_, rfl⟩

section Grows

variable {t : List WorldEvent} {host : Host}

theorem startsWith_completeShrink {r : Resized} :
    Keeps (StartsWith t) (completeShrink host r) := by
  refine Triple.bind keeps_device fun _ => Triple.guard (fun _ h => h) fun _ => ?_
  exact Triple.bind keeps_device fun _ =>
    Triple.bind steady_startsWith.keeps_writeSuperCopies fun _ =>
      Triple.bind steady_startsWith.keeps_journalOp fun _ => steady_startsWith.keeps_journalOp

theorem startsWith_completeGrow {targetBytes : Nat} {opts : GrowOptions} {r : Resized} :
    Keeps (StartsWith t) (completeGrow host targetBytes opts r) := by
  have hlast : ∀ report : GrowReport, Keeps (StartsWith t) (do
      let clean ← device fun _ => updateSuperblockChecksum (writeLe 2 r.raw 0x3a (r.state ||| 1))
      writeSuperCopies r.ctx clean
      return report) := fun report =>
    Triple.bind keeps_device fun _ =>
      Triple.bind steady_startsWith.keeps_writeSuperCopies fun _ => Triple.pure fun _ h => h
  refine Triple.ite (fun _ => ?_) fun _ => hlast _
  exact Triple.bind keeps_device fun _ => Triple.guard (fun _ h => h) fun _ => hlast _

theorem startsWith_finishCommit {opts : CommitOptions} {report : CommitReport} :
    Keeps (StartsWith t) (finishCommit host opts report) := by
  have hlast : ∀ report' : CommitReport, Keeps (StartsWith t) (do
      checkpoint .compacted
      return report') := fun _ =>
    Triple.bind steady_startsWith.keeps_journalOp fun _ => Triple.pure fun _ h => h
  have hmark : ∀ report' : CommitReport, Keeps (StartsWith t) (if opts.leaveFilesystemDirty = false
      then do
        markFilesystemState true
        append (moveRecord .filesystemMarkedClean .blank)
        checkpoint .compacted
        return report'
      else do
        checkpoint .compacted
        return report') := by
    intro report'
    refine Triple.ite (fun _ => ?_) fun _ => hlast _
    refine Triple.bind ?_ fun _ => Triple.bind steady_startsWith.keeps_journalOp fun _ => hlast _
    exact Triple.bind keeps_device fun _ =>
      Triple.bind steady_startsWith.keeps_write fun _ => steady_startsWith.keeps_flush
  refine Triple.ite (fun _ => ?_) fun _ => hmark _
  exact Triple.bind keeps_device fun _ => Triple.guard (fun _ h => h) fun _ => hmark _

end Grows

/-! ## 小さな filesystem -/

namespace TwoGroups

theorem size_lt : 32768 < 2 ^ 63 := by decide

/-- 二つの group を持つ健全な filesystem。group 1 の写しは、空き block の数が古い。 -/
def disk : Disk where
  sizeBytes := 32768
  logicalSector := 512
  isBlockDevice := false
  writable := true
  data := Image.applyAll (fun _ => 0) [
    ⟨1024, leBytes 4 16 ++ leBytes 4 12⟩, ⟨1024 + 0x0c, leBytes 4 2 ++ leBytes 4 8⟩,
    ⟨1024 + 0x18, leBytes 4 1⟩, ⟨1024 + 0x20, leBytes 4 8⟩, ⟨1024 + 0x28, leBytes 4 8⟩,
    ⟨1024 + 0x38, leBytes 2 extMagic ++ leBytes 2 1⟩, ⟨1024 + 0x58, leBytes 2 128⟩,
    ⟨2048, leBytes 4 2 ++ leBytes 4 3 ++ leBytes 4 4⟩,
    ⟨2080, leBytes 4 5 ++ leBytes 4 6 ++ leBytes 4 7 ++ leBytes 2 2 ++ leBytes 2 8⟩,
    ⟨4096, [0xff]⟩, ⟨6144, [0xff]⟩, ⟨10240, [0xf3]⟩,
    ⟨16384, leBytes 4 16 ++ leBytes 4 12⟩, ⟨16384 + 0x0c, leBytes 4 3 ++ leBytes 4 8⟩]
  events := []
  size_lt := TwoGroups.size_lt

def boot : World := ⟨disk, none, []⟩

/-- block を一つ増やす。 -/
def change : SizeChange := .grow (13 * 2048) {}

def after : Result Unit × World := Proc.run (change.call Tiny.host) boot

theorem run_change : Proc.run (change.call Tiny.host) boot = (after.1, after.2) :=
  (Prod.mk.eta (p := after)).symm

/-- 記録の `n` 番目までの device で、末尾の group の bitmap が superblock に重ならない。 -/
def apartAt (n : Nat) : Bool :=
  let sb := decodeSuperblock (boot.disk.data.read 1024 1024)
  match readGroupDesc (boot.disk.emit (devEvents (after.2.trace.take n))) sb (sb.groupsCount - 1) with
  | .ok gd => decide (Away (gd.blockBitmap * sb.blockSize) sb.blockSize)
  | .error _ => true

theorem after_facts : after.1 = .ok () ∧ after.2.trace.length = 13 ∧
    ∀ n ∈ List.range 14, apartAt n = true := by decide +kernel

theorem apart : ∀ pre, pre <+: after.2.trace → change.Apart Tiny.host
    (decodeSuperblock (boot.disk.data.read 1024 1024)) (boot.disk.emit (devEvents pre)) := by
  intro pre hpre gd hgd
  have hlen := hpre.length_le
  rw [after_facts.2.1] at hlen
  have h := after_facts.2.2 pre.length (List.mem_range.mpr (by omega))
  unfold apartAt at h
  rw [← List.prefix_iff_eq_take.mp hpre] at h
  dsimp only at h
  rw [hgd] at h
  exact of_decide_eq_true h

end TwoGroups

namespace Overlap

/-- block bitmap が block 0 に、つまり superblock に重なっている filesystem。 -/
def disk : Disk where
  sizeBytes := 32768
  logicalSector := 512
  isBlockDevice := false
  writable := true
  data := Image.applyAll (fun _ => 0) [
    ⟨0, [0x0f, 0xff]⟩, ⟨1024, leBytes 4 8 ++ leBytes 4 8⟩, ⟨1024 + 0x0c, leBytes 4 4⟩,
    ⟨1024 + 0x18, leBytes 4 1⟩, ⟨1024 + 0x20, leBytes 4 16⟩, ⟨1024 + 0x28, leBytes 4 8⟩,
    ⟨1024 + 0x38, leBytes 2 extMagic ++ leBytes 2 1⟩, ⟨1024 + 0x58, leBytes 2 128⟩,
    ⟨2048, leBytes 4 0 ++ leBytes 4 2 ++ leBytes 4 3 ++ leBytes 2 4⟩, ⟨4096, [0xff]⟩]
  events := []
  size_lt := TwoGroups.size_lt

def boot : World := ⟨disk, none, []⟩

/-- block を一つ増やす。 -/
def change : SizeChange := .grow (9 * 2048) {}

def after : Result Unit × World := Proc.run (change.call Tiny.host) boot

end Overlap

/-! ## 主な結果 -/

/--
**clean の印は、検証の後にだけ付く。**
呼び出しのどこで止まっても、残った superblock が clean だと言うなら、ほかの metadata は
呼び出しの前のままか、その呼び出しの検証が通ったときのままである。
呼び出しの間、書く metadata が primary superblock に重ならない配置であることを仮定する。
-/
theorem clean_only_verified {host : Host} {c : SizeChange} {boot w : World} {r : Result Unit}
    (hverify : c.verifies = true) (hboot : boot.trace = [])
    (hrun : Proc.run (c.call host) boot = (r, w))
    (hapart : ∀ pre, pre <+: w.trace → c.Apart host
      (decodeSuperblock (boot.disk.data.read 1024 1024)) (boot.disk.emit (devEvents pre))) :
    ∀ cw, CrashWorld boot w.trace cw → c.Honest host boot cw.disk.data := by
  have hA : ∀ img, ¬ MarkedClean img → c.Honest host boot img := fun img h hc => absurd hc h
  have hbefore : ∀ img, AsBefore (c.copies boot.disk) boot.disk.data img →
      c.Honest host boot img := fun img h _ => Or.inl h
  have hend : ∀ w₁, Proc.run (c.toVerify host) boot = (.ok true, w₁) →
      (∃ v, verifyMetadata host.verifyCancelled w₁.disk = .ok v ∧ v.clean = true) →
      ∀ img, SameMetadata (c.copies boot.disk) w₁.disk.data img → c.Honest host boot img :=
    fun w₁ hto hv img hsame _ => Or.inr ⟨w₁, ⟨hto, hv⟩, hsame⟩
  suffices hsafe : Safe (c.Honest host boot) boot w from
    fun cw hcw => hsafe _ hcw.crashImage
  cases c with
  | commit plan opts =>
    obtain ⟨r', hrun⟩ := run_of_discard hrun
    rw [commitStagedRelocation_eq_prepare] at hrun
    refine safe_of_split hrun (marked_prepareCommit hA hbefore hboot hapart) (fun b t => ?_)
      fun b w₁ hto hw₁ => ?_
    · exact Triple.ite (fun _ => startsWith_finishCommit) fun _ => Triple.pure fun _ h => h
    · refine Triple.ite (fun hgo => ?_) fun _ => Triple.pure fun w' hw' => hw' ▸ hw₁.1
      refine marked_finishCommit (hw₁.2 hgo) hverify (hend w₁ ?_)
      rw [SizeChange.toVerify, Proc.run_bind_ok hto, hgo]
      rfl
  | shrink missing targetBytes opts =>
    rw [SizeChange.call, finalizeMetadataOnlyShrink_eq_prepare] at hrun
    refine safe_of_split hrun (marked_prepareShrink hA hbefore rfl hboot hapart)
      (fun b t => startsWith_completeShrink) fun b w₁ hto hw₁ => ?_
    refine triple_verified hw₁ ?_ (hend w₁ ?_)
    · refine (Triple.bind triple_journalOp_at fun _ => triple_journalOp_at).mono (fun _ h => h)
        (fun _ _ ⟨_, h⟩ => h.reaches.always) fun _ ⟨_, h⟩ => h.reaches.always
    · rw [SizeChange.toVerify, Proc.run_bind_ok hto]
      rfl
  | grow targetBytes opts =>
    obtain ⟨r', hrun⟩ := run_of_discard hrun
    refine safe_of_split hrun (marked_prepareGrow hA hbefore rfl hboot hapart)
      (fun b t => startsWith_completeGrow) fun b w₁ hto hw₁ => ?_
    unfold completeGrow
    rw [if_pos (show opts.verifyAfter = true from hverify)]
    refine triple_verified hw₁ ?_ (hend w₁ ?_)
    · exact Triple.pure fun _ ⟨_, h⟩ => h.reaches.always
    · rw [SizeChange.toVerify, Proc.run_bind_ok hto]
      rfl

theorem clean_only_verified_twoGroups : TwoGroups.after.1 = .ok () ∧
    ∀ cw, CrashWorld TwoGroups.boot TwoGroups.after.2.trace cw →
      TwoGroups.change.Honest Tiny.host TwoGroups.boot cw.disk.data :=
  ⟨TwoGroups.after_facts.1, clean_only_verified rfl rfl TwoGroups.run_change TwoGroups.apart⟩

/-! ## 印が先に付くとき -/

/-- 写しの欄も含めて、前のままか検証したときのままである、という言い方。 -/
def SizeChange.Unchanged (host : Host) (c : SizeChange) (boot : World) (img : Image) : Prop :=
  MarkedClean img → SameMetadata (c.copies boot.disk) boot.disk.data img ∨
    ∃ v, c.Verified host boot v ∧ SameMetadata (c.copies boot.disk) v.disk.data img

/-- 記録の `n` 番目で止まり、未 flush の書き込みのうち先頭の `k` 個だけが失われた像。 -/
def crashedImage (boot : World) (trace : List WorldEvent) (n k : Nat) : Image :=
  let p := crashEnd boot.disk.data [] (devEvents (trace.take n))
  p.1.applyAll (p.2.drop k)

theorem settle_drop (b : Image) : ∀ (k : Nat) (ws : List Write) (img : Image),
    Settle (Atomic b) img ws (img.applyAll (ws.drop k))
  | 0, ws, img => Settle.keepAll _ ws img
  | _ + 1, [], img => .nil img
  | k + 1, _ :: ws, img => .drop (settle_drop b k ws img)

theorem crashWorld_crashedImage (boot : World) (trace : List WorldEvent) (n k : Nat) :
    ∃ cw, CrashWorld boot trace cw ∧ cw.disk.data = crashedImage boot trace n k :=
  ⟨_, ⟨_, List.take_prefix n trace, _, settle_drop _ k _ _, rfl⟩, rfl⟩

/-- dirty の印が失われ、写しだけが書き直された像。 -/
def TwoGroups.cut : Image := crashedImage boot after.2.trace 2 1

/-- 写しの空き block の数は変わっていて、大きさはまだ前のままである。 -/
theorem TwoGroups.cut_facts : MarkedClean cut ∧ 16384 ∈ change.copies boot.disk ∧
    1024 ∈ change.copies boot.disk ∧ cut (16384 + 0x0c) ≠ boot.disk.data (16384 + 0x0c) ∧
    cut (1024 + 0x04) ≠ (Proc.run (change.toVerify Tiny.host) boot).2.disk.data (1024 + 0x04) := by
  decide +kernel

/-- bitmap が clean の印を書き戻した像。 -/
def Overlap.cut : Image := crashedImage boot after.2.trace 4 0

/-- descriptor の空き block の数は変わっていて、大きさはまだ前のままである。 -/
theorem Overlap.cut_facts : MarkedClean cut ∧ change.copies boot.disk = [1024] ∧
    cut (2048 + 12) ≠ boot.disk.data (2048 + 12) ∧
    cut (1024 + 0x04) ≠ (Proc.run (change.toVerify Tiny.host) boot).2.disk.data (1024 + 0x04) := by
  decide +kernel

/--
写しの欄まで含めると、印は先に付きうる。健全な filesystem でも、dirty の印が失われて写しだけが
書き直されることがある。bitmap が superblock に重なっていれば、bitmap の書き込みが clean の印を
書き戻し、descriptor だけが新しい像が clean だと言う。
-/
theorem clean_before_verified :
    (¬ ∀ cw, CrashWorld TwoGroups.boot TwoGroups.after.2.trace cw →
      TwoGroups.change.Unchanged Tiny.host TwoGroups.boot cw.disk.data) ∧
    ¬ ∀ cw, CrashWorld Overlap.boot Overlap.after.2.trace cw →
      Overlap.change.Unchanged Tiny.host Overlap.boot cw.disk.data := by
  constructor
  · intro h
    obtain ⟨hmark, hcopy, hprimary, hfree, hblocks⟩ := TwoGroups.cut_facts
    obtain ⟨cw, hcw, hdata⟩ := crashWorld_crashedImage TwoGroups.boot TwoGroups.after.2.trace 2 1
    have h := h cw hcw
    rw [hdata] at h
    rcases h hmark with hstart | ⟨v, ⟨hrun, -⟩, hv⟩
    · exact hfree (hstart.supers 16384 hcopy 0x0c (by decide) (by decide))
    · rw [hrun] at hblocks
      exact hblocks (hv.supers 1024 hprimary 0x04 (by decide) (by decide))
  · intro h
    obtain ⟨hmark, hcopies, hfree, hblocks⟩ := Overlap.cut_facts
    obtain ⟨cw, hcw, hdata⟩ := crashWorld_crashedImage Overlap.boot Overlap.after.2.trace 4 0
    have h := h cw hcw
    unfold SizeChange.Unchanged at h
    rw [hdata, hcopies] at h
    rcases h hmark with hstart | ⟨v, ⟨hrun, -⟩, hv⟩
    · exact hfree (hstart.rest (2048 + 12) (by unfold Outside; decide))
    · rw [hrun] at hblocks
      exact hblocks (hv.supers 1024 List.mem_cons_self 0x04 (by decide) (by decide))

end Fsx.Ext4
