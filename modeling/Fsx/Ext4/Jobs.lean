import Fsx.Core.Interleave
import Fsx.Ext4.Copy
import Fsx.Ext4.Owners

/-!
# 並行に走る写し（`src/ext4/relocate.cpp`・`include/fsx/task_pool.hpp`）

`stage_relocation` は batch の写しを `TaskPool` に渡す。worker は `copy_one` を一つずつ引き取り、
chunk ごとの読み出しと書き込みが、ほかの写しとどのような順にも混ざる。

ここでは写し一つを「読む」「書く」の一歩ずつの仕事とし、予定（`Core/Interleave.lean`）のとおりに
進める。仕事の失敗と中断は一歩ごとの外からの答え（`Fate`）で与える。失敗した仕事があっても
残りの仕事は最後まで走る（`TaskPool` の destructor は queue を空にしてから戻る）。

`Stage.lean` の `copyBatch` は、仕事を順に走らせる予定にあたる。
-/

namespace Fsx.Ext4

open Engine

/-! ## 仕事 -/

/-- 一歩のときの外からの答え。 -/
structure Fate where
  /-- `Cancellation::requested` -/
  cancelled : Bool := false
  /-- 読み書きの失敗と、失敗するまでに書けた byte 数 -/
  fault : Option (Nat × Error) := none

/-- `copy_one` の途中。 -/
inductive JobState where
  /-- 次の chunk に取りかかる前 -/
  | ready (left : List (Nat × Nat)) (crc : UInt32)
  /-- `pos` から読んだ chunk を持っていて、まだ書いていない -/
  | holding (pos : Nat) (span : Bytes) (left : List (Nat × Nat)) (crc : UInt32)
  | ended (r : Result (UInt32 × Nat))

structure CopyJob where
  src : Nat
  dst : Nat
  total : Nat
  state : JobState

/-- `copy_one` のループに入る手前まで。 -/
def CopyJob.start (d : Disk) (bs chunk : Nat) (m : OwnerMove) : CopyJob :=
  if m.unwritten then ⟨0, 0, 0, .ended (.ok (0, 0))⟩
  else
    match byteRange d m.sourceBlock m.blockCount bs, byteRange d m.destinationBlock m.blockCount bs with
    | .error e, _ => ⟨0, 0, 0, .ended (.error e)⟩
    | .ok _, .error e => ⟨0, 0, 0, .ended (.error e)⟩
    | .ok (src, total), .ok (dst, _) =>
      ⟨src, dst, total, .ready (chunks (max bs chunk) total 0 total) crcInit⟩

/-- 失敗して終わる。 -/
def CopyJob.fail (j : CopyJob) (e : Error) : CopyJob := { j with state := .ended (.error e) }

/-- 一歩。 -/
def CopyJob.advance (f : Fate) (j : CopyJob) (w : World) : CopyJob × World :=
  match j.state with
  | .ended _ => (j, w)
  | .ready [] crc => ({ j with state := .ended (.ok (crc ^^^ 0xffffffff, j.total)) }, w)
  | .ready ((pos, n) :: left) crc =>
    if f.cancelled then
      (j.fail { code := .unsafeErr, message := "relocation cancellation requested" }, w)
    else
      match f.fault with
      | some (_, e) => (j.fail e, w)
      | none =>
        match w.disk.readExact (j.src + pos) n with
        | .error e => (j.fail e, w)
        | .ok span => ({ j with state := .holding pos span left (crc32c span crc) }, w)
  | .holding pos span left crc =>
    match f.fault with
    | some (k, e) => (j.fail e, (Proc.run (write (j.dst + pos) (span.take k)) w).2)
    | none =>
      match Proc.run (write (j.dst + pos) span) w with
      | (.error e, w') => (j.fail e, w')
      | (.ok _, w') => ({ j with state := .ready left crc }, w')

/-- 終わるまでの歩数。 -/
def CopyJob.remaining (j : CopyJob) : Nat :=
  match j.state with
  | .ended _ => 0
  | .ready left _ => 2 * left.length + 1
  | .holding _ _ left _ => 2 * left.length + 2

/-! ## batch -/

/-- 予定の後に、残った仕事を順に終わらせる予定。 -/
def drain (jobs : List CopyJob) : List (Nat × Fate) :=
  (List.range jobs.length).flatMap fun i =>
    List.replicate ((jobs[i]?.map CopyJob.remaining).getD 0) (i, {})

/-- `future::get` を順に呼ぶ。最初の失敗を返す。 -/
def gather : List CopyJob → Result (List (UInt32 × Nat))
  | [] => .ok []
  | j :: rest =>
    match j.state with
    | .ended r => do
      let c ← r
      let cs ← gather rest
      return c :: cs
    | _ => .error { code := .internal, message := "copy job has not ended" }

/-- batch を予定のとおりに写す。 -/
def copyParallel (sched : List (Nat × Fate)) (bs chunk : Nat) (batch : List OwnerMove) :
    EngineM (List (UInt32 × Nat)) := fun w =>
  let jobs := batch.map (CopyJob.start w.disk bs chunk)
  let p := interleave CopyJob.advance (sched ++ drain jobs) jobs w
  (gather p.1, p.2)

/-! ## `stage_relocation` -/

/-- batch のループ。`copy n` は、残りが `n` 個のときに batch を写す手続きである。 -/
def stageLoopWith (copy : Nat → List OwnerMove → EngineM (List (UInt32 × Nat))) (host : Host)
    (opts : StageOptions) (plan : OwnerRelocationPlan) (workers chunk : Nat) :
    Nat → List Nat → List OwnerMove → StageReport → EngineM StageReport
  | 0, _, _, report => pure report
  | fuel + 1, verified, moves, report => do
    let rest := moves.dropWhile fun m => decide (m.transactionId ∈ verified)
    if rest = [] then return report
    if host.stageCancelled (plan.moves.length - rest.length) then
      checkpoint .paused
      return { report with paused := true }
    let (batch, rest') := takeBatch verified workers rest
    let copied ← onError (copy rest.length batch) (checkpoint .paused)
    flush
    let records ← device fun d => verifyBatch opts plan.blockSize chunk d (batch.zip copied)
    appendBatch records
    let bytes := (copied.map Prod.snd).sum
    let verified' := batch.map OwnerMove.transactionId ++ verified
    stageLoopWith copy host opts plan workers chunk fuel verified' rest' { report with
      movesCompleted := report.movesCompleted + batch.length
      bytesCopied := report.bytesCopied + bytes
      bytesVerified := report.bytesVerified + bytes }

/-- `stage_relocation` を、batch の写し方 `copy` で走らせる。 -/
def stageRelocationWith (copy : Nat → Nat → List OwnerMove → EngineM (List (UInt32 × Nat)))
    (host : Host) (jhost : JournalHost) (plan : OwnerRelocationPlan) (opts : StageOptions) :
    EngineM StageReport := do
  if opts.journalPath = "" then
    throw { code := .invalidArgument, message := "staging requires --journal=FILE" }
  device fun _ => checkDeviceSafety host opts.allowBlockDevice
    "block-device staging requires explicit --allow-block-device"
  if plan.moves = [] then return { complete := true }
  let sb ← device fun d => checkStageFilesystem host d
  let fu ← device fun _ => parseUuid sb.uuid
  let prof ← device fun _ => host.profile
  let workers := max 1 prof.workers
  let chunk := max plan.blockSize prof.largeIoBytes
  let verified ← openStage jhost fu plan chunk
  let done := plan.moves.filter fun m => decide (m.transactionId ∈ verified)
  let bytes := (done.map fun m => if m.unwritten then 0 else m.blockCount * plan.blockSize).sum
  let report ← stageLoopWith (copy chunk) host opts plan workers chunk plan.moves.length verified
    plan.moves {
      movesTotal := plan.moves.length
      movesCompleted := done.length
      bytesCopied := bytes
      bytesVerified := bytes }
  if report.paused then return report
  checkpoint .staged
  return { report with complete := true }

/-- **並行に走る `stage_relocation`。** `sched n` は、残りが `n` 個のときの batch の予定である。 -/
def stageRelocationIn (sched : Nat → List (Nat × Fate)) (host : Host) (jhost : JournalHost)
    (plan : OwnerRelocationPlan) (opts : StageOptions) : EngineM StageReport :=
  stageRelocationWith (fun chunk n => copyParallel (sched n) plan.blockSize chunk) host jhost plan opts

theorem stageLoopWith_copyBatch (host : Host) (opts : StageOptions) (plan : OwnerRelocationPlan)
    (workers chunk : Nat) : ∀ (fuel : Nat) (verified : List Nat) (moves : List OwnerMove)
    (report : StageReport),
    stageLoopWith (fun _ => copyBatch host plan.blockSize chunk) host opts plan workers chunk fuel
      verified moves report = stageLoop host opts plan workers chunk fuel verified moves report
  | 0, _, _, _ => rfl
  | fuel + 1, verified, moves, report => by
    rw [stageLoopWith, stageLoop]
    simp only [stageLoopWith_copyBatch host opts plan workers chunk fuel]

/-- journal を開いた後。 -/
def stageRest (copy : Nat → Nat → List OwnerMove → EngineM (List (UInt32 × Nat))) (host : Host)
    (plan : OwnerRelocationPlan) (opts : StageOptions) (prof : IoProfile) (verified : List Nat) :
    EngineM StageReport := do
  let chunk := max plan.blockSize prof.largeIoBytes
  let done := plan.moves.filter fun m => decide (m.transactionId ∈ verified)
  let bytes := (done.map fun m => if m.unwritten then 0 else m.blockCount * plan.blockSize).sum
  let report ← stageLoopWith (copy chunk) host opts plan (max 1 prof.workers) chunk
    plan.moves.length verified plan.moves {
      movesTotal := plan.moves.length
      movesCompleted := done.length
      bytesCopied := bytes
      bytesVerified := bytes }
  if report.paused then return report
  checkpoint .staged
  return { report with complete := true }

/-- 検査を通って journal を開けたときの、残りの実行。 -/
theorem run_stageRelocationWith
    {copy : Nat → Nat → List OwnerMove → EngineM (List (UInt32 × Nat))} {host : Host}
    {jhost : JournalHost} {plan : OwnerRelocationPlan} {opts : StageOptions} {w w' : World}
    {sb : Superblock} {fu : Uuid} {prof : IoProfile} {vs : List Nat} (hpath : opts.journalPath ≠ "")
    (hsafe : checkDeviceSafety host opts.allowBlockDevice
      "block-device staging requires explicit --allow-block-device" = .ok ())
    (hmoves : plan.moves ≠ []) (hsb : checkStageFilesystem host w.disk = .ok sb)
    (hfu : parseUuid sb.uuid = .ok fu) (hprof : host.profile = .ok prof)
    (hopen : Proc.run (openStage jhost fu plan (max plan.blockSize prof.largeIoBytes)) w =
      (.ok vs, w')) :
    Proc.run (stageRelocationWith copy host jhost plan opts) w =
      Proc.run (stageRest copy host plan opts prof vs) w' := by
  unfold stageRelocationWith
  rw [if_neg hpath, run_device_bind hsafe, if_neg hmoves, run_device_bind hsb, run_device_bind hfu,
    run_device_bind hprof]
  dsimp only
  rw [Proc.run_bind_ok hopen]
  rfl

/-- 仕事を順に走らせる写し方では、`Stage.lean` の `stageRelocation` になる。 -/
theorem stageRelocationWith_copyBatch (host : Host) (jhost : JournalHost)
    (plan : OwnerRelocationPlan) (opts : StageOptions) :
    stageRelocationWith (fun chunk _ => copyBatch host plan.blockSize chunk) host jhost plan opts =
      stageRelocation host jhost plan opts := by
  unfold stageRelocationWith stageRelocation
  simp only [stageLoopWith_copyBatch]

end Fsx.Ext4
