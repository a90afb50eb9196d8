import Fsx.Io.Disk
import Fsx.Io.TaskPool

/-!
# device の複写（`src/ops/clone.cpp`）

複写元を chunk に区切り、worker の数までを一つの batch として pool に渡す。batch の中では、
chunk ごとの読み出しと書き込みがどのような順にも混ざる。batch は前の batch が終わってから渡す。

chunk 一つを「読む」「書く」の一歩ずつの仕事とし、batch ごとの予定（`Core/Interleave.lean`）の
とおりに進める。仕事の失敗は一歩ごとの外からの答えで与える。失敗した仕事があっても、残りの仕事は
最後まで走る（`TaskPool` の destructor は queue を空にしてから戻る）。予定に書かれていない残りの
一歩は、予定の後に順に進める。

複写元は変わらないとする。複写元と複写先が同じ記憶域を持たないことは、複写の前に確かめられる。
-/

namespace Fsx.Clone

/-- 複写元と複写先。 -/
structure CloneWorld where
  source : Disk
  target : Disk

structure CloneOptions where
  chunkBytes : Nat := 0
  verifyAfter : Bool := true
  allowBlockDevice : Bool := false
  allowLiveSource : Bool := false

/-- `CloneReport`。時間の欄は除く。 -/
structure CloneReport where
  bytesCopied : Nat := 0
  bytesVerified : Nat := 0
  chunks : Nat := 0
  verified : Bool := false
  deriving DecidableEq

/-- `IoTuning` のうち複写の使う欄。 -/
structure CloneTuning where
  workers : Nat
  largeIoBytes : Nat

/-- 一歩への外からの答え。読み書きの失敗と、失敗するまでに書けた byte 数である。 -/
abbrev Fault := Option (Nat × Error)

/-! ## chunk の仕事 -/

inductive ChunkState where
  | ready
  /-- 読んだ chunk を持っている -/
  | holding (b : Bytes)
  | ended (r : Result Unit)

structure ChunkJob where
  off : Nat
  len : Nat
  state : ChunkState

namespace ChunkJob

/-- `idx` 番の chunk。末尾の chunk は短い。 -/
def start (bytes chunk idx : Nat) : ChunkJob where
  off := idx * chunk
  len := min chunk (bytes - idx * chunk)
  state := .ready

def finish (j : ChunkJob) (r : Result Unit) : ChunkJob := { j with state := .ended r }

/-- `copy_chunk` の一歩。 -/
def copy (f : Fault) (j : ChunkJob) (w : CloneWorld) : ChunkJob × CloneWorld :=
  match j.state, f with
  | .ended _, _ => (j, w)
  | .ready, some (_, e) => (j.finish (.error e), w)
  | .ready, none =>
    match w.source.readExact j.off j.len with
    | .error e => (j.finish (.error e), w)
    | .ok b => ({ j with state := .holding b }, w)
  | .holding b, some (k, e) =>
    match w.target.writeExact j.off (b.take k) with
    | .error _ => (j.finish (.error e), w)
    | .ok t => (j.finish (.error e), { w with target := t })
  | .holding b, none =>
    match w.target.writeExact j.off b with
    | .error e => (j.finish (.error e), w)
    | .ok t => (j.finish (.ok ()), { w with target := t })

/-- `verify_chunk` の一歩。 -/
def verify (f : Fault) (j : ChunkJob) (w : CloneWorld) : ChunkJob × CloneWorld :=
  match j.state, f with
  | .ended _, _ => (j, w)
  | .ready, some (_, e) => (j.finish (.error e), w)
  | .ready, none =>
    match w.source.readExact j.off j.len with
    | .error e => (j.finish (.error e), w)
    | .ok a => ({ j with state := .holding a }, w)
  | .holding _, some (_, e) => (j.finish (.error e), w)
  | .holding a, none =>
    match w.target.readExact j.off j.len with
    | .error e => (j.finish (.error e), w)
    | .ok b =>
      if a = b then (j.finish (.ok ()), w)
      else (j.finish (.error { code := .corrupt
                               message := "clone verification mismatch at byte " ++ toString j.off }), w)

/-- 終わるまでの歩数。 -/
def remaining (j : ChunkJob) : Nat :=
  match j.state with
  | .ended _ => 0
  | .holding _ => 1
  | .ready => 2

end ChunkJob

/-! ## batch -/

/-- 複写と検証の違い。 -/
structure Phase where
  advance : Fault → ChunkJob → CloneWorld → ChunkJob × CloneWorld
  /-- `next` 番の chunk から始まる batch の前の中断要求 -/
  cancelled : Nat → Bool
  message : String
  /-- `next` 番の chunk から始まる batch の予定 -/
  schedule : Nat → List (Nat × Fault)

/-- 予定の後に、残った仕事を順に終わらせる予定。 -/
def drain (n : Nat) : List (Nat × Fault) :=
  (List.range n).flatMap fun i => List.replicate 2 (i, none)

/-- `future::get` を順に呼ぶ。最初の失敗を返す。 -/
def gather : List ChunkJob → Result Unit
  | [] => .ok ()
  | j :: rest =>
    match j.state with
    | .ended (.error e) => .error e
    | .ended (.ok _) => gather rest
    | _ => .error { code := .internal, message := "clone job has not ended" }

/-- batch を予定のとおりに進める。 -/
def runBatch (ph : Phase) (sched : List (Nat × Fault)) (jobs : List ChunkJob) :
    Proc CloneWorld Unit := fun w =>
  let p := interleave ph.advance (sched ++ drain jobs.length) jobs w
  (gather p.1, p.2)

/-- batch のループ。進んだ byte 数を返す。 -/
def batchLoop (ph : Phase) (workers bytes chunk chunks : Nat) : Nat → Nat → Nat →
    Proc CloneWorld Nat
  | 0, _, done => pure done
  | fuel + 1, next, done => do
    if next < chunks then
      if ph.cancelled next then throw { code := .unsafeErr, message := ph.message }
      let n := min workers (chunks - next)
      let jobs := (List.range' next n).map (ChunkJob.start bytes chunk)
      runBatch ph (ph.schedule next) jobs
      batchLoop ph workers bytes chunk chunks fuel (next + n)
        ((jobs.map ChunkJob.len).foldl (· + ·) done)
    else pure done

/-! ## 複写 -/

/-- 複写への host の答え。 -/
structure CloneHost where
  /-- `require_nonoverlapping_devices` -/
  disjoint : Result Unit
  /-- `inspect_device_safety(source)` が使用中とみなすか -/
  sourceActive : Result Bool
  /-- `require_offline_for_write(target)` -/
  offline : Result Unit
  /-- `profile_device(target)` の `tuning` -/
  profile : Result CloneTuning
  copyCancelled : Nat → Bool
  copySchedule : Nat → List (Nat × Fault)
  verifyCancelled : Nat → Bool
  verifySchedule : Nat → List (Nat × Fault)

def CloneHost.copyPhase (host : CloneHost) : Phase where
  advance := ChunkJob.copy
  cancelled := host.copyCancelled
  message := "clone cancelled; target contains a partial clone"
  schedule := host.copySchedule

def CloneHost.verifyPhase (host : CloneHost) : Phase where
  advance := ChunkJob.verify
  cancelled := host.verifyCancelled
  message := "clone verification cancelled"
  schedule := host.verifySchedule

/-- chunk の大きさ。決まった範囲に収めてから、揃えの倍数に切り下げる。 -/
def chunkSize (requested large sourceSector targetSector : Nat) : Nat :=
  let chunk := if requested ≠ 0 then requested else large
  let chunk := max (256 * 1024) (min chunk (64 * 1024 * 1024))
  let align := max 1 (max sourceSector targetSector)
  let chunk := chunk - chunk % align
  if chunk = 0 then align else chunk

/-- 複写の前の検査。 -/
def checkClone (host : CloneHost) (opts : CloneOptions) (w : CloneWorld) : Result CloneTuning := do
  host.disjoint
  if w.source.sizeBytes = 0 then
    throw { code := .invalidArgument, message := "source device has zero size" }
  if w.source.isBlockDevice ∧ opts.allowLiveSource = false then
    let active ← host.sourceActive
    if active then
      throw { code := .unsafeErr
              message := "clone source is active; use --allow-live-source only if a crash-consistent live clone is acceptable" }
  if w.target.sizeBytes < w.source.sizeBytes then
    throw { code := .unsafeErr, message := "clone target is smaller than source" }
  if w.target.isBlockDevice ∧ opts.allowBlockDevice = false then
    throw { code := .unsafeErr, message := "clone to block device requires --allow-block-device" }
  host.offline
  host.profile

/-- 複写先を flush する。 -/
def flushTarget : Proc CloneWorld Unit := Proc.stepping fun w => do
  let t ← w.target.flush
  return { w with target := t }

/-- `clone_device`。大きさの和は 64 bit に収まる。 -/
def cloneDevice (host : CloneHost) (opts : CloneOptions) : Proc CloneWorld CloneReport := do
  let tuning ← Proc.reading (checkClone host opts)
  let w ← get
  let chunk := chunkSize opts.chunkBytes tuning.largeIoBytes w.source.logicalSector
    w.target.logicalSector
  let workers := max 1 tuning.workers
  let bytes := w.source.sizeBytes
  let chunks := (bytes + chunk - 1) / chunk
  let copied ← batchLoop host.copyPhase workers bytes chunk chunks chunks 0 0
  flushTarget
  if opts.verifyAfter then
    let checked ← batchLoop host.verifyPhase workers bytes chunk chunks chunks 0 0
    return { bytesCopied := copied, bytesVerified := checked, chunks, verified := true }
  else return { bytesCopied := copied, chunks }

end Fsx.Clone
