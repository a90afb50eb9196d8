import Fsx.Core.Bytes
import Fsx.Core.Durable
import Fsx.Core.Hoare

/-!
# 一時 file を作って公開する（`src/core/file_util.cpp`）

`publish_file_noreplace` と、それを使う四つの作り手（`image::create`・`TransactionJournal::create`・
`gpt::backup_metadata`・`mbr::resize_partition`）に共通の段取り。作り手は一時 file に書いて fsync し、
名前を付け替えて公開する。失敗すれば一時の名前を消す。

名前の表も file の内容も、同期するまで残るとは限らない（`Fsx/Core/Durable.lean`）。
system call の前には、他の process の操作が入りうる。
-/

namespace Fsx.Publish

/-! ## 名前と内容 -/

/-- file への操作。 -/
inductive FileOp where
  | truncate (size : Nat)
  | write (off : Nat) (bytes : Bytes)
  deriving DecidableEq

/-- 足りない分を零で伸ばす。 -/
def extend (b : Bytes) (size : Nat) : Bytes := b ++ zeros (size - b.length)

def FileOp.apply (b : Bytes) : FileOp → Bytes
  | .truncate size => extend (b.take size) size
  | .write off bytes => patch (extend b (off + bytes.length)) off bytes

/-- 途中で失敗した書き込みが残すもの。 -/
def FileOp.part (moved : Nat) : FileOp → List FileOp
  | .truncate _ => []
  | .write off bytes => [.write off (bytes.take moved)]

/-- kernel から見える、名前の表と file の内容。 -/
structure Vfs where
  dir : String → Option Nat
  files : Nat → Bytes

/-- `link` と `rename` は、行き先の名前が空いているときだけ働く（`RENAME_NOREPLACE`）。 -/
inductive FsOp where
  | link (name : String) (ino : Nat)
  | unlink (name : String)
  | rename (old new : String) (ino : Nat)
  | data (ino : Nat) (o : FileOp)

/-- 操作の属する領域。名前の表は `none`、file の内容は `some` である。 -/
def FsOp.domain : FsOp → Option Nat
  | .link _ _ | .unlink _ | .rename _ _ _ => none
  | .data ino _ => some ino

def dirApply (dir : String → Option Nat) : FsOp → String → Option Nat
  | .link name ino => if dir name = none then Function.update dir name (some ino) else dir
  | .unlink name => Function.update dir name none
  | .rename old new ino =>
    if dir new = none then Function.update (Function.update dir old none) new (some ino) else dir
  | .data _ _ => dir

def Vfs.apply (v : Vfs) (o : FsOp) : Vfs where
  dir := dirApply v.dir o
  files := match o with
    | .data ino o => Function.update v.files ino (o.apply (v.files ino))
    | _ => v.files

abbrev FsEvent := DurableEvent FsOp (Option Nat)

/-! ## system call -/

def EEXIST : Nat := 17

/-- system call の一回について外から決まること。 -/
structure Turn where
  /-- 先に済んでいる、他の process の操作 -/
  others : List FsEvent := []
  /-- 呼び出しの失敗 -/
  fails : Option Errno := none
  /-- 作り手がここで止まる理由（書き込みや読み出しの失敗、取り消し、fault） -/
  stops : Option Error := none
  /-- 失敗した書き込みが残した byte の数 -/
  moved : Nat := 0

/-- 何番目の呼び出しかによって決まる外界。 -/
abbrev Host := Nat → Turn

structure Fs where
  now : Vfs
  trace : List FsEvent
  calls : Nat

abbrev FsM := Proc Fs

/-- 操作を施し、記録する。 -/
def Fs.emit (w : Fs) (es : List FsEvent) : Fs :=
  { w with now := (DurableEvent.ops es).foldl Vfs.apply w.now, trace := w.trace ++ es }

/-- 呼び出しに入るところ。 -/
def Fs.enter (w : Fs) (host : Host) : Fs :=
  { w.emit (host w.calls).others with calls := w.calls + 1 }

/-- system call。失敗すれば `errno` を返す。 -/
def attempt (host : Host) (act : Vfs → Except Errno (List FsEvent)) : FsM (Option Errno) := fun w =>
  match (host w.calls).fails with
  | some e => (.ok (some e), w.enter host)
  | none =>
    match act (w.enter host).now with
    | .error e => (.ok (some e), w.enter host)
    | .ok es => (.ok none, (w.enter host).emit es)

/-- 失敗を `Error` にする。 -/
def orFail (e : Errno → Error) (p : FsM (Option Errno)) : FsM Unit := do
  match ← p with
  | none => return
  | some err => throw (e err)

def creat (temp : String) (ino : Nat) (v : Vfs) : Except Errno (List FsEvent) :=
  if v.dir temp = none then .ok [.op (.link temp ino)] else .error ⟨EEXIST, "File exists"⟩

def renameat2 (temp final : String) (v : Vfs) : Except Errno (List FsEvent) :=
  match v.dir temp with
  | none => .error ⟨2, "No such file or directory"⟩
  | some ino =>
    if v.dir final = none then .ok [.op (.rename temp final ino)] else .error ⟨EEXIST, "File exists"⟩

def linkat (temp final : String) (v : Vfs) : Except Errno (List FsEvent) :=
  match v.dir temp with
  | none => .error ⟨2, "No such file or directory"⟩
  | some ino =>
    if v.dir final = none then .ok [.op (.link final ino)] else .error ⟨EEXIST, "File exists"⟩

def unlinkat (name : String) (v : Vfs) : Except Errno (List FsEvent) :=
  match v.dir name with
  | none => .error ⟨2, "No such file or directory"⟩
  | some _ => .ok [.op (.unlink name)]

/-! ## 公開 -/

/-- `no_replace_unavailable`。`ENOSYS`・`EINVAL`・`EOPNOTSUPP`（`ENOTSUP`）。 -/
def noReplaceUnavailable (e : Errno) : Bool := decide (e.code = 38 ∨ e.code = 22 ∨ e.code = 95)

def refuseExisting (objectName : String) : Error :=
  { code := .unsafeErr, message := "refusing to overwrite existing " ++ objectName }

/-- `fsync_parent_directory`。 -/
def fsyncParentDirectory (host : Host) (objectName : String) : FsM Unit := do
  orFail (fromErrno .openFailed ("cannot open " ++ objectName ++ " parent directory: "))
    (attempt host fun _ => .ok [])
  orFail (fromErrno .flushFailed ("cannot fsync " ++ objectName ++ " parent directory: "))
    (attempt host fun _ => .ok [.sync none])

/-- `publish_with_link`。 -/
def publishWithLink (host : Host) (temp final objectName : String) : FsM Unit := do
  orFail (fun e => if e.code = EEXIST then refuseExisting objectName
      else fromErrno .writeFailed ("cannot publish " ++ objectName ++ " without replacement: ") e)
    (attempt host (linkat temp final))
  fsyncParentDirectory host objectName
  orFail (fromErrno .writeFailed
      (objectName ++ " was published but its temporary link could not be removed: "))
    (attempt host (unlinkat temp))
  fsyncParentDirectory host objectName

/-- `publish_file_noreplace`。`native` は `renameat2` のある platform である。 -/
def publishFileNoreplace (host : Host) (native : Bool) (temp final objectName : String) :
    FsM Unit := do
  if native = false then publishWithLink host temp final objectName
  else
    match ← attempt host (renameat2 temp final) with
    | none => fsyncParentDirectory host objectName
    | some e =>
      if e.code = EEXIST then throw (refuseExisting objectName)
      else if noReplaceUnavailable e = false then
        throw (fromErrno .writeFailed ("cannot atomically publish " ++ objectName ++ ": ") e)
      else publishWithLink host temp final objectName

/-! ## 作り手 -/

/-- 四つの作り手の違い。 -/
structure Producer where
  objectName : String
  /-- `Cleanup` が一時 file を作る前に置かれているか -/
  earlyCleanup : Bool
  /-- 一時 file を作れなかったとき -/
  createError : Errno → Error
  /-- 一時 file を fsync できなかったとき -/
  flushError : Errno → Error
  /-- 一時 file への操作 -/
  fileOps : List FileOp

/-- 書き終えた file の内容。 -/
def Producer.contents (p : Producer) : Bytes := p.fileOps.foldl FileOp.apply []

/-- 一時 file への操作の一つ。失敗した書き込みは、途中まで残る。 -/
def fillStep (host : Host) (ino : Nat) (o : FileOp) : FsM Unit := fun w =>
  match (host w.calls).stops with
  | some e =>
    (.error e, (w.enter host).emit ((o.part (host w.calls).moved).map fun q => .op (.data ino q)))
  | none => (.ok (), (w.enter host).emit [.op (.data ino o)])

/-- 一時 file を埋める。どこで止まることもある。 -/
def fill (host : Host) (ino : Nat) : List FileOp → FsM Unit
  | [] => pure ()
  | o :: os => do
    fillStep host ino o
    fill host ino os

/-- fault の検査点。 -/
def faultPoint (host : Host) : FsM Unit := fun w =>
  match (host w.calls).stops with
  | some e => (.error e, w.enter host)
  | none => (.ok (), w.enter host)

/-- `Cleanup`。失敗すれば一時の名前を消す。 -/
def cleaning (host : Host) (temp : String) (p : FsM Unit) : FsM Unit := fun w =>
  match Proc.run p w with
  | (.ok _, w') => (.ok (), w')
  | (.error e, w') => (.error e, (Proc.run (attempt host (unlinkat temp)) w').2)

/-- 埋めて、fsync して、公開する。 -/
def produceNamed (host : Host) (native : Bool) (p : Producer) (temp final : String) (ino : Nat) :
    FsM Unit := do
  fill host ino p.fileOps
  faultPoint host
  orFail p.flushError (attempt host fun _ => .ok [.sync (some ino)])
  faultPoint host
  publishFileNoreplace host native temp final p.objectName

/-- 一時 file を作って公開する段取り。 -/
def produce (host : Host) (native : Bool) (p : Producer) (temp final : String) (ino : Nat) :
    FsM Unit :=
  if p.earlyCleanup then
    cleaning host temp do
      orFail p.createError (attempt host (creat temp ino))
      produceNamed host native p temp final ino
  else do
    orFail p.createError (attempt host (creat temp ino))
    cleaning host temp (produceNamed host native p temp final ino)

end Fsx.Publish
