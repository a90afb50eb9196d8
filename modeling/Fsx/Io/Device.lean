import Mathlib.Logic.Function.Basic
import Fsx.Core.Transfer
import Fsx.Io.Disk

/-!
# device の呼び出しと fault（`src/io/device.cpp`・`src/core/fault.cpp`）

`BlockDevice::read_exact`・`write_exact`・`flush` の本体。kernel の返事を一つずつ受け取り、
足りなければ残りを頼み直す。前後には fault の検査点がある。

返事は外から与える。返事が尽きれば `blocked` で、まだ返っていない。
-/

namespace Fsx

/-! ## fault -/

namespace Fault

inductive Operation where
  | read | write | flush
  deriving DecidableEq

inductive Timing where
  | before | after
  deriving DecidableEq

inductive Action where
  | returnError | terminateProcess
  deriving DecidableEq

structure Rule where
  operation : Operation := .write
  timing : Timing := .before
  hit : UInt64 := 1
  oneShot : Bool := true
  action : Action := .returnError

structure State where
  rule : Rule := {}
  active : Bool := false
  counts : Operation → UInt64 := fun _ => 0

/-- `install`。 -/
def install (rule : Rule) : State where
  rule := if rule.hit = 0 then { rule with hit := 1 } else rule
  active := true

def Operation.name : Operation → String
  | .read => "read"
  | .write => "write"
  | .flush => "flush"

def Timing.name : Timing → String
  | .before => "before"
  | .after => "after"

inductive Verdict where
  | pass
  | fails (e : Error)
  | exits (status : Nat)

def injected (operation : Operation) (timing : Timing) (n : UInt64) : Error where
  code := .io
  message := "fault injection: " ++ operation.name ++ " " ++ timing.name ++ " operation " ++
    toString n.toNat

/-- `point`。 -/
def State.point (s : State) (operation : Operation) (timing : Timing) : Verdict × State :=
  if s.active = false then (.pass, s)
  else if s.rule.operation ≠ operation ∨ s.rule.timing ≠ timing then (.pass, s)
  else
    let n := s.counts operation + 1
    let counted := { s with counts := Function.update s.counts operation n }
    if n ≠ s.rule.hit then (.pass, counted)
    else
      let fired := if s.rule.oneShot then { counted with active := false } else counted
      match s.rule.action with
      | .terminateProcess => (.exits 200, fired)
      | .returnError => (.fails (injected operation timing n), fired)

end Fault

/-! ## device -/

structure BlockDevice where
  disk : Disk
  fault : Fault.State

/-- 呼び出しの終わり方のうち、値を返さないもの。 -/
inductive Halt where
  | error (e : Error)
  | exited (status : Nat)
  | blocked

abbrev DevIO := ExceptT Halt (StateM BlockDevice)

/-- 一回の呼び出しへの kernel の返事。 -/
structure Calls where
  turns : List (Attempt (List Write) Errno)
  fsync : Option Errno := none

/-- `std::numeric_limits<ssize_t>::max()`。 -/
def ssizeMax : Nat := 2 ^ 63 - 1

namespace BlockDevice

/-- 始めの device を与えて走らせる。 -/
def run {α : Type} (p : DevIO α) (d : BlockDevice) : Except Halt α × BlockDevice :=
  StateT.run (ExceptT.run p) d

/-- fault の検査点。 -/
def checkPoint (operation : Fault.Operation) (timing : Fault.Timing) : DevIO Unit := fun d =>
  if d.fault.active then
    match d.fault.point operation timing with
    | (.pass, f) => (.ok (), { d with fault := f })
    | (.fails e, f) => (.error (.error e), { d with fault := f })
    | (.exits status, f) => (.error (.exited status), { d with fault := f })
  else (.ok (), d)

/-- disk だけを読み書きする計算。 -/
def onDisk {α : Type} (body : Disk → Except Halt α × Disk) : DevIO α := fun d =>
  ((body d.disk).1, { d with disk := (body d.disk).2 })

/-- 前後に検査点のある呼び出し。 -/
def call {α : Type} (operation : Fault.Operation) (body : Disk → Except Halt α × Disk) :
    DevIO α := do
  checkPoint operation .before
  let a ← onDisk body
  checkPoint operation .after
  return a

/-- 転送の終わり方を、呼び出しの終わり方にする。 -/
def finish {σ α : Type} (t : Transferred σ Errno) (value : α) (short : Error)
    (failure : Errno → Error) : Except Halt α :=
  match t.ended with
  | .whole => .ok value
  | .waiting => .error .blocked
  | .empty => .error (.error short)
  | .failed e => .error (.error (failure e))

/-- `pread` の繰り返し。 -/
def preadAll (turns : List (Attempt (List Write) Errno)) (off len : Nat) (d : Disk) :
    Except Halt Bytes × Disk :=
  let t := transfer ssizeMax len
    (fun ws (s : Disk × Bytes) => (s.1.emit (ws.map .write), s.2))
    (fun done m s => (s.1, s.2 ++ s.1.data.read (off + done) m)) 0 turns (d, [])
  (finish t t.state.2
    { code := .shortIo, message := "unexpected end of device at byte " ++ toString (off + t.done) }
    (fromErrno .readFailed ("read failed at byte " ++ toString (off + t.done) ++ ": ")), t.state.1)

/-- `pwrite` の繰り返し。 -/
def pwriteAll (turns : List (Attempt (List Write) Errno)) (off : Nat) (bytes : Bytes) (d : Disk) :
    Except Halt Unit × Disk :=
  let t := transfer ssizeMax bytes.length
    (fun ws (s : Disk) => s.emit (ws.map .write))
    (fun done m s => s.emit [.write ⟨off + done, slice bytes done m⟩]) 0 turns d
  (finish t () { code := .shortIo, message := "short write" }
    (fromErrno .writeFailed ("write failed at byte " ++ toString (off + t.done) ++ ": ")), t.state)

/-- `fsync`。 -/
def fsyncAll (reply : Option Errno) (d : Disk) : Except Halt Unit × Disk :=
  match reply with
  | some e => (.error (.error (fromErrno .flushFailed "fsync failed: " e)), d)
  | none => (.ok (), d.emit [.flush])

def checkRead (off len : Nat) (d : Disk) : Result Unit :=
  if off > d.sizeBytes ∨ len > d.sizeBytes - off then
    .error { code := .shortIo, message := "read range exceeds device geometry" }
  else if off > offMax ∨ len > offMax - off then
    .error { code := .unsupported, message := "read range exceeds host off_t" }
  else .ok ()

def checkWrite (off len : Nat) (d : Disk) : Result Unit :=
  if d.writable = false then .error { code := .permission, message := "device is read-only" }
  else if off > d.sizeBytes ∨ len > d.sizeBytes - off then
    .error { code := .shortIo, message := "write range exceeds device geometry" }
  else if off > offMax ∨ len > offMax - off then
    .error { code := .unsupported, message := "write range exceeds host off_t" }
  else .ok ()

/-- 検査に通れば続ける。 -/
def checked {α : Type} (check : Disk → Result Unit) (body : Disk → Except Halt α × Disk)
    (d : Disk) : Except Halt α × Disk :=
  match check d with
  | .ok () => body d
  | .error e => (.error (.error e), d)

/-- `BlockDevice::read_exact`。 -/
def readExact (calls : Calls) (off len : Nat) : DevIO Bytes :=
  call .read (checked (checkRead off len) (preadAll calls.turns off len))

/-- `BlockDevice::write_exact`。 -/
def writeExact (calls : Calls) (off : Nat) (bytes : Bytes) : DevIO Unit :=
  call .write (checked (checkWrite off bytes.length) (pwriteAll calls.turns off bytes))

/-- `BlockDevice::flush`。 -/
def flush (calls : Calls) : DevIO Unit := call .flush (fsyncAll calls.fsync)

end BlockDevice

/-! ## device を使う手続き -/

/-- device を読み、書き、flush する手続き。呼び出しが失敗すれば、そこで終わる。 -/
inductive Prog (α : Type) where
  | ret (a : α)
  | fail (e : Error)
  | read (off len : Nat) (next : Bytes → Prog α)
  | write (off : Nat) (bytes : Bytes) (next : Prog α)
  | flush (next : Prog α)

namespace Prog

variable {α : Type}

/-- 一回で済む device での意味（`Fsx/Io/Disk.lean`）。 -/
def run : Prog α → DevM α
  | .ret a => pure a
  | .fail e => throw e
  | .read off len next => do
    let b ← DevM.read off len
    run (next b)
  | .write off bytes next => do
    DevM.write off bytes
    run next
  | .flush next => do
    DevM.flush
    run next

/-- kernel の返事を受け取る device での意味。`n` は何番目の呼び出しかである。 -/
def exec (host : Nat → Calls) : Prog α → Nat → DevIO α
  | .ret a, _ => pure a
  | .fail e, _ => throw (.error e)
  | .read off len next, n => do
    let b ← BlockDevice.readExact (host n) off len
    exec host (next b) (n + 1)
  | .write off bytes next, n => do
    BlockDevice.writeExact (host n) off bytes
    exec host next (n + 1)
  | .flush next, n => do
    BlockDevice.flush (host n)
    exec host next (n + 1)

section Steps

variable (host : Nat → Calls) (off len : Nat) (bytes : Bytes) (next : Prog α) (n : Nat)

theorem run_read (next : Bytes → Prog α) :
    run (.read off len next) = (DevM.read off len >>= fun b => run (next b)) := rfl

theorem run_write :
    run (.write off bytes next) = (DevM.write off bytes >>= fun _ => run next) := rfl

theorem run_flush : run (.flush next) = (DevM.flush >>= fun _ => run next) := rfl

theorem exec_read (next : Bytes → Prog α) :
    exec host (.read off len next) n =
      (BlockDevice.readExact (host n) off len >>= fun b => exec host (next b) (n + 1)) := rfl

theorem exec_write :
    exec host (.write off bytes next) n =
      (BlockDevice.writeExact (host n) off bytes >>= fun _ => exec host next (n + 1)) := rfl

theorem exec_flush :
    exec host (.flush next) n =
      (BlockDevice.flush (host n) >>= fun _ => exec host next (n + 1)) := rfl

end Steps

end Prog

end Fsx
