import Fsx.Ext4.Plan
import Fsx.Journal.Crash

/-!
# engine の世界

移動の engine が触るのは、filesystem のある device と、transaction journal の file の二つである。
どちらへの操作も起きた順に `trace` に残し、crash はその途中で止まった世界として定める。

journal は `open` したときの見え方で表す。append と checkpoint が媒体の上で壊れずに進むことは
`Fsx/Journal/Crash.lean` にある。ここではその結果（`JournalOp.result` と `JournalOp.states`）を使い、
媒体の journal との対応を `journalOp_refines` で示す。
-/

namespace Fsx.Ext4

/-- path にある journal。`capacity` は置ける record の数である。 -/
structure JournalFile where
  view : JournalView
  capacity : Nat
  deriving DecidableEq

/-- 世界に起きたこと。 -/
inductive WorldEvent where
  | dev (e : Event)
  | journal (j : JournalFile)
  deriving DecidableEq

structure World where
  disk : Disk
  journal : Option JournalFile
  trace : List WorldEvent

abbrev EngineM := Proc World

/-! ## 世界への操作 -/

namespace Engine

/-- device を読むだけの計算。 -/
def device {α : Type} (f : Disk → Result α) : EngineM α := Proc.reading fun w => f w.disk

/-- device に書く。 -/
def write (off : Nat) (bytes : Bytes) : EngineM Unit := Proc.stepping fun w => do
  let disk ← w.disk.writeExact off bytes
  return { w with disk, trace := w.trace ++ [.dev (.write ⟨off, bytes⟩)] }

/-- device を flush する。 -/
def flush : EngineM Unit := Proc.stepping fun w => do
  let disk ← w.disk.flush
  return { w with disk, trace := w.trace ++ [.dev .flush] }

/-- 失敗したら `h` を走らせ、その結果によらずもとの失敗を返す。 -/
def onError {α : Type} (p : EngineM α) (h : EngineM Unit) : EngineM α := fun w =>
  match Proc.run p w with
  | (.ok a, w') => (.ok a, w')
  | (.error e, w') => (.error e, (Proc.run h w').2)

/-- 開いた journal。file がなければ `missing` を返す。 -/
def journal (missing : Error) : EngineM JournalFile := Proc.reading fun w =>
  match w.journal with
  | some j => .ok j
  | none => .error missing

end Engine

/-- 操作が要る record の数。 -/
def journalCost : JournalOp → Nat
  | .appendBatch rs => rs.length
  | .checkpoint _ => 1

/-- journal への操作。 -/
def JournalFile.step (j : JournalFile) (op : JournalOp) : Result JournalFile :=
  if journalCost op ≠ 0 ∧ j.capacity < j.view.records.length + journalCost op then
    .error { code := .io, message := "journal is full" }
  else .ok { j with view := op.result j.view }

namespace Engine

/-- journal への操作。途中の状態も順に `trace` に残す。 -/
def journalOp (op : JournalOp) : EngineM Unit := Proc.stepping fun w =>
  match w.journal with
  | none => .error { code := .permission, message := "journal is read-only" }
  | some j => do
    let j' ← j.step op
    return { w with
      journal := some j'
      trace := w.trace ++ (op.states j.view).map fun v => .journal { j with view := v } }

/-- `append`。 -/
def append (r : JournalRecord) : EngineM Unit := journalOp (.appendBatch [r])

/-- `append_batch`。 -/
def appendBatch (rs : List JournalRecord) : EngineM Unit := journalOp (.appendBatch rs)

/-- `checkpoint`。 -/
def checkpoint (phase : OperationPhase) : EngineM Unit := journalOp (.checkpoint phase)

end Engine

/-! ## 操作の結果 -/

section Run

open Engine

/-- device に起きたことを足した世界。 -/
def World.emit (w : World) (es : List Event) : World :=
  { w with disk := w.disk.emit es, trace := w.trace ++ es.map .dev }

@[simp] theorem World.emit_disk (w : World) (es : List Event) :
    (w.emit es).disk = w.disk.emit es := rfl
@[simp] theorem World.emit_journal (w : World) (es : List Event) :
    (w.emit es).journal = w.journal := rfl
@[simp] theorem World.emit_trace (w : World) (es : List Event) :
    (w.emit es).trace = w.trace ++ es.map .dev := rfl

@[simp] theorem World.emit_nil (w : World) : w.emit [] = w := by
  unfold World.emit
  rw [Disk.emit_nil, List.map_nil, List.append_nil]

theorem World.emit_emit (w : World) (es fs : List Event) : (w.emit es).emit fs = w.emit (es ++ fs) := by
  unfold World.emit
  simp only [Disk.emit_emit, List.map_append, List.append_assoc]

theorem run_device_bind {α β : Type} {f : Disk → Result α} {k : α → EngineM β} {w : World} {a : α}
    (h : f w.disk = .ok a) : Proc.run (device f >>= k) w = Proc.run (k a) w :=
  Proc.run_bind_ok (Proc.run_reading _ w |>.trans (by rw [h]))

/-- device を読んで進んだなら、読み出しは成功している。 -/
theorem run_device_bind_eq_ok {α β : Type} {f : Disk → Result α} {k : α → EngineM β} {w v : World}
    {b : β} (h : Proc.run (device f >>= k) w = (.ok b, v)) :
    ∃ a, f w.disk = .ok a ∧ Proc.run (k a) w = (.ok b, v) := by
  obtain ⟨a, w', hf, hk⟩ := Proc.run_bind_eq_ok h
  obtain ⟨hok, rfl⟩ := Prod.mk.inj hf
  exact ⟨a, hok, hk⟩

theorem run_write_ok {w : World} {off : Nat} {bytes : Bytes} (hw : w.disk.writable = true)
    (h : off + bytes.length ≤ w.disk.sizeBytes) :
    Proc.run (write off bytes) w = (.ok (), w.emit [.write ⟨off, bytes⟩]) := by
  refine Proc.run_stepping_ok ?_
  rw [Disk.writeExact_ok hw h]
  rfl

/-- 書き込みは、失敗して何も変えないか、範囲に収まって一つ書く。 -/
theorem run_write_cases (w : World) (off : Nat) (bytes : Bytes) :
    (∃ e, Proc.run (write off bytes) w = (.error e, w)) ∨
      off + bytes.length ≤ w.disk.sizeBytes ∧
        Proc.run (write off bytes) w = (.ok (), w.emit [.write ⟨off, bytes⟩]) := by
  cases h : w.disk.writeExact off bytes with
  | error e =>
    refine Or.inl ⟨e, Proc.run_stepping_error ?_⟩
    rw [h]
    rfl
  | ok d =>
    obtain ⟨hw, hs, -⟩ := Disk.writeExact_eq_ok_iff.mp h
    exact Or.inr ⟨hs, run_write_ok hw hs⟩

theorem run_flush (w : World) : Proc.run flush w = (.ok (), w.emit [.flush]) :=
  Proc.run_stepping_ok rfl

theorem run_write_readonly {w : World} {off : Nat} {bytes : Bytes} (hw : w.disk.writable = false) :
    ∃ e, Proc.run (write off bytes) w = (.error e, w) := by
  refine ⟨{ code := .permission, message := "device is read-only" }, Proc.run_stepping_error ?_⟩
  unfold Disk.writeExact
  rw [if_pos hw]
  rfl

theorem run_journalOp_ok {w : World} {j j' : JournalFile} {op : JournalOp} (hj : w.journal = some j)
    (h : j.step op = .ok j') : Proc.run (journalOp op) w = (.ok (), { w with
      journal := some j'
      trace := w.trace ++ (op.states j.view).map fun v => .journal { j with view := v } }) := by
  refine Proc.run_stepping_ok ?_
  rw [hj]
  dsimp only
  rw [h]
  rfl

end Run

/-! ## crash -/

/-- device への操作だけを取り出す。 -/
def devEvents : List WorldEvent → List Event
  | [] => []
  | .dev e :: es => e :: devEvents es
  | .journal _ :: es => devEvents es

/-- 最後に path にあった journal。 -/
def lastJournal (j : Option JournalFile) : List WorldEvent → Option JournalFile
  | [] => j
  | .dev _ :: es => lastJournal j es
  | .journal j' :: es => lastJournal (some j') es

/-- device の像が `img`、journal が `j` の世界で開き直す。 -/
def World.reboot (w : World) (img : Image) (j : Option JournalFile) : World :=
  { disk := w.disk.reboot img, journal := j, trace := [] }

/--
`boot` で始まった世界が `trace` の途中で止まった後の世界。

最後に完了した flush より前の書き込みはすべて残り、後の書き込みは一つずつ、残るか残らないかである。
journal は、止まる前に書き終えた状態になる。
-/
def CrashWorld (boot : World) (trace : List WorldEvent) (w : World) : Prop :=
  ∃ pre, pre <+: trace ∧ ∃ img,
    Settle (Atomic (crashEnd boot.disk.data [] (devEvents pre)).1)
      (crashEnd boot.disk.data [] (devEvents pre)).1
      (crashEnd boot.disk.data [] (devEvents pre)).2 img ∧
    w = boot.reboot img (lastJournal boot.journal pre)

/-- `pre` の書き込みがすべて残った世界。 -/
def World.stoppedAt (boot : World) (pre : List WorldEvent) : World :=
  boot.reboot (replay boot.disk.data (devEvents pre)) (lastJournal boot.journal pre)

theorem devEvents_append (es fs : List WorldEvent) :
    devEvents (es ++ fs) = devEvents es ++ devEvents fs := by
  induction es with
  | nil => rfl
  | cons e es ih =>
    cases e with
    | dev e => rw [List.cons_append, devEvents, devEvents, ih, List.cons_append]
    | journal j => rw [List.cons_append, devEvents, devEvents, ih]

/-- 止まった時点までの像は、耐久な像に未 flush の書き込みを施したものである。 -/
theorem applyAll_crashEnd : ∀ (es : List Event) (base : Image) (pend : List Write),
    (crashEnd base pend es).1.applyAll (crashEnd base pend es).2 =
      replay (base.applyAll pend) es
  | [], _, _ => rfl
  | .write w :: es, base, pend => by
    rw [crashEnd, applyAll_crashEnd es, Image.applyAll_append]
    rfl
  | .flush :: es, base, pend => by
    rw [crashEnd, applyAll_crashEnd es]
    rfl

/-- 書き込みがすべて残るのも、止まり方の一つである。 -/
theorem crashWorld_stoppedAt {boot : World} {pre trace : List WorldEvent} (h : pre <+: trace) :
    CrashWorld boot trace (boot.stoppedAt pre) := by
  refine ⟨pre, h, _, Settle.keepAll _ _ _, ?_⟩
  rw [applyAll_crashEnd]
  rfl

/-! ## 媒体の journal との対応 -/

open TransactionJournal in
/--
**engine の journal は媒体の journal を写している。**
`v` を見せる journal への操作は、`JournalFile.step` と同じときに同じ失敗を返し、
成功すれば同じ見え方になり、途中で止まれば `trace` に残した状態のどれかが開き直したときに見える。
-/
theorem journalFile_step_refines {j : TransactionJournal} {f : JournalFile} (hl : Live j f.view)
    (hcap : capacityRecords j.device.sizeBytes = f.capacity) (op : JournalOp) :
    (∀ e, f.step op = .error e → Proc.run op.run j = (.error e, j)) ∧
    ∀ f', f.step op = .ok f' → ∃ j', Proc.run op.run j = (.ok (), j') ∧ Live j' f'.view ∧
      ∀ img, CrashImage SpareTorn j.device.data (op.events j) img →
        ∃ v' ∈ f.view :: op.states f.view, JournalState.Keeps (j.device.reboot img) v' := by
  obtain ⟨s, hst⟩ := hl.stored
  have hcount : j.status.recordCount.toNat = f.view.records.length := hst.count
  have hfull : ∀ e, f.step op = .error e → Proc.run op.run j = (.error e, j) := by
    intro e he
    unfold JournalFile.step at he
    split at he
    · next h =>
      cases he
      rw [← hcap, ← hcount] at h
      cases op with
      | appendBatch rs =>
        refine run_appendBatch_full ?_ hl.writable h.2
        rintro rfl
        exact h.1 rfl
      | checkpoint phase => exact run_checkpoint_full hl.writable h.2
    · cases he
  refine ⟨hfull, fun f' hf' => ?_⟩
  have hok : f'.view = op.result f.view ∧
      ¬ (journalCost op ≠ 0 ∧ f.capacity < f.view.records.length + journalCost op) := by
    unfold JournalFile.step at hf'
    split at hf'
    · cases hf'
    · next h => cases hf'; exact ⟨rfl, h⟩
  obtain ⟨e, he⟩ | ⟨j', hrun, hlive, hcrash⟩ := JournalState.op_cases hl op
  · -- 収まる操作は失敗しない
    exfalso
    rw [← hcap, ← hcount] at hok
    cases op with
    | appendBatch rs =>
      by_cases hne : rs = []
      · subst hne
        have : Proc.run (TransactionJournal.appendBatch []) j = (.error e, j) := he
        rw [run_appendBatch_nil hl.writable] at this
        cases this
      · have hfit : j.status.recordCount.toNat + rs.length ≤ capacityRecords j.device.sizeBytes := by
          have hlen : rs.length ≠ 0 := fun h => hne (List.length_eq_zero_iff.mp h)
          exact Nat.not_lt.mp fun hlt => hok.2 ⟨hlen, hlt⟩
        have hr := run_appendBatch hne hl.writable hl.device_writable hst.held.room hfit
        have : Proc.run (TransactionJournal.appendBatch rs) j = (.error e, j) := he
        rw [hr] at this
        cases this
    | checkpoint phase =>
      have hfit : j.status.recordCount.toNat + 1 ≤ capacityRecords j.device.sizeBytes :=
        Nat.not_lt.mp fun hlt => hok.2 ⟨Nat.one_ne_zero, hlt⟩
      have hr := @run_checkpoint j phase hl.writable hl.device_writable hst.held.room hfit
      have : Proc.run (TransactionJournal.checkpoint phase) j = (.error e, j) := he
      rw [hr] at this
      cases this
  · rw [hok.1]
    exact ⟨j', hrun, hlive, hcrash⟩

end Fsx.Ext4
