import Mathlib.Data.List.Induction
import Mathlib.Logic.Function.Basic
import Fsx.Journal.Stored

/-!
# journal の意味の検査（`src/transaction/validate.cpp`）

record を順に読み、transaction ごとの進み具合が順序どおりかを調べる。
`error` が一つでもあれば clean でない。警告は clean を妨げない。

`unordered_map` は、番号から進み具合への関数と、現れた番号の列で表す。
-/

namespace Fsx

/-- `journal_record_type_name`。 -/
def JournalRecordType.name : JournalRecordType → String
  | .relocationIntent => "relocation_intent"
  | .copyVerified => "copy_verified"
  | .metadataCommitted => "metadata_committed"
  | .checkpoint => "checkpoint"
  | .note => "note"
  | .destinationReserved => "destination_reserved"
  | .ownerSwitched => "owner_switched"
  | .sourceReleased => "source_released"
  | .filesystemMarkedDirty => "filesystem_marked_dirty"
  | .filesystemMarkedClean => "filesystem_marked_clean"
  | .partitionIntent => "partition_intent"
  | .partitionCommitted => "partition_committed"

/-- transaction の進み具合。 -/
structure TxState where
  intent : Bool := false
  verified : Bool := false
  reserved : Bool := false
  switched : Bool := false
  released : Bool := false
  committed : Bool := false
  src : UInt64 := 0
  dst : UInt64 := 0
  blocks : UInt64 := 0
  inode : UInt64 := 0
  deriving DecidableEq

/-- `same_geometry`。 -/
def TxState.sameGeometry (s : TxState) (r : JournalRecord) : Bool :=
  decide (s.src = r.sourceBlock) && decide (s.dst = r.destinationBlock)
    && decide (s.blocks = r.blockCount) && decide (s.inode = r.inode)

structure JournalValidationReport where
  transactions : Nat := 0
  intents : Nat := 0
  copiesVerified : Nat := 0
  destinationsReserved : Nat := 0
  ownersSwitched : Nat := 0
  sourcesReleased : Nat := 0
  metadataCommitted : Nat := 0
  checkpoints : Nat := 0
  warnings : List String := []
  errors : List String := []
  deriving DecidableEq

/-- `clean`。`add_error` が呼ばれると偽になる。 -/
def JournalValidationReport.clean (r : JournalValidationReport) : Bool := r.errors.isEmpty

/-- 走査の途中。 -/
structure Validation where
  tx : UInt64 → TxState := fun _ => {}
  ids : List UInt64 := []
  filesystemDirty : Bool := false
  filesystemCleanSeen : Bool := false
  lastCheckpointPhase : UInt64 := 0
  report : JournalValidationReport := {}

namespace Validation

/-- `add_error`。 -/
def addError (v : Validation) (msg : String) : Validation :=
  { v with report := { v.report with errors := v.report.errors ++ [msg] } }

def addWarning (v : Validation) (msg : String) : Validation :=
  { v with report := { v.report with warnings := v.report.warnings ++ [msg] } }

/-- 条件が成り立つときだけ error を加える。 -/
def errorIf (v : Validation) (c : Bool) (msg : String) : Validation :=
  if c then v.addError msg else v

def warnIf (v : Validation) (c : Bool) (msg : String) : Validation :=
  if c then v.addWarning msg else v

/-- transaction の進み具合を置き換える。 -/
def setTx (v : Validation) (id : UInt64) (s : TxState) : Validation :=
  { v with tx := Function.update v.tx id s }

/-- `tx[id]` が番号を作ること。 -/
def touch (v : Validation) (id : UInt64) : Validation :=
  { v with ids := if id ∈ v.ids then v.ids else v.ids ++ [id] }

/-- 数え上げを一つ進める。 -/
def count (v : Validation) (f : JournalValidationReport → JournalValidationReport) : Validation :=
  { v with report := f v.report }

/-- `relocation_intent`。 -/
def stepIntent (v : Validation) (r : JournalRecord) : Validation :=
  let s := v.tx r.transactionId
  let v := v.count fun c => { c with intents := c.intents + 1 }
  if s.intent then
    if s.sameGeometry r then
      v.addWarning ("duplicate relocation intent for transaction " ++ toString r.transactionId)
    else v.addError "duplicate relocation intent changes transaction geometry"
  else
    let s' := { s with
      intent := true, src := r.sourceBlock, dst := r.destinationBlock, blocks := r.blockCount
      inode := r.inode }
    (v.setTx r.transactionId s').errorIf
      (decide (r.blockCount = 0) || decide (r.sourceBlock = r.destinationBlock))
      "relocation intent has invalid source/destination geometry"

/-- 意図の後に来る record。 -/
def stepProgress (v : Validation) (r : JournalRecord) : Validation :=
  let s := v.tx r.transactionId
  let id := toString r.transactionId
  match r.type with
  | .copyVerified =>
    let v := v.count fun c => { c with copiesVerified := c.copiesVerified + 1 }
    (v.warnIf s.verified ("duplicate verified-copy record for transaction " ++ id)).setTx
      r.transactionId { s with verified := true }
  | .destinationReserved =>
    let v := v.count fun c => { c with destinationsReserved := c.destinationsReserved + 1 }
    (v.warnIf (!s.verified)
      ("destination reserved before durable copy-verification record for transaction " ++ id)).setTx
      r.transactionId { s with reserved := true }
  | .ownerSwitched =>
    let v := v.count fun c => { c with ownersSwitched := c.ownersSwitched + 1 }
    (v.errorIf (!s.verified) ("owner switched before verified copy for transaction " ++ id)).setTx
      r.transactionId { s with switched := true }
  | .sourceReleased =>
    let v := v.count fun c => { c with sourcesReleased := c.sourcesReleased + 1 }
    (v.errorIf (!s.switched) ("source released before owner switch for transaction " ++ id)).setTx
      r.transactionId { s with released := true }
  | .metadataCommitted =>
    let v := v.count fun c => { c with metadataCommitted := c.metadataCommitted + 1 }
    let v := v.errorIf (!s.verified)
      ("metadata committed without verified copy for transaction " ++ id)
    -- 再開のときは切り替えと解放の記録が欠けうるので、欠けていても警告に留める
    let v := v.warnIf (!s.switched)
      ("metadata commit has no owner-switched record; on-disk reconciliation is required for transaction "
        ++ id)
    (v.warnIf (!s.released)
      ("metadata commit has no source-released record; on-disk reconciliation is required for transaction "
        ++ id)).setTx r.transactionId { s with committed := true }
  | _ => v

/-- 移動の record。 -/
def stepRelocation (v : Validation) (r : JournalRecord) : Validation :=
  if r.transactionId = 0 then v.addError (r.type.name ++ " record has transaction id 0")
  else
    let v := v.touch r.transactionId
    if r.type = .relocationIntent then v.stepIntent r
    else if (v.tx r.transactionId).intent = false then
      v.addError (r.type.name ++ " precedes relocation intent for transaction "
        ++ toString r.transactionId)
    else if (v.tx r.transactionId).sameGeometry r = false then
      v.addError (r.type.name ++ " changes relocation geometry for transaction "
        ++ toString r.transactionId)
    else v.stepProgress r

/-- record 一つ。 -/
def step (v : Validation) (r : JournalRecord) : Validation :=
  match r.type with
  | .checkpoint =>
    let v := v.count fun c => { c with checkpoints := c.checkpoints + 1 }
    if r.aux.toNat < OperationPhase.prepared.code ∨ r.aux.toNat > OperationPhase.compacted.code then
      v.addError "checkpoint contains an invalid phase value"
    else { v with lastCheckpointPhase := r.aux }
  | .filesystemMarkedDirty => { v with filesystemDirty := true, filesystemCleanSeen := false }
  | .filesystemMarkedClean =>
    { v.warnIf (!v.filesystemDirty)
        "filesystem-clean record appears without a preceding dirty record" with
      filesystemDirty := false, filesystemCleanSeen := true }
  | .partitionIntent => v
  | .partitionCommitted => v
  | .note => v
  | _ => v.stepRelocation r

/-- record の列を順に読む。 -/
def scan (records : List JournalRecord) : Validation := records.foldl step {}

/-- 読み終えた後の、transaction 一つ分の検査。 -/
def finishTx (v : Validation) (id : UInt64) : Validation :=
  let s := v.tx id
  if s.intent = false then v
  else
    (v.errorIf (s.committed && !s.verified)
      ("committed transaction " ++ toString id ++ " has no verified copy")).errorIf
      (s.released && !s.switched)
      ("transaction " ++ toString id ++ " released source without owner switch")

/-- 読み終えた後の検査。 -/
def finish (v : Validation) (phase : OperationPhase) : JournalValidationReport :=
  let v := v.count fun c => { c with transactions := v.ids.length }
  let v := v.ids.foldl finishTx v
  let v := v.warnIf (decide (v.lastCheckpointPhase ≠ 0)
      && decide (v.lastCheckpointPhase.toNat ≠ phase.code))
    "latest checkpoint record phase differs from authoritative journal header phase"
  let v := v.errorIf (decide (phase = .complete) && v.filesystemDirty)
    "journal is complete but last recorded filesystem state is dirty"
  (v.warnIf ((decide (phase = .complete) || decide (phase = .filesystemShrunk))
      && !v.filesystemCleanSeen)
    "terminal journal phase has no explicit filesystem-clean record").report

end Validation

/-- `validate_journal_semantics`。開けた journal の record はすべて読めている。 -/
def validateJournalSemantics (j : JournalView) : JournalValidationReport :=
  (Validation.scan j.records).finish j.phase

/-! ## error の出ない record -/

namespace Validation

/-- 移動の進みについての record が、意図と合っている。 -/
def Follows (v : Validation) (r : JournalRecord) : Prop :=
  r.transactionId ≠ 0 ∧ (v.tx r.transactionId).intent = true ∧
    (v.tx r.transactionId).sameGeometry r = true

/-- record が error を出さない条件。 -/
def Accepts (v : Validation) (r : JournalRecord) : Prop :=
  match r.type with
  | .checkpoint =>
    OperationPhase.prepared.code ≤ r.aux.toNat ∧ r.aux.toNat ≤ OperationPhase.compacted.code
  | .relocationIntent => r.transactionId ≠ 0 ∧
      if (v.tx r.transactionId).intent then (v.tx r.transactionId).sameGeometry r = true
      else r.blockCount ≠ 0 ∧ r.sourceBlock ≠ r.destinationBlock
  | .copyVerified => v.Follows r
  | .destinationReserved => v.Follows r
  | .ownerSwitched => v.Follows r ∧ (v.tx r.transactionId).verified = true
  | .sourceReleased => v.Follows r ∧ (v.tx r.transactionId).switched = true
  | .metadataCommitted => v.Follows r ∧ (v.tx r.transactionId).verified = true
  | _ => True

/-- record が進み具合に加えるもの。 -/
def advance (s : TxState) (r : JournalRecord) : TxState :=
  match r.type with
  | .relocationIntent =>
    if s.intent then s
    else { s with
      intent := true, src := r.sourceBlock, dst := r.destinationBlock, blocks := r.blockCount
      inode := r.inode }
  | .copyVerified => { s with verified := true }
  | .destinationReserved => { s with reserved := true }
  | .ownerSwitched => { s with switched := true }
  | .sourceReleased => { s with released := true }
  | .metadataCommitted => { s with committed := true }
  | _ => s

@[simp] theorem addError_errors_ne_nil (v : Validation) (msg : String) :
    (v.addError msg).report.errors ≠ [] := by
  simp [addError]

@[simp] theorem errorIf_errors_iff (v : Validation) (c : Bool) (msg : String) :
    (v.errorIf c msg).report.errors = [] ↔ v.report.errors = [] ∧ c = false := by
  unfold errorIf
  cases c with
  | false => simp
  | true => simp

@[simp] theorem warnIf_errors (v : Validation) (c : Bool) (msg : String) :
    (v.warnIf c msg).report.errors = v.report.errors := by
  unfold warnIf
  cases c <;> rfl

@[simp] theorem addWarning_errors (v : Validation) (msg : String) :
    (v.addWarning msg).report.errors = v.report.errors := rfl

@[simp] theorem setTx_report (v : Validation) (id : UInt64) (s : TxState) :
    (v.setTx id s).report = v.report := rfl

@[simp] theorem touch_report (v : Validation) (id : UInt64) : (v.touch id).report = v.report := rfl

@[simp] theorem touch_tx (v : Validation) (id : UInt64) : (v.touch id).tx = v.tx := rfl

@[simp] theorem count_tx (v : Validation) (f : JournalValidationReport → JournalValidationReport) :
    (v.count f).tx = v.tx := rfl

@[simp] theorem count_errors (v : Validation)
    (f : JournalValidationReport → JournalValidationReport) :
    (v.count f).report.errors = (f v.report).errors := rfl

@[simp] theorem addWarning_tx (v : Validation) (msg : String) : (v.addWarning msg).tx = v.tx := rfl

@[simp] theorem addError_tx (v : Validation) (msg : String) : (v.addError msg).tx = v.tx := rfl

@[simp] theorem errorIf_tx (v : Validation) (c : Bool) (msg : String) :
    (v.errorIf c msg).tx = v.tx := by
  unfold errorIf
  cases c <;> rfl

@[simp] theorem warnIf_tx (v : Validation) (c : Bool) (msg : String) :
    (v.warnIf c msg).tx = v.tx := by
  unfold warnIf
  cases c <;> rfl

@[simp] theorem setTx_tx (v : Validation) (id : UInt64) (s : TxState) :
    (v.setTx id s).tx = Function.update v.tx id s := rfl

/-- 移動の record は、意図と合うときだけ先に進む。 -/
theorem stepRelocation_progress {v : Validation} {r : JournalRecord}
    (hne : r.type ≠ .relocationIntent) :
    ((v.stepRelocation r).report.errors = [] ↔
      v.Follows r ∧ ((v.touch r.transactionId).stepProgress r).report.errors = []) ∧
    (v.Follows r → v.stepRelocation r = (v.touch r.transactionId).stepProgress r) := by
  have hfollow : v.Follows r → v.stepRelocation r = (v.touch r.transactionId).stepProgress r := by
    rintro ⟨h0, hi, hg⟩
    unfold stepRelocation
    rw [if_neg h0]
    dsimp only
    rw [if_neg hne, touch_tx, if_neg (by rw [hi]; decide), if_neg (by rw [hg]; decide)]
  refine ⟨⟨fun h => ?_, fun h => by rw [hfollow h.1]; exact h.2⟩, hfollow⟩
  by_cases hf : v.Follows r
  · rw [hfollow hf] at h
    exact ⟨hf, h⟩
  · exfalso
    unfold stepRelocation at h
    by_cases h0 : r.transactionId = 0
    · rw [if_pos h0] at h
      exact addError_errors_ne_nil _ _ h
    · rw [if_neg h0] at h
      dsimp only at h
      rw [if_neg hne, touch_tx] at h
      by_cases hi : (v.tx r.transactionId).intent = false
      · rw [if_pos hi] at h
        exact addError_errors_ne_nil _ _ h
      · rw [if_neg hi] at h
        by_cases hg : (v.tx r.transactionId).sameGeometry r = false
        · rw [if_pos hg] at h
          exact addError_errors_ne_nil _ _ h
        · exact hf ⟨h0, by simpa using hi, by simpa using hg⟩

theorem stepIntent_errors_iff (v : Validation) (r : JournalRecord) :
    (v.stepIntent r).report.errors = [] ↔ v.report.errors = [] ∧
      if (v.tx r.transactionId).intent then (v.tx r.transactionId).sameGeometry r = true
      else r.blockCount ≠ 0 ∧ r.sourceBlock ≠ r.destinationBlock := by
  unfold stepIntent
  dsimp only
  cases hi : (v.tx r.transactionId).intent with
  | true =>
    cases hg : (v.tx r.transactionId).sameGeometry r with
    | true => simp
    | false => simp
  | false => simp

theorem stepIntent_tx (v : Validation) (r : JournalRecord) (ht : r.type = .relocationIntent) :
    (v.stepIntent r).tx =
      Function.update v.tx r.transactionId (advance (v.tx r.transactionId) r) := by
  unfold stepIntent advance
  rw [ht]
  dsimp only
  cases hi : (v.tx r.transactionId).intent with
  | true =>
    cases hg : (v.tx r.transactionId).sameGeometry r with
    | true => simp
    | false => simp
  | false => simp

/-- **error が出ないのは、それまでに error がなく、record が受け入れられるときである。** -/
theorem step_errors_iff (v : Validation) (r : JournalRecord) :
    (v.step r).report.errors = [] ↔ v.report.errors = [] ∧ v.Accepts r := by
  unfold step Accepts
  cases ht : r.type with
  | checkpoint =>
    dsimp only
    split
    · next h =>
      constructor
      · intro hc
        exact absurd hc (addError_errors_ne_nil _ _)
      · rintro ⟨_, h1, h2⟩
        omega
    · next h =>
      constructor
      · intro hc
        exact ⟨hc, by omega, by omega⟩
      · exact fun hc => hc.1
  | relocationIntent =>
    dsimp only
    unfold stepRelocation
    by_cases h0 : r.transactionId = 0
    · rw [if_pos h0]
      exact ⟨fun hc => absurd hc (addError_errors_ne_nil _ _), fun hc => absurd h0 hc.2.1⟩
    · rw [if_neg h0]
      dsimp only
      rw [if_pos ht, stepIntent_errors_iff, touch_tx, touch_report]
      exact ⟨fun hc => ⟨hc.1, h0, hc.2⟩, fun hc => ⟨hc.1, hc.2.2⟩⟩
  | copyVerified =>
    rw [(stepRelocation_progress (by rw [ht]; decide)).1]
    unfold stepProgress
    rw [ht]
    simp [and_comm]
  | destinationReserved =>
    rw [(stepRelocation_progress (by rw [ht]; decide)).1]
    unfold stepProgress
    rw [ht]
    simp [and_comm]
  | ownerSwitched =>
    rw [(stepRelocation_progress (by rw [ht]; decide)).1]
    unfold stepProgress
    rw [ht]
    simp [and_left_comm]
  | sourceReleased =>
    rw [(stepRelocation_progress (by rw [ht]; decide)).1]
    unfold stepProgress
    rw [ht]
    simp [and_left_comm]
  | metadataCommitted =>
    rw [(stepRelocation_progress (by rw [ht]; decide)).1]
    unfold stepProgress
    rw [ht]
    simp [and_left_comm]
  | filesystemMarkedDirty => simp
  | filesystemMarkedClean => simp
  | partitionIntent => simp
  | partitionCommitted => simp
  | note => simp

/-- 受け入れられた record は、その transaction だけを進める。 -/
theorem step_tx {v : Validation} {r : JournalRecord} (h : v.Accepts r) :
    (v.step r).tx = Function.update v.tx r.transactionId (advance (v.tx r.transactionId) r) := by
  have hsame : ∀ s : TxState, s = v.tx r.transactionId →
      v.tx = Function.update v.tx r.transactionId s := by
    rintro s rfl
    rw [Function.update_eq_self]
  unfold Accepts at h
  unfold step
  cases ht : r.type with
  | checkpoint =>
    dsimp only
    rw [advance, ht]
    split <;> exact hsame _ rfl
  | relocationIntent =>
    rw [ht] at h
    dsimp only
    unfold stepRelocation
    rw [if_neg h.1]
    dsimp only
    rw [if_pos ht, stepIntent_tx _ _ ht, touch_tx]
  | copyVerified =>
    rw [ht] at h
    dsimp only
    rw [(stepRelocation_progress (by rw [ht]; decide)).2 h]
    unfold stepProgress advance
    rw [ht]
    simp
  | destinationReserved =>
    rw [ht] at h
    dsimp only
    rw [(stepRelocation_progress (by rw [ht]; decide)).2 h]
    unfold stepProgress advance
    rw [ht]
    simp
  | ownerSwitched =>
    rw [ht] at h
    dsimp only
    rw [(stepRelocation_progress (by rw [ht]; decide)).2 h.1]
    unfold stepProgress advance
    rw [ht]
    simp
  | sourceReleased =>
    rw [ht] at h
    dsimp only
    rw [(stepRelocation_progress (by rw [ht]; decide)).2 h.1]
    unfold stepProgress advance
    rw [ht]
    simp
  | metadataCommitted =>
    rw [ht] at h
    dsimp only
    rw [(stepRelocation_progress (by rw [ht]; decide)).2 h.1]
    unfold stepProgress advance
    rw [ht]
    simp
  | filesystemMarkedDirty => rw [advance, ht]; exact hsame _ rfl
  | filesystemMarkedClean =>
    rw [advance, ht]
    dsimp only
    rw [warnIf_tx]
    exact hsame _ rfl
  | partitionIntent => rw [advance, ht]; exact hsame _ rfl
  | partitionCommitted => rw [advance, ht]; exact hsame _ rfl
  | note => rw [advance, ht]; exact hsame _ rfl

/-! ## 列についての事実 -/

theorem scan_concat (rs : List JournalRecord) (r : JournalRecord) :
    scan (rs ++ [r]) = (scan rs).step r := by
  unfold scan
  rw [List.foldl_append]
  rfl

/-- 進み具合は戻らない。 -/
structure TxLe (s s' : TxState) : Prop where
  intent : s.intent = true → s'.intent = true ∧ s'.src = s.src ∧ s'.dst = s.dst ∧
    s'.blocks = s.blocks ∧ s'.inode = s.inode
  verified : s.verified = true → s'.verified = true
  switched : s.switched = true → s'.switched = true

theorem TxLe.refl (s : TxState) : TxLe s s := ⟨fun h => ⟨h, rfl, rfl, rfl, rfl⟩, id, id⟩

theorem advance_le (s : TxState) (r : JournalRecord) : TxLe s (advance s r) := by
  unfold advance
  cases r.type with
  | relocationIntent =>
    dsimp only
    split
    · exact TxLe.refl s
    · next h => exact ⟨fun hi => absurd hi h, id, id⟩
  | copyVerified => exact ⟨fun h => ⟨h, rfl, rfl, rfl, rfl⟩, fun _ => rfl, id⟩
  | destinationReserved => exact ⟨fun h => ⟨h, rfl, rfl, rfl, rfl⟩, id, id⟩
  | ownerSwitched => exact ⟨fun h => ⟨h, rfl, rfl, rfl, rfl⟩, id, fun _ => rfl⟩
  | sourceReleased => exact ⟨fun h => ⟨h, rfl, rfl, rfl, rfl⟩, id, id⟩
  | metadataCommitted => exact ⟨fun h => ⟨h, rfl, rfl, rfl, rfl⟩, id, id⟩
  | checkpoint => exact TxLe.refl s
  | note => exact TxLe.refl s
  | filesystemMarkedDirty => exact TxLe.refl s
  | filesystemMarkedClean => exact TxLe.refl s
  | partitionIntent => exact TxLe.refl s
  | partitionCommitted => exact TxLe.refl s

theorem step_le {v : Validation} {r : JournalRecord} (h : v.Accepts r) (id : UInt64) :
    TxLe (v.tx id) ((v.step r).tx id) := by
  rw [step_tx h, Function.update_apply]
  split
  · next he => rw [he]; exact advance_le _ _
  · exact TxLe.refl _

/-- その種類の record が進み具合に残す印。 -/
def Marked (s : TxState) : JournalRecordType → Prop
  | .relocationIntent => s.intent = true
  | .copyVerified => s.intent = true ∧ s.verified = true
  | .ownerSwitched => s.switched = true
  | _ => True

theorem Marked.mono {s s' : TxState} (hle : TxLe s s') {t : JournalRecordType} (h : Marked s t) :
    Marked s' t := by
  cases t with
  | relocationIntent => exact (hle.intent h).1
  | copyVerified => exact ⟨(hle.intent h.1).1, hle.verified h.2⟩
  | ownerSwitched => exact hle.switched h
  | _ => trivial

theorem marked_step {v : Validation} {r : JournalRecord} (h : v.Accepts r) :
    Marked ((v.step r).tx r.transactionId) r.type := by
  rw [step_tx h, Function.update_self]
  unfold Accepts at h
  unfold advance
  cases ht : r.type with
  | relocationIntent =>
    dsimp only [Marked]
    split
    · next hi => exact hi
    · rfl
  | copyVerified =>
    rw [ht] at h
    exact ⟨h.2.1, rfl⟩
  | ownerSwitched => rfl
  | _ => trivial

/-- error のない列にある record は、印を残している。 -/
theorem marked_of_mem {rs : List JournalRecord} (hok : (scan rs).report.errors = [])
    {r : JournalRecord} (hr : r ∈ rs) : Marked ((scan rs).tx r.transactionId) r.type := by
  induction rs using List.reverseRecOn with
  | nil => cases hr
  | append_singleton rs q ih =>
    rw [scan_concat] at hok ⊢
    obtain ⟨hok', hacc⟩ := (step_errors_iff _ _).mp hok
    rcases List.mem_append.mp hr with hr | hr
    · exact (ih hok' hr).mono (step_le hacc _)
    · rw [List.mem_singleton] at hr
      subst hr
      exact marked_step hacc

/-- 順序どおりの進み具合。 -/
def Ordered (s : TxState) : Prop :=
  (s.released = true → s.switched = true) ∧ (s.committed = true → s.verified = true)

theorem ordered_advance {v : Validation} {r : JournalRecord} (h : v.Accepts r)
    (ho : Ordered (v.tx r.transactionId)) : Ordered (advance (v.tx r.transactionId) r) := by
  unfold Accepts at h
  unfold advance
  cases ht : r.type with
  | relocationIntent =>
    dsimp only
    split
    · exact ho
    · exact ho
  | copyVerified => exact ⟨ho.1, fun _ => rfl⟩
  | destinationReserved => exact ho
  | ownerSwitched => exact ⟨fun _ => rfl, ho.2⟩
  | sourceReleased =>
    rw [ht] at h
    exact ⟨fun _ => h.2, ho.2⟩
  | metadataCommitted =>
    rw [ht] at h
    exact ⟨ho.1, fun _ => h.2⟩
  | _ => exact ho

theorem ordered_scan {rs : List JournalRecord} (hok : (scan rs).report.errors = []) (id : UInt64) :
    Ordered ((scan rs).tx id) := by
  induction rs using List.reverseRecOn with
  | nil => exact ⟨fun h => (by cases h), fun h => (by cases h)⟩
  | append_singleton rs r ih =>
    rw [scan_concat] at hok ⊢
    obtain ⟨hok', hacc⟩ := (step_errors_iff _ _).mp hok
    rw [step_tx hacc, Function.update_apply]
    split
    · next he =>
      have hih := ih hok'
      rw [he] at hih
      exact ordered_advance hacc hih
    · exact ih hok'

theorem finishTx_errors_iff {v : Validation} {id : UInt64} (h : Ordered (v.tx id)) :
    (v.finishTx id).report.errors = [] ↔ v.report.errors = [] := by
  unfold finishTx
  dsimp only
  split
  · rfl
  · rw [errorIf_errors_iff, errorIf_errors_iff, Bool.and_eq_false_iff, Bool.and_eq_false_iff]
    constructor
    · exact fun hc => hc.1.1
    · intro hc
      refine ⟨⟨hc, ?_⟩, ?_⟩
      · cases hcm : (v.tx id).committed with
        | false => exact Or.inl rfl
        | true => exact Or.inr (by rw [h.2 hcm]; rfl)
      · cases hrl : (v.tx id).released with
        | false => exact Or.inl rfl
        | true => exact Or.inr (by rw [h.1 hrl]; rfl)

theorem finishTx_tx (v : Validation) (id : UInt64) : (v.finishTx id).tx = v.tx := by
  unfold finishTx
  dsimp only
  split
  · rfl
  · rw [errorIf_tx, errorIf_tx]

theorem finishTx_dirty (v : Validation) (id : UInt64) :
    (v.finishTx id).filesystemDirty = v.filesystemDirty := by
  unfold finishTx errorIf addError
  dsimp only
  split
  · rfl
  · split <;> split <;> rfl

theorem foldl_finishTx {ids : List UInt64} {v : Validation} (h : ∀ id, Ordered (v.tx id)) :
    ((ids.foldl finishTx v).report.errors = [] ↔ v.report.errors = []) ∧
      (ids.foldl finishTx v).filesystemDirty = v.filesystemDirty := by
  induction ids generalizing v with
  | nil => exact ⟨Iff.rfl, rfl⟩
  | cons id ids ih =>
    have hnext := ih (v := v.finishTx id) (fun i => by rw [finishTx_tx]; exact h i)
    rw [List.foldl_cons, hnext.1, hnext.2, finishTx_errors_iff (h id), finishTx_dirty]
    exact ⟨Iff.rfl, rfl⟩

end Validation

open Validation in
/--
**clean なのは、読んだ record がどれも受け入れられ、phase が complete のまま dirty でないときである。**
読み終えた後の検査は、順序どおりに読めていれば何も加えない。
-/
theorem validate_clean_iff (j : JournalView) :
    (validateJournalSemantics j).clean = true ↔
      (scan j.records).report.errors = [] ∧
        ¬ (j.phase = .complete ∧ (scan j.records).filesystemDirty = true) := by
  unfold validateJournalSemantics JournalValidationReport.clean finish
  rw [List.isEmpty_iff]
  dsimp only
  rw [warnIf_errors, errorIf_errors_iff, warnIf_errors]
  have hdirty : ∀ (v : Validation) (c : Bool) (msg : String),
      (v.warnIf c msg).filesystemDirty = v.filesystemDirty := by
    intro v c msg
    unfold warnIf addWarning
    split <;> rfl
  rw [hdirty, Bool.and_eq_false_iff]
  constructor
  · rintro ⟨he, hd⟩
    -- 途中の検査は error を減らさないので、読み終えた時点でも error はない
    have hscan : (scan j.records).report.errors = [] := by
      by_contra hne
      have hgrow : ∀ (ids : List UInt64) (v : Validation), v.report.errors ≠ [] →
          (ids.foldl finishTx v).report.errors ≠ [] := by
        intro ids
        induction ids with
        | nil => exact fun v hv => hv
        | cons id ids ih =>
          intro v hv
          refine ih _ fun hc => hv ?_
          unfold finishTx at hc
          dsimp only at hc
          split at hc
          · exact hc
          · rw [errorIf_errors_iff, errorIf_errors_iff] at hc
            exact hc.1.1
      exact hgrow _ _ (by exact hne) he
    have hord := ordered_scan hscan
    refine ⟨hscan, ?_⟩
    rw [(foldl_finishTx (by exact hord)).2] at hd
    rintro ⟨hp, hdt⟩
    rcases hd with hd | hd
    · rw [hp] at hd
      cases hd
    · rw [show (scan j.records).filesystemDirty = false from hd] at hdt
      cases hdt
  · rintro ⟨hscan, hd⟩
    have hord := ordered_scan hscan
    have hfold := @foldl_finishTx (scan j.records).ids
      ((scan j.records).count fun c => { c with transactions := (scan j.records).ids.length })
      (by exact hord)
    refine ⟨hfold.1.mpr hscan, ?_⟩
    by_cases hp : j.phase = .complete
    · right
      cases hc : (scan j.records).filesystemDirty with
      | false => exact hfold.2.trans hc
      | true => exact absurd ⟨hp, hc⟩ hd
    · left
      exact decide_eq_false hp

end Fsx
