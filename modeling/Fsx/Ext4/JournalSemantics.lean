import Fsx.Ext4.Jobs
import Fsx.Ext4.PlanShape
import Fsx.Ext4.Session

/-!
# engine の書く journal と検査

`stage_relocation` と `commit_staged_relocation` が書く record の列を、
`validate_journal_semantics` が受け入れるかを調べる。

record の順序が崩れうるのは一か所だけである。持ち主がすでに destination に移っている移動を再開すると、
切り替えを済ませた record がないまま source を解放しうる。そうでなければ
（`SwitchRecorded`）、crash と再開をどう挟んでも journal は clean のままである。
-/

namespace Fsx.Ext4

open Proc Validation

/-! ## record と進み具合 -/

/-- 移動の transaction の進み具合。 -/
def txOf (v : Validation) (m : OwnerMove) : TxState := v.tx (UInt64.ofNat m.transactionId)

/-- error がなく、意図の置かれた移動の場所は計画どおりである。 -/
structure Sane (moves : List OwnerMove) (v : Validation) : Prop where
  errors : v.report.errors = []
  zero : (v.tx 0).intent = false
  geometry : ∀ m ∈ moves, (txOf v m).intent = true →
    (txOf v m).sameGeometry (moveRecord .note m) = true

def AllIntents (moves : List OwnerMove) (v : Validation) : Prop :=
  ∀ m ∈ moves, (txOf v m).intent = true

def AllVerified (moves : List OwnerMove) (v : Validation) : Prop :=
  ∀ m ∈ moves, (txOf v m).intent = true ∧ (txOf v m).verified = true

/-- 番号だけが違う record は、同じように読まれる。 -/
theorem step_sequence (v : Validation) (r : JournalRecord) (q : UInt64) :
    v.step { r with sequence := q } = v.step r := by
  cases r with
  | mk type sequence transactionId sourceBlock destinationBlock blockCount inode aux crc state =>
    cases type <;> rfl

theorem scan_extend (v : JournalView) (rs : List JournalRecord) :
    scan (v.extend rs).records = rs.foldl step (scan v.records) := by
  unfold scan JournalView.extend
  rw [List.foldl_append, TransactionJournal.foldl_numbered step_sequence]

section Step

variable {moves : List OwnerMove} {v : Validation}

theorem advance_intent {s : TxState} {r : JournalRecord} (ht : r.type ≠ .relocationIntent) :
    (advance s r).intent = s.intent := by
  unfold advance
  cases hr : r.type with
  | relocationIntent => exact absurd hr ht
  | _ => rfl

/-- 意図でない record が受け入れられれば、場所の対応はそのまま残る。 -/
theorem Sane.step (h : Sane moves v) {r : JournalRecord} (hacc : v.Accepts r)
    (ht : r.type ≠ .relocationIntent) : Sane moves (v.step r) := by
  have htx : ∀ id, ((v.step r).tx id).intent = (v.tx id).intent := by
    intro id
    rw [step_tx hacc, Function.update_apply]
    split
    · next he => rw [he, advance_intent ht]
    · rfl
  refine ⟨(step_errors_iff _ _).mpr ⟨h.errors, hacc⟩, by rw [htx]; exact h.zero, ?_⟩
  intro m hm hi
  have hi' : (txOf v m).intent = true := by
    unfold txOf at hi ⊢
    rwa [htx] at hi
  obtain ⟨-, hsrc, hdst, hblk, hino⟩ := (step_le hacc (UInt64.ofNat m.transactionId)).intent hi'
  have hg := h.geometry m hm hi'
  unfold txOf TxState.sameGeometry at hg ⊢
  rw [hsrc, hdst, hblk, hino]
  exact hg

theorem AllIntents.step (h : AllIntents moves v) {r : JournalRecord} (hacc : v.Accepts r) :
    AllIntents moves (v.step r) := fun m hm => ((step_le hacc _).intent (h m hm)).1

theorem AllVerified.step (h : AllVerified moves v) {r : JournalRecord} (hacc : v.Accepts r) :
    AllVerified moves (v.step r) := fun m hm =>
  ⟨((step_le hacc _).intent (h m hm).1).1, (step_le hacc _).verified (h m hm).2⟩

/-- 意図の置かれた移動の record は、意図と合っている。 -/
theorem Sane.follows (h : Sane moves v) {m : OwnerMove} (hm : m ∈ moves)
    (hi : (txOf v m).intent = true) {r : JournalRecord} {t : JournalRecordType} {crc : UInt32}
    (hr : r = { moveRecord t m with dataCrc32c := crc }) : v.Follows r := by
  subst hr
  refine ⟨fun h0 => ?_, hi, h.geometry m hm hi⟩
  have hz := h.zero
  rw [← h0] at hz
  rw [show (txOf v m).intent = false from hz] at hi
  cases hi

end Step

/-! ## 意図を並べる -/

/-- 移動の番号と場所が、64 bit の record に収まる。 -/
structure Recordable (moves : List OwnerMove) : Prop where
  nodup : (moves.map fun m => UInt64.ofNat m.transactionId).Nodup
  valid : ∀ m ∈ moves, UInt64.ofNat m.transactionId ≠ 0 ∧ UInt64.ofNat m.blockCount ≠ 0 ∧
    UInt64.ofNat m.sourceBlock ≠ UInt64.ofNat m.destinationBlock

theorem ofNat_ne {a b : Nat} (ha : a < 2 ^ 64) (hb : b < 2 ^ 64) (h : a ≠ b) :
    UInt64.ofNat a ≠ UInt64.ofNat b := by
  intro he
  have := congrArg UInt64.toNat he
  rw [UInt64.toNat_ofNat_of_lt' ha, UInt64.toNat_ofNat_of_lt' hb] at this
  exact h this

/-- 計画の移動は、番号が 64 bit に収まるかぎり record に書ける。 -/
theorem recordable_of_wellFormed {plan : OwnerRelocationPlan} (hp : plan.WellFormed)
    (hlen : plan.moves.length < 2 ^ 63) : Recordable plan.moves := by
  have hid : ∀ m ∈ plan.moves, 0 < m.transactionId ∧ m.transactionId < 2 ^ 64 := by
    intro m hm
    obtain ⟨i, hi, hget⟩ := List.getElem_of_mem hm
    have := hp.numbered i m (by rw [List.getElem?_eq_getElem hi, hget])
    omega
  constructor
  · rw [List.nodup_iff_getElem?_ne_getElem?]
    intro i j hij hj
    rw [List.length_map] at hj
    rw [List.getElem?_map, List.getElem?_map, List.getElem?_eq_getElem (by omega),
      List.getElem?_eq_getElem hj, Option.map_some, Option.map_some]
    have h1 := hp.numbered i _ (List.getElem?_eq_getElem (by omega))
    have h2 := hp.numbered j _ (List.getElem?_eq_getElem hj)
    rw [h1, h2]
    exact fun he => ofNat_ne (by omega) (by omega) (show i + 1 ≠ j + 1 by omega) (Option.some.inj he)
  · intro m hm
    have hw := hp.moves m hm
    obtain ⟨hpos, hlt⟩ := hid m hm
    have h1 := hw.count_pos
    have h2 := hw.destination
    have h3 := hw.source_above
    have h4 := hw.source_fits
    exact ⟨ofNat_ne (b := 0) hlt (by omega) (by omega), ofNat_ne (b := 0) (by omega) (by omega) (by omega),
      ofNat_ne (by omega) (by omega) (by omega)⟩

/-- 空の journal に意図を並べると、どの移動にも意図が置かれる。 -/
theorem scan_intents {moves : List OwnerMove} (h : Recordable moves) :
    Sane moves ((moves.map (moveRecord .relocationIntent)).foldl step {}) ∧
      AllIntents moves ((moves.map (moveRecord .relocationIntent)).foldl step {}) := by
  -- 先頭から順に、意図の置かれた番号がちょうど並べた移動の番号であることを保つ
  have key : ∀ ms : List OwnerMove, (ms.map fun m => UInt64.ofNat m.transactionId).Nodup →
      (∀ m ∈ ms, UInt64.ofNat m.transactionId ≠ 0 ∧ UInt64.ofNat m.blockCount ≠ 0 ∧
        UInt64.ofNat m.sourceBlock ≠ UInt64.ofNat m.destinationBlock) →
      let v := (ms.map (moveRecord .relocationIntent)).foldl step {}
      v.report.errors = [] ∧
        (∀ id, id ∉ ms.map (fun m => UInt64.ofNat m.transactionId) → (v.tx id).intent = false) ∧
        ∀ m ∈ ms, (txOf v m).intent = true ∧
          (txOf v m).sameGeometry (moveRecord .note m) = true := by
    intro ms
    induction ms using List.reverseRecOn with
    | nil => exact fun _ _ => ⟨rfl, fun _ _ => rfl, fun m hm => (by cases hm)⟩
    | append_singleton ms m ih =>
      intro hnd hval
      rw [List.map_append, List.map_singleton, List.nodup_append] at hnd
      have hfresh : UInt64.ofNat m.transactionId ∉ ms.map fun m => UInt64.ofNat m.transactionId :=
        fun hmem => hnd.2.2 _ hmem _ (List.mem_singleton.mpr rfl) rfl
      obtain ⟨herr, hnone, hall⟩ := ih hnd.1 fun m' hm' => hval m' (List.mem_append_left _ hm')
      obtain ⟨h0, hblk, hsd⟩ := hval m (List.mem_append_right _ (List.mem_singleton.mpr rfl))
      intro v
      have hv : v = ((ms.map (moveRecord .relocationIntent)).foldl step {}).step
          (moveRecord .relocationIntent m) := by
        show ((ms ++ [m]).map _).foldl step {} = _
        rw [List.map_append, List.foldl_append]
        rfl
      have hnot := hnone _ hfresh
      have hacc : ((ms.map (moveRecord .relocationIntent)).foldl step {}).Accepts
          (moveRecord .relocationIntent m) := by
        refine ⟨h0, ?_⟩
        rw [show (moveRecord .relocationIntent m).transactionId = UInt64.ofNat m.transactionId from rfl,
          hnot]
        exact ⟨hblk, hsd⟩
      rw [hv]
      refine ⟨(step_errors_iff _ _).mpr ⟨herr, hacc⟩, fun id hid => ?_, fun m' hm' => ?_⟩
      · rw [List.map_append, List.mem_append, not_or] at hid
        rw [step_tx hacc, Function.update_apply, if_neg fun he => hid.2 (by
          rw [he]
          exact List.mem_singleton.mpr rfl)]
        exact hnone id hid.1
      · rcases List.mem_append.mp hm' with hm' | hm'
        · -- 前に置いた意図は変わらない
          obtain ⟨hi, hg⟩ := hall m' hm'
          obtain ⟨hi', hsrc, hdst, hb, hino⟩ := (step_le hacc (UInt64.ofNat m'.transactionId)).intent hi
          refine ⟨hi', ?_⟩
          unfold txOf TxState.sameGeometry at hg ⊢
          rw [hsrc, hdst, hb, hino]
          exact hg
        · rw [List.mem_singleton] at hm'
          subst hm'
          unfold txOf
          rw [step_tx hacc, show (moveRecord .relocationIntent m').transactionId =
            UInt64.ofNat m'.transactionId from rfl, Function.update_self]
          unfold advance
          rw [show (moveRecord .relocationIntent m').type = .relocationIntent from rfl]
          dsimp only
          rw [hnot]
          exact ⟨rfl, by simp [TxState.sameGeometry, moveRecord]⟩
  obtain ⟨herr, hnone, hall⟩ := key moves h.nodup h.valid
  refine ⟨⟨herr, hnone 0 fun hmem => ?_, fun m hm _ => (hall m hm).2⟩, fun m hm => (hall m hm).1⟩
  obtain ⟨m, hm, he⟩ := List.mem_map.mp hmem
  exact (h.valid m hm).1 he

/-! ## journal の見え方についての条件 -/

/-- 検査を通る journal。 -/
def Semantic (moves : List OwnerMove) (v : JournalView) : Prop :=
  Sane moves (scan v.records) ∧ v.phase ≠ .complete

theorem Semantic.clean {moves : List OwnerMove} {v : JournalView} (h : Semantic moves v) :
    (validateJournalSemantics v).clean = true :=
  (validate_clean_iff v).mpr ⟨h.1.errors, fun hc => h.2 hc.1⟩

/-- record が増えても失われない事実。 -/
def Stable (F : Validation → Prop) : Prop := ∀ v r, F v → v.Accepts r → F (v.step r)

theorem stable_true : Stable fun _ => True := fun _ _ _ _ => trivial

theorem stable_allIntents (moves : List OwnerMove) : Stable (AllIntents moves) :=
  fun _ _ h hacc => h.step hacc

theorem stable_allVerified (moves : List OwnerMove) : Stable (AllVerified moves) :=
  fun _ _ h hacc => h.step hacc

/-- すべての写しが検証済みで、`m` の切り替えが記録されている。 -/
def SwitchedToo (moves : List OwnerMove) (m : OwnerMove) (v : Validation) : Prop :=
  AllVerified moves v ∧ (txOf v m).switched = true

/-- いまの journal が検査を通り、読み終えた状態が `F` を満たす。 -/
abbrev Reads (moves : List OwnerMove) (F : Validation → Prop) : World → Prop :=
  Holds (Semantic moves) fun v => F (scan v.records)

section Triples

variable {moves : List OwnerMove} {F G : Validation → Prop} {α : Type}

theorem semantic_extend {v : JournalView} (h : Semantic moves v) {r : JournalRecord}
    (hacc : (scan v.records).Accepts r) (ht : r.type ≠ .relocationIntent) :
    Semantic moves (v.extend [r]) := by
  refine ⟨?_, h.2⟩
  rw [scan_extend]
  exact h.1.step hacc ht

/-- 受け入れられる record を一つ置く。 -/
theorem triple_record {r : JournalRecord} (ht : r.type ≠ .relocationIntent)
    (hacc : ∀ v, Sane moves v → F v → v.Accepts r)
    (hG : ∀ v, F v → v.Accepts r → G (v.step r)) :
    Triple (Reads moves F) (Engine.append r) (fun _ => Reads moves G)
      (JournalAlways (Semantic moves)) := by
  refine triple_append fun v hJ hF => ?_
  have ha := hacc _ hJ.1 hF
  refine ⟨semantic_extend hJ ha ht, ?_⟩
  rw [scan_extend]
  exact hG _ hF ha

theorem triple_checkpoint {phase : OperationPhase} (hphase : phase ≠ .complete) (hF : Stable F) :
    Triple (Reads moves F) (Engine.checkpoint phase) (fun _ => Reads moves F)
      (JournalAlways (Semantic moves)) := by
  refine triple_journalOp fun v hJ hFv => ?_
  have hcode := OperationPhase.code_lt phase
  have hpos : 1 ≤ phase.code := by cases phase <;> decide
  have hacc : (scan v.records).Accepts {
      type := .checkpoint, transactionId := v.lastTransactionId
      aux := UInt64.ofNat phase.code } := by
    show 1 ≤ (UInt64.ofNat phase.code).toNat ∧ (UInt64.ofNat phase.code).toNat ≤ 11
    rw [UInt64.toNat_ofNat_of_lt' (by simp only [UInt64.size]; omega)]
    omega
  have hrec := semantic_extend hJ hacc nofun
  refine ⟨fun v' hv' => ?_, ?_⟩
  · simp only [JournalOp.states, List.mem_cons, List.not_mem_nil, or_false] at hv'
    rcases hv' with rfl | rfl
    · exact hrec
    · exact ⟨hrec.1, hphase⟩
  · show F (scan (v.extend _).records)
    rw [scan_extend]
    exact hF _ _ hFv hacc

/-! ## device だけを触る手続き -/

theorem triple_rewriteSpans {ctx : MetadataContext} {allocate : Bool} :
    ∀ spans : List GroupSpan, Triple (Reads moves F) (rewriteSpans ctx allocate spans)
      (fun _ => Reads moves F) (JournalAlways (Semantic moves))
  | [] => Triple.pure fun _ h => h
  | _ :: rest => by
    refine Triple.bind ?_ fun _ => triple_rewriteSpans rest
    exact Triple.bind triple_device fun _ => Triple.bind triple_write fun _ => triple_write

theorem triple_setAllocationRange {ctx : MetadataContext} {start length : Nat} {allocate : Bool} :
    Triple (Reads moves F) (setAllocationRange ctx start length allocate)
      (fun _ => Reads moves F) (JournalAlways (Semantic moves)) := by
  refine Triple.ite (fun _ => Triple.pure fun _ h => h) fun _ => ?_
  exact Triple.guard (fun _ h => h.1) fun _ =>
    Triple.bind (triple_rewriteSpans _) fun _ => triple_flush

theorem triple_markFilesystemState {clean : Bool} :
    Triple (Reads moves F) (markFilesystemState clean) (fun _ => Reads moves F)
      (JournalAlways (Semantic moves)) :=
  Triple.bind triple_device fun _ => Triple.bind triple_write fun _ => triple_flush

theorem triple_emitUpdate : ∀ u : Option Write, Triple (Reads moves F) (emitUpdate u)
    (fun _ => Reads moves F) (JournalAlways (Semantic moves))
  | none => Triple.pure fun _ h => h
  | some _ => Triple.bind triple_write fun _ => triple_flush

theorem triple_refreshTreeCopy {ctx : MetadataContext} {m : OwnerMove} :
    Triple (Reads moves F) (refreshTreeCopy ctx m) (fun _ => Reads moves F)
      (JournalAlways (Semantic moves)) := by
  refine Triple.bind triple_device fun _ => Triple.bind triple_write fun _ =>
    Triple.bind triple_flush fun _ => Triple.bind triple_device fun _ => ?_
  exact Triple.ite (fun _ => Triple.throw fun _ h => h.1) fun _ => Triple.pure fun _ h => h

/-! ## 移動一つ -/

theorem triple_reserveDestination {ctx : MetadataContext} {m : OwnerMove} {dst : RangeState}
    (hm : m ∈ moves) : Triple (Reads moves (AllVerified moves)) (reserveDestination ctx m dst)
      (fun _ => Reads moves (AllVerified moves)) (JournalAlways (Semantic moves)) := by
  refine Triple.ite (fun _ => Triple.pure fun _ h => h) fun _ => Triple.guard (fun _ h => h.1) fun _ =>
    Triple.bind triple_setAllocationRange fun _ => ?_
  exact triple_record nofun
    (fun v hs hF => hs.follows hm (hF m hm).1 rfl)
    fun v hF hacc => hF.step hacc

/-- 切り替えは、検証済みの写しについて記録される。 -/
theorem triple_switchOwner {srt : StdSort} {ctx : MetadataContext} {bs : Nat} {m : OwnerMove}
    {stored : UInt32} (hm : m ∈ moves) :
    Triple (Reads moves (AllVerified moves)) (switchOwner srt ctx bs m stored)
      (fun _ => Reads moves (SwitchedToo moves m)) (JournalAlways (Semantic moves)) := by
  have hrec : Triple (Reads moves (AllVerified moves)) (Engine.append (moveRecord .ownerSwitched m))
      (fun _ => Reads moves (SwitchedToo moves m)) (JournalAlways (Semantic moves)) :=
    triple_record nofun (fun v hs hF => ⟨hs.follows hm (hF m hm).1 rfl, (hF m hm).2⟩)
      fun v hF hacc => ⟨hF.step hacc, marked_step hacc⟩
  unfold switchOwner
  cases m.kind with
  | dataExtent =>
    exact Triple.bind triple_device fun _ =>
      Triple.bind (Triple.bind triple_device fun _ => triple_emitUpdate _) fun _ => hrec
  | extentTreeBlock =>
    exact Triple.bind triple_refreshTreeCopy fun _ =>
      Triple.bind (Triple.bind triple_device fun _ => triple_emitUpdate _) fun _ => hrec

theorem triple_releaseSource {ctx : MetadataContext} {m : OwnerMove} (hm : m ∈ moves) :
    Triple (Reads moves (SwitchedToo moves m)) (releaseSource ctx m)
      (fun _ => Reads moves (AllVerified moves)) (JournalAlways (Semantic moves)) := by
  have hweaken : ∀ w, Reads moves (SwitchedToo moves m) w → Reads moves (AllVerified moves) w :=
    fun w h => ⟨h.1, fun j hj => (h.2 j hj).1⟩
  refine Triple.bind triple_device fun src => Triple.ite (fun _ => Triple.pure hweaken) fun _ =>
    Triple.guard (fun _ h => h.1) fun _ => Triple.bind triple_setAllocationRange fun _ => ?_
  exact triple_record nofun
    (fun v hs hF => ⟨hs.follows hm (hF.1 m hm).1 rfl, hF.2⟩)
    fun v hF hacc => hF.1.step hacc

theorem triple_committed {m : OwnerMove} (hm : m ∈ moves) :
    Triple (Reads moves (AllVerified moves)) (Engine.append (moveRecord .metadataCommitted m))
      (fun _ => Reads moves (AllVerified moves)) (JournalAlways (Semantic moves)) :=
  triple_record nofun (fun _ hs hF => ⟨hs.follows hm (hF m hm).1 rfl, (hF m hm).2⟩)
    fun _ hF hacc => hF.step hacc

end Triples

/-! ## 切り替えの記録 -/

/--
持ち主がすでに destination に移っていて、source がまだ空いていない移動については、
切り替えが journal に記録されている。
-/
def SwitchRecorded (srt : StdSort) (ctx : MetadataContext) (m : OwnerMove) (w : World) : Prop :=
  ∀ dst owner src, inspectMove srt w.disk ctx m = .ok (dst, owner) → owner ≠ m.sourceBlock →
    allocationState w.disk ctx m.sourceBlock m.blockCount = .ok src → src.allClear = false →
    ∀ j, w.journal = some j → ∃ r ∈ j.view.records,
      r.type = .ownerSwitched ∧ r.transactionId = UInt64.ofNat m.transactionId

/-- 移動のループの、どの移動に取りかかるときにも `SwitchRecorded` が成り立つ。 -/
def Reconciled (host : Host) (ctx : MetadataContext) (bs : Nat) (records : List JournalRecord) :
    Nat → List OwnerMove → World → Prop
  | _, [], _ => True
  | i, m :: rest, w => host.commitCancelled i = false →
      SwitchRecorded host.srt ctx m w ∧
        ∀ w', Proc.run (commitMove host.srt ctx bs m (storedCrc records m)) w = (.ok (), w') →
          Reconciled host ctx bs records (i + 1) rest w'

/-- `commit_staged_relocation` を呼ぶと、どの移動についても `SwitchRecorded` が成り立つ。 -/
def CommitReconciled (plan : OwnerRelocationPlan) (host : Host) (w : World) : Prop :=
  ∀ ctx j w', checkCommitFilesystem w.disk = .ok ctx → w.journal = some j →
    Proc.run (beginCommit ctx) w = (.ok (), w') →
    Reconciled host ctx plan.blockSize j.view.records 0 (stableSort OwnerMove.before plan.moves) w'

section Commit

variable {moves : List OwnerMove}

/-- 移っているときの検査から、destination はすべて確保されている。 -/
theorem inspectMove_moved {srt : StdSort} {d : Disk} {ctx : MetadataContext} {m : OwnerMove}
    {dst : RangeState} {owner : Nat} (h : inspectMove srt d ctx m = .ok (dst, owner))
    (hne : owner ≠ m.sourceBlock) : owner = m.destinationBlock ∧ dst.allSet = true := by
  unfold inspectMove at h
  obtain ⟨src, _, h⟩ := Result.bind_eq_ok h
  obtain ⟨dst', _, h⟩ := Result.bind_eq_ok h
  obtain ⟨owner', _, h⟩ := Result.bind_eq_ok h
  simp only [Result.guard_bind_eq_ok_iff, Result.pure_eq_ok_iff, Prod.mk.injEq] at h
  obtain ⟨hown, -, hset, rfl, rfl⟩ := h
  have hd : owner = m.destinationBlock := by
    by_contra hc
    exact hown ⟨hne, hc⟩
  refine ⟨hd, ?_⟩
  by_contra hc
  exact hset ⟨hd, by simpa using hc⟩

/-- 記録があれば、進み具合にも切り替えの印がある。 -/
theorem switchedToo_of_record {w : World} {m : OwnerMove}
    (hw : Reads moves (AllVerified moves) w)
    (hrec : ∀ j, w.journal = some j → ∃ r ∈ j.view.records,
      r.type = .ownerSwitched ∧ r.transactionId = UInt64.ofNat m.transactionId) :
    Reads moves (SwitchedToo moves m) w := by
  refine ⟨hw.1, fun j hj => ⟨hw.2 j hj, ?_⟩⟩
  obtain ⟨r, hr, ht, hid⟩ := hrec j hj
  have hmark := marked_of_mem (hw.1.now j hj).1.errors hr
  rw [ht, hid] at hmark
  exact hmark

/-- **移動一つは、切り替えが記録されているかぎり検査を通る record だけを残す。** -/
theorem triple_commitMove {srt : StdSort} {ctx : MetadataContext} {bs : Nat} {m : OwnerMove}
    {stored : UInt32} (hm : m ∈ moves) :
    Triple (fun w => Reads moves (AllVerified moves) w ∧ SwitchRecorded srt ctx m w)
      (commitMove srt ctx bs m stored) (fun _ => Reads moves (AllVerified moves))
      (JournalAlways (Semantic moves)) := by
  intro w₀ hw₀
  obtain ⟨hreads, hsw⟩ := hw₀
  -- 以下では、解放まで世界が `w₀` のままであることを使う
  have htriple : Triple (fun w => w = w₀) (commitMove srt ctx bs m stored)
      (fun _ => Reads moves (AllVerified moves)) (JournalAlways (Semantic moves)) := by
    refine Triple.bind (R := fun p w => w = w₀ ∧ inspectMove srt w₀.disk ctx m = .ok p)
      (Triple.reading ?_ ?_) ?_
    · rintro w p rfl hp
      exact ⟨rfl, hp⟩
    · rintro w rfl
      exact hreads.1
    · rintro ⟨dst, owner⟩
      have hlast : ∀ u : Unit, Triple (Reads moves (AllVerified moves))
          (Engine.append (moveRecord .metadataCommitted m))
          (fun _ => Reads moves (AllVerified moves)) (JournalAlways (Semantic moves)) :=
        fun _ => triple_committed hm
      by_cases hown : owner = m.sourceBlock
      · refine Triple.bind (R := fun _ => Reads moves (AllVerified moves)) ?_ fun _ => ?_
        · refine (triple_reserveDestination hm).mono ?_ (fun _ _ h => h) fun _ h => h
          rintro w ⟨rfl, -⟩
          exact hreads
        · refine Triple.ite (fun _ => ?_) fun h => absurd hown h
          exact Triple.bind (triple_switchOwner hm) fun _ =>
            Triple.bind (triple_releaseSource hm) hlast
      · refine Triple.bind (R := fun _ w => w = w₀ ∧ inspectMove srt w₀.disk ctx m = .ok (dst, owner))
          ?_ fun _ => ?_
        · intro w hw
          obtain ⟨-, hset⟩ := inspectMove_moved hw.2 hown
          unfold reserveDestination
          rw [if_pos hset]
          exact Triple.pure (E := JournalAlways (Semantic moves)) (fun _ h => h) w hw
        · refine Triple.ite (fun h => absurd h hown) fun _ => ?_
          refine Triple.bind (R := fun _ => Reads moves (AllVerified moves)) ?_ hlast
          -- 空いていなければ、切り替えの記録がある
          intro w hw
          obtain ⟨rfl, hins⟩ := hw
          by_cases hclear : ∃ src, allocationState w.disk ctx m.sourceBlock m.blockCount = .ok src ∧
              src.allClear = false
          · obtain ⟨src, hsrc, hnc⟩ := hclear
            have hsw' := hsw dst owner src hins hown hsrc hnc
            exact triple_releaseSource hm w (switchedToo_of_record hreads hsw')
          · have hdone : Triple (fun w' => w' = w) (releaseSource ctx m)
                (fun _ => Reads moves (AllVerified moves)) (JournalAlways (Semantic moves)) := by
              refine Triple.bind (R := fun src w' => w' = w ∧ src.allClear = true)
                (Triple.reading ?_ ?_) fun src => ?_
              · rintro w' src rfl hsrc
                refine ⟨rfl, ?_⟩
                by_contra hc
                exact hclear ⟨src, hsrc, by simpa using hc⟩
              · rintro w' rfl
                exact hreads.1
              · refine Triple.ite (fun _ => Triple.pure ?_) fun hc => ?_
                · rintro w' ⟨rfl, -⟩
                  exact hreads
                · intro w' hw'
                  exact absurd hw'.2 hc
            exact hdone w rfl
  exact htriple w₀ rfl

theorem triple_commitMoves {host : Host} {ctx : MetadataContext} {bs : Nat}
    {records : List JournalRecord} : ∀ (ms : List OwnerMove) (i : Nat) (report : CommitReport),
    (∀ m ∈ ms, m ∈ moves) →
    Triple (fun w => Reads moves (AllVerified moves) w ∧ Reconciled host ctx bs records i ms w)
      (commitMoves host ctx bs records i ms report) (fun _ => Reads moves (AllVerified moves))
      (JournalAlways (Semantic moves))
  | [], _, _, _ => Triple.pure fun _ h => h.1
  | m :: rest, i, report, hms => by
    refine Triple.ite (fun _ => ?_) fun hcancel => ?_
    · refine Triple.bind ((triple_checkpoint (by decide) (stable_allVerified moves)).mono
        (fun _ h => h.1) (fun _ _ h => h) fun _ h => h) fun _ => ?_
      exact Triple.pure fun _ h => h
    · intro w hw
      obtain ⟨hreads, hrec⟩ := hw
      obtain ⟨hsw, hnext⟩ := hrec (by simpa using hcancel)
      have hbody : Triple (fun w' => w' = w)
          (commitMove host.srt ctx bs m (storedCrc records m))
          (fun _ w' => Reads moves (AllVerified moves) w' ∧
            Reconciled host ctx bs records (i + 1) rest w')
          (JournalAlways (Semantic moves)) := by
        rintro w' rfl
        have ht := @triple_commitMove moves host.srt ctx bs m (storedCrc records m)
          (hms m List.mem_cons_self) w' ⟨hreads, hsw⟩
        exact ⟨fun _ w'' hr => ⟨ht.1 _ w'' hr, hnext w'' hr⟩, ht.2⟩
      exact (Triple.bind hbody fun _ =>
        triple_commitMoves rest (i + 1) _ fun m' hm' => hms m' (List.mem_cons_of_mem _ hm')) w rfl

/-- 計画と一致した journal には、どの移動にも検証済みの記録がある。 -/
theorem allVerified_of_matchPlan {v : JournalView} (hs : Semantic moves v)
    (h : matchPlan v.records moves = .ok ()) : AllVerified moves (scan v.records) := by
  unfold matchPlan at h
  simp only [Result.guard_bind_eq_ok_iff, Result.guard_eq_ok_iff] at h
  obtain ⟨-, hany, -⟩ := h
  intro m hm
  cases hr : lastRecord v.records .copyVerified m.transactionId with
  | none =>
    refine absurd (List.any_eq_true.mpr ⟨m, hm, ?_⟩) hany
    rw [hr]
  | some r =>
    have hmem := List.mem_of_getLast? hr
    obtain ⟨hmem, hd⟩ := List.mem_filter.mp hmem
    obtain ⟨ht, hid⟩ := of_decide_eq_true hd
    have hmark := marked_of_mem hs.1.errors hmem
    have hid' : r.transactionId = UInt64.ofNat m.transactionId := by
      rw [← hid, UInt64.ofNat_toNat]
    rw [ht, hid'] at hmark
    exact hmark

theorem triple_beginCommit {ctx : MetadataContext} :
    Triple (Reads moves (AllVerified moves)) (beginCommit ctx)
      (fun _ => Reads moves (AllVerified moves)) (JournalAlways (Semantic moves)) := by
  have hcheck : Triple (Reads moves (AllVerified moves)) (Engine.checkpoint .metadataFinalize)
      (fun _ => Reads moves (AllVerified moves)) (JournalAlways (Semantic moves)) :=
    triple_checkpoint (by decide) (stable_allVerified moves)
  refine Triple.ite (fun _ => ?_) fun _ => hcheck
  refine Triple.bind triple_markFilesystemState fun _ => Triple.bind ?_ fun _ => hcheck
  exact triple_record nofun (fun _ _ _ => trivial) fun _ hF hacc => hF.step hacc

theorem triple_finishCommit {host : Host} {opts : CommitOptions} {report : CommitReport} :
    Triple (Reads moves (AllVerified moves)) (finishCommit host opts report)
      (fun _ => Reads moves (AllVerified moves)) (JournalAlways (Semantic moves)) := by
  have hend : Triple (Reads moves (AllVerified moves)) (do
      Engine.checkpoint .compacted
      pure { report with
        filesystemClean := report.filesystemClean || !opts.leaveFilesystemDirty
        complete := true })
      (fun _ => Reads moves (AllVerified moves)) (JournalAlways (Semantic moves)) :=
    Triple.bind (triple_checkpoint (by decide) (stable_allVerified moves)) fun _ =>
      Triple.pure fun _ h => h
  have hclean : Triple (Reads moves (AllVerified moves)) (if opts.leaveFilesystemDirty = false then do
        markFilesystemState true
        Engine.append (moveRecord .filesystemMarkedClean .blank)
        Engine.checkpoint .compacted
        pure { report with
          filesystemClean := report.filesystemClean || !opts.leaveFilesystemDirty
          complete := true }
      else do
        Engine.checkpoint .compacted
        pure { report with
          filesystemClean := report.filesystemClean || !opts.leaveFilesystemDirty
          complete := true })
      (fun _ => Reads moves (AllVerified moves)) (JournalAlways (Semantic moves)) := by
    refine Triple.ite (fun _ => ?_) fun _ => hend
    refine Triple.bind triple_markFilesystemState fun _ => Triple.bind ?_ fun _ => hend
    exact triple_record nofun (fun _ _ _ => trivial) fun _ hF hacc => hF.step hacc
  unfold finishCommit
  refine Triple.ite (fun _ => ?_) fun _ => hclean
  refine Triple.bind triple_device fun _ => ?_
  exact Triple.guard (fun _ h => h.1) fun _ => hclean

/-- `commit_staged_relocation` の呼び出し。 -/
theorem keeps_commit {plan : OwnerRelocationPlan} {host : Host} {opts : CommitOptions} :
    Triple (fun w => JournalAlways (Semantic plan.moves) w ∧ CommitReconciled plan host w)
      (commitStagedRelocation host plan opts)
      (fun _ => JournalAlways (Semantic plan.moves)) (JournalAlways (Semantic plan.moves)) := by
  rintro w₀ ⟨halways, hrec⟩
  have htriple : Triple (fun w => w = w₀) (commitStagedRelocation host plan opts)
      (fun _ => JournalAlways (Semantic plan.moves)) (JournalAlways (Semantic plan.moves)) := by
    have hstart : ∀ w, w = w₀ → JournalAlways (Semantic plan.moves) w := by
      rintro w rfl
      exact halways
    refine Triple.guard hstart fun _ => ?_
    refine Triple.bind (R := fun _ w => w = w₀) (Triple.reading (fun _ _ h _ => h) hstart) fun _ => ?_
    refine Triple.bind (R := fun ctx w => w = w₀ ∧ checkCommitFilesystem w₀.disk = .ok ctx)
      (Triple.reading ?_ hstart) fun ctx => ?_
    · rintro w ctx rfl hctx
      exact ⟨rfl, hctx⟩
    refine Triple.bind (R := fun j w => w = w₀ ∧ checkCommitFilesystem w₀.disk = .ok ctx ∧
      w₀.journal = some j) (Triple.reading ?_ fun w h => hstart w h.1) fun j => ?_
    · rintro w j ⟨rfl, hctx⟩ hj
      refine ⟨rfl, hctx, ?_⟩
      cases hw : w.journal with
      | none => rw [hw] at hj; cases hj
      | some j' => rw [hw] at hj; cases hj; rfl
    refine Triple.bind (R := fun _ w => w = w₀ ∧ checkCommitFilesystem w₀.disk = .ok ctx ∧
      w₀.journal = some j ∧ checkCommitJournal w₀.disk ctx j.view plan = .ok ())
      (Triple.reading ?_ fun w h => hstart w h.1) fun _ => ?_
    · rintro w u ⟨rfl, hctx, hj⟩ hu
      exact ⟨rfl, hctx, hj, hu⟩
    refine Triple.ite (fun _ => Triple.pure fun w h => hstart w h.1) fun _ => ?_
    -- ここからは、すべての写しが検証済みであることが journal から分かっている
    rintro w ⟨rfl, hctx, hj, hcheck⟩
    have hverified : AllVerified plan.moves (scan j.view.records) := by
      unfold checkCommitJournal at hcheck
      obtain ⟨fu, _, hcheck⟩ := Result.bind_eq_ok hcheck
      obtain ⟨_, _, hcheck⟩ := Result.bind_eq_ok hcheck
      rw [Result.guard_bind_eq_ok_iff] at hcheck
      exact allVerified_of_matchPlan (halways.now j hj) hcheck.2
    have hreads : Reads plan.moves (AllVerified plan.moves) w :=
      ⟨halways, fun j' hj' => by rw [hj] at hj'; cases hj'; exact hverified⟩
    have hbegin : Triple (fun w' => w' = w) (beginCommit ctx)
        (fun _ w' => Reads plan.moves (AllVerified plan.moves) w' ∧
          Reconciled host ctx plan.blockSize j.view.records 0
            (stableSort OwnerMove.before plan.moves) w')
        (JournalAlways (Semantic plan.moves)) := by
      rintro w' rfl
      have ht := @triple_beginCommit plan.moves ctx w' hreads
      exact ⟨fun _ w'' hr => ⟨ht.1 _ w'' hr, hrec ctx j w'' hctx hj hr⟩, ht.2⟩
    have hmem : ∀ m ∈ stableSort OwnerMove.before plan.moves, m ∈ plan.moves :=
      fun m hm => (List.mem_insertionSort _).mp hm
    suffices h : Triple (fun w' => w' = w) (beginCommit ctx >>= fun _ => _)
        (fun _ => JournalAlways (Semantic plan.moves)) (JournalAlways (Semantic plan.moves)) from
      h w rfl
    refine Triple.bind hbegin fun _ => Triple.bind (triple_commitMoves _ 0 _ hmem) fun report => ?_
    refine Triple.ite (fun _ => Triple.pure fun _ h => h.1) fun _ => ?_
    exact triple_finishCommit.mono (fun _ h => h) (fun _ _ h => h.1) fun _ h => h
  exact htriple w₀ rfl

end Commit

/-! ## 写しを作る段 -/

section Stage

variable {moves : List OwnerMove} {F : Validation → Prop}

theorem triple_copyChunks {host : Host} {m : OwnerMove} {src dst : Nat} :
    ∀ (cs : List (Nat × Nat)) (crc : UInt32), Triple (Reads moves F)
      (copyChunks host m src dst cs crc) (fun _ => Reads moves F) (JournalAlways (Semantic moves))
  | [], _ => Triple.pure fun _ h => h
  | (_, _) :: rest, _ => by
    refine Triple.guard (fun _ h => h.1) fun _ => Triple.bind triple_device fun _ =>
      Triple.bind triple_write fun _ => triple_copyChunks rest _

theorem triple_copyOne {host : Host} {bs chunk : Nat} {m : OwnerMove} :
    Triple (Reads moves F) (copyOne host bs chunk m) (fun _ => Reads moves F)
      (JournalAlways (Semantic moves)) := by
  refine Triple.ite (fun _ => Triple.pure fun _ h => h) fun _ => ?_
  refine Triple.bind triple_device fun _ => Triple.bind triple_device fun _ =>
    Triple.bind (triple_copyChunks _ _) fun _ => Triple.pure fun _ h => h

theorem triple_copyBatch {host : Host} {bs chunk : Nat} : ∀ batch : List OwnerMove,
    Triple (Reads moves F) (copyBatch host bs chunk batch) (fun _ => Reads moves F)
      (JournalAlways (Semantic moves))
  | [] => Triple.pure fun _ h => h
  | _ :: rest => Triple.bind triple_copyOne fun _ =>
      Triple.bind (triple_copyBatch rest) fun _ => Triple.pure fun _ h => h

/-- batch の検証が作る record は、batch の移動の `copy_verified` である。 -/
theorem mem_verifyBatch {opts : StageOptions} {bs chunk : Nat} {d : Disk} :
    ∀ {pairs : List (OwnerMove × (UInt32 × Nat))} {rs : List JournalRecord},
      verifyBatch opts bs chunk d pairs = .ok rs →
      ∀ r ∈ rs, ∃ m crc, m ∈ pairs.map Prod.fst ∧ r = verifiedRecord m crc
  | [], rs, h => by cases h; exact fun r hr => (by cases hr)
  | (m, crc, n) :: rest, rs, h => by
    have hrest : ∃ rs', verifyBatch opts bs chunk d rest = .ok rs' ∧
        rs = verifiedRecord m crc :: rs' := by
      rw [verifyBatch] at h
      split at h
      · obtain ⟨dst, _, h⟩ := Result.bind_eq_ok h
        rw [Result.guard_bind_eq_ok_iff] at h
        obtain ⟨rs', hrs', h⟩ := Result.bind_eq_ok h.2
        cases h
        exact ⟨rs', hrs', rfl⟩
      · obtain ⟨rs', hrs', h⟩ := Result.bind_eq_ok h
        cases h
        exact ⟨rs', hrs', rfl⟩
    obtain ⟨rs', hrs', rfl⟩ := hrest
    intro r hr
    rcases List.mem_cons.mp hr with rfl | hr
    · exact ⟨m, crc, List.mem_cons_self, rfl⟩
    · obtain ⟨m', crc', hm', he⟩ := mem_verifyBatch hrs' r hr
      exact ⟨m', crc', List.mem_cons_of_mem _ hm', he⟩

/-- 意図の置かれた移動の `copy_verified` は、いくつ並べても受け入れられる。 -/
theorem foldl_verified {v : Validation} (hs : Sane moves v) (hi : AllIntents moves v) :
    ∀ rs : List JournalRecord, (∀ r ∈ rs, ∃ m crc, m ∈ moves ∧ r = verifiedRecord m crc) →
      Sane moves (rs.foldl step v) ∧ AllIntents moves (rs.foldl step v)
  | [], _ => ⟨hs, hi⟩
  | r :: rs, hrs => by
    obtain ⟨m, crc, hm, rfl⟩ := hrs r List.mem_cons_self
    have hacc : v.Accepts (verifiedRecord m crc) := hs.follows hm (hi m hm) rfl
    exact foldl_verified (hs.step hacc nofun) (hi.step hacc) rs
      fun r' hr' => hrs r' (List.mem_cons_of_mem _ hr')

theorem triple_appendVerified {rs : List JournalRecord}
    (hrs : ∀ r ∈ rs, ∃ m crc, m ∈ moves ∧ r = verifiedRecord m crc) :
    Triple (Reads moves (AllIntents moves)) (Engine.appendBatch rs)
      (fun _ => Reads moves (AllIntents moves)) (JournalAlways (Semantic moves)) := by
  refine triple_journalOp fun v hJ hF => ?_
  obtain ⟨hsane, hint⟩ := foldl_verified hJ.1 hF rs hrs
  have hres : Semantic moves (v.extend rs) := by
    refine ⟨?_, hJ.2⟩
    rw [scan_extend]
    exact hsane
  refine ⟨fun v' hv' => ?_, ?_⟩
  · simp only [JournalOp.states, JournalOp.recorded, JournalOp.result, List.mem_cons,
      List.not_mem_nil, or_false, or_self] at hv'
    rw [hv']
    exact hres
  · show AllIntents moves (scan (v.extend rs).records)
    rw [scan_extend]
    exact hint

theorem triple_pause : Triple (JournalAlways (Semantic moves)) (Engine.checkpoint .paused)
    (fun _ => JournalAlways (Semantic moves)) (JournalAlways (Semantic moves)) :=
  (triple_checkpoint (by decide) stable_true).mono (fun _ h => ⟨h, fun _ _ => trivial⟩)
    (fun _ _ h => h.1) fun _ h => h

/-- batch の写し方 `copy` が journal に触れなければ、batch のループは検証の record だけを加える。 -/
theorem reads_stageLoopWith {copy : Nat → List OwnerMove → EngineM (List (UInt32 × Nat))}
    (hcopy : ∀ n batch, Triple (Reads moves (AllIntents moves)) (copy n batch)
      (fun _ => Reads moves (AllIntents moves)) (JournalAlways (Semantic moves)))
    {host : Host} {opts : StageOptions} {plan : OwnerRelocationPlan} {workers chunk : Nat} :
    ∀ (fuel : Nat) (verified : List Nat) (ms : List OwnerMove)
    (report : StageReport), (∀ m ∈ ms, m ∈ moves) →
    Triple (Reads moves (AllIntents moves))
      (stageLoopWith copy host opts plan workers chunk fuel verified ms report)
      (fun _ => Reads moves (AllIntents moves)) (JournalAlways (Semantic moves))
  | 0, _, _, _, _ => Triple.pure fun _ h => h
  | fuel + 1, verified, ms, report, hms => by
    have hrest : ∀ m ∈ ms.dropWhile (fun m => decide (m.transactionId ∈ verified)), m ∈ moves :=
      fun m hm => hms m ((List.dropWhile_sublist _).mem hm)
    refine Triple.ite (fun _ => Triple.pure fun _ h => h) fun _ => Triple.ite (fun _ => ?_) fun _ => ?_
    · exact Triple.bind (triple_checkpoint (by decide) (stable_allIntents moves)) fun _ =>
        Triple.pure fun _ h => h
    · refine Triple.bind (triple_onError (hcopy _ _) triple_pause) fun copied =>
        Triple.bind triple_flush fun _ => ?_
      refine Triple.bind (R := fun rs w => Reads moves (AllIntents moves) w ∧
        ∀ r ∈ rs, ∃ m crc, m ∈ moves ∧ r = verifiedRecord m crc) (Triple.reading ?_ fun _ h => h.1)
        fun rs => ?_
      · intro w rs hw hrs
        refine ⟨hw, fun r hr => ?_⟩
        obtain ⟨m, crc, hm, he⟩ := mem_verifyBatch hrs r hr
        obtain ⟨p, hp, rfl⟩ := List.mem_map.mp hm
        exact ⟨p.1, crc, hrest p.1 ((takeBatch_spec _ _ _).batch.mem (List.of_mem_zip hp).1), he⟩
      · intro w hw
        refine (Triple.bind (triple_appendVerified hw.2) fun _ =>
          reads_stageLoopWith hcopy fuel _ _ _ fun m hm =>
            hrest m ((takeBatch_spec _ _ _).rest.mem hm)) w hw.1

/-- 新しい journal に意図を並べる。 -/
theorem triple_startStage {jhost : JournalHost} {fu : Uuid} {plan : OwnerRelocationPlan}
    (hp : plan.WellFormed) :
    Triple (JournalAlways (Semantic plan.moves)) (startStage jhost fu plan)
      (fun _ => Reads plan.moves (AllIntents plan.moves)) (JournalAlways (Semantic plan.moves)) := by
  refine Triple.bind (Triple.reading (fun _ _ h _ => h) fun _ h => h) fun size => ?_
  refine Triple.bind (R := fun _ w => JournalAlways (Semantic plan.moves) w ∧ Recordable plan.moves)
    (Triple.reading (fun w cap hw hcap => ⟨hw, ?_⟩) fun _ h => h) fun cap => ?_
  · -- 大きさの検査が、番号が 64 bit に収まることを保証する
    unfold journalCapacity at hcap
    simp only [Result.guard_bind_eq_ok_iff] at hcap
    have hlen := hcap.1
    unfold u64Max at hlen
    exact recordable_of_wellFormed hp (by omega)
  refine Triple.bind (R := fun _ w => Holds (Semantic plan.moves) (fun v => v.records = []) w ∧
    Recordable plan.moves) (Triple.stepping ?_ fun _ h => h.1) fun _ => ?_
  · rintro w w' ⟨hw, hr⟩ hstep
    rw [Result.guard_bind_eq_ok_iff] at hstep
    obtain ⟨_, _, hstep⟩ := Result.bind_eq_ok hstep.2
    cases hstep
    have hnew : ∀ id, Semantic plan.moves { identity := id, phase := .prepared, records := [] } :=
      fun _ => ⟨⟨rfl, rfl, fun m _ hi => (by cases hi)⟩, nofun⟩
    refine ⟨⟨⟨fun j hj => ?_, fun j hj => ?_⟩, fun j hj => ?_⟩, hr⟩
    · cases hj
      exact hnew _
    · rcases List.mem_append.mp hj with hj | hj
      · exact hw.past j hj
      · rw [List.mem_singleton] at hj
        cases hj
        exact hnew _
    · cases hj
      rfl
  refine Triple.bind (Triple.reading (fun _ _ h _ => h) fun _ h => h.1.1) fun _ => ?_
  rintro w ⟨hw, hr⟩
  obtain ⟨hsane, hint⟩ := scan_intents hr
  have hbatch : Triple (Holds (Semantic plan.moves) fun v => v.records = [])
      (Engine.appendBatch (plan.moves.map (moveRecord .relocationIntent)))
      (fun _ => Reads plan.moves (AllIntents plan.moves)) (JournalAlways (Semantic plan.moves)) := by
    refine triple_journalOp fun v hJ hempty => ?_
    have hscan : scan (v.extend (plan.moves.map (moveRecord .relocationIntent))).records =
        (plan.moves.map (moveRecord .relocationIntent)).foldl step {} := by
      rw [scan_extend, hempty]
      rfl
    have hres : Semantic plan.moves (v.extend (plan.moves.map (moveRecord .relocationIntent))) :=
      ⟨by rw [hscan]; exact hsane, hJ.2⟩
    refine ⟨fun v' hv' => ?_, ?_⟩
    · simp only [JournalOp.states, JournalOp.recorded, JournalOp.result, List.mem_cons,
        List.not_mem_nil, or_false, or_self] at hv'
      rw [hv']
      exact hres
    · show AllIntents plan.moves (scan (v.extend _).records)
      rw [hscan]
      exact hint
  exact (Triple.bind hbatch fun _ =>
    triple_checkpoint (by decide) (stable_allIntents plan.moves)) w hw

/-- 再開できた journal には、どの移動にも意図が置かれている。 -/
theorem allIntents_of_resume {d : Disk} {v : JournalView} {bs chunk : Nat}
    (hs : Semantic moves v) : ∀ {ms : List OwnerMove} {ids : List Nat},
    resumeMoves d v.records bs chunk ms = .ok ids → AllIntents ms (scan v.records)
  | [], _, _ => fun m hm => (by cases hm)
  | m :: rest, ids, h => by
    rw [resumeMoves] at h
    cases hr : lastRecord v.records .relocationIntent m.transactionId with
    | none =>
      rw [hr] at h
      cases h
    | some r =>
      rw [hr] at h
      dsimp only at h
      rw [Result.guard_bind_eq_ok_iff] at h
      have hrest : AllIntents rest (scan v.records) := by
        have h' := h.2
        cases hv : lastRecord v.records .copyVerified m.transactionId with
        | none =>
          rw [hv] at h'
          obtain ⟨_, _, h'⟩ := Result.bind_eq_ok h'
          obtain ⟨others, ho, _⟩ := Result.bind_eq_ok h'
          exact allIntents_of_resume hs ho
        | some r' =>
          rw [hv] at h'
          obtain ⟨_, _, h'⟩ := Result.bind_eq_ok h'
          obtain ⟨_, _, h'⟩ := Result.bind_eq_ok h'
          obtain ⟨others, ho, _⟩ := Result.bind_eq_ok h'
          exact allIntents_of_resume hs ho
      intro m' hm'
      rcases List.mem_cons.mp hm' with rfl | hm'
      · obtain ⟨hmem, hd⟩ := List.mem_filter.mp (List.mem_of_getLast? hr)
        obtain ⟨ht, hid⟩ := of_decide_eq_true hd
        have hmark := marked_of_mem hs.1.errors hmem
        rw [ht, show r.transactionId = UInt64.ofNat m'.transactionId by
          rw [← hid, UInt64.ofNat_toNat]] at hmark
        exact hmark
      · exact hrest m' hm'

theorem triple_openStage {jhost : JournalHost} {fu : Uuid} {plan : OwnerRelocationPlan}
    {chunk : Nat} (hp : plan.WellFormed) :
    Triple (JournalAlways (Semantic plan.moves)) (openStage jhost fu plan chunk)
      (fun _ => Reads plan.moves (AllIntents plan.moves)) (JournalAlways (Semantic plan.moves)) := by
  refine Triple.bind (R := fun w w' => w' = w ∧ JournalAlways (Semantic plan.moves) w)
    (Triple.get fun w hw => ⟨rfl, hw⟩) fun w => ?_
  rintro w' ⟨rfl, hw⟩
  cases hj : w'.journal with
  | none =>
    suffices h : Triple (JournalAlways (Semantic plan.moves)) (do
        startStage jhost fu plan
        pure [])
        (fun _ => Reads plan.moves (AllIntents plan.moves))
        (JournalAlways (Semantic plan.moves)) from h w' hw
    exact Triple.bind (triple_startStage hp) fun _ => Triple.pure fun _ h => h
  | some j =>
    suffices h : Triple (fun w => w = w') (do
        Engine.device fun d => checkIdentity j.view.identity fu d.sizeBytes plan
          "journal target size does not match plan"
        Engine.device fun d => resumeStage d j.view plan chunk)
        (fun _ => Reads plan.moves (AllIntents plan.moves))
        (JournalAlways (Semantic plan.moves)) from h w' rfl
    refine Triple.bind (R := fun _ w => w = w') (Triple.reading (fun _ _ h _ => h) ?_) fun _ => ?_
    · rintro w rfl
      exact hw
    refine Triple.reading ?_ ?_
    · rintro w ids rfl hres
      unfold resumeStage at hres
      simp only [Result.guard_bind_eq_ok_iff] at hres
      refine ⟨hw, fun j' hj' => ?_⟩
      rw [hj] at hj'
      cases hj'
      exact allIntents_of_resume (hw.now j hj) hres.2.2
    · rintro w rfl
      exact hw

/-- `stage_relocation` の呼び出し。写し方は、journal に触れなければ何でもよい。 -/
theorem keeps_stageWith {plan : OwnerRelocationPlan} (hp : plan.WellFormed) {host : Host}
    {jhost : JournalHost} {opts : StageOptions}
    {copy : Nat → Nat → List OwnerMove → EngineM (List (UInt32 × Nat))}
    (hcopy : ∀ chunk n batch, Triple (Reads plan.moves (AllIntents plan.moves)) (copy chunk n batch)
      (fun _ => Reads plan.moves (AllIntents plan.moves)) (JournalAlways (Semantic plan.moves))) :
    Triple (JournalAlways (Semantic plan.moves)) (stageRelocationWith copy host jhost plan opts)
      (fun _ => JournalAlways (Semantic plan.moves)) (JournalAlways (Semantic plan.moves)) := by
  have hread : ∀ {α : Type} {f : Disk → Result α}, Triple (JournalAlways (Semantic plan.moves))
      (Engine.device f) (fun _ => JournalAlways (Semantic plan.moves))
      (JournalAlways (Semantic plan.moves)) :=
    Triple.reading (fun _ _ h _ => h) fun _ h => h
  refine Triple.guard (fun _ h => h) fun _ => Triple.bind hread fun _ => ?_
  refine Triple.ite (fun _ => Triple.pure fun _ h => h) fun _ => ?_
  refine Triple.bind hread fun _ => Triple.bind hread fun _ => Triple.bind hread fun _ => ?_
  refine Triple.bind (triple_openStage hp) fun _ =>
    Triple.bind (reads_stageLoopWith (hcopy _) _ _ _ _ fun _ h => h) fun report => ?_
  refine Triple.ite (fun _ => Triple.pure fun _ h => h.1) fun _ => ?_
  exact Triple.bind (triple_checkpoint (by decide) (stable_allIntents plan.moves)) fun _ =>
    Triple.pure fun _ h => h.1

theorem keeps_stage {plan : OwnerRelocationPlan} (hp : plan.WellFormed) {host : Host}
    {jhost : JournalHost} {opts : StageOptions} :
    Triple (JournalAlways (Semantic plan.moves)) (stageRelocation host jhost plan opts)
      (fun _ => JournalAlways (Semantic plan.moves)) (JournalAlways (Semantic plan.moves)) := by
  rw [← stageRelocationWith_copyBatch]
  exact keeps_stageWith hp fun _ _ batch => triple_copyBatch batch

end Stage

/-! ## run -/

/-- 一歩ごとに、journal は検査を通るままである。 -/
theorem step_semantic {plan : OwnerRelocationPlan} (hp : plan.WellFormed) {s t : Session}
    (hst : Step plan (CommitReconciled plan) s t)
    (hs : JournalAlways (Semantic plan.moves) s.boot ∧ JournalAlways (Semantic plan.moves) s.now) :
    JournalAlways (Semantic plan.moves) t.boot ∧ JournalAlways (Semantic plan.moves) t.now := by
  cases hst with
  | stage host jhost opts => exact ⟨hs.1, (keeps_stage hp).holds hs.2⟩
  | commit host opts hguard => exact ⟨hs.1, keeps_commit.holds ⟨hs.2, hguard⟩⟩
  | crash hc => exact ⟨hs.1.crash hs.2 hc, hs.1.crash hs.2 hc⟩

/--
**journal のない device から始めた run では、どの時点の journal も検査を通る。**
条件は、持ち主の移っている移動を再開するときに、切り替えが記録されていることである。
-/
theorem run_journal_clean {host : Host} {d : Disk} {target : Nat} {plan : OwnerRelocationPlan}
    (hplan : buildOwnerRelocationPlan host d target = .ok plan) {s : Session}
    (hrun : Run plan (CommitReconciled plan) ⟨⟨d, none, []⟩, ⟨d, none, []⟩⟩ s) :
    ∀ j, (s.now.journal = some j ∨ WorldEvent.journal j ∈ s.now.trace) →
      (validateJournalSemantics j.view).clean = true := by
  have hp := wellFormed_buildOwnerRelocationPlan hplan
  have hstart : JournalAlways (Semantic plan.moves) ⟨d, none, []⟩ :=
    ⟨fun _ hj => (by cases hj), fun _ hj => (by cases hj)⟩
  have hall : JournalAlways (Semantic plan.moves) s.boot ∧
      JournalAlways (Semantic plan.moves) s.now := by
    induction hrun with
    | refl => exact ⟨hstart, hstart⟩
    | tail _ hstep ih => exact step_semantic hp hstep ih
  rintro j (hj | hj)
  · exact (hall.2.now j hj).clean
  · exact (hall.2.past j hj).clean

/-- 書かれていない extent を移す計画。 -/
theorem Tiny.build_unwritten : buildOwnerRelocationPlan Tiny.host
    (Tiny.world (Tiny.image 32769 [])).disk 20480 = .ok (Tiny.plan true) := by decide +kernel

/-- 移動を切り替えて確定する run では、journal は検査を通る。 -/
theorem run_journal_clean_tiny : ∃ j,
    (Tiny.committed (Tiny.plan true) (Tiny.staged (Tiny.plan true)
      (Tiny.world (Tiny.image 32769 [])))).journal = some j ∧
    (validateJournalSemantics j.view).clean = true := by
  have howner : (do
      let w := Tiny.staged (Tiny.plan true) (Tiny.world (Tiny.image 32769 []))
      let ctx ← checkCommitFilesystem w.disk
      let p ← inspectMove Tiny.host.srt (Proc.run (beginCommit ctx) w).2.disk ctx
        ((Tiny.plan true).moves.headD .blank)
      return p.2) = .ok 12 := by decide +kernel
  have hguard : CommitReconciled (Tiny.plan true) Tiny.host
      (Tiny.staged (Tiny.plan true) (Tiny.world (Tiny.image 32769 []))) := by
    intro ctx j w' hctx _ hbegin
    refine fun _ => ⟨fun dst owner src hins hne => absurd ?_ hne, fun _ _ => trivial⟩
    -- 取りかかるときの持ち主は source である
    obtain ⟨ctx', hctx', howner⟩ := Result.bind_eq_ok howner
    cases hctx.symm.trans hctx'
    obtain ⟨p, hp, hret⟩ := Result.bind_eq_ok howner
    rw [hbegin] at hp
    rw [show inspectMove Tiny.host.srt w'.disk ctx ((Tiny.plan true).moves.headD .blank) =
      .ok (dst, owner) from hins] at hp
    cases hp
    exact Except.ok.inj hret
  have hrun : Run (Tiny.plan true) (CommitReconciled (Tiny.plan true))
      ⟨Tiny.world (Tiny.image 32769 []), Tiny.world (Tiny.image 32769 [])⟩
      ⟨Tiny.world (Tiny.image 32769 []), Tiny.committed (Tiny.plan true)
        (Tiny.staged (Tiny.plan true) (Tiny.world (Tiny.image 32769 [])))⟩ :=
    (Relation.ReflTransGen.single Tiny.step_stage).tail (Tiny.step_commit hguard)
  have hsome : (Tiny.committed (Tiny.plan true) (Tiny.staged (Tiny.plan true)
      (Tiny.world (Tiny.image 32769 [])))).journal.isSome := by decide +kernel
  obtain ⟨j, hj⟩ := Option.isSome_iff_exists.mp hsome
  exact ⟨j, hj, run_journal_clean Tiny.build_unwritten hrun j (Or.inl hj)⟩

/-- 写しの後の確定を、`n` 番目の操作で止めた世界。 -/
def Tiny.cut (p : OwnerRelocationPlan) (w : World) (n : Nat) : World :=
  w.stoppedAt ((Tiny.committed p (Tiny.staged p w)).trace.take n)

/-- 止まった確定を再開する run。 -/
theorem Tiny.run_resumed (p : OwnerRelocationPlan) (w : World) (n : Nat) :
    Run p (fun _ _ => True) ⟨w, w⟩ ⟨Tiny.cut p w n, Tiny.committed p (Tiny.cut p w n)⟩ := by
  have hfirst : Run p (fun _ _ => True) ⟨w, w⟩ ⟨w, Tiny.committed p (Tiny.staged p w)⟩ :=
    (Relation.ReflTransGen.single Tiny.step_stage).tail (Tiny.step_commit trivial)
  have hcut : Step p (fun _ _ => True) ⟨w, Tiny.committed p (Tiny.staged p w)⟩
      ⟨Tiny.cut p w n, Tiny.cut p w n⟩ :=
    Step.crash (s := ⟨w, _⟩) (crashWorld_stoppedAt (List.take_prefix n _))
  exact (hfirst.tail hcut).tail (Tiny.step_commit trivial)

/--
切り替えの flush の後、その record の前に止まった commit を再開すると、
`owner_switched` のないまま `source_released` が置かれる。
-/
theorem resumed_release_not_clean : ¬ ∀ (host : Host) (d : Disk) (target : Nat)
    (plan : OwnerRelocationPlan), buildOwnerRelocationPlan host d target = .ok plan →
    ∀ s, Run plan (fun _ _ => True) ⟨⟨d, none, []⟩, ⟨d, none, []⟩⟩ s → ∀ j,
      s.now.journal = some j → (validateJournalSemantics j.view).clean = true := by
  intro h
  have hdirty : ((Tiny.committed (Tiny.plan true) (Tiny.cut (Tiny.plan true)
      (Tiny.world (Tiny.image 32769 [])) 23)).journal.map fun j =>
        (validateJournalSemantics j.view).clean) = some false := by decide +kernel
  obtain ⟨j, hj, hclean⟩ := Option.map_eq_some_iff.mp hdirty
  have hnow := h _ _ _ _ Tiny.build_unwritten _ (Tiny.run_resumed _ _ 23) j hj
  rw [hclean] at hnow
  cases hnow

end Fsx.Ext4
