import Fsx.Journal.Model

/-!
# 中断した操作の見立て（`src/transaction/recovery.cpp`）

`assess_recovery` は journal の状態だけを見て、続けてよいか、戻してよいかを答える。
答えが filesystem について正しいことは `Fsx/Ext4/Rollback.lean` で示す。
-/

namespace Fsx

inductive RecoveryAction where
  | none | resumeOrRollback | resumeForward | finishForward | manualReview
  deriving DecidableEq, Repr

structure RecoveryAssessment where
  action : RecoveryAction := .none
  safeToResume : Bool := false
  rollbackAvailable : Bool := false
  reason : String := ""
  deriving DecidableEq

/-- `assess_recovery`。 -/
def assessRecovery (s : JournalStatus) : RecoveryAssessment :=
  if ¬ s.recordsValid ∨ (¬ s.headerAValid ∧ ¬ s.headerBValid) then
    { action := .manualReview, reason := "journal integrity validation failed" }
  else
    match s.phase with
    | .prepared =>
      { action := .resumeOrRollback, safeToResume := true, rollbackAvailable := true
        reason := "no irreversible filesystem transition has committed" }
    | .relocating | .paused =>
      { action := .resumeOrRollback, safeToResume := true, rollbackAvailable := true
        reason := "relocation is checkpointed before irreversible metadata transitions" }
    | .staged =>
      { action := .resumeForward, safeToResume := true, rollbackAvailable := true
        reason := "all relocation copies are verified; metadata has not been switched" }
    | .metadataFinalize | .metadataPaused =>
      { action := .resumeForward, safeToResume := true
        reason := "metadata finalization has begun; reconcile on-disk move state and finish forward" }
    | .compacted =>
      { action := .resumeForward, safeToResume := true
        reason := "tail data is compacted; filesystem size has not yet changed" }
    | .filesystemShrunk | .partitionPending =>
      { action := .finishForward, safeToResume := true
        reason := "filesystem size transition committed; recovery must finish forward" }
    | .complete => { action := .none, reason := "operation is complete" }
    | .failed =>
      { action := .manualReview
        reason := "operation is marked failed; inspect the journal and filesystem before writing" }

/-- metadata に手を付ける前の phase。 -/
def OperationPhase.reversible : OperationPhase → Bool
  | .prepared | .relocating | .paused | .staged => true
  | _ => false

/-- 開けた journal は、整合性の検査では差し戻されない。 -/
theorem TransactionJournal.sound_of_load {d : Disk} {st : JournalStatus}
    (h : TransactionJournal.load d = .ok st) :
    st.recordsValid = true ∧ (st.headerAValid = true ∨ st.headerBValid = true) := by
  have hrecords : ∀ {k i : Nat} {s s' : JournalStatus},
      TransactionJournal.loadRecords d k i s = .ok s' → s'.recordsValid = s.recordsValid ∧
        s'.headerAValid = s.headerAValid ∧ s'.headerBValid = s.headerBValid := by
    intro k
    induction k with
    | zero =>
      intro i s s' h
      cases h
      exact ⟨rfl, rfl, rfl⟩
    | succ k ih =>
      intro i s s' h
      obtain ⟨_, _, h⟩ := Result.bind_eq_ok h
      obtain ⟨r, _, h⟩ := Result.bind_eq_ok h
      rw [Result.guard_bind_eq_ok_iff] at h
      exact @ih (i + 1) (s.account r) s' h.2
  unfold TransactionJournal.load at h
  obtain ⟨a, _, h⟩ := Result.bind_eq_ok h
  obtain ⟨b, _, h⟩ := Result.bind_eq_ok h
  obtain ⟨hdr, hchoose, h⟩ := Result.bind_eq_ok h
  rw [Result.guard_bind_eq_ok_iff] at h
  obtain ⟨h1, h2, h3⟩ := hrecords h.2
  rw [h1, h2, h3]
  refine ⟨rfl, ?_⟩
  dsimp only
  cases hA : decodeHeader a with
  | ok x => exact Or.inl rfl
  | error e =>
    cases hB : decodeHeader b with
    | ok y => exact Or.inr rfl
    | error e' =>
      rw [hA, hB] at hchoose
      cases hchoose

/-- 戻してよいと答えるのは、検査を通った journal の phase が戻せるときである。 -/
theorem rollbackAvailable_iff {s : JournalStatus} : (assessRecovery s).rollbackAvailable = true ↔
    (s.recordsValid = true ∧ (s.headerAValid = true ∨ s.headerBValid = true)) ∧
      s.phase.reversible = true := by
  unfold assessRecovery
  by_cases h : ¬ s.recordsValid ∨ (¬ s.headerAValid ∧ ¬ s.headerBValid)
  · rw [if_pos h]
    simp only [Bool.false_eq_true, false_iff, not_and]
    rintro ⟨hr, hh⟩
    rcases h with h | ⟨h1, h2⟩
    · exact absurd hr h
    · rcases hh with hh | hh
      · exact absurd hh h1
      · exact absurd hh h2
  · rw [if_neg h]
    have hs : s.recordsValid = true ∧ (s.headerAValid = true ∨ s.headerBValid = true) := by
      simpa [not_or, or_iff_not_imp_left] using h
    simp only [hs, and_true, true_and]
    cases s.phase <;> simp [OperationPhase.reversible]

end Fsx
