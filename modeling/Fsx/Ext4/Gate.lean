import Fsx.Ext4.MarkedRun
import Fsx.Ext4.Session

/-!
# journal で仕切られた書き込み

engine は、journal がある条件（`gate`）を満たすあいだは決まった書き込み（`A`）しかせず、
条件が破れた後は自由に書く。破れた条件は元に戻らない。

`Gated` は、この約束を起動してからの記録について述べる。記録のどの途中で止まっても、
そこで見える journal が条件を満たすなら、それまでの書き込みはすべて `A` である。
したがって crash の後に残る像も、`A` の書き込みだけを施したものになる（`Gated.crash`）。

条件と `A` と、journal の見え方の不変条件 `J` には、何も仮定しない。
-/

namespace Fsx.Ext4

open Engine Proc

/-! ## 記録の途中 -/

theorem lastJournal_append (j : Option JournalFile) (es fs : List WorldEvent) :
    lastJournal j (es ++ fs) = lastJournal (lastJournal j es) fs := by
  induction es generalizing j with
  | nil => rfl
  | cons e es ih =>
    cases e with
    | dev e => exact ih j
    | journal f => exact ih (some f)

/-- 最後の journal は、もとのものか、記録にあるものである。 -/
theorem lastJournal_cases (j : Option JournalFile) (es : List WorldEvent) :
    lastJournal j es = j ∨ ∃ f, WorldEvent.journal f ∈ es ∧ lastJournal j es = some f := by
  induction es generalizing j with
  | nil => exact Or.inl rfl
  | cons e es ih =>
    cases e with
    | dev e =>
      rcases ih j with h | ⟨f, hf, h⟩
      · exact Or.inl h
      · exact Or.inr ⟨f, List.mem_cons_of_mem _ hf, h⟩
    | journal k =>
      rcases ih (some k) with h | ⟨f, hf, h⟩
      · exact Or.inr ⟨k, List.mem_cons_self, h⟩
      · exact Or.inr ⟨f, List.mem_cons_of_mem _ hf, h⟩

theorem mem_devEvents {x : Write} {es : List WorldEvent} :
    .write x ∈ devEvents es ↔ WorldEvent.dev (.write x) ∈ es := by
  induction es with
  | nil => simp [devEvents]
  | cons e es ih =>
    cases e with
    | dev e => simp [devEvents, ih]
    | journal j => simp [devEvents, ih]

/-- 記録の書き込みがどれも保つ性質は、再生した像で成り立つ。 -/
theorem replay_preserves {P : Image → Prop} {es : List Event} {img : Image} (h0 : P img)
    (hw : ∀ x, .write x ∈ es → ∀ i : Image, P i → P (i.apply x)) : P (replay img es) := by
  induction es generalizing img with
  | nil => exact h0
  | cons e es ih =>
    have hrest : ∀ x, .write x ∈ es → ∀ i : Image, P i → P (i.apply x) :=
      fun x hx => hw x (List.mem_cons_of_mem _ hx)
    cases e with
    | write x => exact ih (hw x List.mem_cons_self _ h0) hrest
    | flush => exact ih h0 hrest

/-- 記録の書き込みがどれも保つ性質は、その途中で止まった像でも成り立つ。 -/
theorem crashImage_preserves {P : Image → Prop} {es : List Event} {img img' : Image} (h0 : P img)
    (hw : ∀ x, .write x ∈ es → ∀ i : Image, P i → P (i.apply x))
    (hset : Settle (Atomic (crashEnd img [] es).1) (crashEnd img [] es).1 (crashEnd img [] es).2
      img') : P img' := by
  have hsplit : ∀ (es : List Event) (base : Image) (pend : List Write), P base →
      (∀ x, x ∈ pend ∨ .write x ∈ es → ∀ i : Image, P i → P (i.apply x)) →
      P (crashEnd base pend es).1 ∧
        ∀ x ∈ (crashEnd base pend es).2, ∀ i : Image, P i → P (i.apply x) := by
    intro es
    induction es with
    | nil => exact fun base pend hb hx => ⟨hb, fun x hm => hx x (Or.inl hm)⟩
    | cons e es ih =>
      intro base pend hb hx
      cases e with
      | write x =>
        refine ih base (pend ++ [x]) hb fun y hy => hx y ?_
        rcases hy with hy | hy
        · rcases List.mem_append.mp hy with hy | hy
          · exact Or.inl hy
          · exact Or.inr (List.mem_singleton.mp hy ▸ List.mem_cons_self)
        · exact Or.inr (List.mem_cons_of_mem _ hy)
      | flush =>
        refine ih (base.applyAll pend) [] (Image.applyAll_preserves hb fun x hm => hx x (Or.inl hm))
          fun y hy => hx y ?_
        rcases hy with hy | hy
        · cases hy
        · exact Or.inr (List.mem_cons_of_mem _ hy)
  obtain ⟨h1, h2⟩ := hsplit es img [] h0 fun x hx => by
    rcases hx with hx | hx
    · cases hx
    · exact hw x hx
  exact hset.preserves h1 h2

/-! ## 仕切り -/

section Gate

variable (gate : Option JournalFile → Prop) (A : Write → Prop) (J : JournalView → Prop)

/-- `boot` で始まった記録の、どの途中で見える journal が条件を満たしても、そこまでの書き込みは `A` である。 -/
structure Gated (boot w : World) : Prop where
  disk : w.disk = boot.disk.emit (devEvents w.trace)
  journal : w.journal = lastJournal boot.journal w.trace
  always : JournalAlways J w
  writes : ∀ pre, pre <+: w.trace → gate (lastJournal boot.journal pre) →
    gate boot.journal ∧ ∀ x, WorldEvent.dev (.write x) ∈ pre → A x

/-- さらに、いまの journal が `Q` を満たす。 -/
def GatedAt (Q : Option JournalFile → Prop) (boot w : World) : Prop :=
  Gated gate A J boot w ∧ Q w.journal

variable {gate A J} {boot w : World} {Q R : Option JournalFile → Prop}

namespace Gated

/-- 起動したところ。 -/
theorem start (htrace : w.trace = []) (hJ : ∀ f, w.journal = some f → J f.view) :
    Gated gate A J w w where
  disk := by
    rw [htrace]
    exact (Disk.emit_nil _).symm
  journal := by
    rw [htrace]
    rfl
  always := ⟨hJ, fun f hf => by simp [htrace] at hf⟩
  writes := by
    intro pre hpre hgate
    rw [htrace, List.prefix_nil] at hpre
    subst hpre
    exact ⟨hgate, fun x hx => by cases hx⟩

theorem sizeBytes (h : Gated gate A J boot w) : w.disk.sizeBytes = boot.disk.sizeBytes := by
  rw [h.disk]
  rfl

/-- いまの journal が条件を満たすなら、これまでの書き込みはすべて `A` である。 -/
theorem all (h : Gated gate A J boot w) (hgate : gate w.journal) :
    gate boot.journal ∧ ∀ x, WorldEvent.dev (.write x) ∈ w.trace → A x :=
  h.writes w.trace (List.prefix_refl _) (h.journal ▸ hgate)

/-- `A` の書き込みが保つ性質は、条件が満たされているあいだ成り立つ。 -/
theorem holds {P : Image → Prop} (h : Gated gate A J boot w) (hgate : gate w.journal)
    (hboot : gate boot.journal → P boot.disk.data) (hP : ∀ x, A x → ∀ i : Image, P i → P (i.apply x)) :
    P w.disk.data := by
  obtain ⟨hopen, hall⟩ := h.all hgate
  rw [h.disk, Disk.emit_data]
  exact replay_preserves (hboot hopen) fun x hx => hP x (hall x (mem_devEvents.mp hx))

/-- **途中で止まった世界で条件が満たされていれば、そこに残る像も `A` の書き込みだけによる。** -/
theorem crash {P : Image → Prop} {v : World} (h : Gated gate A J boot w)
    (hc : CrashWorld boot w.trace v) (hgate : gate v.journal)
    (hboot : gate boot.journal → P boot.disk.data) (hP : ∀ x, A x → ∀ i : Image, P i → P (i.apply x)) :
    P v.disk.data := by
  obtain ⟨pre, hpre, img, hset, rfl⟩ := hc
  obtain ⟨hopen, hall⟩ := h.writes pre hpre hgate
  exact crashImage_preserves (hboot hopen) (fun x hx => hP x (hall x (mem_devEvents.mp hx))) hset

/-- device への操作を一つ足す。 -/
theorem dev (h : Gated gate A J boot w) {e : Event}
    (hA : ∀ x, e = .write x → gate w.journal → A x) : Gated gate A J boot (w.emit [e]) where
  disk := by
    rw [World.emit_disk, World.emit_trace, devEvents_append, devEvents_map_dev, h.disk, Disk.emit_emit]
  journal := by
    rw [World.emit_journal, World.emit_trace, lastJournal_append, ← h.journal]
    rfl
  always := by
    refine ⟨h.always.now, fun f hf => ?_⟩
    rw [World.emit_trace] at hf
    rcases List.mem_append.mp hf with hf | hf
    · exact h.always.past f hf
    · simp at hf
  writes := by
    intro pre hpre hgate
    rw [World.emit_trace, List.map_cons, List.map_nil, List.prefix_concat_iff] at hpre
    rcases hpre with rfl | hpre
    · -- 操作をし終えたところ。見える journal は変わらない
      have hnow : gate w.journal := by
        rwa [lastJournal_append, ← h.journal] at hgate
      obtain ⟨hopen, hall⟩ := h.all hnow
      refine ⟨hopen, fun x hx => ?_⟩
      rcases List.mem_append.mp hx with hx | hx
      · exact hall x hx
      · simp only [List.mem_singleton, WorldEvent.dev.injEq] at hx
        exact hA x hx.symm hnow
    · exact h.writes pre hpre hgate

/-- journal への操作を足す。新しい journal が条件を満たすのは、いまの journal が満たすときに限る。 -/
theorem journals (h : Gated gate A J boot w) {js : List JournalFile} {j : Option JournalFile}
    (hlast : lastJournal w.journal (js.map .journal) = j) (hJ : ∀ f ∈ js, J f.view)
    (hgate : ∀ f ∈ js, gate (some f) → gate w.journal) :
    Gated gate A J boot { w with journal := j, trace := w.trace ++ js.map .journal } where
  disk := by
    show w.disk = boot.disk.emit (devEvents (w.trace ++ js.map .journal))
    rw [devEvents_append, devEvents_map_journal, List.append_nil]
    exact h.disk
  journal := by
    show j = lastJournal boot.journal (w.trace ++ js.map .journal)
    rw [lastJournal_append, ← h.journal, hlast]
  always := by
    refine ⟨fun f hf => ?_, fun f hf => ?_⟩
    · change j = some f at hf
      rcases lastJournal_cases w.journal (js.map .journal) with hc | ⟨k, hk, hc⟩
      · exact h.always.now f (by rw [← hc, hlast, hf])
      · rw [hlast, hf] at hc
        cases hc
        obtain ⟨f', hf', he⟩ := List.mem_map.mp hk
        cases he
        exact hJ _ hf'
    · rcases List.mem_append.mp hf with hf | hf
      · exact h.always.past f hf
      · obtain ⟨f', hf', he⟩ := List.mem_map.mp hf
        cases he
        exact hJ _ hf'
  writes := by
    intro pre hpre hopen
    rcases List.prefix_or_prefix_of_prefix hpre (List.prefix_append w.trace _) with hold | hnew
    · exact h.writes pre hold hopen
    · -- journal への操作の途中。書き込みは増えていない
      obtain ⟨t, rfl⟩ := hnew
      have ht : ∀ e ∈ t, ∃ f ∈ js, WorldEvent.journal f = e := fun e he =>
        List.mem_map.mp (((List.prefix_append_right_inj _).mp hpre).subset he)
      have hnow : gate w.journal := by
        rw [lastJournal_append, ← h.journal] at hopen
        rcases lastJournal_cases w.journal t with hc | ⟨f, hf, hc⟩
        · rwa [hc] at hopen
        · obtain ⟨f', hf', he⟩ := ht _ hf
          cases he
          exact hgate _ hf' (hc ▸ hopen)
      obtain ⟨hboot, hall⟩ := h.all hnow
      refine ⟨hboot, fun x hx => ?_⟩
      rcases List.mem_append.mp hx with hx | hx
      · exact hall x hx
      · obtain ⟨f, -, he⟩ := ht _ hx
        cases he

end Gated

/-! ## 操作の規則 -/

theorem gatedAt_write {off : Nat} {bytes : Bytes} {P E : World → Prop}
    (hP : ∀ w, P w → GatedAt gate A J Q boot w ∧ (gate w.journal → A ⟨off, bytes⟩))
    (hE : ∀ w, P w → E w) :
    Triple P (write off bytes) (fun _ => GatedAt gate A J Q boot) E := by
  refine Triple.stepping (fun w w' h hw => ?_) hE
  obtain ⟨⟨hg, hq⟩, hA⟩ := hP w h
  obtain ⟨d, hd, hw⟩ := Result.bind_eq_ok hw
  obtain ⟨-, -, rfl⟩ := Disk.writeExact_eq_ok_iff.mp hd
  cases hw
  exact ⟨hg.dev (fun x hx => by cases hx; exact hA), hq⟩

theorem gatedAt_flush : Keeps (GatedAt gate A J Q boot) flush := by
  refine Triple.stepping (fun w w' h hw => ?_) fun _ h => h
  obtain ⟨d, hd, hw⟩ := Result.bind_eq_ok hw
  cases hd
  cases hw
  exact ⟨h.1.dev (fun x hx => by cases hx), h.2⟩

/-- journal への操作。書く状態が条件を満たすのは、いまの journal が満たすときに限る。 -/
theorem gatedAt_journalOp {op : JournalOp} {E : World → Prop}
    (hop : ∀ f : JournalFile, Q (some f) → J f.view →
      (∀ v ∈ op.states f.view, J v ∧ (gate (some { f with view := v }) → gate (some f))) ∧
        R (some { f with view := op.result f.view }))
    (hE : ∀ w, GatedAt gate A J Q boot w → E w) :
    Triple (GatedAt gate A J Q boot) (journalOp op) (fun _ => GatedAt gate A J R boot) E := by
  refine Triple.stepping (fun w w' h hw => ?_) hE
  cases hj : w.journal with
  | none =>
    rw [hj] at hw
    cases hw
  | some f =>
    rw [hj] at hw
    obtain ⟨f', hstep, hw'⟩ := Result.bind_eq_ok hw
    cases hw'
    obtain ⟨hstates, hR⟩ := hop f (hj ▸ h.2) (h.1.always.now f hj)
    have hf' : f' = { f with view := op.result f.view } := by
      unfold JournalFile.step at hstep
      split at hstep
      · cases hstep
      · cases hstep
        rfl
    subst hf'
    refine ⟨?_, hR⟩
    have hjs := @Gated.journals gate A J boot w h.1 ((op.states f.view).map fun v => { f with view := v })
      (some { f with view := op.result f.view }) rfl ?_ ?_
    · rwa [List.map_map] at hjs
    · intro k hk
      obtain ⟨v, hv, rfl⟩ := List.mem_map.mp hk
      exact (hstates v hv).1
    · intro k hk
      obtain ⟨v, hv, rfl⟩ := List.mem_map.mp hk
      rw [hj]
      exact (hstates v hv).2

end Gate

/-! ## 手続きが保つもの -/

/-- device へのどの操作も、`Ok` な journal への操作も、`I` を保つ。 -/
structure Carries (Ok : JournalOp → Prop) (I : World → Prop) : Prop where
  write : ∀ off bytes, Keeps I (write off bytes)
  flush : Keeps I flush
  journal : ∀ op, Ok op → Keeps I (journalOp op)

namespace Carries

variable {Ok : JournalOp → Prop} {I : World → Prop} (hI : Carries Ok I)
include hI

theorem keeps_markFilesystemState {clean : Bool} : Keeps I (markFilesystemState clean) :=
  Triple.bind keeps_device fun _ => Triple.bind (hI.write _ _) fun _ => hI.flush

theorem keeps_rewriteSpans {ctx : MetadataContext} {allocate : Bool} :
    ∀ spans : List GroupSpan, Keeps I (rewriteSpans ctx allocate spans)
  | [] => Triple.pure fun _ h => h
  | _ :: rest => by
    refine Triple.bind ?_ fun _ => keeps_rewriteSpans rest
    exact Triple.bind keeps_device fun _ => Triple.bind (hI.write _ _) fun _ => hI.write _ _

theorem keeps_setAllocationRange {ctx : MetadataContext} {start length : Nat} {allocate : Bool} :
    Keeps I (setAllocationRange ctx start length allocate) := by
  refine Triple.ite (fun _ => Triple.pure fun _ h => h) fun _ => ?_
  exact Triple.guard (fun _ h => h) fun _ =>
    Triple.bind (hI.keeps_rewriteSpans _) fun _ => hI.flush

theorem keeps_emitUpdate : ∀ u : Option Write, Keeps I (emitUpdate u)
  | none => Triple.pure fun _ h => h
  | some _ => Triple.bind (hI.write _ _) fun _ => hI.flush

theorem keeps_refreshTreeCopy {ctx : MetadataContext} {m : OwnerMove} :
    Keeps I (refreshTreeCopy ctx m) := by
  refine Triple.bind keeps_device fun _ => Triple.bind (hI.write _ _) fun _ =>
    Triple.bind hI.flush fun _ => Triple.bind keeps_device fun _ => ?_
  exact Triple.ite (fun _ => Triple.throw fun _ h => h) fun _ => Triple.pure fun _ h => h

theorem keeps_writeBackupSupers {ctx : MetadataContext} {primary : Bytes} :
    ∀ n g, Keeps I (writeBackupSupers ctx primary n g)
  | 0, _ => Triple.pure fun _ h => h
  | n + 1, g => by
    refine Triple.ite (fun _ => ?_) fun _ => keeps_writeBackupSupers n (g + 1)
    exact Triple.bind keeps_device fun _ => Triple.bind (hI.write _ _) fun _ =>
      keeps_writeBackupSupers n (g + 1)

theorem keeps_writeSuperCopies {ctx : MetadataContext} {primary : Bytes} :
    Keeps I (writeSuperCopies ctx primary) := by
  refine Triple.guard (fun _ h => h) fun _ => Triple.guard (fun _ h => h) fun _ => ?_
  exact Triple.bind (hI.write _ _) fun _ =>
    Triple.bind (hI.keeps_writeBackupSupers _ _) fun _ => hI.flush

theorem keeps_writeBackupDescs {ctx : MetadataContext} {super desc : Bytes} {descGroup : Nat} :
    ∀ n g, Keeps I (writeBackupDescs ctx super descGroup desc n g)
  | 0, _ => Triple.pure fun _ h => h
  | n + 1, g => by
    refine Triple.ite (fun _ => ?_) fun _ => keeps_writeBackupDescs n (g + 1)
    exact Triple.bind keeps_device fun _ => Triple.bind (hI.write _ _) fun _ =>
      keeps_writeBackupDescs n (g + 1)

theorem keeps_shrinkTail {ctx : MetadataContext} {raw : Bytes} {target : Nat} :
    Keeps I (shrinkTail ctx raw target) := by
  refine Triple.bind keeps_device fun u => ?_
  refine Triple.bind (hI.write _ _) fun _ => Triple.bind (hI.write _ _) fun _ => ?_
  refine Triple.bind ?_ fun _ => hI.flush
  refine Triple.guard (fun _ h => h) fun _ => Triple.guard (fun _ h => h) fun _ => ?_
  exact hI.keeps_writeBackupDescs _ _

variable (happend : ∀ r, Ok (.appendBatch [r]))
include happend

theorem keeps_reserveDestination {ctx : MetadataContext} {m : OwnerMove} {dst : RangeState} :
    Keeps I (reserveDestination ctx m dst) := by
  refine Triple.ite (fun _ => Triple.pure fun _ h => h) fun _ => Triple.guard (fun _ h => h) fun _ => ?_
  exact Triple.bind hI.keeps_setAllocationRange fun _ => hI.journal _ (happend _)

theorem keeps_switchOwner {srt : StdSort} {ctx : MetadataContext} {bs : Nat} {m : OwnerMove}
    {stored : UInt32} : Keeps I (switchOwner srt ctx bs m stored) := by
  unfold switchOwner
  cases m.kind with
  | dataExtent =>
    exact Triple.bind keeps_device fun _ => Triple.bind (Triple.bind keeps_device fun _ =>
      hI.keeps_emitUpdate _) fun _ => hI.journal _ (happend _)
  | extentTreeBlock =>
    exact Triple.bind hI.keeps_refreshTreeCopy fun _ => Triple.bind (Triple.bind keeps_device fun _ =>
      hI.keeps_emitUpdate _) fun _ => hI.journal _ (happend _)

theorem keeps_releaseSource {ctx : MetadataContext} {m : OwnerMove} :
    Keeps I (releaseSource ctx m) := by
  refine Triple.bind keeps_device fun _ => Triple.ite (fun _ => Triple.pure fun _ h => h) fun _ =>
    Triple.guard (fun _ h => h) fun _ => ?_
  exact Triple.bind hI.keeps_setAllocationRange fun _ => hI.journal _ (happend _)

theorem keeps_commitMove {srt : StdSort} {ctx : MetadataContext} {bs : Nat} {m : OwnerMove}
    {stored : UInt32} : Keeps I (commitMove srt ctx bs m stored) := by
  refine Triple.bind keeps_device fun p => ?_
  refine Triple.bind (hI.keeps_reserveDestination happend) fun _ => Triple.ite (fun _ => ?_) fun _ => ?_
  · exact Triple.bind (hI.keeps_switchOwner happend) fun _ =>
      Triple.bind (hI.keeps_releaseSource happend) fun _ => hI.journal _ (happend _)
  · exact Triple.bind (hI.keeps_releaseSource happend) fun _ => hI.journal _ (happend _)

theorem keeps_commitMoves (hpause : Ok (.checkpoint .metadataPaused)) {host : Host}
    {ctx : MetadataContext} {bs : Nat} {records : List JournalRecord} :
    ∀ (ms : List OwnerMove) (i : Nat) (report : CommitReport),
      Keeps I (commitMoves host ctx bs records i ms report)
  | [], _, _ => Triple.pure fun _ h => h
  | m :: rest, i, report => by
    refine Triple.ite (fun _ => ?_) fun _ => ?_
    · exact Triple.bind (hI.journal _ hpause) fun _ => Triple.pure fun _ h => h
    · exact Triple.bind (hI.keeps_commitMove happend) fun _ =>
        keeps_commitMoves hpause rest (i + 1) _

theorem keeps_finishCommit (hcompact : Ok (.checkpoint .compacted)) {host : Host}
    {opts : CommitOptions} {report : CommitReport} : Keeps I (finishCommit host opts report) := by
  have hend : Keeps I (do
      checkpoint .compacted
      pure { report with
        filesystemClean := report.filesystemClean || !opts.leaveFilesystemDirty
        complete := true } : EngineM CommitReport) :=
    Triple.bind (hI.journal _ hcompact) fun _ => Triple.pure fun _ h => h
  have hclean : Keeps I (if opts.leaveFilesystemDirty = false then do
        markFilesystemState true
        append (moveRecord .filesystemMarkedClean .blank)
        checkpoint .compacted
        pure { report with
          filesystemClean := report.filesystemClean || !opts.leaveFilesystemDirty
          complete := true }
      else do
        checkpoint .compacted
        pure { report with
          filesystemClean := report.filesystemClean || !opts.leaveFilesystemDirty
          complete := true } : EngineM CommitReport) :=
    Triple.ite (fun _ => Triple.bind hI.keeps_markFilesystemState fun _ =>
      Triple.bind (hI.journal _ (happend _)) fun _ => hend) fun _ => hend
  unfold finishCommit
  refine Triple.ite (fun _ => ?_) fun _ => hclean
  exact Triple.bind keeps_device fun _ => Triple.guard (fun _ h => h) fun _ => hclean

theorem keeps_completeFinalize (hshrunk : Ok (.checkpoint .filesystemShrunk)) {host : Host}
    {ctx : MetadataContext} {shrunk : Bytes} {state : Nat} :
    Keeps I (completeFinalize host ctx shrunk state) := by
  refine Triple.bind hI.keeps_writeSuperCopies fun _ => Triple.bind keeps_device fun _ => ?_
  refine Triple.guard (fun _ h => h) fun _ => Triple.bind keeps_device fun _ => ?_
  exact Triple.bind hI.keeps_writeSuperCopies fun _ =>
    Triple.bind (hI.journal _ (happend _)) fun _ => hI.journal _ hshrunk

end Carries

end Fsx.Ext4
