import Fsx.Core.Hoare
import Fsx.Ext4.Geometry
import Fsx.Ext4.Resize

/-!
# superblock とその写しの書き込み

`write_super_copies` は、番地も内容も書く前に決まった write の列と、最後の flush である。
書ける device の上では失敗しない。
-/

namespace Fsx.Ext4

open Engine

/-! ## 操作が保つもの -/

/-- device への操作と journal への操作が保つ性質。 -/
structure Steady (I : World → Prop) : Prop where
  dev : ∀ (w : World) (d : Disk) (es : List Event), I w →
    I { w with disk := d, trace := w.trace ++ es.map .dev }
  journal : ∀ (w : World) (j j' : JournalFile) (op : JournalOp) (es : List WorldEvent), I w →
    w.journal = some j → j.step op = .ok j' → I { w with journal := some j', trace := w.trace ++ es }

theorem keeps_device {α : Type} {I : World → Prop} {f : Disk → Result α} :
    Proc.Keeps I (device f) :=
  Proc.Triple.reading (fun _ _ h _ => h) fun _ h => h

namespace Steady

variable {I : World → Prop} (hI : Steady I)
include hI

theorem keeps_write {off : Nat} {bytes : Bytes} : Proc.Keeps I (write off bytes) := by
  refine Proc.Triple.stepping (fun w w' h hw => ?_) fun _ h => h
  obtain ⟨d, -, hd⟩ := Result.bind_eq_ok hw
  cases hd
  exact hI.dev w d [.write ⟨off, bytes⟩] h

theorem keeps_flush : Proc.Keeps I flush := by
  refine Proc.Triple.stepping (fun w w' h hw => ?_) fun _ h => h
  obtain ⟨d, -, hd⟩ := Result.bind_eq_ok hw
  cases hd
  exact hI.dev w d [.flush] h

theorem keeps_journalOp {op : JournalOp} : Proc.Keeps I (journalOp op) := by
  refine Proc.Triple.stepping (fun w w' h hw => ?_) fun _ h => h
  cases hj : w.journal with
  | none =>
    rw [hj] at hw
    cases hw
  | some j =>
    rw [hj] at hw
    obtain ⟨j', hstep, hw'⟩ := Result.bind_eq_ok hw
    cases hw'
    exact hI.journal w j j' op _ h hj hstep

theorem keeps_writeBackupSupers {ctx : MetadataContext} {primary : Bytes} :
    ∀ n g, Proc.Keeps I (writeBackupSupers ctx primary n g)
  | 0, _ => Proc.Triple.pure fun _ h => h
  | n + 1, g => by
    refine Proc.Triple.ite (fun _ => ?_) fun _ => keeps_writeBackupSupers n (g + 1)
    exact Proc.Triple.bind keeps_device fun _ => Proc.Triple.bind hI.keeps_write fun _ =>
      keeps_writeBackupSupers n (g + 1)

theorem keeps_writeSuperCopies {ctx : MetadataContext} {primary : Bytes} :
    Proc.Keeps I (writeSuperCopies ctx primary) := by
  refine Proc.Triple.guard (fun _ h => h) fun _ => Proc.Triple.guard (fun _ h => h) fun _ => ?_
  exact Proc.Triple.bind hI.keeps_write fun _ =>
    Proc.Triple.bind (hI.keeps_writeBackupSupers _ _) fun _ => hI.keeps_flush

theorem keeps_writeBackupDescs {ctx : MetadataContext} {super desc : Bytes} {descGroup : Nat} :
    ∀ n g, Proc.Keeps I (writeBackupDescs ctx super descGroup desc n g)
  | 0, _ => Proc.Triple.pure fun _ h => h
  | n + 1, g => by
    refine Proc.Triple.ite (fun _ => ?_) fun _ => keeps_writeBackupDescs n (g + 1)
    exact Proc.Triple.bind keeps_device fun _ => Proc.Triple.bind hI.keeps_write fun _ =>
      keeps_writeBackupDescs n (g + 1)

theorem keeps_shrinkTail {ctx : MetadataContext} {raw : Bytes} {target : Nat} :
    Proc.Keeps I (shrinkTail ctx raw target) := by
  refine Proc.Triple.bind keeps_device fun u => ?_
  refine Proc.Triple.bind hI.keeps_write fun _ => Proc.Triple.bind hI.keeps_write fun _ => ?_
  refine Proc.Triple.bind ?_ fun _ => hI.keeps_flush
  refine Proc.Triple.guard (fun _ h => h) fun _ => Proc.Triple.guard (fun _ h => h) fun _ => ?_
  exact hI.keeps_writeBackupDescs _ _

theorem keeps_completeFinalize {host : Host} {ctx : MetadataContext} {shrunk : Bytes}
    {state : Nat} : Proc.Keeps I (completeFinalize host ctx shrunk state) := by
  refine Proc.Triple.bind hI.keeps_writeSuperCopies fun _ => Proc.Triple.bind keeps_device fun _ => ?_
  refine Proc.Triple.guard (fun _ h => h) fun _ => Proc.Triple.bind keeps_device fun _ => ?_
  exact Proc.Triple.bind hI.keeps_writeSuperCopies fun _ =>
    Proc.Triple.bind hI.keeps_journalOp fun _ => hI.keeps_journalOp

end Steady

/-! ## 写しの列 -/

/-- 写しを持つ group に書くもの。`n` は残りの group の数である。 -/
def backupSupers (ctx : MetadataContext) (primary : Bytes) : Nat → Nat → List Write
  | 0, _ => []
  | n + 1, g =>
    (if groupHasSuper primary g then (backupSuper ctx primary g).toOption.toList else [])
      ++ backupSupers ctx primary n (g + 1)

/-- `write_super_copies` が書くもの。 -/
def superCopies (ctx : MetadataContext) (primary : Bytes) : List Write :=
  ⟨1024, primary⟩ :: backupSupers ctx primary (ctx.sb.groupsCount - 1) 1

/-- `write_super_copies` が device に残す event。 -/
def superEvents (ctx : MetadataContext) (primary : Bytes) : List Event :=
  (superCopies ctx primary).map .write ++ [.flush]

theorem updateSuperblockChecksum_of_length {raw : Bytes} (h : raw.length = 1024) :
    ∃ raw', updateSuperblockChecksum raw = .ok raw' ∧ raw'.length = 1024 := by
  unfold updateSuperblockChecksum
  rw [if_neg (by omega)]
  split
  · exact ⟨raw, rfl, h⟩
  · exact ⟨_, rfl, by rw [length_writeLe, h]⟩

section Accepted

variable {ctx : MetadataContext} {size : Nat} {primary : Bytes}

/-- 写しの置き場所は、group の先頭の block の中にある。 -/
theorem backupSuper_ok (ha : ctx.sb.Accepted size) (hsize : size < 2 ^ 63)
    (hlen : primary.length = 1024) {g : Nat} (hg : g < ctx.sb.groupsCount) :
    ∃ copy, backupSuper ctx primary g = .ok ⟨ctx.sb.groupStartBlock g * ctx.sb.blockSize, copy⟩ ∧
      copy.length = 1024 ∧ ctx.sb.groupStartBlock g * ctx.sb.blockSize + 1024 ≤ size := by
  have hstart := ha.groupStartBlock_eq hsize hg
  have hlt := ha.lt_groupsCount_iff.mp hg
  have hblocks := ha.blocks_lt hsize
  have hge := ha.blockSize_ge
  have hfits := ha.fits
  have hin : ctx.sb.groupStartBlock g < ctx.sb.blocksCount := by omega
  have hmul : (ctx.sb.groupStartBlock g + 1) * ctx.sb.blockSize
      ≤ ctx.sb.blocksCount * ctx.sb.blockSize := Nat.mul_le_mul_right _ hin
  rw [Nat.succ_mul] at hmul
  obtain ⟨copy, hcopy, hclen⟩ := @updateSuperblockChecksum_of_length (writeLe 2 primary 0x5a g)
    (by rw [length_writeLe, hlen])
  refine ⟨copy, ?_, hclen, by omega⟩
  unfold backupSuper
  dsimp only
  rw [if_neg, hcopy]
  · rfl
  · rw [not_or, Nat.not_le, Nat.not_lt, Nat.le_div_iff_mul_le (by omega)]
    unfold u64Max
    omega

theorem run_writeBackupSupers (ha : ctx.sb.Accepted size) (hsize : size < 2 ^ 63)
    (hlen : primary.length = 1024) : ∀ (n g : Nat) (w : World), g + n ≤ ctx.sb.groupsCount →
    w.disk.writable = true → w.disk.sizeBytes = size →
    Proc.run (writeBackupSupers ctx primary n g) w =
      (.ok (), w.emit ((backupSupers ctx primary n g).map .write))
  | 0, _, w, _, _, _ => by
    unfold writeBackupSupers backupSupers
    rw [List.map_nil, World.emit_nil]
    rfl
  | n + 1, g, w, hg, hw, hs => by
    unfold writeBackupSupers backupSupers
    by_cases hb : groupHasSuper primary g = true
    · obtain ⟨copy, hcopy, hclen, hin⟩ := backupSuper_ok ha hsize hlen (g := g) (by omega)
      rw [if_pos hb, if_pos hb, hcopy]
      rw [run_device_bind (by rfl),
        Proc.run_bind_ok (run_write_ok hw (by rw [hclen, hs]; exact hin))]
      refine (run_writeBackupSupers ha hsize hlen n (g + 1)
        (w.emit [.write ⟨ctx.sb.groupStartBlock g * ctx.sb.blockSize, copy⟩])
        (by omega) hw hs).trans ?_
      rw [World.emit_emit]
      rfl
    · rw [if_neg hb, if_neg hb, List.nil_append]
      exact run_writeBackupSupers ha hsize hlen n (g + 1) w (by omega) hw hs

/-- 書ける device の上では、`write_super_copies` は決まった列を書いて終わる。 -/
theorem run_writeSuperCopies {w : World} (ha : ctx.sb.Accepted w.disk.sizeBytes)
    (hsize : 2048 ≤ w.disk.sizeBytes) (hlen : primary.length = 1024)
    (hw : w.disk.writable = true) :
    Proc.run (writeSuperCopies ctx primary) w = (.ok (), w.emit (superEvents ctx primary)) := by
  have hge := ha.blockSize_ge
  have hpos := Nat.pos_of_ne_zero ha.groups_pos
  have hloop := run_writeBackupSupers ha w.disk.size_lt hlen (ctx.sb.groupsCount - 1) 1
    (w.emit [.write ⟨1024, primary⟩]) (by omega) hw rfl
  unfold writeSuperCopies
  rw [if_neg (by omega), if_neg (not_not.mpr hlen),
    Proc.run_bind_ok (run_write_ok hw (by omega)), Proc.run_bind_ok hloop, run_flush,
    World.emit_emit, World.emit_emit]
  rfl

/-- 書けない device の上では、`write_super_copies` は何も書かずに失敗する。 -/
theorem run_writeSuperCopies_readonly {w : World} (hw : w.disk.writable = false) :
    ∃ e, Proc.run (writeSuperCopies ctx primary) w = (.error e, w) := by
  unfold writeSuperCopies
  by_cases hbs : ctx.sb.blockSize = 0
  · rw [if_pos hbs]
    exact ⟨_, rfl⟩
  · by_cases hlen : primary.length ≠ 1024
    · rw [if_neg hbs, if_pos hlen]
      exact ⟨_, rfl⟩
    · obtain ⟨e, he⟩ := @run_write_readonly _ 1024 primary hw
      rw [if_neg hbs, if_neg hlen]
      exact ⟨e, Proc.run_bind_error he⟩

end Accepted

theorem stateUpdate_false {d : Disk} {sbraw raw : Bytes} (hraw : readRawSuperblock d = .ok sbraw)
    (h : updateSuperblockChecksum (writeLe 2 sbraw 0x3a (readLe 2 sbraw 0x3a &&& 0xfffe)) = .ok raw) :
    stateUpdate d false = .ok raw := by
  unfold stateUpdate
  rw [hraw]
  exact h

theorem length_of_stateUpdate {d : Disk} {raw : Bytes} {clean : Bool}
    (h : stateUpdate d clean = .ok raw) : raw.length = 1024 ∧ 2048 ≤ d.sizeBytes := by
  unfold stateUpdate at h
  obtain ⟨sbraw, hsb, h⟩ := Result.bind_eq_ok h
  obtain ⟨hfit, hread⟩ := Disk.readExact_eq_ok_iff.mp hsb
  dsimp only at h
  have hlen : ∀ v, (writeLe 2 sbraw 0x3a v).length = 1024 := fun v => by
    rw [length_writeLe, hread, Image.length_read]
  obtain ⟨raw', h', hraw⟩ := updateSuperblockChecksum_of_length (hlen _)
  rw [h'] at h
  cases h
  exact ⟨hraw, hfit⟩

theorem replay_superEvents (img : Image) (ctx : MetadataContext) (raw : Bytes) :
    replay img (superEvents ctx raw) = img.applyAll (superCopies ctx raw) := by
  unfold superEvents
  rw [replay_append, replay_writes]
  rfl

/-! ## journal の伸び -/

/-- journal にあと一つ record を置ける。 -/
def JournalFile.HasRoom (j : JournalFile) : Prop := j.view.records.length < j.capacity

/-- 操作の後の record の数。 -/
theorem length_result (v : JournalView) (op : JournalOp) :
    (op.result v).records.length = v.records.length + journalCost op := by
  have hext : ∀ rs, (v.extend rs).records.length = v.records.length + rs.length := by
    intro rs
    show (v.records ++ TransactionJournal.numbered _ rs).length = _
    rw [List.length_append, TransactionJournal.length_numbered]
  cases op with
  | appendBatch rs => exact hext rs
  | checkpoint phase => exact hext _

/-- record を一つ置く操作は、空きがあるときに限って成功し、record が増える。 -/
theorem step_of_cost_one {j : JournalFile} {op : JournalOp} (hcost : journalCost op = 1) :
    (¬ j.HasRoom → ∀ j', j.step op ≠ .ok j') ∧
      (j.HasRoom → ∃ j', j.step op = .ok j' ∧ j.view.records.length < j'.view.records.length) := by
  unfold JournalFile.step JournalFile.HasRoom
  rw [hcost]
  constructor
  · intro h j' hj'
    rw [if_pos ⟨Nat.one_ne_zero, by omega⟩] at hj'
    cases hj'
  · intro h
    rw [if_neg (by omega)]
    refine ⟨_, rfl, ?_⟩
    show _ < (op.result j.view).records.length
    rw [length_result, hcost]
    exact Nat.lt_succ_self _

/-- journal の record が `n` 個より多い。 -/
def Grown (n : Nat) (j : Option JournalFile) : Prop := ∃ f, j = some f ∧ n < f.view.records.length

theorem grown_step {n : Nat} {j j' : JournalFile} {op : JournalOp} (h : j.step op = .ok j')
    (hj : n < j.view.records.length) : Grown n (some j') := by
  refine ⟨j', rfl, ?_⟩
  unfold JournalFile.step at h
  split at h
  · cases h
  · cases h
    show _ < (op.result j.view).records.length
    rw [length_result]
    omega

theorem steady_grown (n : Nat) : Steady fun w => Grown n w.journal where
  dev := fun _ _ _ h => h
  journal := by
    rintro w j j' op es ⟨f, hf, hn⟩ hj hstep
    cases hf.symm.trans hj
    exact grown_step hstep hn

/-- `finalize` の検査を通った journal は、device の大きさのほかは一致している。 -/
theorem checkFinalizeJournal_eq_ok {ctx : MetadataContext} {v : JournalView} {targetBytes : Nat}
    (h : checkFinalizeJournal ctx v targetBytes = .ok ()) :
    parseUuid ctx.sb.uuid = .ok v.identity.filesystemUuid ∧
      v.identity.targetSize.toNat = targetBytes ∧ (v.phase = .compacted ∨ v.phase = .staged) := by
  unfold checkFinalizeJournal at h
  obtain ⟨fu, hfu, h⟩ := Result.bind_eq_ok h
  simp only [Result.guard_bind_eq_ok_iff, Result.guard_eq_ok_iff, not_or, not_not] at h
  obtain ⟨⟨h1, h2⟩, h3, -⟩ := h
  refine ⟨by rw [hfu, h1], h2, ?_⟩
  rw [not_and_or, not_not, not_not] at h3
  exact h3

end Fsx.Ext4
