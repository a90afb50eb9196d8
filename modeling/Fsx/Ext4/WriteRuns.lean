import Fsx.Ext4.WritePlaces

/-!
# 収まる書き込みだけをする手続き

置き場所が収まるという条件のもとで、五つの呼び出しを書き込みの順に追い、どの時点までの記録も
filesystem の外への書き込みを含まないことを示す。移動の確定は途中で superblock を読み直すので、
幾何が変わらない間のことだけを言う。
-/

namespace Fsx.Ext4

open Proc Engine

/-! ## 世界の上の手続き -/

/-- いまの device が `boot` から記録どおりに来ていて、その記録が `Within` を満たす。 -/
def World.Within (C : Disk → Prop) (P : Write → Prop) (boot : Disk) (p : Prop) (w : World) : Prop :=
  w.disk = boot.emit (devEvents w.trace) ∧ Fsx.Within C P boot (devEvents w.trace) p

section Engine

variable {C : Disk → Prop} {P : Write → Prop} {boot : Disk} {p : Prop} {α : Type}

theorem within_mono {q : Prop} (hpq : p → q) (w : World) (h : World.Within C P boot p w) :
    World.Within C P boot q w := ⟨h.1, h.2.mono hpq⟩

/-- 記録に一つ加えた後の世界も、加えた記録が `Within` を満たせば同じことを満たす。 -/
theorem World.Within.emit {q : Prop} {w : World} {e : Event} (h : World.Within C P boot p w)
    (hw : Fsx.Within C P boot (devEvents w.trace ++ [e]) q) :
    World.Within C P boot q (w.emit [e]) := by
  have htrace : devEvents (w.emit [e]).trace = devEvents w.trace ++ [e] := by
    rw [World.emit_trace, devEvents_append, devEvents_map_dev]
  constructor
  · rw [htrace, World.emit_disk, h.1, Disk.emit_emit]
  · rw [htrace]
    exact hw

/-- 持ち越した事実を捨てる。 -/
theorem within_forget {prog : EngineM α} {I E : World → Prop}
    (h : Triple I prog (fun _ => World.Within C P boot p) E) :
    Triple I prog (fun _ => World.Within C P boot True) E :=
  h.mono (fun _ hw => hw) (fun _ => within_mono fun _ => trivial) fun _ hw => hw

/-- device を読む計算。 -/
theorem within_device {f : Disk → Result α} {q : α → Prop}
    (hf : ∀ d a, C d → d.sizeBytes = boot.sizeBytes → p → f d = .ok a → q a) :
    Triple (World.Within C P boot p) (device f) (fun a => World.Within C P boot (q a))
      (World.Within C P boot True) := by
  refine Triple.reading (fun w a h ha => ⟨h.1, h.2.now fun hc hp => ?_⟩) (within_mono fun _ => trivial)
  rw [h.1] at ha
  exact hf _ a hc rfl hp ha

/-- 読んだ値を問わないとき。 -/
theorem within_read {f : Disk → Result α} :
    Triple (World.Within C P boot p) (device f) (fun _ => World.Within C P boot p)
      (World.Within C P boot True) := within_device fun _ _ _ _ hp _ => hp

/-- 書き込みは、その書き込みについての `P` を持ち越していれば加えられる。 -/
theorem within_write {off : Nat} {bytes : Bytes} :
    Triple (World.Within C P boot (P ⟨off, bytes⟩ ∧ p)) (write off bytes)
      (fun _ => World.Within C P boot p) (World.Within C P boot True) := by
  refine Triple.stepping (fun w w' h hw => ?_) (within_mono fun _ => trivial)
  obtain ⟨d, hd, hw'⟩ := Result.bind_eq_ok hw
  obtain ⟨-, -, rfl⟩ := Disk.writeExact_eq_ok_iff.mp hd
  cases hw'
  exact h.emit h.2.write

theorem within_flush : Triple (World.Within C P boot p) flush (fun _ => World.Within C P boot p)
    (World.Within C P boot True) := by
  refine Triple.stepping (fun w w' h hw => ?_) (within_mono fun _ => trivial)
  obtain ⟨d, hd, hw'⟩ := Result.bind_eq_ok hw
  cases hd
  cases hw'
  exact h.emit h.2.flush

/-- journal の操作は device に書かない。 -/
theorem within_journalOp {op : JournalOp} :
    Triple (World.Within C P boot p) (journalOp op) (fun _ => World.Within C P boot p)
      (World.Within C P boot True) := by
  refine Triple.stepping (fun w w' h hw => ?_) (within_mono fun _ => trivial)
  cases hj : w.journal with
  | none =>
    rw [hj] at hw
    cases hw
  | some j =>
    rw [hj] at hw
    obtain ⟨j', -, hw'⟩ := Result.bind_eq_ok hw
    cases hw'
    have htrace : devEvents (w.trace ++ (op.states j.view).map fun v => .journal { j with view := v }) =
        devEvents w.trace := by
      rw [devEvents_append, devEvents_map_journal, List.append_nil]
    unfold World.Within
    dsimp only
    rw [htrace]
    exact h

end Engine

/-! ## 大きさの変更の部品 -/

section Parts

variable {C : Disk → Prop} {boot : Disk} {p : Prop} {ctx : MetadataContext} {primary : Bytes}
  {limit : Nat} (ha : ctx.sb.Accepted boot.sizeBytes)
  (hlim : ctx.sb.blocksCount * ctx.sb.blockSize ≤ limit)
include ha hlim

/-- superblock の写しは、group の先頭の block に収まる。 -/
theorem endsBy_superCopy {g : Nat} {copy : Bytes} (hg : ctx.sb.groupStartBlock g < ctx.sb.blocksCount)
    (hlen : primary.length = 1024)
    (h : updateSuperblockChecksum (writeLe 2 primary 0x5a g) = .ok copy) :
    EndsBy limit ⟨ctx.sb.groupStartBlock g * ctx.sb.blockSize, copy⟩ := by
  have hge := ha.blockSize_ge
  have hmul := mul_add_le_of_lt (k := ctx.sb.blockSize) hg
  unfold EndsBy
  rw [(sameFields_checksum h).1, length_writeLe, hlen]
  dsimp only
  omega

/-- superblock の写しは、持つ group の先頭に収まるので、どれも `limit` の手前で終わる。 -/
theorem within_writeBackupSupers (hlen : primary.length = 1024) : ∀ n g,
    Triple (World.Within C (EndsBy limit) boot p) (writeBackupSupers ctx primary n g)
      (fun _ => World.Within C (EndsBy limit) boot p) (World.Within C (EndsBy limit) boot True)
  | 0, _ => Triple.pure fun _ h => h
  | n + 1, g => by
    refine Triple.ite (fun _ => ?_) fun _ => within_writeBackupSupers hlen n (g + 1)
    refine Triple.bind (within_device (q := fun x => EndsBy limit x ∧ p) ?_) fun x =>
      Triple.bind within_write fun _ => within_writeBackupSupers hlen n (g + 1)
    intro d x _ _ hp hx
    unfold backupSuper at hx
    rw [Result.guard_bind_eq_ok_iff] at hx
    obtain ⟨copy, hcopy, hx⟩ := Result.bind_eq_ok hx.2
    cases hx
    exact ⟨endsBy_superCopy ha hlim (by omega) hlen hcopy, hp⟩

/-- primary と写しの書き込みは、primary が収まれば、どれも `limit` の手前で終わる。 -/
theorem within_writeSuperCopies (hroom : 2048 ≤ limit) :
    Triple (World.Within C (EndsBy limit) boot p) (writeSuperCopies ctx primary)
      (fun _ => World.Within C (EndsBy limit) boot p) (World.Within C (EndsBy limit) boot True) := by
  refine Triple.guard (within_mono fun _ => trivial) fun _ =>
    Triple.guard (within_mono fun _ => trivial) fun hlen => ?_
  refine Triple.bind (within_write.mono (within_mono fun hp => ⟨?_, hp⟩) (fun _ _ h => h)
    fun _ h => h) fun _ => Triple.bind (within_writeBackupSupers ha hlim (not_not.mp hlen) _ _)
    fun _ => within_flush
  unfold EndsBy
  rw [not_not.mp hlen]
  exact hroom

omit ha hlim in
/-- descriptor の写し。 -/
theorem within_writeBackupDescs {super desc : Bytes} {descGroup : Nat}
    (hdesc : p → desc.length = ctx.sb.descBytes)
    (hroom : ∀ k, k ≠ 0 → k < ctx.sb.groupsCount → groupHasSuper super k = true →
      (ctx.sb.groupStartBlock k + 1) * ctx.sb.blockSize + descGroup * ctx.sb.descBytes
        + ctx.sb.descBytes ≤ limit) : ∀ n g, g ≠ 0 → g + n ≤ ctx.sb.groupsCount →
    Triple (World.Within C (EndsBy limit) boot p) (writeBackupDescs ctx super descGroup desc n g)
      (fun _ => World.Within C (EndsBy limit) boot p) (World.Within C (EndsBy limit) boot True)
  | 0, _, _, _ => Triple.pure fun _ h => h
  | n + 1, g, hg, hn => by
    have hrest := within_writeBackupDescs hdesc hroom n (g + 1) (by omega) (by omega)
    refine Triple.ite (fun hsuper => ?_) fun _ => hrest
    refine Triple.bind (within_device (q := fun addr => EndsBy limit ⟨addr, desc⟩ ∧ p) ?_)
      fun addr => Triple.bind within_write fun _ => hrest
    intro d addr _ _ hp haddr
    unfold backupDescAddress at haddr
    simp only [Result.guard_bind_eq_ok_iff, Result.pure_eq_ok_iff] at haddr
    obtain ⟨-, -, rfl⟩ := haddr
    refine ⟨?_, hp⟩
    unfold EndsBy
    rw [hdesc hp]
    exact hroom g hg (by omega) hsuper

omit hlim in
/-- 末尾の group の bitmap・descriptor・descriptor の写し。 -/
theorem within_tailWrites {super : Bytes} {u : Write × Write}
    (hroom : DescRoom ctx.sb super limit (ctx.sb.groupsCount - 1)) :
    Triple (World.Within C (EndsBy limit) boot (TailInside limit ctx.sb (ctx.sb.groupsCount - 1) u))
      (do
        write u.1.off u.1.bytes
        write u.2.off u.2.bytes
        writeGroupDescBackups ctx super (ctx.sb.groupsCount - 1) u.2.bytes
        flush)
      (fun _ => World.Within C (EndsBy limit) boot True) (World.Within C (EndsBy limit) boot True) := by
  have hpos := Nat.pos_of_ne_zero ha.groups_pos
  refine Triple.bind (R := fun _ => World.Within C (EndsBy limit) boot
    (EndsBy limit u.2 ∧ u.2.bytes.length = ctx.sb.descBytes)) ?_ fun _ => ?_
  · exact within_write.mono (within_mono fun hu => ⟨hu.bitmap, hu.desc, hu.length⟩) (fun _ _ h => h)
      fun _ h => h
  · refine Triple.bind within_write fun _ => Triple.bind (R := fun _ =>
      World.Within C (EndsBy limit) boot (u.2.bytes.length = ctx.sb.descBytes)) ?_
      fun _ => within_forget within_flush
    refine Triple.guard (within_mono fun _ => trivial) fun _ =>
      Triple.guard (within_mono fun _ => trivial) fun _ => ?_
    exact within_writeBackupDescs id hroom.copies _ _ Nat.one_ne_zero (by omega)

end Parts

/-! ## 縮小と拡大 -/

section Resize

variable {d : Disk} {j : Option JournalFile} {sb : Superblock} {limit : Nat}
  (hsb : readSuperblock d = .ok sb) (hlim : sb.blocksCount * sb.blockSize ≤ limit)
  (hroom : 2048 ≤ limit) (hdesc : DescRoom sb (d.data.read 1024 1024) limit (sb.groupsCount - 1))

theorem within_start {C : Disk → Prop} {P : Write → Prop} : World.Within C P d True ⟨d, j, []⟩ :=
  ⟨(Disk.emit_nil d).symm, Within.nil trivial⟩

include hdesc

/-- dirty の印を付けても、descriptor の置き場所は変わらない。 -/
theorem descRoom_marked {sbraw raw : Bytes} {v : Nat} (hread : readRawSuperblock d = .ok sbraw)
    (hraw : updateSuperblockChecksum (writeLe 2 sbraw 0x3a v) = .ok raw) :
    DescRoom sb raw limit (sb.groupsCount - 1) := by
  have hsame := (sameFields_state sbraw v).trans (sameFields_checksum hraw)
  refine ⟨hdesc.primary, fun k h0 hk hsuper => hdesc.copies k h0 hk ?_⟩
  rw [← (Disk.readExact_eq_ok_iff.mp hread).2, ← hsame.groupHasSuper]
  exact hsuper

include hsb hlim hroom

/-- 縮小は、始めから終わりまで、あるいは失敗するまで、`limit` の外に書かない。 -/
theorem within_shrink {host : Host} {missing : Error} {targetBytes : Nat} {opts : FinalizeOptions} :
    Triple (fun w => w = ⟨d, j, []⟩) (finalizeMetadataOnlyShrink host missing targetBytes opts)
      (fun _ => World.Within (fun _ => True) (EndsBy limit) d True)
      (World.Within (fun _ => True) (EndsBy limit) d True) := by
  have hstart := @within_start d j (fun _ => True) (EndsBy limit)
  have hE : ∀ w, w = (⟨d, j, []⟩ : World) → World.Within (fun _ => True) (EndsBy limit) d True w := by
    rintro w rfl
    exact hstart
  refine Triple.guard hE fun _ => ?_
  refine Triple.reading_bind hstart fun _ _ => Triple.reading_bind hstart fun ctx hctx => ?_
  refine Triple.reading_bind hstart fun _ _ => Triple.reading_bind hstart fun _ _ => ?_
  refine Triple.reading_bind hstart fun sbraw hread => Triple.reading_bind hstart fun raw hraw => ?_
  have hctx : readSuperblock d = .ok ctx.sb := (checkFinalize_target hctx hread).2.1
  cases hsb.symm.trans hctx
  have ha := accepted_of_readSuperblock hsb
  have htail := descRoom_marked hdesc hread hraw
  have hsupers : ∀ primary, Triple (World.Within (fun _ => True) (EndsBy limit) d True)
      (writeSuperCopies ctx primary) (fun _ => World.Within (fun _ => True) (EndsBy limit) d True)
      (World.Within (fun _ => True) (EndsBy limit) d True) := fun _ =>
    within_writeSuperCopies ha hlim hroom
  refine (Triple.bind (R := fun _ => World.Within (fun _ => True) (EndsBy limit) d True) ?_
    fun _ => Triple.bind (R := fun _ => World.Within (fun _ => True) (EndsBy limit) d True) ?_
    fun _ => Triple.bind within_read fun shrunk => Triple.bind (hsupers _) fun _ => ?_).mono
    hE (fun _ _ h => h) fun _ h => h
  · exact Triple.bind (hsupers _) fun _ => Triple.bind within_journalOp fun _ => within_journalOp
  · refine Triple.bind (within_device fun d' u _ _ _ hu => ?_) fun u => within_tailWrites ha htail
    exact tailUpdate_inside hlim htail.primary hu
  · refine Triple.bind within_read fun _ => Triple.guard (fun _ h => h) fun _ => ?_
    refine Triple.bind within_read fun _ => Triple.bind (hsupers _) fun _ => ?_
    exact Triple.bind within_journalOp fun _ => within_journalOp

/-- 拡大は、始めから終わりまで、あるいは失敗するまで、`limit` の外に書かない。 -/
theorem within_grow {host : Host} {targetBytes : Nat} {opts : GrowOptions} :
    Triple (fun w => w = ⟨d, j, []⟩) (growWithinLastGroup host targetBytes opts)
      (fun _ => World.Within (fun _ => True) (EndsBy limit) d True)
      (World.Within (fun _ => True) (EndsBy limit) d True) := by
  have hstart := @within_start d j (fun _ => True) (EndsBy limit)
  have hE : ∀ w, w = (⟨d, j, []⟩ : World) → World.Within (fun _ => True) (EndsBy limit) d True w := by
    rintro w rfl
    exact hstart
  have hsupers : ∀ (ctx : MetadataContext) primary, ctx.sb = sb →
      Triple (World.Within (fun _ => True) (EndsBy limit) d True) (writeSuperCopies ctx primary)
        (fun _ => World.Within (fun _ => True) (EndsBy limit) d True)
        (World.Within (fun _ => True) (EndsBy limit) d True) := by
    rintro ctx primary rfl
    exact within_writeSuperCopies (accepted_of_readSuperblock hsb) hlim hroom
  refine Triple.bind (R := fun r w => World.Within (fun _ => True) (EndsBy limit) d True w ∧
    r.ctx.sb = sb) ?_ fun r w hw => ?_
  · refine Triple.reading_bind hstart fun _ _ => Triple.reading_bind hstart fun ctx hctx => ?_
    refine Triple.reading_bind hstart fun t ht => Triple.reading_bind hstart fun sbraw hread => ?_
    refine Triple.reading_bind hstart fun raw hraw => ?_
    obtain ⟨ctx', hload, hctx⟩ := Result.bind_eq_ok hctx
    simp only [Result.guard_bind_eq_ok_iff, Result.pure_eq_ok_iff] at hctx
    obtain ⟨-, -, -, -, -, -, -, -, -, rfl⟩ := hctx
    cases hsb.symm.trans (readSuperblock_of_loadMetadataContext hload)
    have htail := descRoom_marked hdesc hread hraw
    have hlast := lastGroup_of_readLastGroup ht
    refine (Triple.bind (hsupers ctx _ rfl) fun _ => Triple.bind (R := fun _ =>
      World.Within (fun _ => True) (EndsBy limit) d True) ?_ fun _ => Triple.bind within_read
      fun grown => Triple.bind (hsupers ctx _ rfl) fun _ => Triple.pure fun w hw => ⟨hw, rfl⟩).mono
      hE (fun _ _ h => h) fun _ h => h
    refine Triple.bind (within_device fun d' u _ _ _ hu => ?_) fun u =>
      within_tailWrites (accepted_of_readSuperblock hsb) htail
    exact grownTail_inside hlim htail.primary hlast.1 hlast.2 hu
  · have hlast : ∀ report : GrowReport, Triple (World.Within (fun _ => True) (EndsBy limit) d True)
        (do
          let clean ← device fun _ => updateSuperblockChecksum (writeLe 2 r.raw 0x3a (r.state ||| 1))
          writeSuperCopies r.ctx clean
          return report) (fun _ => World.Within (fun _ => True) (EndsBy limit) d True)
        (World.Within (fun _ => True) (EndsBy limit) d True) := fun report =>
      Triple.bind within_read fun _ => Triple.bind (hsupers r.ctx _ hw.2) fun _ =>
        Triple.pure fun _ h => h
    refine Triple.ite (fun _ => ?_) (fun _ => hlast _) w hw.1
    exact Triple.bind within_read fun _ => Triple.guard (fun _ h => h) fun _ => hlast _

end Resize

/-! ## 移動の確定 -/

/-- 確認の済んだ範囲は、filesystem の中にある。 -/
theorem start_lt_of_allocationState {d : Disk} {ctx : MetadataContext} {start length : Nat}
    {st : RangeState} (h : allocationState d ctx start length = .ok st) :
    start < ctx.sb.blocksCount := by
  unfold allocationState at h
  rw [Result.guard_bind_eq_ok_iff] at h
  omega

/-- 検査を通った移動の行き先は filesystem の中にある。 -/
theorem destination_lt_of_inspectMove {srt : StdSort} {d : Disk} {ctx : MetadataContext}
    {m : OwnerMove} {r : RangeState × Nat} (h : inspectMove srt d ctx m = .ok r) :
    m.destinationBlock < ctx.sb.blocksCount := by
  unfold inspectMove at h
  obtain ⟨src, -, h⟩ := Result.bind_eq_ok h
  obtain ⟨dst, hdst, -⟩ := Result.bind_eq_ok h
  exact start_lt_of_allocationState hdst

section Owners

variable {d : Disk} {size : Nat} {ctx : MetadataContext} {srt : StdSort} {m : OwnerMove}
  {newBlock limit : Nat} (ha : ctx.sb.Accepted size) (hsize : size < 2 ^ 63)
  (hlim : ctx.sb.blocksCount * ctx.sb.blockSize ≤ limit) (hgeo : SameGeometry ctx.sb d)
include ha hsize hlim hgeo

/-- data の持ち主の付け替えは、inode table か tree block の中で終わる。 -/
theorem dataOwnerUpdate_endsBy {u : Option Write}
    (h : dataOwnerUpdate srt d ctx m newBlock = .ok u) : ∀ x, u = some x → EndsBy limit x := by
  intro x hx
  unfold dataOwnerUpdate at h
  obtain ⟨e, he, h⟩ := Result.bind_eq_ok h
  obtain ⟨scan, hscan, hmem⟩ := findInodeExtent_ok he
  obtain ⟨sb, hsb, hleaf, -⟩ := scan_places hscan
  obtain ⟨hblocks, -⟩ := hgeo sb hsb
  rw [Result.guard_bind_eq_ok_iff] at h
  obtain ⟨-, h⟩ := h
  split at h
  · cases h
    cases hx
  · rw [Result.guard_bind_eq_ok_iff] at h
    obtain ⟨-, h⟩ := h
    split at h
    · obtain ⟨w, hw, h⟩ := Result.bind_eq_ok h
      cases h
      cases hx
      exact inodeEntryWrite_endsBy hlim ha hsize hw
    · next hkind =>
      obtain ⟨w, hw, h⟩ := Result.bind_eq_ok h
      cases h
      cases hx
      refine blockEntryWrite_endsBy hlim (fun b off => length_setLeafPhysical b off newBlock) ?_ hw
      exact mul_add_le_of_lt (hblocks ▸ hleaf e hmem hkind)

/-- tree block の親の付け替えは、inode table か親の block の中で終わる。 -/
theorem treeParentUpdate_endsBy {u : Option Write}
    (h : treeParentUpdate srt d ctx m newBlock = .ok u) : ∀ x, u = some x → EndsBy limit x := by
  intro x hx
  unfold treeParentUpdate at h
  obtain ⟨⟨t, generation⟩, ht, h⟩ := Result.bind_eq_ok h
  obtain ⟨scan, hscan, hmem⟩ := findTreeLocation_ok ht
  obtain ⟨sb, hsb, -, hparent⟩ := scan_places hscan
  obtain ⟨hblocks, hbs⟩ := hgeo sb hsb
  dsimp only at h
  split at h
  · cases h
    cases hx
  · rw [Result.guard_bind_eq_ok_iff] at h
    obtain ⟨-, h⟩ := h
    split at h
    · next haligned =>
      obtain ⟨w, hw, h⟩ := Result.bind_eq_ok h
      cases h
      cases hx
      refine blockEntryWrite_endsBy hlim (fun b off => length_setIndexChild b off newBlock) ?_ hw
      -- 親の番地は block の境目なので、その block の終わりも filesystem の中にある
      have hlt := hparent t hmem
      rw [hblocks, hbs] at hlt
      obtain ⟨k, hk⟩ := Nat.dvd_of_mod_eq_zero haligned
      rw [hk, Nat.mul_comm ctx.sb.blockSize] at hlt ⊢
      exact mul_add_le_of_lt (Nat.lt_of_mul_lt_mul_right hlt)
    · obtain ⟨w, hw, h⟩ := Result.bind_eq_ok h
      cases h
      cases hx
      exact inodeEntryWrite_endsBy hlim ha hsize hw

end Owners

section Commit

variable {boot : Disk} {p : Prop} {ctx : MetadataContext} {srt : StdSort} {limit : Nat}
  (hlim : ctx.sb.blocksCount * ctx.sb.blockSize ≤ limit)

/-- 確定の途中の世界。superblock の幾何が変わらない間の書き込みが、どれも収まっている。 -/
abbrev Committing (ctx : MetadataContext) (limit : Nat) (boot : Disk) (p : Prop) : World → Prop :=
  World.Within (SameGeometry ctx.sb) (EndsBy limit) boot p

include hlim

theorem within_rewriteSpans {allocate : Bool} : ∀ spans : List GroupSpan,
    (∀ s ∈ spans, ctx.sb.descOffset s.group + ctx.sb.descBytes ≤ limit) →
    Triple (Committing ctx limit boot p) (rewriteSpans ctx allocate spans)
      (fun _ => Committing ctx limit boot p) (Committing ctx limit boot True)
  | [], _ => Triple.pure fun _ h => h
  | s :: rest, hs => by
    refine Triple.bind ?_ fun _ =>
      within_rewriteSpans rest fun s' hs' => hs s' (List.mem_cons_of_mem _ hs')
    refine Triple.bind (within_device (q := fun u => EndsBy limit u.1 ∧ EndsBy limit u.2 ∧ p)
      fun d u _ _ hp hu => ?_) fun u => Triple.bind within_write fun _ => within_write
    have hin := groupUpdate_inside hlim (hs s List.mem_cons_self) hu
    exact ⟨hin.bitmap, hin.desc, hp⟩

/-- 割り当ての更新は、触れる group の descriptor が収まれば `limit` の外に書かない。 -/
theorem within_setAllocationRange {start length : Nat} {allocate : Bool}
    (hdesc : ∀ b, start ≤ b → b < start + length →
      ctx.sb.descOffset (ctx.sb.groupOf b) + ctx.sb.descBytes ≤ limit) :
    Triple (Committing ctx limit boot p) (setAllocationRange ctx start length allocate)
      (fun _ => Committing ctx limit boot p) (Committing ctx limit boot True) := by
  refine Triple.ite (fun _ => Triple.pure fun _ h => h) fun _ => ?_
  refine Triple.guard (within_mono fun _ => trivial) fun _ => Triple.bind ?_ fun _ => within_flush
  refine within_rewriteSpans hlim _ fun s hs => ?_
  obtain ⟨b, h1, h2, hg⟩ := group_of_mem_groupSpans hs
  rw [hg]
  exact hdesc b h1 h2

omit hlim in
theorem within_emitUpdate {u : Option Write} :
    Triple (Committing ctx limit boot ((∀ x, u = some x → EndsBy limit x) ∧ p)) (emitUpdate u)
      (fun _ => Committing ctx limit boot p) (Committing ctx limit boot True) := by
  cases u with
  | none => exact Triple.pure fun w h => within_mono And.right w h
  | some x =>
    refine Triple.bind (within_write.mono (within_mono fun hp => ⟨hp.1 x rfl, hp.2⟩) (fun _ _ h => h)
      fun _ h => h) fun _ => within_flush

theorem within_refreshTreeCopy {m : OwnerMove} (hp : p → m.destinationBlock < ctx.sb.blocksCount) :
    Triple (Committing ctx limit boot p) (refreshTreeCopy ctx m)
      (fun _ => Committing ctx limit boot p) (Committing ctx limit boot True) := by
  refine Triple.bind (within_device (q := fun b =>
    EndsBy limit ⟨m.destinationBlock * ctx.sb.blockSize, b⟩ ∧ p) fun d b _ _ h hb => ?_) fun b => ?_
  · unfold treeCopySource at hb
    obtain ⟨b', hread, hb⟩ := Result.bind_eq_ok hb
    obtain ⟨inode, -, hb⟩ := Result.bind_eq_ok hb
    obtain ⟨ok, -, hb⟩ := Result.bind_eq_ok hb
    rw [Result.guard_bind_eq_ok_iff] at hb
    cases hb.2
    refine ⟨endsBy_block hlim (hp h) ?_, h⟩
    rw [(Disk.readExact_eq_ok_iff.mp hread).2, Image.length_read]
  · refine Triple.bind within_write fun _ => Triple.bind within_flush fun _ =>
      Triple.bind within_read fun _ => ?_
    exact Triple.ite (fun _ => Triple.throw (within_mono fun _ => trivial))
      fun _ => Triple.pure fun _ h => h

variable (ha : ctx.sb.Accepted boot.sizeBytes)
include ha

/-- 持ち主の切り替えは、行き先が filesystem の中にあれば `limit` の外に書かない。 -/
theorem within_switchOwner {bs : Nat} {m : OwnerMove} {stored : UInt32}
    (hp : p → m.destinationBlock < ctx.sb.blocksCount) :
    Triple (Committing ctx limit boot p) (switchOwner srt ctx bs m stored)
      (fun _ => Committing ctx limit boot p) (Committing ctx limit boot True) := by
  unfold switchOwner
  cases m.kind with
  | dataExtent =>
    refine Triple.bind within_read fun _ => Triple.bind ?_ fun _ => within_journalOp
    refine Triple.bind (within_device (q := fun u => (∀ x, u = some x → EndsBy limit x) ∧ p)
      fun d u hgeo _ h hu => ⟨?_, h⟩) fun u => within_emitUpdate
    exact dataOwnerUpdate_endsBy ha boot.size_lt hlim hgeo hu
  | extentTreeBlock =>
    refine Triple.bind (within_refreshTreeCopy hlim hp) fun _ =>
      Triple.bind ?_ fun _ => within_journalOp
    refine Triple.bind (within_device (q := fun u => (∀ x, u = some x → EndsBy limit x) ∧ p)
      fun d u hgeo _ h hu => ⟨?_, h⟩) fun u => within_emitUpdate
    exact treeParentUpdate_endsBy ha boot.size_lt hlim hgeo hu

/-- 移動一つの確定。検査が行き先の位置を、条件が descriptor の位置を保証する。 -/
theorem within_commitMove {bs : Nat} {m : OwnerMove} {stored : UInt32}
    (hdesc : ∀ b, m.Touches b → ctx.sb.descOffset (ctx.sb.groupOf b) + ctx.sb.descBytes ≤ limit) :
    Triple (Committing ctx limit boot True) (commitMove srt ctx bs m stored)
      (fun _ => Committing ctx limit boot True) (Committing ctx limit boot True) := by
  refine Triple.bind (within_device (q := fun _ => m.destinationBlock < ctx.sb.blocksCount)
    fun d r _ _ _ hr => destination_lt_of_inspectMove hr) fun r => ?_
  refine Triple.bind (R := fun _ =>
    Committing ctx limit boot (m.destinationBlock < ctx.sb.blocksCount)) ?_ fun _ => ?_
  · refine Triple.ite (fun _ => Triple.pure fun _ h => h) fun _ => ?_
    refine Triple.guard (within_mono fun _ => trivial) fun _ => ?_
    refine Triple.bind (within_setAllocationRange hlim ?_) fun _ => within_journalOp
    exact fun b h1 h2 => hdesc b (Or.inr ⟨h1, h2⟩)
  have hrelease : Triple (Committing ctx limit boot (m.destinationBlock < ctx.sb.blocksCount)) (do
      releaseSource ctx m
      append (moveRecord .metadataCommitted m)) (fun _ => Committing ctx limit boot True)
      (Committing ctx limit boot True) := by
    refine Triple.bind (R := fun _ => Committing ctx limit boot
      (m.destinationBlock < ctx.sb.blocksCount)) ?_ fun _ => within_forget within_journalOp
    refine Triple.bind within_read fun src => ?_
    refine Triple.ite (fun _ => Triple.pure fun _ h => h) fun _ => ?_
    refine Triple.guard (within_mono fun _ => trivial) fun _ => ?_
    refine Triple.bind (within_setAllocationRange hlim ?_) fun _ => within_journalOp
    exact fun b h1 h2 => hdesc b (Or.inl ⟨h1, h2⟩)
  exact Triple.ite (fun _ => Triple.bind (within_switchOwner hlim ha id) fun _ => hrelease)
    fun _ => hrelease

/-- 移動の列を順に確定しても、`limit` の外に書かない。 -/
theorem within_commitMoves {host : Host} {bs : Nat} {records : List JournalRecord} :
    ∀ (l : List OwnerMove) (i : Nat) (report : CommitReport),
    (∀ m ∈ l, ∀ b, m.Touches b →
      ctx.sb.descOffset (ctx.sb.groupOf b) + ctx.sb.descBytes ≤ limit) →
    Triple (Committing ctx limit boot True) (commitMoves host ctx bs records i l report)
      (fun _ => Committing ctx limit boot True) (Committing ctx limit boot True)
  | [], _, _, _ => Triple.pure fun _ h => h
  | m :: rest, i, report, hl => by
    refine Triple.ite (fun _ => Triple.bind within_journalOp fun _ => Triple.pure fun _ h => h)
      fun _ => ?_
    exact Triple.bind (within_commitMove hlim ha (hl m List.mem_cons_self)) fun _ =>
      within_commitMoves rest _ _ fun m' hm' => hl m' (List.mem_cons_of_mem _ hm')

omit hlim ha in
theorem within_markFilesystemState {clean : Bool} (hroom : 2048 ≤ limit) :
    Triple (Committing ctx limit boot True) (markFilesystemState clean)
      (fun _ => Committing ctx limit boot True) (Committing ctx limit boot True) := by
  refine Triple.bind (within_device (q := fun raw => EndsBy limit ⟨1024, raw⟩ ∧ True)
    fun d raw _ _ _ hraw => ⟨?_, trivial⟩) fun raw => Triple.bind within_write fun _ => within_flush
  unfold EndsBy
  rw [(length_of_stateUpdate hraw).1]
  exact hroom

end Commit

/-! ## 修復と名前の付け替え -/

section Maintenance

variable {C : Disk → Prop} {boot : Disk} {p : Prop} {ctx : MetadataContext} {limit : Nat}

theorem within_writeDescCopies {super desc : Bytes} {descGroup : Nat}
    (hdesc : p → desc.length = ctx.sb.descBytes)
    (hroom : ∀ k, k ≠ 0 → k < ctx.sb.groupsCount → groupHasSuper super k = true →
      (ctx.sb.groupStartBlock k + 1) * ctx.sb.blockSize + descGroup * ctx.sb.descBytes
        + ctx.sb.descBytes ≤ limit) : ∀ n g, g ≠ 0 → g + n ≤ ctx.sb.groupsCount →
    Triple (Disk.Within C (EndsBy limit) boot p) (writeDescCopies ctx super descGroup desc n g)
      (fun _ => Disk.Within C (EndsBy limit) boot p) (Disk.Within C (EndsBy limit) boot True)
  | 0, _, _, _ => Triple.pure fun _ h => h
  | n + 1, g, hg, hn => by
    have hrest := within_writeDescCopies hdesc hroom n (g + 1) (by omega) (by omega)
    refine Triple.ite (fun hsuper => Triple.bind (DevM.triple_write.mono
      (DevM.within_mono fun hp => ⟨?_, hp⟩) (fun _ _ h => h) fun _ h => h) fun _ => hrest)
      fun _ => hrest
    unfold EndsBy
    rw [hdesc hp]
    exact hroom g hg (by omega) hsuper

theorem within_writeGroupDescriptorCopies {super desc : Bytes} {g : Nat}
    (hgroups : ctx.sb.groupsCount ≠ 0) (hroom : DescRoom ctx.sb super limit g) :
    Triple (Disk.Within C (EndsBy limit) boot True)
      (writeGroupDescriptorCopies ctx super g desc)
      (fun _ => Disk.Within C (EndsBy limit) boot True)
      (Disk.Within C (EndsBy limit) boot True) := by
  refine Triple.guard (fun _ h => h) fun _ => ?_
  refine Triple.bind (DevM.triple_reading (q := fun addr => EndsBy limit ⟨addr, desc⟩ ∧
    desc.length = ctx.sb.descBytes) fun d addr _ _ _ haddr => ?_) fun addr => ?_
  · have hlen := length_of_groupDescriptorAddress haddr
    refine ⟨?_, hlen⟩
    unfold EndsBy
    rw [groupDescriptorAddress_ok haddr, hlen]
    exact hroom.primary
  · refine Triple.bind DevM.triple_write fun _ => ?_
    exact (within_writeDescCopies id hroom.copies _ _ Nat.one_ne_zero (by omega)).mono
      (fun _ h => h) (fun _ => DevM.within_mono fun _ => trivial) fun _ h => h

/-- 修復の group のループは、どの descriptor も写しも収まれば `limit` の外に書かない。 -/
theorem within_repairGroups {cancelled : Nat → Bool} {super : Bytes}
    (hgroups : ctx.sb.groupsCount ≠ 0)
    (hroom : ∀ g < ctx.sb.groupsCount, DescRoom ctx.sb super limit g) :
    ∀ n g report, g + n ≤ ctx.sb.groupsCount → Triple (Disk.Within C (EndsBy limit) boot True)
      (repairGroups cancelled ctx super n g report)
      (fun _ => Disk.Within C (EndsBy limit) boot True) (Disk.Within C (EndsBy limit) boot True)
  | 0, _, _, _ => Triple.pure fun _ h => h
  | n + 1, g, report, hn => by
    refine Triple.guard (fun _ h => h) fun _ => Triple.bind ?_ fun _ =>
      within_repairGroups hgroups hroom n (g + 1) _ (by omega)
    have hread : ∀ {α : Type} (f : Disk → Result α), Triple (Disk.Within C (EndsBy limit) boot True)
        (Proc.reading f) (fun _ => Disk.Within C (EndsBy limit) boot True)
        (Disk.Within C (EndsBy limit) boot True) := fun _ => DevM.triple_reading fun _ _ _ _ h _ => h
    refine Triple.bind (hread _) fun gd => Triple.bind (hread _) fun raw => ?_
    refine Triple.bind (hread _) fun bb => Triple.bind (hread _) fun ib => ?_
    refine Triple.bind (hread _) fun r => ?_
    exact Triple.bind (within_writeGroupDescriptorCopies hgroups (hroom g (by omega))) fun _ =>
      Triple.pure fun _ h => h

variable (ha : ctx.sb.Accepted boot.sizeBytes)
  (hlim : ctx.sb.blocksCount * ctx.sb.blockSize ≤ limit)
include ha hlim

theorem within_writeSuperblockBackups {primary : Bytes} (hlen : primary.length = 1024) : ∀ n g,
    g + n ≤ ctx.sb.groupsCount → Triple (Disk.Within C (EndsBy limit) boot p)
      (writeSuperblockBackups ctx primary n g) (fun _ => Disk.Within C (EndsBy limit) boot p)
      (Disk.Within C (EndsBy limit) boot True)
  | 0, _, _ => Triple.pure fun _ h => h
  | n + 1, g, hn => by
    have hrest := within_writeSuperblockBackups hlen n (g + 1) (by omega)
    refine Triple.ite (fun _ => ?_) fun _ => hrest
    refine Triple.bind (DevM.triple_reading (q := fun copy => EndsBy limit
      ⟨ctx.sb.groupStartBlock g * ctx.sb.blockSize, copy⟩ ∧ p) fun d copy _ _ hp hcopy =>
      ⟨endsBy_superCopy ha hlim ?_ hlen hcopy, hp⟩) fun copy =>
      Triple.bind DevM.triple_write fun _ => hrest
    have hlt := ha.lt_groupsCount_iff.mp (show g < ctx.sb.groupsCount by omega)
    rw [ha.groupStartBlock_eq boot.size_lt (by omega)]
    omega

theorem within_writeSuperblockCopies {raw : Bytes} (hroom : 2048 ≤ limit) :
    Triple (Disk.Within C (EndsBy limit) boot p) (writeSuperblockCopies ctx raw)
      (fun _ => Disk.Within C (EndsBy limit) boot p) (Disk.Within C (EndsBy limit) boot True) := by
  have hpos := Nat.pos_of_ne_zero ha.groups_pos
  refine Triple.guard (DevM.within_mono fun _ => trivial) fun hlen => ?_
  refine Triple.bind (DevM.triple_write.mono (DevM.within_mono fun hp => ⟨?_, hp⟩) (fun _ _ h => h)
    fun _ h => h) fun _ => Triple.bind
    (within_writeSuperblockBackups ha hlim (not_not.mp hlen) _ _ (by omega)) fun _ => DevM.triple_flush
  unfold EndsBy
  rw [not_not.mp hlen]
  exact hroom

end Maintenance

/-- volume label の変更は、superblock が収まれば `limit` の外に書かない。 -/
theorem within_label {d : Disk} {sb : Superblock} {limit : Nat} {host : Host} {text : Bytes}
    {allowBlockDevice : Bool} (hsb : readSuperblock d = .ok sb)
    (hlim : sb.blocksCount * sb.blockSize ≤ limit) (hroom : 2048 ≤ limit) :
    Triple (fun d' => d' = d) (setVolumeLabel host text allowBlockDevice)
      (fun _ => Disk.Within (fun _ => True) (EndsBy limit) d True)
      (Disk.Within (fun _ => True) (EndsBy limit) d True) := by
  have hstart : Disk.Within (fun _ => True) (EndsBy limit) d True d :=
    ⟨[], (Disk.emit_nil d).symm, Within.nil trivial⟩
  have hE : ∀ d', d' = d → Disk.Within (fun _ => True) (EndsBy limit) d True d' := by
    rintro d' rfl
    exact hstart
  refine Triple.guard hE fun _ => ?_
  refine Triple.reading_bind hstart fun _ _ => Triple.reading_bind hstart fun ctx hctx => ?_
  refine Triple.reading_bind hstart fun raw _ => Triple.reading_bind hstart fun raw' _ => ?_
  cases hsb.symm.trans (readSuperblock_of_loadMetadataContext hctx)
  exact (within_writeSuperblockCopies (accepted_of_readSuperblock hsb) hlim hroom).mono hE
    (fun _ _ h => h) fun _ h => h

theorem readSuperblock_of_checkRepair {host : Host} {opts : RepairOptions} {d : Disk}
    {ctx : MetadataContext} (h : checkRepair host opts d = .ok ctx) :
    readSuperblock d = .ok ctx.sb := by
  unfold checkRepair at h
  obtain ⟨_, -, h⟩ := Result.bind_eq_ok h
  obtain ⟨ctx', hload, h⟩ := Result.bind_eq_ok h
  simp only [Result.guard_bind_eq_ok_iff, Result.pure_eq_ok_iff] at h
  obtain ⟨-, -, -, rfl⟩ := h
  unfold loadMetadataContextTolerant at hload
  obtain ⟨sb, hsb, hload⟩ := Result.bind_eq_ok hload
  obtain ⟨raw, -, hload⟩ := Result.bind_eq_ok hload
  cases hload
  exact hsb

/-- 修復は、superblock とすべての descriptor の置き場所が収まれば `limit` の外に書かない。 -/
theorem within_repair {d : Disk} {sb : Superblock} {limit : Nat} {host : Host}
    {cancelled : Nat → Bool} {opts : RepairOptions} (hsb : readSuperblock d = .ok sb)
    (hlim : sb.blocksCount * sb.blockSize ≤ limit) (hroom : 2048 ≤ limit)
    (hdesc : ∀ g < sb.groupsCount, DescRoom sb (d.data.read 1024 1024) limit g) :
    Triple (fun d' => d' = d) (repairMetadataCounters host cancelled opts)
      (fun _ => Disk.Within (fun _ => True) (EndsBy limit) d True)
      (Disk.Within (fun _ => True) (EndsBy limit) d True) := by
  have hstart : Disk.Within (fun _ => True) (EndsBy limit) d True d :=
    ⟨[], (Disk.emit_nil d).symm, Within.nil trivial⟩
  have hread : ∀ {α : Type} (f : Disk → Result α),
      Triple (Disk.Within (fun _ => True) (EndsBy limit) d True) (Proc.reading f)
        (fun _ => Disk.Within (fun _ => True) (EndsBy limit) d True)
        (Disk.Within (fun _ => True) (EndsBy limit) d True) :=
    fun _ => DevM.triple_reading fun _ _ _ _ h _ => h
  refine Triple.reading_bind hstart fun ctx hctx => Triple.reading_bind hstart fun super hsuper => ?_
  cases hsb.symm.trans (readSuperblock_of_checkRepair hctx)
  rw [← (Disk.readExact_eq_ok_iff.mp hsuper).2] at hdesc
  have ha := accepted_of_readSuperblock hsb
  refine (Triple.bind (within_repairGroups ha.groups_pos hdesc _ _ _ (by omega)) fun report =>
    Triple.bind (hread _) fun super' => Triple.bind (within_writeSuperblockCopies ha hlim hroom)
    fun _ => ?_).mono ?_ (fun _ _ h => h) fun _ h => h
  · refine Triple.ite (fun _ => ?_) fun _ => Triple.pure fun _ h => h
    exact Triple.bind (hread _) fun _ => Triple.guard (fun _ h => h) fun _ => Triple.pure fun _ h => h
  · rintro d' rfl
    exact hstart

/-- 移動の確定は、幾何が変わらない限り `limit` の外に書かない。 -/
theorem within_commit {d : Disk} {j : Option JournalFile} {sb : Superblock} {limit : Nat}
    {host : Host} {plan : OwnerRelocationPlan} {opts : CommitOptions}
    (hsb : readSuperblock d = .ok sb) (hlim : sb.blocksCount * sb.blockSize ≤ limit)
    (hroom : 2048 ≤ limit) (hdesc : ∀ m ∈ plan.moves, ∀ b, m.Touches b →
      sb.descOffset (sb.groupOf b) + sb.descBytes ≤ limit) :
    Triple (fun w => w = ⟨d, j, []⟩) (commitStagedRelocation host plan opts)
      (fun _ => World.Within (SameGeometry sb) (EndsBy limit) d True)
      (World.Within (SameGeometry sb) (EndsBy limit) d True) := by
  have hstart := @within_start d j (SameGeometry sb) (EndsBy limit)
  have hE : ∀ w, w = (⟨d, j, []⟩ : World) →
      World.Within (SameGeometry sb) (EndsBy limit) d True w := by
    rintro w rfl
    exact hstart
  refine Triple.guard hE fun _ => ?_
  refine Triple.reading_bind hstart fun _ _ => Triple.reading_bind hstart fun ctx hctx => ?_
  refine Triple.reading_bind hstart fun f _ => Triple.reading_bind hstart fun _ _ => ?_
  unfold checkCommitFilesystem at hctx
  obtain ⟨ctx', hload, hctx⟩ := Result.bind_eq_ok hctx
  simp only [Result.guard_bind_eq_ok_iff, Result.pure_eq_ok_iff] at hctx
  obtain ⟨-, -, -, rfl⟩ := hctx
  cases hsb.symm.trans (readSuperblock_of_loadMetadataContext hload)
  have ha := accepted_of_readSuperblock hsb
  refine Triple.mono (Triple.ite (fun _ => Triple.pure fun _ h => h) fun _ => ?_) hE
    (fun _ _ h => h) fun _ h => h
  refine Triple.bind (R := fun _ => Committing ctx limit d True) ?_ fun _ => ?_
  · have hphase : Triple (Committing ctx limit d True) (checkpoint .metadataFinalize)
        (fun _ => Committing ctx limit d True) (Committing ctx limit d True) := within_journalOp
    refine Triple.ite (fun _ => ?_) fun _ => hphase
    exact Triple.bind (within_markFilesystemState hroom) fun _ =>
      Triple.bind within_journalOp fun _ => hphase
  refine Triple.bind (within_commitMoves hlim ha _ _ _ fun m hm => hdesc m ?_) fun report => ?_
  · exact (List.perm_insertionSort _ plan.moves).mem_iff.mp hm
  refine Triple.ite (fun _ => Triple.pure fun _ h => h) fun _ => ?_
  have hlast : ∀ report' : CommitReport, Triple (Committing ctx limit d True) (do
      checkpoint .compacted
      return report') (fun _ => Committing ctx limit d True) (Committing ctx limit d True) :=
    fun _ => Triple.bind within_journalOp fun _ => Triple.pure fun _ h => h
  have hmark : ∀ report' : CommitReport, Triple (Committing ctx limit d True)
      (if opts.leaveFilesystemDirty = false then do
        markFilesystemState true
        append (moveRecord .filesystemMarkedClean .blank)
        checkpoint .compacted
        return report'
      else do
        checkpoint .compacted
        return report') (fun _ => Committing ctx limit d True) (Committing ctx limit d True) :=
    fun _ => Triple.ite (fun _ => Triple.bind (within_markFilesystemState hroom) fun _ =>
      Triple.bind within_journalOp fun _ => hlast _) fun _ => hlast _
  refine Triple.ite (fun _ => ?_) fun _ => hmark _
  exact Triple.bind within_read fun _ => Triple.guard (fun _ h => h) fun _ => hmark _

end Fsx.Ext4
