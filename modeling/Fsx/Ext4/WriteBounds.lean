import Fsx.Ext4.WriteRuns

/-!
# metadata の書き込みの届く範囲

条件が満たされないまま最後まで進んだ呼び出しは、filesystem の外にも書いている。終えた呼び出しの
記録に残る書き込みを拾い、`Fsx/Ext4/WriteRuns.lean` の十分条件と合わせて主な結果を得る。
-/

namespace Fsx.Ext4

open Proc Engine

/-! ## 終えた呼び出しが残す書き込み -/

/-- 記録に、group `g` の descriptor の書き込みが、写しも含めてある。`raw` は superblock である。 -/
def DescLogged (sb : Superblock) (raw : Bytes) (g : Nat) (es : List Event) : Prop :=
  ∃ desc : Bytes, desc.length = sb.descBytes ∧ .write ⟨sb.descOffset g, desc⟩ ∈ es ∧
    ∀ k, k ≠ 0 → k < sb.groupsCount → groupHasSuper raw k = true →
      .write ⟨(sb.groupStartBlock k + 1) * sb.blockSize + g * sb.descBytes, desc⟩ ∈ es

/-- 記録に、superblock の書き込みがある。 -/
def SuperLogged (es : List Event) : Prop :=
  ∃ raw : Bytes, raw.length = 1024 ∧ .write ⟨1024, raw⟩ ∈ es

theorem persists_descLogged (sb : Superblock) (raw : Bytes) (g : Nat) :
    Persists (DescLogged sb raw g) := by
  rintro es fs ⟨desc, hlen, hmem, hcopies⟩
  exact ⟨desc, hlen, List.mem_append_left _ hmem, fun k h0 hk hsuper =>
    List.mem_append_left _ (hcopies k h0 hk hsuper)⟩

theorem persists_superLogged : Persists SuperLogged := by
  rintro es fs ⟨raw, hlen, hmem⟩
  exact ⟨raw, hlen, List.mem_append_left _ hmem⟩

section Room

variable {sb : Superblock} {raw : Bytes} {g limit : Nat} {es : List Event}
  (hall : ∀ x, .write x ∈ es → EndsBy limit x)
include hall

/-- descriptor の書き込みがどれも収まったのなら、descriptor の置き場所は収まっている。 -/
theorem DescLogged.room (h : DescLogged sb raw g es) : DescRoom sb raw limit g := by
  obtain ⟨desc, hlen, hmem, hcopies⟩ := h
  constructor
  · have := hall _ hmem
    unfold EndsBy at this
    rwa [hlen] at this
  · intro k h0 hk hsuper
    have := hall _ (hcopies k h0 hk hsuper)
    unfold EndsBy at this
    rwa [hlen] at this

/-- superblock の書き込みが収まったのなら、superblock は収まっている。 -/
theorem SuperLogged.room (h : SuperLogged es) : 2048 ≤ limit := by
  obtain ⟨raw, hlen, hmem⟩ := h
  have := hall _ hmem
  unfold EndsBy at this
  rwa [hlen] at this

end Room

section Maintenance

variable {boot : Disk} {ctx : MetadataContext} {super : Bytes} {Q : List Event → Prop}

theorem logged_reading {α : Type} {f : Disk → Result α} :
    Triple (Disk.Logged Q boot) (Proc.reading f) (fun _ => Disk.Logged Q boot) fun _ => True :=
  Triple.reading (fun _ _ h _ => h) fun _ _ => trivial

/-- descriptor の写しのループは、写しを持つどの group にも書き込みを残す。 -/
theorem logged_writeDescCopies {desc : Bytes} {descGroup : Nat} : ∀ (n g : Nat)
    {Q : List Event → Prop}, Persists Q → Triple (Disk.Logged Q boot)
      (writeDescCopies ctx super descGroup desc n g)
      (fun _ => Disk.Logged (fun es => Q es ∧ ∀ k, g ≤ k → k < g + n → groupHasSuper super k = true →
        .write ⟨(ctx.sb.groupStartBlock k + 1) * ctx.sb.blockSize + descGroup * ctx.sb.descBytes, desc⟩
          ∈ es) boot) fun _ => True
  | 0, g, Q, _ => by
    refine Triple.pure ?_
    rintro d ⟨es, hd, hes⟩
    exact ⟨es, hd, hes, fun k h1 h2 => by omega⟩
  | n + 1, g, Q, hQ => by
    refine Triple.ite (fun hsuper => ?_) fun hsuper => ?_
    · refine Triple.bind (DevM.logged_write hQ) fun _ =>
        (logged_writeDescCopies n (g + 1) (hQ.and (Persists.mem _))).mono (fun _ h => h) ?_ fun _ h => h
      rintro _ d ⟨es, hd, ⟨hes, hmem⟩, hrest⟩
      refine ⟨es, hd, hes, fun k h1 h2 hk => ?_⟩
      rcases Nat.eq_or_lt_of_le h1 with rfl | hlt
      · exact hmem
      · exact hrest k hlt (by omega) hk
    · refine (logged_writeDescCopies n (g + 1) hQ).mono (fun _ h => h) ?_ fun _ h => h
      rintro _ d ⟨es, hd, hes, hrest⟩
      refine ⟨es, hd, hes, fun k h1 h2 hk => ?_⟩
      rcases Nat.eq_or_lt_of_le h1 with rfl | hlt
      · exact absurd hk hsuper
      · exact hrest k hlt (by omega) hk

/-- descriptor の書き直しは、primary と写しの書き込みを残す。 -/
theorem logged_writeGroupDescriptorCopies {desc : Bytes} {g : Nat} (hQ : Persists Q) :
    Triple (Disk.Logged Q boot) (writeGroupDescriptorCopies ctx super g desc)
      (fun _ => Disk.Logged (fun es => Q es ∧ DescLogged ctx.sb super g es) boot) fun _ => True := by
  refine Triple.guard (fun _ _ => trivial) fun _ => ?_
  refine Triple.bind (R := fun addr d => Disk.Logged Q boot d ∧ addr = ctx.sb.descOffset g ∧
    desc.length = ctx.sb.descBytes) (Triple.reading (fun d addr h haddr => ⟨h,
      groupDescriptorAddress_ok haddr, length_of_groupDescriptorAddress haddr⟩)
      fun _ _ => trivial) fun addr d hd => ?_
  obtain ⟨hd, rfl, hlen⟩ := hd
  refine Triple.bind (DevM.logged_write hQ) (fun _ =>
    (logged_writeDescCopies _ _ (hQ.and (Persists.mem _))).mono (fun _ h => h) ?_ fun _ h => h) d hd
  rintro _ d ⟨es, hd, ⟨hes, hmem⟩, hrest⟩
  exact ⟨es, hd, hes, desc, hlen, hmem, fun k h0 hk => hrest k (by omega) (by omega)⟩

/-- 修復の group のループは、通ったどの group の descriptor の書き込みも残す。 -/
theorem logged_repairGroups {cancelled : Nat → Bool} : ∀ n g report,
    Triple (Disk.Logged (fun es => ∀ i < g, DescLogged ctx.sb super i es) boot)
      (repairGroups cancelled ctx super n g report)
      (fun _ => Disk.Logged (fun es => ∀ i < g + n, DescLogged ctx.sb super i es) boot) fun _ => True
  | 0, _, _ => Triple.pure fun _ h => h
  | n + 1, g, report => by
    have hQ : Persists fun es => ∀ i < g, DescLogged ctx.sb super i es := fun es fs h i hi =>
      persists_descLogged ctx.sb super i es fs (h i hi)
    refine Triple.guard (fun _ _ => trivial) fun _ => Triple.bind
      (R := fun _ => Disk.Logged (fun es => ∀ i < g + 1, DescLogged ctx.sb super i es) boot) ?_
      fun _ => ?_
    · refine Triple.bind logged_reading fun gd => Triple.bind logged_reading fun raw => ?_
      refine Triple.bind logged_reading fun bb => Triple.bind logged_reading fun ib => ?_
      refine Triple.bind logged_reading fun r => ?_
      refine Triple.bind (logged_writeGroupDescriptorCopies hQ) fun _ => Triple.pure ?_
      rintro d ⟨es, hd, hes, hlast⟩
      refine ⟨es, hd, fun i hi => ?_⟩
      rcases Nat.lt_succ_iff_lt_or_eq.mp hi with hlt | rfl
      · exact hes i hlt
      · exact hlast
    · rw [show g + (n + 1) = g + 1 + n by omega]
      exact logged_repairGroups n (g + 1) _

theorem logged_writeSuperblockBackups {primary : Bytes} (hQ : Persists Q) : ∀ n g,
    Triple (Disk.Logged Q boot) (writeSuperblockBackups ctx primary n g)
      (fun _ => Disk.Logged Q boot) fun _ => True
  | 0, _ => Triple.pure fun _ h => h
  | n + 1, g => by
    have hrest := @logged_writeSuperblockBackups primary hQ n (g + 1)
    refine Triple.ite (fun _ => ?_) fun _ => hrest
    refine Triple.bind logged_reading fun copy => Triple.bind ((DevM.logged_write hQ).mono
      (fun _ h => h) ?_ fun _ h => h) fun _ => hrest
    rintro _ d ⟨es, hd, hes, -⟩
    exact ⟨es, hd, hes⟩

/-- superblock の書き直しは、primary の書き込みを残す。 -/
theorem logged_writeSuperblockCopies {raw : Bytes} (hQ : Persists Q) :
    Triple (Disk.Logged Q boot) (writeSuperblockCopies ctx raw)
      (fun _ => Disk.Logged (fun es => Q es ∧ SuperLogged es) boot) fun _ => True := by
  refine Triple.guard (fun _ _ => trivial) fun hlen => ?_
  refine Triple.bind ((DevM.logged_write hQ).mono (fun _ h => h) ?_ fun _ h => h) fun _ =>
    Triple.bind (logged_writeSuperblockBackups (hQ.and persists_superLogged) _ _) fun _ =>
      DevM.logged_flush (hQ.and persists_superLogged)
  rintro _ d ⟨es, hd, hes, hmem⟩
  exact ⟨es, hd, hes, raw, not_not.mp hlen, hmem⟩

end Maintenance

/-- 終えた volume label の変更は、superblock の書き込みを残す。 -/
theorem logged_label {d : Disk} {host : Host} {text : Bytes} {allowBlockDevice : Bool} :
    Triple (fun d' => d' = d) (setVolumeLabel host text allowBlockDevice)
      (fun _ => Disk.Logged SuperLogged d) fun _ => True := by
  refine Triple.guard (fun _ _ => trivial) fun _ => ?_
  refine Triple.reading_bind trivial fun _ _ => Triple.reading_bind trivial fun ctx _ => ?_
  refine Triple.reading_bind trivial fun raw _ => Triple.reading_bind trivial fun raw' _ => ?_
  refine (@logged_writeSuperblockCopies d ctx _ raw' (Persists.const True)).mono ?_ ?_ fun _ h => h
  · rintro d' rfl
    exact ⟨[], (Disk.emit_nil _).symm, trivial⟩
  · rintro _ d' ⟨es, hd, -, hsuper⟩
    exact ⟨es, hd, hsuper⟩

/-- 終えた修復は、superblock とすべての descriptor の書き込みを残す。 -/
theorem logged_repair {d : Disk} {sb : Superblock} {host : Host} {cancelled : Nat → Bool}
    {opts : RepairOptions} (hsb : readSuperblock d = .ok sb) :
    Triple (fun d' => d' = d) (repairMetadataCounters host cancelled opts)
      (fun _ => Disk.Logged (fun es => (∀ g < sb.groupsCount,
        DescLogged sb (d.data.read 1024 1024) g es) ∧ SuperLogged es) d) fun _ => True := by
  refine Triple.reading_bind trivial fun ctx hctx => Triple.reading_bind trivial fun super hsuper => ?_
  cases hsb.symm.trans (readSuperblock_of_checkRepair hctx)
  rw [← (Disk.readExact_eq_ok_iff.mp hsuper).2]
  have hQ : Persists fun es => ∀ g < 0 + ctx.sb.groupsCount, DescLogged ctx.sb super g es :=
    fun es fs h g hg => persists_descLogged ctx.sb super g es fs (h g hg)
  refine (Triple.bind (@logged_repairGroups d ctx super _ _ _ _) fun report =>
    Triple.bind logged_reading fun super' => Triple.bind (logged_writeSuperblockCopies hQ)
    fun _ => ?_).mono (Q := fun _ => Disk.Logged (fun es => (∀ g < 0 + ctx.sb.groupsCount,
      DescLogged ctx.sb super g es) ∧ SuperLogged es) d) ?_ ?_ fun _ h => h
  · refine Triple.ite (fun _ => ?_) fun _ => Triple.pure fun _ h => h
    exact Triple.bind logged_reading fun _ => Triple.guard (fun _ _ => trivial) fun _ =>
      Triple.pure fun _ h => h
  · rintro d' rfl
    exact ⟨[], (Disk.emit_nil _).symm, fun i hi => by omega⟩
  · rintro _ d' ⟨es, hd, hdesc, hsuper⟩
    rw [Nat.zero_add] at hdesc
    exact ⟨es, hd, hdesc, hsuper⟩

/-- 記録のうち device への操作が `Q` を満たす。 -/
def World.Logged (Q : List Event → Prop) (w : World) : Prop := Q (devEvents w.trace)

section Resize

variable {Q : List Event → Prop} {ctx : MetadataContext} {super : Bytes}

theorem steady_logged (hQ : Persists Q) : Steady (World.Logged Q) where
  dev := by
    intro w d es h
    show Q (devEvents (w.trace ++ es.map .dev))
    rw [devEvents_append]
    exact hQ _ _ h
  journal := by
    intro w j j' op es h _ _
    show Q (devEvents (w.trace ++ es))
    rw [devEvents_append]
    exact hQ _ _ h

/-- 保たれる性質は、失敗したときの状態を問わなければ、成功したときにも残る。 -/
theorem logged_of_keeps {α : Type} {prog : EngineM α} (h : Keeps (World.Logged Q) prog) :
    Triple (World.Logged Q) prog (fun _ => World.Logged Q) fun _ => True :=
  h.mono (fun _ hw => hw) (fun _ _ hw => hw) fun _ _ => trivial

theorem logged_write (hQ : Persists Q) {off : Nat} {bytes : Bytes} :
    Triple (World.Logged Q) (write off bytes)
      (fun _ => World.Logged fun es => Q es ∧ .write ⟨off, bytes⟩ ∈ es) fun _ => True := by
  refine Triple.stepping (fun w w' h hw => ?_) fun _ _ => trivial
  obtain ⟨d, -, hw'⟩ := Result.bind_eq_ok hw
  cases hw'
  show Q (devEvents (w.trace ++ _)) ∧ _ ∈ devEvents (w.trace ++ _)
  rw [devEvents_append]
  exact ⟨hQ _ _ h, List.mem_append_right _ List.mem_cons_self⟩

theorem logged_writeSuperCopies {primary : Bytes} (hQ : Persists Q) :
    Triple (World.Logged Q) (writeSuperCopies ctx primary)
      (fun _ => World.Logged fun es => Q es ∧ SuperLogged es) fun _ => True := by
  refine Triple.guard (fun _ _ => trivial) fun _ => Triple.guard (fun _ _ => trivial) fun hlen => ?_
  have hkeep := steady_logged (hQ.and persists_superLogged)
  refine Triple.bind ((logged_write hQ).mono (fun _ h => h) (fun _ w h => ?_) fun _ h => h) fun _ =>
    Triple.bind (logged_of_keeps (hkeep.keeps_writeBackupSupers _ _)) fun _ =>
      logged_of_keeps hkeep.keeps_flush
  exact ⟨h.1, primary, not_not.mp hlen, h.2⟩

theorem logged_writeBackupDescs {desc : Bytes} {descGroup : Nat} : ∀ (n g : Nat)
    {Q : List Event → Prop}, Persists Q → Triple (World.Logged Q)
      (writeBackupDescs ctx super descGroup desc n g)
      (fun _ => World.Logged fun es => Q es ∧ ∀ k, g ≤ k → k < g + n → groupHasSuper super k = true →
        .write ⟨(ctx.sb.groupStartBlock k + 1) * ctx.sb.blockSize + descGroup * ctx.sb.descBytes, desc⟩
          ∈ es) fun _ => True
  | 0, g, Q, _ => Triple.pure fun _ h => ⟨h, fun k h1 h2 => by omega⟩
  | n + 1, g, Q, hQ => by
    refine Triple.ite (fun hsuper => ?_) fun hsuper => ?_
    · refine Triple.bind (R := fun addr w => World.Logged Q w ∧ addr =
        (ctx.sb.groupStartBlock g + 1) * ctx.sb.blockSize + descGroup * ctx.sb.descBytes)
        (Triple.reading (fun w addr h haddr => ⟨h, ?_⟩) fun _ _ => trivial) fun addr w hw => ?_
      · unfold backupDescAddress at haddr
        simp only [Result.guard_bind_eq_ok_iff, Result.pure_eq_ok_iff] at haddr
        exact haddr.2.2
      · obtain ⟨hw, rfl⟩ := hw
        refine Triple.bind (logged_write hQ) (fun _ => (logged_writeBackupDescs n (g + 1)
          (hQ.and (Persists.mem _))).mono (fun _ h => h) ?_ fun _ h => h) w hw
        rintro _ w' ⟨⟨hes, hmem⟩, hrest⟩
        refine ⟨hes, fun k h1 h2 hk => ?_⟩
        rcases Nat.eq_or_lt_of_le h1 with rfl | hlt
        · exact hmem
        · exact hrest k hlt (by omega) hk
    · refine (logged_writeBackupDescs n (g + 1) hQ).mono (fun _ h => h) ?_ fun _ h => h
      rintro _ w ⟨hes, hrest⟩
      refine ⟨hes, fun k h1 h2 hk => ?_⟩
      rcases Nat.eq_or_lt_of_le h1 with rfl | hlt
      · exact absurd hk hsuper
      · exact hrest k hlt (by omega) hk

/-- 末尾の group の書き込みの列は、descriptor の書き込みを写しも含めて残す。 -/
theorem logged_tailWrites {u : Write × Write} (hQ : Persists Q)
    (hoff : u.2.off = ctx.sb.descOffset (ctx.sb.groupsCount - 1))
    (hlen : u.2.bytes.length = ctx.sb.descBytes) :
    Triple (World.Logged Q) (do
        write u.1.off u.1.bytes
        write u.2.off u.2.bytes
        writeGroupDescBackups ctx super (ctx.sb.groupsCount - 1) u.2.bytes
        flush)
      (fun _ => World.Logged fun es => Q es ∧
        DescLogged ctx.sb super (ctx.sb.groupsCount - 1) es) fun _ => True := by
  refine Triple.bind (logged_of_keeps (steady_logged hQ).keeps_write) fun _ =>
    Triple.bind (logged_write hQ) fun _ => Triple.bind ?_ fun _ =>
      logged_of_keeps (steady_logged (hQ.and (persists_descLogged _ _ _))).keeps_flush
  refine Triple.guard (fun _ _ => trivial) fun _ => Triple.guard (fun _ _ => trivial) fun _ => ?_
  refine (logged_writeBackupDescs _ _ (hQ.and (Persists.mem _))).mono (fun _ h => h) ?_ fun _ h => h
  rintro _ w ⟨⟨hes, hmem⟩, hrest⟩
  rw [hoff] at hmem
  exact ⟨hes, u.2.bytes, hlen, hmem, fun k h0 hk => hrest k (by omega) (by omega)⟩

/-- 写しを持つ group が同じなら、どちらの superblock で言っても同じである。 -/
theorem DescLogged.congr {sb : Superblock} {raw raw' : Bytes} {g : Nat} {es : List Event}
    (hsuper : ∀ k, groupHasSuper raw' k = groupHasSuper raw k) (h : DescLogged sb raw' g es) :
    DescLogged sb raw g es := by
  obtain ⟨desc, hlen, hmem, hcopies⟩ := h
  exact ⟨desc, hlen, hmem, fun k h0 hk hs => hcopies k h0 hk (by rw [hsuper, hs])⟩

end Resize

/-- 大きさの変更が終わったときの記録。 -/
def ResizeLogged (d : Disk) (sb : Superblock) (es : List Event) : Prop :=
  SuperLogged es ∧ DescLogged sb (d.data.read 1024 1024) (sb.groupsCount - 1) es

section Resize

variable {d : Disk} {j : Option JournalFile} {sb : Superblock} {host : Host}
  (hsb : readSuperblock d = .ok sb)
include hsb

/-- 番地がどれも収まる、十分に大きい限り。 -/
theorem fits_u64 : sb.blocksCount * sb.blockSize ≤ 2 ^ 64 ∧
    ∀ raw, ∀ g < sb.groupsCount, DescRoom sb raw (2 ^ 64) g := by
  have hfit := offsetsFit_of_readSuperblock hsb
  have hin := (accepted_of_readSuperblock hsb).fits
  have hsize := d.size_lt
  refine ⟨by omega, fun raw g hg => ⟨(hfit.desc g hg).le, fun k h0 hk _ => (hfit.copy g hg k hk).le⟩⟩

theorem last_lt : sb.groupsCount - 1 < sb.groupsCount :=
  Nat.sub_lt (Nat.pos_of_ne_zero (accepted_of_readSuperblock hsb).groups_pos) Nat.one_pos

/-- dirty の印を付けてから、末尾の group を書き、superblock を書くまで。 -/
theorem logged_marked {ctx : MetadataContext} (hctx : ctx.sb = sb) {sbraw raw : Bytes} {v : Nat}
    (hread : readRawSuperblock d = .ok sbraw)
    (hraw : updateSuperblockChecksum (writeLe 2 sbraw 0x3a v) = .ok raw) {u : Write × Write}
    (hu : TailInside (2 ^ 64) ctx.sb (ctx.sb.groupsCount - 1) u) :
    Triple (World.Logged SuperLogged) (do
        write u.1.off u.1.bytes
        write u.2.off u.2.bytes
        writeGroupDescBackups ctx raw (ctx.sb.groupsCount - 1) u.2.bytes
        flush) (fun _ => World.Logged (ResizeLogged d sb)) fun _ => True := by
  subst hctx
  clear hsb
  have hsame := (sameFields_state sbraw v).trans (sameFields_checksum hraw)
  refine (logged_tailWrites persists_superLogged hu.offset hu.length).mono (fun _ h => h) ?_
    fun _ h => h
  rintro _ w ⟨hsuper, hdesc⟩
  refine ⟨hsuper, hdesc.congr fun k => ?_⟩
  rw [← (Disk.readExact_eq_ok_iff.mp hread).2]
  exact hsame.groupHasSuper k

omit hsb in
theorem persists_resizeLogged : Persists (ResizeLogged d sb) :=
  persists_superLogged.and (persists_descLogged _ _ _)

/-- 終えた縮小は、superblock と末尾の group の descriptor の書き込みを残す。 -/
theorem logged_shrink {missing : Error} {targetBytes : Nat} {opts : FinalizeOptions} :
    Triple (fun w => w = ⟨d, j, []⟩) (finalizeMetadataOnlyShrink host missing targetBytes opts)
      (fun _ => World.Logged (ResizeLogged d sb)) fun _ => True := by
  refine Triple.guard (fun _ _ => trivial) fun _ => ?_
  refine Triple.reading_bind trivial fun _ _ => Triple.reading_bind trivial fun ctx hctx => ?_
  refine Triple.reading_bind trivial fun _ _ => Triple.reading_bind trivial fun _ _ => ?_
  refine Triple.reading_bind trivial fun sbraw hread => Triple.reading_bind trivial fun raw hraw => ?_
  have hctx : readSuperblock d = .ok ctx.sb := (checkFinalize_target hctx hread).2.1
  cases hsb.symm.trans hctx
  obtain ⟨hlim, hroom⟩ := fits_u64 hsb
  have hsuper := steady_logged persists_superLogged
  refine Triple.mono (Triple.bind (R := fun _ => World.Logged SuperLogged) ?_ fun _ => Triple.bind
    (R := fun _ => World.Logged (ResizeLogged d ctx.sb)) ?_ fun _ => Triple.bind
    (logged_of_keeps keeps_device) fun shrunk => logged_of_keeps
    (steady_logged persists_resizeLogged).keeps_completeFinalize)
    (P := World.Logged fun _ => True) (fun _ _ => trivial) (fun _ _ h => h) fun _ h => h
  · refine Triple.bind ((logged_writeSuperCopies (Persists.const True)).mono (fun _ h => h)
      (fun _ _ h => h.2) fun _ h => h) fun _ => ?_
    exact Triple.bind (logged_of_keeps hsuper.keeps_journalOp) fun _ =>
      logged_of_keeps hsuper.keeps_journalOp
  · refine Triple.bind (R := fun u w => World.Logged SuperLogged w ∧
      TailInside (2 ^ 64) ctx.sb (ctx.sb.groupsCount - 1) u) (Triple.reading (fun w u h hu =>
        ⟨h, tailUpdate_inside hlim (hroom raw _ (last_lt hsb)).primary hu⟩) fun _ _ => trivial) ?_
    rintro u w ⟨hw, hu⟩
    exact logged_marked hsb rfl hread hraw hu w hw

/-- 終えた拡大も、同じ二つの書き込みを残す。 -/
theorem logged_grow {targetBytes : Nat} {opts : GrowOptions} :
    Triple (fun w => w = ⟨d, j, []⟩) (growWithinLastGroup host targetBytes opts)
      (fun _ => World.Logged (ResizeLogged d sb)) fun _ => True := by
  have hdone := steady_logged (@persists_resizeLogged d sb)
  refine Triple.bind (R := fun _ => World.Logged (ResizeLogged d sb)) ?_ fun r => ?_
  · refine Triple.reading_bind trivial fun _ _ => Triple.reading_bind trivial fun ctx hctx => ?_
    refine Triple.reading_bind trivial fun t ht => Triple.reading_bind trivial fun sbraw hread => ?_
    refine Triple.reading_bind trivial fun raw hraw => ?_
    obtain ⟨ctx', hload, hctx⟩ := Result.bind_eq_ok hctx
    simp only [Result.guard_bind_eq_ok_iff, Result.pure_eq_ok_iff] at hctx
    obtain ⟨-, -, -, -, -, -, -, -, -, rfl⟩ := hctx
    cases hsb.symm.trans (readSuperblock_of_loadMetadataContext hload)
    obtain ⟨hlim, hroom⟩ := fits_u64 hsb
    have hlast := lastGroup_of_readLastGroup ht
    refine Triple.mono (Triple.bind (R := fun _ => World.Logged SuperLogged)
      ((logged_writeSuperCopies (Persists.const True)).mono (fun _ h => h) (fun _ _ h => h.2)
        fun _ h => h) fun _ => Triple.bind (R := fun _ => World.Logged (ResizeLogged d ctx.sb)) ?_
      fun _ => Triple.bind (logged_of_keeps keeps_device) fun grown => Triple.bind
      (logged_of_keeps hdone.keeps_writeSuperCopies) fun _ => Triple.pure fun _ h => h)
      (P := World.Logged fun _ => True) (fun _ _ => trivial) (fun _ _ h => h) fun _ h => h
    refine Triple.bind (R := fun u w => World.Logged SuperLogged w ∧
      TailInside (2 ^ 64) ctx.sb (ctx.sb.groupsCount - 1) u) (Triple.reading (fun w u h hu =>
        ⟨h, grownTail_inside hlim (hroom raw _ (last_lt hsb)).primary hlast.1 hlast.2 hu⟩)
        fun _ _ => trivial) ?_
    rintro u w ⟨hw, hu⟩
    exact logged_marked hsb rfl hread hraw hu w hw
  · have hmark : ∀ report : GrowReport, Triple (World.Logged (ResizeLogged d sb)) (do
        let clean ← device fun _ => updateSuperblockChecksum (writeLe 2 r.raw 0x3a (r.state ||| 1))
        writeSuperCopies r.ctx clean
        return report) (fun _ => World.Logged (ResizeLogged d sb)) fun _ => True := fun _ =>
      Triple.bind (logged_of_keeps keeps_device) fun _ =>
        Triple.bind (logged_of_keeps hdone.keeps_writeSuperCopies) fun _ => Triple.pure fun _ h => h
    refine Triple.ite (fun _ => ?_) fun _ => hmark _
    exact Triple.bind (logged_of_keeps keeps_device) fun _ => Triple.guard (fun _ _ => trivial)
      fun _ => hmark _

end Resize

/-! ## 主な結果 -/

namespace MetadataCall

/-- 呼び出しの書き込みが、どれも前後の filesystem の中で終わる。 -/
def StaysInside (host : Host) (d : Disk) (j : Option JournalFile) (sb : Superblock)
    (c : MetadataCall) : Prop := ∀ x, .write x ∈ c.events host d j → EndsBy (c.limit sb) x

section Inside

variable {host : Host} {d : Disk} {j : Option JournalFile} {sb : Superblock} {c : MetadataCall}

theorem staysInside_of_disk {C : Disk → Prop}
    (h : Disk.Within C (EndsBy (c.limit sb)) d True (c.run host d j).2)
    (hC : ∀ pre, pre <+: c.events host d j → C (d.emit pre)) : c.StaysInside host d j sb := by
  obtain ⟨es, hd, hw⟩ := h
  have hes : c.events host d j = es := by
    unfold events
    rw [hd, Disk.since_emit]
  unfold StaysInside
  rw [hes] at hC ⊢
  exact (hw hC).1

theorem staysInside_of_world {C : Disk → Prop} {s : SizeChange}
    (h : World.Within C (EndsBy ((change s).limit sb)) d True (Proc.run (s.call host) ⟨d, j, []⟩).2)
    (hC : ∀ pre, pre <+: (change s).events host d j → C (d.emit pre)) :
    (change s).StaysInside host d j sb :=
  staysInside_of_disk ⟨_, h.1, h.2⟩ hC

/-- 置き場所が収まれば、どの呼び出しも、途中で失敗しても filesystem の外に書かない。 -/
theorem staysInside_of_fits (hsb : readSuperblock d = .ok sb) (h : c.Fits host d j sb) :
    c.StaysInside host d j sb := by
  have hlim := c.le_limit sb
  cases c with
  | repair cancelled opts =>
    exact staysInside_of_disk ((within_repair hsb hlim h.super h.desc).holds rfl) fun _ _ => trivial
  | label text allowBlockDevice =>
    exact staysInside_of_disk ((within_label hsb hlim h.super).holds rfl) fun _ _ => trivial
  | change s =>
    cases s with
    | commit plan opts =>
      refine staysInside_of_world (Triple.holds (Triple.bind
        (@within_commit _ _ _ _ host _ _ hsb hlim h.super h.desc.1) fun _ => Triple.pure fun _ hw => hw)
        rfl) h.desc.2
    | shrink missing targetBytes opts =>
      exact staysInside_of_world ((within_shrink hsb hlim h.super h.desc).holds rfl) fun _ _ => trivial
    | grow targetBytes opts =>
      refine staysInside_of_world (Triple.holds (Triple.bind
        (within_grow hsb hlim h.super h.desc) fun _ => Triple.pure fun _ hw => hw) rfl)
        fun _ _ => trivial

/-- 記録に残った書き込みがどれも中にあれば、置き場所は収まっている。 -/
theorem fits_of_logged {es : List Event} (hes : c.events host d j = es)
    (hstay : c.StaysInside host d j sb) (hsuper : SuperLogged es)
    (hdesc : (∀ x, .write x ∈ es → EndsBy (c.limit sb) x) → c.DescFits host d j sb) :
    c.Fits host d j sb := by
  unfold StaysInside at hstay
  rw [hes] at hstay
  exact ⟨hsuper.room hstay, hdesc hstay⟩

/-- 大きさの変更の記録は、device への操作を並べたものである。 -/
theorem events_of_world {C : Disk → Prop} {P : Write → Prop} {s : SizeChange}
    (h : World.Within C P d True (Proc.run (s.call host) ⟨d, j, []⟩).2) :
    (change s).events host d j = devEvents (Proc.run (s.call host) ⟨d, j, []⟩).2.trace := by
  unfold events run
  dsimp only
  rw [h.1, Disk.since_emit]

/-- 終えた呼び出しが外に書かなかったのなら、置き場所は収まっている。 -/
theorem fits_of_staysInside (hsb : readSuperblock d = .ok sb) (hok : (c.run host d j).1 = .ok ())
    (hcommit : ∀ plan opts, c ≠ .change (.commit plan opts)) (h : c.StaysInside host d j sb) :
    c.Fits host d j sb := by
  obtain ⟨hlim, hroom⟩ := fits_u64 hsb
  have hlast := hroom (d.data.read 1024 1024) _ (last_lt hsb)
  cases c with
  | repair cancelled opts =>
    cases hr : Proc.run (repairMetadataCounters host cancelled opts) d with
    | mk r d' =>
      cases r with
      | error e =>
        rw [run, hr] at hok
        cases hok
      | ok report =>
        obtain ⟨es, hd, hdesc, hsuper⟩ := (logged_repair hsb).ok rfl hr
        refine @fits_of_logged _ _ _ _ _ es ?_ h hsuper fun hall g hg => (hdesc g hg).room hall
        show d.since (Proc.run (repairMetadataCounters host cancelled opts) d).2 = es
        rw [hr]
        exact hd ▸ Disk.since_emit d es
  | label text allowBlockDevice =>
    obtain ⟨es, hd, hsuper⟩ := logged_label.ok rfl (Prod.ext hok rfl)
    refine fits_of_logged ?_ h hsuper fun _ => trivial
    exact (congrArg d.since hd).trans (Disk.since_emit d es)
  | change s =>
    cases s with
    | commit plan opts => exact absurd rfl (hcommit plan opts)
    | shrink missing targetBytes opts =>
      obtain ⟨hsuper, hdesc⟩ := (logged_shrink hsb).ok rfl (Prod.ext hok rfl)
      exact fits_of_logged (events_of_world ((within_shrink hsb hlim (by decide) hlast).holds rfl)) h
        hsuper hdesc.room
    | grow targetBytes opts =>
      have hlogged : Triple (fun w => w = ⟨d, j, []⟩) ((SizeChange.grow targetBytes opts).call host)
          (fun _ => World.Logged (ResizeLogged d sb)) fun _ => True :=
        Triple.bind (logged_grow hsb) fun _ => Triple.pure fun _ hw => hw
      obtain ⟨hsuper, hdesc⟩ := hlogged.ok rfl (Prod.ext hok rfl)
      exact fits_of_logged (events_of_world (Triple.holds (Triple.bind
        (within_grow hsb hlim (by decide) hlast) fun _ => Triple.pure fun _ hw => hw) rfl)) h
        hsuper hdesc.room

end Inside

end MetadataCall

/--
**metadata の書き込みが filesystem の中に収まるのは、superblock と descriptor の置き場所が収まるときである。**

五つの呼び出しのどれも、条件 `Fits` のもとでは、途中で失敗しても filesystem の外に書かない。
移動の確定のほかの呼び出しが最後まで進んだなら、外に書かなかったのは `Fits` のときに限る。
番地の計算はいつでも 64 bit に収まる。
-/
theorem staysInside_iff_fits (host : Host) (d : Disk) (j : Option JournalFile) (sb : Superblock)
    (hsb : readSuperblock d = .ok sb) (c : MetadataCall) : OffsetsFit sb ∧
    (c.Fits host d j sb → c.StaysInside host d j sb) ∧
    ((c.run host d j).1 = .ok () → (∀ plan opts, c ≠ .change (.commit plan opts)) →
      (c.StaysInside host d j sb ↔ c.Fits host d j sb)) :=
  ⟨offsetsFit_of_readSuperblock hsb, c.staysInside_of_fits hsb, fun hok hcommit =>
    ⟨c.fits_of_staysInside hsb hok hcommit, c.staysInside_of_fits hsb⟩⟩

namespace TwoGroups

/-- 検証を省いた修復。 -/
def repair : MetadataCall := .repair (fun _ => false) { verifyAfter := false }

def sb : Superblock := decodeSuperblock (disk.data.read 1024 1024)

theorem readSuperblock_eq : readSuperblock disk = .ok sb := by decide +kernel

theorem fits : repair.Fits Tiny.host disk none sb := by
  refine ⟨by decide +kernel, fun g hg => ?_⟩
  have hgroups : sb.groupsCount = 2 := by decide +kernel
  rw [hgroups] at hg
  have hlast : ∀ g < 2, sb.descOffset g + sb.descBytes ≤ repair.limit sb ∧
      (sb.groupStartBlock 1 + 1) * sb.blockSize + g * sb.descBytes + sb.descBytes
        ≤ repair.limit sb := by decide +kernel
  refine ⟨(hlast g hg).1, fun k h0 hk _ => ?_⟩
  rw [hgroups] at hk
  rw [show k = 1 by omega]
  exact (hlast g hg).2

end TwoGroups

/-- 二つの group を持つ健全な filesystem の修復は、最後まで進み、外に書かない。 -/
theorem staysInside_two_groups :
    (TwoGroups.repair.run Tiny.host TwoGroups.disk none).1 = .ok () ∧
      TwoGroups.repair.StaysInside Tiny.host TwoGroups.disk none TwoGroups.sb := by
  have hok : (TwoGroups.repair.run Tiny.host TwoGroups.disk none).1 = .ok () := by decide +kernel
  have h := (staysInside_iff_fits Tiny.host TwoGroups.disk none TwoGroups.sb
    TwoGroups.readSuperblock_eq TwoGroups.repair).2.2 hok fun plan opts hc => by cases hc
  exact ⟨hok, h.mpr TwoGroups.fits⟩

/-- 一つの block だけの末尾の group に写しがあると、修復は filesystem の終わりから先に書く。 -/
theorem repair_writes_outside : ¬ ∀ (host : Host) (d : Disk) (j : Option JournalFile)
    (sb : Superblock) (c : MetadataCall), readSuperblock d = .ok sb → c.StaysInside host d j sb := by
  intro h
  have hsb : readSuperblock OneBlockGroup.disk =
      .ok (decodeSuperblock (OneBlockGroup.disk.data.read 1024 1024)) := by decide +kernel
  have hok : (TwoGroups.repair.run Tiny.host OneBlockGroup.disk none).1 = .ok () := by decide +kernel
  have hfits := MetadataCall.fits_of_staysInside hsb hok (fun plan opts hc => by cases hc)
    (h Tiny.host OneBlockGroup.disk none _ TwoGroups.repair hsb)
  have hroom := (hfits.desc 0 (by decide +kernel)).copies 1 Nat.one_ne_zero (by decide +kernel)
    (by decide +kernel)
  revert hroom
  decide +kernel

end Fsx.Ext4
