import Fsx.Core.CrcDetect
import Fsx.Ext4.Copy
import Fsx.Ext4.Session

/-!
# 切り替えのときの写しの新しさ

`commit_staged_relocation` は、切り替えの直前に destination の CRC を journal に残した値と比べる。
source は読み直さない。したがって、写しを取った後に source が書き換えられていても、
destination が写したときのままなら切り替えは進む。

切り替えの瞬間に写しが source と合っているのは、source の CRC が journal の値のままであるとき、
そのときに限る。
-/

namespace Fsx.Ext4

open Proc

/-! ## 切り替えの瞬間 -/

/-- 書かれた data extent の持ち主を、`d` の device の上で実際に書き換えるか。 -/
def switchesData (srt : StdSort) (d : Disk) (ctx : MetadataContext) (bs : Nat) (m : OwnerMove)
    (stored : UInt32) : Bool :=
  decide (m.kind = .dataExtent) && !m.unwritten && decide (checkStagedCopy d bs m stored = .ok ())
    && match dataOwnerUpdate srt d ctx m m.destinationBlock with
      | .ok (some _) => true
      | _ => false

/-- 移動一つの中の、切り替えの瞬間の device。 -/
def switchMoment (srt : StdSort) (ctx : MetadataContext) (bs : Nat) (m : OwnerMove)
    (stored : UInt32) (w : World) : Option Disk :=
  match inspectMove srt w.disk ctx m with
  | .error _ => none
  | .ok (dst, owner) =>
    if owner ≠ m.sourceBlock then none
    else
      match Proc.run (reserveDestination ctx m dst) w with
      | (.error _, _) => none
      | (.ok _, w') => if switchesData srt w'.disk ctx bs m stored then some w'.disk else none

/-- 移動のループの中の、切り替えの瞬間をすべて並べる。 -/
def loopSwitches (host : Host) (ctx : MetadataContext) (bs : Nat) (records : List JournalRecord) :
    Nat → List OwnerMove → World → List (OwnerMove × Disk)
  | _, [], _ => []
  | i, m :: rest, w =>
    if host.commitCancelled i then []
    else
      ((switchMoment host.srt ctx bs m (storedCrc records m) w).map fun d => (m, d)).toList ++
        match Proc.run (commitMove host.srt ctx bs m (storedCrc records m)) w with
        | (.error _, _) => []
        | (.ok _, w') => loopSwitches host ctx bs records (i + 1) rest w'

/-- `commit_staged_relocation` の、移動のループに入る手前まで。 -/
def enterCommit (host : Host) (plan : OwnerRelocationPlan) (opts : CommitOptions) :
    EngineM (MetadataContext × JournalFile) := do
  if opts.journalPath = "" then
    throw { code := .invalidArgument, message := "commit requires --journal=FILE" }
  Engine.device fun _ => checkDeviceSafety host opts.allowBlockDevice
    "block-device metadata commit requires explicit --allow-block-device"
  let ctx ← Engine.device checkCommitFilesystem
  let j ← Engine.journal { code := .notFound, message := "relocation journal does not exist" }
  Engine.device fun d => checkCommitJournal d ctx j.view plan
  if j.view.phase = .compacted then return (ctx, j)
  beginCommit ctx
  return (ctx, j)

/-- 世界 `w` で呼んだ確定の、切り替えの瞬間をすべて並べる。 -/
def commitSwitches (host : Host) (plan : OwnerRelocationPlan) (opts : CommitOptions) (w : World) :
    List (OwnerMove × Disk) :=
  match Proc.run (enterCommit host plan opts) w with
  | (.error _, _) => []
  | (.ok (ctx, j), w') =>
    if j.view.phase = .compacted then []
    else loopSwitches host ctx plan.blockSize j.view.records 0
      (stableSort OwnerMove.before plan.moves) w'

/-- 確定は、`enterCommit` に移動のループを続けたものである。 -/
theorem commitStagedRelocation_eq (host : Host) (plan : OwnerRelocationPlan)
    (opts : CommitOptions) : commitStagedRelocation host plan opts = (do
      let (ctx, j) ← enterCommit host plan opts
      if j.view.phase = .compacted then return compactedReport ctx plan
      let report ← commitMoves host ctx plan.blockSize j.view.records 0
        (stableSort OwnerMove.before plan.moves) { movesTotal := plan.moves.length }
      if report.paused then return report
      finishCommit host opts report) := by
  unfold commitStagedRelocation enterCommit
  by_cases hpath : opts.journalPath = ""
  · simp only [if_pos hpath, bind_assoc]
    rfl
  · simp only [if_neg hpath, bind_assoc]
    refine bind_congr fun _ => bind_congr fun ctx => bind_congr fun j => bind_congr fun _ => ?_
    by_cases hphase : j.view.phase = .compacted
    · simp only [if_pos hphase, pure_bind]
    · simp only [if_neg hphase, bind_assoc, pure_bind]

/-- 切り替えの瞬間には、確かに `switchOwner` が呼ばれる。 -/
theorem run_commitMove_of_switchMoment {srt : StdSort} {ctx : MetadataContext} {bs : Nat}
    {m : OwnerMove} {stored : UInt32} {w : World} {d : Disk}
    (h : switchMoment srt ctx bs m stored w = some d) :
    switchesData srt d ctx bs m stored = true ∧ ∃ w', w'.disk = d ∧
      Proc.run (commitMove srt ctx bs m stored) w = Proc.run (do
        switchOwner srt ctx bs m stored
        releaseSource ctx m
        Engine.append (moveRecord .metadataCommitted m)) w' := by
  unfold switchMoment at h
  cases hins : inspectMove srt w.disk ctx m with
  | error e =>
    rw [hins] at h
    cases h
  | ok p =>
    obtain ⟨dst, owner⟩ := p
    rw [hins] at h
    dsimp only at h
    by_cases hown : owner = m.sourceBlock
    · rw [if_neg (not_not.mpr hown)] at h
      cases hres : Proc.run (reserveDestination ctx m dst) w with
      | mk r w' =>
        rw [hres] at h
        cases r with
        | error e => cases h
        | ok u =>
          dsimp only at h
          split at h
          · next hsw =>
            cases h
            refine ⟨hsw, w', rfl, ?_⟩
            unfold commitMove
            have hdev : Proc.run (Engine.device fun d => inspectMove srt d ctx m) w =
                (.ok (dst, owner), w) := by
              rw [Engine.device, run_reading, hins]
            rw [run_bind_ok hdev]
            dsimp only
            rw [run_bind_ok hres, if_pos hown]
          · cases h
    · rw [if_pos hown] at h
      cases h

/-! ## 写しの新しさ -/

/-- source と destination の内容が、CRC の衝突を除いて等しい。 -/
def SameContent (bs : Nat) (m : OwnerMove) (d : Disk) : Prop :=
  extentCrc d m.sourceBlock m.blockCount bs = extentCrc d m.destinationBlock m.blockCount bs

/-- source の CRC が、写しを検証したときに journal に残した値のままである。 -/
def SourceKept (bs : Nat) (records : List JournalRecord) (m : OwnerMove) (d : Disk) : Prop :=
  extentCrc d m.sourceBlock m.blockCount bs = .ok (storedCrc records m)

instance (bs : Nat) (m : OwnerMove) (d : Disk) : Decidable (SameContent bs m d) :=
  inferInstanceAs (Decidable (_ = _))

instance (bs : Nat) (records : List JournalRecord) (m : OwnerMove) (d : Disk) :
    Decidable (SourceKept bs records m d) :=
  inferInstanceAs (Decidable (_ = _))

/-- 切り替えの瞬間、destination の CRC は journal の値である。 -/
theorem extentCrc_of_switchesData {srt : StdSort} {d : Disk} {ctx : MetadataContext} {bs : Nat}
    {m : OwnerMove} {stored : UInt32} (h : switchesData srt d ctx bs m stored = true) :
    extentCrc d m.destinationBlock m.blockCount bs = .ok stored := by
  unfold switchesData at h
  simp only [Bool.and_eq_true, Bool.not_eq_true', decide_eq_true_eq] at h
  obtain ⟨⟨⟨-, hwritten⟩, hcheck⟩, -⟩ := h
  unfold checkStagedCopy at hcheck
  rw [if_neg (by rw [hwritten]; exact Bool.false_ne_true)] at hcheck
  obtain ⟨crc, hcrc, hcheck⟩ := Result.bind_eq_ok hcheck
  rw [Result.guard_eq_ok_iff] at hcheck
  rw [hcrc, not_not.mp hcheck.1]

/-- ループの切り替えの瞬間は、どれも移動一つの切り替えの瞬間である。 -/
theorem switchesData_of_mem {host : Host} {ctx : MetadataContext} {bs : Nat}
    {records : List JournalRecord} : ∀ (ms : List OwnerMove) (i : Nat) (w : World)
    {m : OwnerMove} {d : Disk}, (m, d) ∈ loopSwitches host ctx bs records i ms w →
      switchesData host.srt d ctx bs m (storedCrc records m) = true
  | [], _, _, _, _, h => by cases h
  | m' :: rest, i, w, m, d, h => by
    rw [loopSwitches] at h
    split at h
    · cases h
    · rcases List.mem_append.mp h with h | h
      · rw [Option.mem_toList, Option.map_eq_some_iff] at h
        obtain ⟨d', hd', he⟩ := h
        cases he
        exact (run_commitMove_of_switchMoment hd').1
      · split at h
        · cases h
        · exact switchesData_of_mem rest _ _ h

theorem run_enterCommit_journal {host : Host} {plan : OwnerRelocationPlan} {opts : CommitOptions}
    {w w' : World} {ctx : MetadataContext} {j : JournalFile}
    (h : Proc.run (enterCommit host plan opts) w = (.ok (ctx, j), w')) : w.journal = some j := by
  have ht : Triple (fun v => v = w) (enterCommit host plan opts)
      (fun p _ => w.journal = some p.2) (fun _ => True) := by
    refine Triple.guard (fun _ _ => trivial) fun _ => ?_
    refine Triple.bind (R := fun _ v => v = w) (Triple.reading (fun _ _ h _ => h)
      fun _ _ => trivial) fun _ => ?_
    refine Triple.bind (R := fun _ v => v = w) (Triple.reading (fun _ _ h _ => h)
      fun _ _ => trivial) fun ctx => ?_
    refine Triple.bind (R := fun j _ => w.journal = some j) (Triple.reading ?_
      fun _ _ => trivial) fun j => ?_
    · rintro v j rfl hj
      cases hv : v.journal with
      | none =>
        rw [hv] at hj
        cases hj
      | some j' =>
        rw [hv] at hj
        cases hj
        rfl
    refine Triple.bind (R := fun _ _ => w.journal = some j) (Triple.reading (fun _ _ h _ => h)
      fun _ _ => trivial) fun _ => ?_
    refine Triple.ite (fun _ => Triple.pure fun _ h => h) fun _ => ?_
    intro v hv
    exact Triple.bind (P := fun _ => True) (R := fun _ _ => True)
      (fun _ _ => ⟨fun _ _ _ => trivial, fun _ _ _ => trivial⟩)
      (fun _ => Triple.pure fun _ _ => hv) v trivial
  exact ht.ok rfl h

/--
**切り替えのどの瞬間にも写しが source と合うのは、source の CRC がそのときも journal の値の
ままであるとき、そのときに限る。** device の内容と journal は何でもよい。
-/
theorem switches_sameContent_iff {host : Host} {plan : OwnerRelocationPlan} {opts : CommitOptions}
    {w : World} {j : JournalFile} (hj : w.journal = some j) :
    (∀ p ∈ commitSwitches host plan opts w, SameContent plan.blockSize p.1 p.2) ↔
      ∀ p ∈ commitSwitches host plan opts w,
        SourceKept plan.blockSize j.view.records p.1 p.2 := by
  have hiff : ∀ p ∈ commitSwitches host plan opts w,
      (SameContent plan.blockSize p.1 p.2 ↔ SourceKept plan.blockSize j.view.records p.1 p.2) := by
    rintro ⟨m, d⟩ hp
    unfold commitSwitches at hp
    split at hp
    · cases hp
    · next ctx j' w' hrun =>
      cases hj.symm.trans (run_enterCommit_journal hrun)
      split at hp
      · cases hp
      · unfold SameContent SourceKept
        rw [extentCrc_of_switchesData (switchesData_of_mem _ _ _ hp)]
  exact forall₂_congr hiff

/-! ## 書き換えられた file -/

/-- 範囲の CRC は、区切り方によらず、その内容の CRC である。 -/
theorem extentCrc_eq {d : Disk} {block count bs : Nat} (hpos : 0 < count * bs)
    (hfit : block * bs + count * bs ≤ d.sizeBytes) :
    extentCrc d block count bs = .ok (crc32cFinal (d.data.read (block * bs) (count * bs))) := by
  have hlt := d.size_lt
  have hbs : 0 < bs := Nat.pos_of_mul_pos_left hpos
  have hcount : 0 < count := Nat.pos_of_mul_pos_right hpos
  have hover : ¬ (count > u64Max / bs ∨ block > u64Max / bs) := by
    unfold u64Max
    rw [not_or, Nat.not_lt, Nat.not_lt, Nat.le_div_iff_mul_le hbs, Nat.le_div_iff_mul_le hbs]
    omega
  have hchunk : 0 < min crcChunkBytes (count * bs) := Nat.lt_min.mpr ⟨by decide, hpos⟩
  have htiles := @tiles_chunks _ hchunk (count * bs) 0 (count * bs) (Nat.le_refl _)
  rw [Nat.zero_add] at htiles
  unfold extentCrc
  rw [if_neg (by omega), if_neg (by omega), if_neg hover, if_neg (by omega), if_neg (by omega)]
  rw [crcChunks_eq htiles hfit, Result.ok_bind, Nat.add_zero, Nat.sub_zero]
  rfl

/-! ### 切り替えまでの device -/

/-- いまの device は、`boot` に記録の付いた操作を行ったものである。 -/
abbrev World.From (boot : Disk) (w : World) : Prop := ∃ es, w.disk = boot.emit es

section From

variable {boot : Disk} {α : Type}

theorem from_device {f : Disk → Result α} :
    Triple (World.From boot) (Engine.device f) (fun _ => World.From boot) (World.From boot) :=
  Triple.reading (fun _ _ h _ => h) fun _ h => h

theorem from_write {off : Nat} {bytes : Bytes} :
    Triple (World.From boot) (Engine.write off bytes) (fun _ => World.From boot)
      (World.From boot) := by
  refine Triple.stepping ?_ fun _ h => h
  rintro w w' ⟨es, h⟩ hw
  obtain ⟨d, hd, hw'⟩ := Result.bind_eq_ok hw
  obtain ⟨-, -, rfl⟩ := Disk.writeExact_eq_ok_iff.mp hd
  cases hw'
  exact ⟨es ++ [.write ⟨off, bytes⟩], by rw [← Disk.emit_emit, ← h]⟩

theorem from_flush :
    Triple (World.From boot) Engine.flush (fun _ => World.From boot) (World.From boot) := by
  refine Triple.stepping ?_ fun _ h => h
  rintro w w' ⟨es, h⟩ hw
  obtain ⟨d, hd, hw'⟩ := Result.bind_eq_ok hw
  cases hd
  cases hw'
  exact ⟨es ++ [.flush], by rw [← Disk.emit_emit, ← h]⟩

theorem from_journalOp {op : JournalOp} :
    Triple (World.From boot) (Engine.journalOp op) (fun _ => World.From boot)
      (World.From boot) := by
  refine Triple.stepping (fun w w' h hw => ?_) fun _ h => h
  cases hj : w.journal with
  | none =>
    rw [hj] at hw
    cases hw
  | some j =>
    rw [hj] at hw
    obtain ⟨j', -, hw'⟩ := Result.bind_eq_ok hw
    cases hw'
    exact h

theorem from_setAllocationRange {ctx : MetadataContext} {start length : Nat} {allocate : Bool} :
    Triple (World.From boot) (setAllocationRange ctx start length allocate)
      (fun _ => World.From boot) (World.From boot) := by
  have hspans : ∀ spans, Triple (World.From boot) (rewriteSpans ctx allocate spans)
      (fun _ => World.From boot) (World.From boot) := by
    intro spans
    induction spans with
    | nil => exact Triple.pure fun _ h => h
    | cons s rest ih =>
      exact Triple.bind (Triple.bind from_device fun _ => Triple.bind from_write fun _ => from_write)
        fun _ => ih
  refine Triple.ite (fun _ => Triple.pure fun _ h => h) fun _ => ?_
  exact Triple.guard (fun _ h => h) fun _ => Triple.bind (hspans _) fun _ => from_flush

theorem from_reserveDestination {ctx : MetadataContext} {m : OwnerMove} {dst : RangeState} :
    Triple (World.From boot) (reserveDestination ctx m dst) (fun _ => World.From boot)
      (World.From boot) := by
  refine Triple.ite (fun _ => Triple.pure fun _ h => h) fun _ => ?_
  exact Triple.guard (fun _ h => h) fun _ =>
    Triple.bind from_setAllocationRange fun _ => from_journalOp

theorem from_enterCommit {host : Host} {plan : OwnerRelocationPlan} {opts : CommitOptions} :
    Triple (World.From boot) (enterCommit host plan opts) (fun _ => World.From boot)
      (World.From boot) := by
  refine Triple.guard (c := opts.journalPath = "") (fun _ h => h) fun _ => ?_
  refine Triple.bind from_device fun _ => Triple.bind from_device fun ctx => ?_
  refine Triple.bind (Triple.reading (fun _ _ h _ => h) fun _ h => h) fun j => ?_
  refine Triple.bind from_device fun _ => Triple.ite (fun _ => Triple.pure fun _ h => h) fun _ => ?_
  refine Triple.bind ?_ fun _ => Triple.pure fun _ h => h
  refine Triple.ite (fun _ => ?_) fun _ => from_journalOp
  refine Triple.bind ?_ fun _ => Triple.bind from_journalOp fun _ => from_journalOp
  exact Triple.bind from_device fun _ => Triple.bind from_write fun _ => from_flush

end From

/-- 最後の byte だけが違う二つの block。 -/
theorem crc32cFinal_ne : crc32cFinal (zeros 2048) ≠ crc32cFinal (zeros 2047 ++ [1]) := by
  have hone : zeros 2047 ++ [1] = (zeros 2048).set 2047 1 := by
    have hsplit : zeros 2048 = zeros 2047 ++ [0] := List.replicate_succ'
    rw [hsplit, List.set_append_right _ _ (by rw [length_zeros]), length_zeros]
    rfl
  have hlast : (zeros 2048).getD 2047 0 = 0 := by
    rw [List.getD_eq_getElem?_getD, zeros, List.getElem?_replicate, if_pos (by decide)]
    rfl
  rw [hone]
  exact (crc32cFinal_set_ne _ (by rw [length_zeros]; decide) (by rw [hlast]; decide)).symm

namespace Tiny

/-- 写しを終えた後に、file の最後の byte が `b` に書き換えられた世界。 -/
def rewritten (b : UInt8) : World :=
  ⟨disk ((image 1 []).write 26623 [b]), some stagedJournal, []⟩

/-- file を移す移動。 -/
def fileMove : OwnerMove := (plan false).moves.headD .blank

/-- CRC の検査の手前まで進んだ device。 -/
def reservedDisk (w : World) : Option Disk :=
  match Proc.run (enterCommit host (plan false) commitOptions) w with
  | (.error _, _) => none
  | (.ok (ctx, _), w') =>
    match inspectMove host.srt w'.disk ctx fileMove with
    | .error _ => none
    | .ok (dst, owner) =>
      if owner ≠ fileMove.sourceBlock then none
      else
        match Proc.run (reserveDestination ctx fileMove dst) w' with
        | (.error _, _) => none
        | (.ok _, w'') =>
          match dataOwnerUpdate host.srt w''.disk ctx fileMove fileMove.destinationBlock with
          | .ok (some _) => some w''.disk
          | _ => none

/-- 途中の操作が触れない範囲は、はじめの内容のままである。 -/
theorem read_reservedDisk {w : World} {d : Disk} {off n : Nat} (hboot : w.disk.events = [])
    (hd : reservedDisk w = some d) (hapart : ∀ x, .write x ∈ d.events →
      off + n ≤ x.off ∨ x.off + x.bytes.length ≤ off) :
    d.sizeBytes = w.disk.sizeBytes ∧ d.data.read off n = w.disk.data.read off n := by
  obtain ⟨es, rfl⟩ : ∃ es, d = w.disk.emit es := by
    unfold reservedDisk at hd
    split at hd
    · cases hd
    · next ctx j w' henter =>
      have hfrom := (@from_enterCommit w.disk _ _ _).ok ⟨[], w.disk.emit_nil.symm⟩ henter
      split at hd
      · cases hd
      · next dst owner _ =>
        split at hd
        · cases hd
        · split at hd
          · cases hd
          · next u w'' hreserve =>
            split at hd
            · cases hd
              exact from_reserveDestination.ok hfrom hreserve
            · cases hd
  rw [Disk.emit_events, hboot, List.nil_append] at hapart
  exact ⟨rfl, read_replay_of_disjoint es _ _ _ hapart⟩

/-- CRC の検査を通れば、そこが切り替えの瞬間である。 -/
theorem mem_commitSwitches {w : World} {d : Disk} (hj : w.journal = some stagedJournal)
    (hd : reservedDisk w = some d)
    (hcrc : extentCrc d 5 1 2048 = .ok (storedCrc stagedJournal.view.records fileMove)) :
    (fileMove, d) ∈ commitSwitches host (plan false) commitOptions w := by
  unfold reservedDisk at hd
  unfold commitSwitches
  cases henter : Proc.run (enterCommit host (plan false) commitOptions) w with
  | mk r w' =>
    rw [henter] at hd
    cases r with
    | error e => cases hd
    | ok p =>
      obtain ⟨ctx, j⟩ := p
      cases hj.symm.trans (run_enterCommit_journal henter)
      dsimp only at hd ⊢
      rw [if_neg (by decide)]
      show _ ∈ loopSwitches host ctx 2048 _ 0 [fileMove] w'
      rw [loopSwitches, if_neg (by decide)]
      refine List.mem_append_left _ (Option.mem_toList.mpr (Option.map_eq_some_iff.mpr ⟨d, ?_, rfl⟩))
      unfold switchMoment
      split at hd
      · cases hd
      · next dst owner _ =>
        split at hd
        · cases hd
        · next hown =>
          rw [if_neg hown]
          split at hd
          · cases hd
          · next u w'' _ =>
            split at hd
            · next u' hupd =>
              cases hd
              have hcheck : checkStagedCopy w''.disk 2048 fileMove
                  (storedCrc stagedJournal.view.records fileMove) = .ok () := by
                unfold checkStagedCopy
                rw [if_neg (by decide), show extentCrc w''.disk fileMove.destinationBlock
                  fileMove.blockCount 2048 = _ from hcrc, Result.ok_bind]
                exact if_neg (not_not.mpr rfl)
              have hsw : switchesData host.srt w''.disk ctx 2048 fileMove
                  (storedCrc stagedJournal.view.records fileMove) = true := by
                unfold switchesData
                rw [hcheck, hupd]
                rfl
              rw [if_pos hsw]
            · cases hd

/-- 切り替えの瞬間は、そこ一つだけである。 -/
theorem eq_of_mem_commitSwitches {w : World} {d : Disk} {p : OwnerMove × Disk}
    (hj : w.journal = some stagedJournal) (hd : reservedDisk w = some d)
    (hp : p ∈ commitSwitches host (plan false) commitOptions w) : p = (fileMove, d) := by
  unfold reservedDisk at hd
  unfold commitSwitches at hp
  cases henter : Proc.run (enterCommit host (plan false) commitOptions) w with
  | mk r w' =>
    rw [henter] at hd hp
    cases r with
    | error e => cases hd
    | ok q =>
      obtain ⟨ctx, j⟩ := q
      cases hj.symm.trans (run_enterCommit_journal henter)
      dsimp only at hd hp
      rw [if_neg (by decide), show stableSort OwnerMove.before (plan false).moves = [fileMove] from rfl,
        loopSwitches, if_neg (by decide)] at hp
      rcases List.mem_append.mp hp with hp | hp
      · obtain ⟨d', hd', rfl⟩ := Option.map_eq_some_iff.mp (Option.mem_toList.mp hp)
        unfold switchMoment at hd'
        split at hd
        · cases hd
        · next dst owner hins =>
          rw [hins] at hd'
          dsimp only at hd'
          split at hd
          · cases hd
          · next hown =>
            rw [if_neg hown] at hd'
            split at hd
            · cases hd
            · next u w'' hres =>
              rw [hres] at hd'
              dsimp only at hd'
              split at hd
              · cases hd
                split at hd'
                · cases hd'
                  rfl
                · cases hd'
              · cases hd
      · split at hp <;> cases hp

/-- 書き換えられた file の block。 -/
theorem read_rewritten (b : UInt8) :
    (rewritten b).disk.data.read 24576 2048 = zeros 2047 ++ [b] := by
  show ((image 1 []).write 26623 [b]).read 24576 (2047 + 1) = _
  rw [Image.read_append, Image.read_write_of_disjoint (Or.inl (by decide)),
    read_image_blank (by decide) (by decide)]
  exact congrArg (zeros 2047 ++ ·) (Image.read_write_self _ _ [b] rfl)

/-- destination は空のままである。 -/
theorem read_rewritten_destination (b : UInt8) :
    (rewritten b).disk.data.read 10240 2048 = zeros 2048 := by
  show ((image 1 []).write 26623 [b]).read 10240 2048 = _
  rw [Image.read_write_of_disjoint (Or.inl (by decide)), read_image_blank (by decide) (by decide)]

/-- 記録のどの書き込みも block 4 より前にある。 -/
def early (d : Disk) : Bool :=
  d.events.all fun
    | .write x => x.off + x.bytes.length ≤ 8192
    | .flush => true

/-- CRC の検査の手前の device で読める CRC。 -/
theorem extentCrc_reservedDisk {b : UInt8} {d : Disk} (hd : reservedDisk (rewritten b) = some d)
    (hearly : early d = true) : extentCrc d 12 1 2048 = .ok (crc32cFinal (zeros 2047 ++ [b])) ∧
      extentCrc d 5 1 2048 = .ok (crc32cFinal (zeros 2048)) := by
  have hapart : ∀ {off n}, 8192 ≤ off → ∀ x, .write x ∈ d.events →
      off + n ≤ x.off ∨ x.off + x.bytes.length ≤ off := by
    intro off n hoff x hx
    have hx : x.off + x.bytes.length ≤ 8192 := of_decide_eq_true (List.all_eq_true.mp hearly _ hx)
    exact Or.inr (hx.trans hoff)
  obtain ⟨hsize, hsrc⟩ := @read_reservedDisk _ _ (12 * 2048) (1 * 2048) rfl hd (hapart (by decide))
  obtain ⟨-, hdst⟩ := @read_reservedDisk _ _ (5 * 2048) (1 * 2048) rfl hd (hapart (by decide))
  replace hsize : d.sizeBytes = 32768 := hsize
  constructor
  · rw [extentCrc_eq (by decide) (by omega), hsrc]
    exact congrArg (fun bytes => Except.ok (crc32cFinal bytes)) (read_rewritten b)
  · rw [extentCrc_eq (by decide) (by omega), hdst]
    exact congrArg (fun bytes => Except.ok (crc32cFinal bytes)) (read_rewritten_destination b)

end Tiny

/-- 書き換えのない file の確定では、切り替えの瞬間の写しが source と合う。 -/
theorem switches_sameContent_tiny :
    commitSwitches Tiny.host (Tiny.plan false) Tiny.commitOptions (Tiny.rewritten 0) ≠ [] ∧
    ∀ p ∈ commitSwitches Tiny.host (Tiny.plan false) Tiny.commitOptions (Tiny.rewritten 0),
      SameContent 2048 p.1 p.2 := by
  have hreach : (Tiny.reservedDisk (Tiny.rewritten 0)).map Tiny.early = some true := by
    decide +kernel
  obtain ⟨d, hd, hearly⟩ := Option.map_eq_some_iff.mp hreach
  obtain ⟨hsrcCrc, hdstCrc⟩ := Tiny.extentCrc_reservedDisk hd hearly
  rw [show zeros 2047 ++ [0] = zeros 2048 from List.replicate_succ'.symm] at hsrcCrc
  refine ⟨List.ne_nil_of_mem (Tiny.mem_commitSwitches rfl hd hdstCrc), ?_⟩
  refine (switches_sameContent_iff (j := Tiny.stagedJournal) rfl).mpr fun p hp => ?_
  rw [Tiny.eq_of_mem_commitSwitches rfl hd hp]
  exact hsrcCrc

/-- 写した後に書き換えられた file の確定は、古い写しに切り替える。 -/
theorem rewritten_file_switched : ¬ ∀ (host : Host) (plan : OwnerRelocationPlan)
    (opts : CommitOptions) (w : World), ∀ p ∈ commitSwitches host plan opts w,
      SameContent plan.blockSize p.1 p.2 := by
  intro h
  have hreach : (Tiny.reservedDisk (Tiny.rewritten 1)).map Tiny.early = some true := by
    decide +kernel
  obtain ⟨d, hd, hearly⟩ := Option.map_eq_some_iff.mp hreach
  obtain ⟨hsrcCrc, hdstCrc⟩ := Tiny.extentCrc_reservedDisk hd hearly
  have hmem := Tiny.mem_commitSwitches rfl hd hdstCrc
  have hsame : extentCrc d 12 1 2048 = extentCrc d 5 1 2048 := h _ _ _ _ _ hmem
  rw [hsrcCrc, hdstCrc] at hsame
  exact crc32cFinal_ne (Except.ok.inj hsame).symm

end Fsx.Ext4
