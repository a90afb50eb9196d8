import Fsx.Ext4.Gate
import Fsx.Ext4.JournalSemantics
import Fsx.Ext4.StageSafe
import Fsx.Ext4.AllocationRuns
import Fsx.Journal.Recovery

/-!
# 中断した移動を戻せること

`assess_recovery` が戻してよいと答える journal の下では、device の byte は、計画の行き先と
primary superblock の印（状態と checksum）のほか、始めたときのままである。
行き先は空きの block だけからなるので、journal を捨てれば元の filesystem に戻る。

移動の写しはどの順に混ざってもよく、`stage`・`commit`・`finalize` を何度でも、どの順でも呼び、
そのどこで止まってもよい。

鍵は三つある。

* 写しの仕事は行き先にしか書かない（`JobWithin`）。内容が何であるかは要らない。
* `commit` は、journal の phase を `metadata_finalize` にするまで superblock の印しか変えず、
  一度そうなった phase は戻らない（`Gate.lean`）。
* `finalize` は、写しただけの移動が残るあいだ、target より上に使用中の block を見つけて断る
  （`finalize_refuses`）。
-/

namespace Fsx.Ext4

open Engine Proc

/-! ## 始めたときのままの byte -/

/-- 戻してよい journal。journal がなければ、まだ何も始まっていない。 -/
def Revertible (j : Option JournalFile) : Prop := ∀ f, j = some f → f.view.phase.reversible = true

/-- primary superblock の印の byte。 -/
def SuperStamp (i : Nat) : Prop := 1024 ≤ i ∧ i < 2048 ∧ Stamp (i - 1024)

/-- 行き先と印のほかは、始めたときのままの像。 -/
def AsStarted (V : Volume) (plan : OwnerRelocationPlan) (img : Image) : Prop :=
  ∀ i, (∀ m ∈ plan.moves, m.Outside V.bs i) → ¬ SuperStamp i → img i = V.data i

/-- 行き先への書き込みか、印だけを変えた superblock。 -/
def Harmless (V : Volume) (plan : OwnerRelocationPlan) (x : Write) : Prop :=
  (∃ m ∈ plan.moves, m.Within V.bs x) ∨
    (x.off = 1024 ∧ x.bytes.length = 1024 ∧ ∀ i < 1024, ¬ Stamp i →
      (∀ m ∈ plan.moves, m.Outside V.bs (1024 + i)) → x.bytes[i]? = some (V.data (1024 + i)))

section Started

variable {V : Volume} {plan : OwnerRelocationPlan} {img : Image}

theorem AsStarted.apply {x : Write} (hx : Harmless V plan x) (h : AsStarted V plan img) :
    AsStarted V plan (img.apply x) := by
  intro i hi hs
  rcases hx with ⟨m, hm, hw⟩ | ⟨hoff, hlen, hsame⟩
  · rw [hw.apply_outside (hi m hm)]
    exact h i hi hs
  · unfold Image.apply
    by_cases hin : 1024 ≤ i ∧ i < 2048
    · obtain ⟨h1, h2⟩ := hin
      rw [Image.write_apply_of_mem (by rw [hoff]; exact h1) (by omega), hoff,
        List.getD_eq_getElem?_getD, hsame (i - 1024) (by omega) (fun hst => hs ⟨h1, h2, hst⟩)]
      · rw [Nat.add_sub_cancel' h1]
        rfl
      · rw [Nat.add_sub_cancel' h1]
        exact hi
    · rw [Image.write_apply_of_not_mem (by omega)]
      exact h i hi hs

/-- 状態の欄を付け替えた superblock は、印のほかを変えない。 -/
theorem harmless_stateUpdate {d : Disk} {clean : Bool} {raw : Bytes} (h : AsStarted V plan d.data)
    (hraw : stateUpdate d clean = .ok raw) : Harmless V plan ⟨1024, raw⟩ := by
  obtain ⟨hlen, -⟩ := length_of_stateUpdate hraw
  refine Or.inr ⟨rfl, hlen, fun i hi hs hout => ?_⟩
  unfold stateUpdate at hraw
  obtain ⟨sbraw, hsb, hraw⟩ := Result.bind_eq_ok hraw
  obtain ⟨-, hread⟩ := Disk.readExact_eq_ok_iff.mp hsb
  have hsame := (sameFields_state _ _).trans (sameFields_checksum hraw)
  rw [hsame.2 i hs, hread, Image.getElem?_read, if_pos hi, h _ hout]
  rintro ⟨-, -, hst⟩
  rw [Nat.add_sub_cancel_left] at hst
  exact hs hst

end Started

/-! ## 持ち主のある block -/

namespace Volume

variable {V : Volume} {plan : OwnerRelocationPlan} {o : Owner} {b i : Nat}

/-- 持ち主のある block の byte は、どの行き先の外にもある。 -/
theorem Consistent.owned_outside (hc : V.Consistent) (hp : V.Plans plan) (ho : V.Owns o b)
    (h1 : b * V.bs ≤ i) (h2 : i < (b + 1) * V.bs) : ∀ m ∈ plan.moves, m.Outside V.bs i := by
  intro m hm
  unfold OwnerMove.Outside
  by_contra hin
  rw [not_or, Nat.not_lt, Nat.not_le, ← Nat.add_mul] at hin
  have hge : m.destinationBlock ≤ b := by
    have := lt_of_le_of_lt hin.1 h2
    exact Nat.lt_succ_iff.mp (Nat.lt_of_mul_lt_mul_right this)
  have hlt : b < m.destinationBlock + m.blockCount :=
    Nat.lt_of_mul_lt_mul_right (lt_of_le_of_lt h1 hin.2)
  obtain ⟨⟨hfirst, -, hfree⟩, -⟩ := hp.placed.free m hm b hge hlt
  exact hfree (hc.marked o b ho hfirst)

theorem tableEnd_ge : 2048 ≤ V.tableEnd :=
  (V.accepted.tableOffset_ge).trans (Nat.le_add_right _ _)

/-- superblock は system のものである。 -/
theorem owns_system (hi : i < V.tableEnd) : V.Owns .system (i / V.bs) :=
  lt_of_le_of_lt (Nat.div_mul_le_self i V.bs) hi

theorem bs_pos : 0 < V.bs := lt_of_lt_of_le (by decide) V.accepted.blockSize_ge

/-- superblock と descriptor table の byte は、どの行き先の外にもある。 -/
theorem Consistent.system_outside (hc : V.Consistent) (hp : V.Plans plan) (hi : i < V.tableEnd) :
    ∀ m ∈ plan.moves, m.Outside V.bs i := by
  refine hc.owned_outside hp (owns_system hi) (Nat.div_mul_le_self i V.bs) ?_
  exact Nat.lt_mul_of_div_lt (Nat.lt_succ_self _) bs_pos

/-- system のほかの持ち主の block には、superblock の印はない。 -/
theorem Consistent.owned_not_stamp (hc : V.Consistent) (ho : V.Owns o b) (hne : o ≠ .system)
    (h1 : b * V.bs ≤ i) : ¬ SuperStamp i := by
  rintro ⟨-, hlt, -⟩
  refine hne (hc.exclusive o .system b ho ?_)
  have := tableEnd_ge (V := V)
  exact lt_of_le_of_lt h1 (by omega)

end Volume

namespace AsStarted

open Volume

variable {V : Volume} {plan : OwnerRelocationPlan} {img : Image} {o : Owner} {b i : Nat}

/-- 持ち主のある block は、始めたときのままである。 -/
theorem block (h : AsStarted V plan img) (hc : V.Consistent) (hp : V.Plans plan) (ho : V.Owns o b)
    (hne : o ≠ .system) : V.blockAt img b = V.blockAt V.data b := by
  refine Image.read_congr fun i h1 h2 => h i (hc.owned_outside hp ho h1 ?_)
    (hc.owned_not_stamp ho hne h1)
  rw [Nat.add_one_mul]
  exact h2

/-- descriptor table は、始めたときのままである。 -/
theorem table (h : AsStarted V plan img) (hc : V.Consistent) (hp : V.Plans plan) {off n : Nat}
    (h1 : 2048 ≤ off) (h2 : off + n ≤ V.tableEnd) : img.read off n = V.data.read off n := by
  refine Image.read_congr fun i h3 h4 => h i (hc.system_outside hp (by omega)) ?_
  rintro ⟨-, hlt, -⟩
  omega

/-- primary superblock は、印のほかは始めたときのままである。 -/
theorem super (h : AsStarted V plan img) (hc : V.Consistent) (hp : V.Plans plan) :
    SameFields (V.data.read 1024 1024) (img.read 1024 1024) := by
  refine ⟨by rw [Image.length_read, Image.length_read], fun i hs => ?_⟩
  rw [Image.getElem?_read, Image.getElem?_read]
  by_cases hi : i < 1024
  · rw [if_pos hi, if_pos hi, h (1024 + i) (hc.system_outside hp ?_)]
    · rintro ⟨-, -, hst⟩
      rw [Nat.add_sub_cancel_left] at hst
      exact hs hst
    · have := tableEnd_ge (V := V)
      omega
  · rw [if_neg hi, if_neg hi]

end AsStarted

/-- 印だけが違う superblock は、状態だけが違う。 -/
theorem decodeSuperblock_of_sameFields {b b' : Bytes} (h : SameFields b b') :
    decodeSuperblock b' = (decodeSuperblock b).withState (readLe 2 b' 0x3a) := by
  have hf : ∀ n off, (off + n ≤ 0x3a ∨ (0x3c ≤ off ∧ off + n ≤ 0x5a) ∨
      (0x5c ≤ off ∧ off + n ≤ 0x3fc)) → readLe n b' off = readLe n b off := by
    intro n off hoff
    exact h.readLe fun i h1 h2 => by unfold Stamp; omega
  have huuid : slice b' 0x68 16 = slice b 0x68 16 := by
    apply List.ext_getElem?
    intro i
    rw [getElem?_slice, getElem?_slice]
    split
    · exact h.2 _ (by unfold Stamp; omega)
    · rfl
  unfold decodeSuperblock readLoHi Superblock.withState
  rw [hf 4 0x60 (by omega), hf 4 0x00 (by omega), hf 4 0x04 (by omega), hf 4 0x150 (by omega),
    hf 4 0x08 (by omega), hf 4 0x154 (by omega), hf 4 0x0c (by omega), hf 4 0x158 (by omega),
    hf 4 0x10 (by omega), hf 4 0x14 (by omega), hf 4 0x18 (by omega), hf 4 0x20 (by omega),
    hf 4 0x28 (by omega), hf 2 0x58 (by omega), hf 4 0x64 (by omega), hf 2 0xfe (by omega),
    hf 2 0x38 (by omega), huuid]

/-! ## 大きさの確定は断られる -/

/-- 走査に成功した device は、読み込める filesystem である。 -/
theorem exists_volume_of_graph {d : Disk} {ctx : MetadataContext} {host : Host}
    {graph : AllocationGraph} (hctx : loadMetadataContext d = .ok ctx)
    (hgraph : buildAllocationGraph host d = .ok graph) : ∃ V : Volume, V.disk = d ∧ V.ctx = ctx := by
  unfold buildAllocationGraph at hgraph
  rw [readSuperblock_of_loadMetadataContext hctx, Result.ok_bind] at hgraph
  simp only [Result.guard_bind_eq_ok_iff] at hgraph
  obtain ⟨-, -, hgraph⟩ := hgraph
  obtain ⟨_, -, hgraph⟩ := Result.bind_eq_ok hgraph
  obtain ⟨descs, hdescs, -⟩ := Result.bind_eq_ok hgraph
  exact ⟨⟨d, ctx, descAt d ctx.sb, hctx, fun g hg =>
    readGroupDesc_of_readDescs hdescs g (Nat.zero_le _) (by omega)⟩, rfl, rfl⟩

section Refuses

variable {V V' : Volume} {plan : OwnerRelocationPlan}

/-- 始めたときのままの device では、superblock は状態のほか変わらない。 -/
theorem AsStarted.sb_eq {d : Disk} {sb : Superblock} (h : AsStarted V plan d.data)
    (hc : V.Consistent) (hp : V.Plans plan) (hsb : readSuperblock d = .ok sb) :
    sb = V.sb.withState sb.state := by
  obtain ⟨-, hnow, -⟩ := readSuperblock_eq_ok_iff.mp hsb
  obtain ⟨-, hthen, -⟩ := readSuperblock_eq_ok_iff.mp (readSuperblock_of_loadMetadataContext V.load)
  have hdec := decodeSuperblock_of_sameFields (h.super hc hp)
  rw [hnow, hthen] at hdec
  generalize readLe 2 _ 0x3a = s at hdec
  subst hdec
  rfl

/-- 始めたときに使用中だった block は、いまも使用中である。 -/
theorem AsStarted.allocated (h : AsStarted V plan V'.data) (hc : V.Consistent) (hp : V.Plans plan)
    {b : Nat} (hb : V.Allocated b) : V'.Allocated b := by
  obtain ⟨s, hsb⟩ : ∃ s, V'.sb = V.sb.withState s :=
    ⟨_, h.sb_eq hc hp (readSuperblock_of_loadMetadataContext V'.load)⟩
  have hgroup : V.sb.groupOf b < V.sb.groupsCount := V.accepted.groupOf_lt hb.first hb.within
  have hgroups : V'.sb.groupsCount = V.sb.groupsCount := by
    rw [hsb]
    rfl
  -- descriptor は表にあるので変わらない
  have hdesc : V'.desc (V.sb.groupOf b) = V.desc (V.sb.groupOf b) := by
    have h1 := (readGroupDesc_eq_descAt (V'.descs _ (by rw [hgroups]; exact hgroup))).1
    have h2 := (readGroupDesc_eq_descAt (V.descs _ hgroup)).1
    have hend : (V.sb.groupOf b + 1) * V.sb.descBytes ≤ V.sb.groupsCount * V.sb.descBytes :=
      Nat.mul_le_mul_right _ hgroup
    rw [Nat.add_one_mul] at hend
    have hread := @AsStarted.table _ _ _ h hc hp (V.sb.descOffset (V.sb.groupOf b)) V.sb.descBytes
      ((V.accepted.tableOffset_ge).trans (Nat.le_add_right _ _))
      (by unfold Superblock.descOffset Volume.tableEnd; omega)
    rw [h1, h2, show V'.ctx.sb = V.sb.withState s from hsb]
    exact congrArg (decodeGroupDesc V.sb) hread
  have hbitmap : V.Owns (.blockBitmap (V.sb.groupOf b)) (V.desc (V.sb.groupOf b)).blockBitmap :=
    ⟨hgroup, rfl⟩
  have hblock := h.block hc hp hbitmap nofun
  refine ⟨?_, ?_, ?_⟩
  · rw [hsb]
    exact hb.first
  · rw [hsb]
    exact hb.within
  · have hmark := hb.marked
    unfold Volume.Marked at hmark ⊢
    rw [← hblock] at hmark
    rw [hsb]
    show bitSet (V'.blockAt V'.data (V'.desc (V.sb.groupOf b)).blockBitmap) (V.sb.indexOf b) = true
    rw [hdesc]
    unfold Volume.blockAt Volume.bs
    rw [hsb]
    exact hmark

/--
**写しただけの移動が残るあいだ、`finalize` は検査を通らない。**

移動の元は target より上の使用中の block を含む。
-/
theorem finalize_refuses {d : Disk} {host : Host} {ctx : MetadataContext}
    (h : AsStarted V plan d.data) (hc : V.Consistent) (hp : V.Plans plan) (hmoves : plan.moves ≠ [])
    (htarget : plan.targetBytes = plan.targetBlocks * V.bs) :
    checkFinalize host d plan.targetBytes ≠ .ok ctx := by
  intro hcheck
  unfold checkFinalize at hcheck
  obtain ⟨ready, hready, hcheck⟩ := Result.bind_eq_ok hcheck
  rw [Result.guard_bind_eq_ok_iff] at hcheck
  obtain ⟨hpossible, hcheck⟩ := hcheck
  obtain ⟨ctx', hctx, -⟩ := Result.bind_eq_ok hcheck
  unfold analyzeShrinkReadiness at hready
  obtain ⟨sb, hsb, hready⟩ := Result.bind_eq_ok hready
  simp only [Result.guard_bind_eq_ok_iff] at hready
  obtain ⟨-, -, hready⟩ := hready
  obtain ⟨removed, -, hready⟩ := Result.bind_eq_ok hready
  obtain ⟨graph, hgraph, hready⟩ := Result.bind_eq_ok hready
  obtain ⟨fixed, -, hready⟩ := Result.bind_eq_ok hready
  cases hready
  have hsb' := h.sb_eq hc hp hsb
  obtain ⟨V', rfl, rfl⟩ := exists_volume_of_graph hctx hgraph
  -- 移動の元の最後の block は、target 以上で使用中である
  obtain ⟨m, hm⟩ := List.exists_mem_of_ne_nil _ hmoves
  have hwf := hp.shape.moves m hm
  have habove := hwf.source_above
  have hpos := hwf.count_pos
  have hfits := hc.source_fits (hp.sources m hm)
  have hfirst : V.sb.firstDataBlock ≤ m.sourceBlock + m.blockCount - 1 := by
    obtain ⟨⟨h1, -, -⟩, h2⟩ := hp.placed.free m hm m.destinationBlock (Nat.le_refl _) (by omega)
    omega
  have hlast : V.Allocated (m.sourceBlock + m.blockCount - 1) :=
    ⟨hfirst, by omega, hc.source_marked (hp.sources m hm) (by omega) (by omega) hfirst⟩
  have htail : (V'.allocatedAbove plan.targetBlocks).card ≤ _ := Volume.card_allocatedAbove_le hgraph
  have hmem : m.sourceBlock + m.blockCount - 1 ∈ V'.allocatedAbove plan.targetBlocks :=
    Volume.mem_allocatedAbove.mpr ⟨by omega, h.allocated hc hp hlast⟩
  have hcard := Finset.card_pos.mpr ⟨_, hmem⟩
  have hblocks : plan.targetBytes / sb.blockSize = plan.targetBlocks := by
    rw [hsb', htarget]
    exact Nat.mul_div_cancel _ Volume.bs_pos
  unfold ShrinkReadiness.finalizePossible at hpossible
  dsimp only at hpossible
  rw [hblocks] at hpossible
  simp only [Bool.not_eq_false, Bool.and_eq_true, decide_eq_true_eq] at hpossible
  omega

end Refuses

/-! ## 写しの仕事 -/

/-- 仕事の残りの区切りは、移動の範囲を出ない。 -/
def JobWithin (bs : Nat) (m : OwnerMove) (j : CopyJob) : Prop :=
  match j.state with
  | .ended _ => True
  | .ready left _ => JobRange bs m j ∧ ∃ pos, Tiles left pos (m.blockCount * bs)
  | .holding pos span left _ => JobRange bs m j ∧ Tiles left (pos + span.length) (m.blockCount * bs)

section Job

variable {bs : Nat} {m : OwnerMove} {j : CopyJob}

theorem byteRange_eq_ok {d : Disk} {block count : Nat} {p : Nat × Nat}
    (h : byteRange d block count bs = .ok p) : 0 < bs ∧ p = (block * bs, count * bs) := by
  unfold byteRange at h
  simp only [Result.guard_bind_eq_ok_iff, Result.pure_eq_ok_iff] at h
  obtain ⟨hzero, -, -, rfl⟩ := h
  rw [not_or] at hzero
  exact ⟨Nat.pos_of_ne_zero hzero.1, rfl⟩

theorem JobWithin.start (d : Disk) (chunk : Nat) : JobWithin bs m (CopyJob.start d bs chunk m) := by
  unfold CopyJob.start
  split
  · trivial
  · next hw =>
    cases hs : byteRange d m.sourceBlock m.blockCount bs with
    | error e => trivial
    | ok p =>
      cases hd : byteRange d m.destinationBlock m.blockCount bs with
      | error e => trivial
      | ok q =>
        obtain ⟨hpos, rfl⟩ := byteRange_eq_ok hs
        obtain ⟨-, rfl⟩ := byteRange_eq_ok hd
        have htiles := @tiles_chunks (max bs chunk) (by omega) (m.blockCount * bs) 0
          (m.blockCount * bs) (le_refl _)
        rw [Nat.zero_add] at htiles
        exact ⟨⟨by simpa using hw, rfl, rfl, rfl⟩, 0, htiles⟩

/-- 一歩は、書くとすれば移動の行き先の中に書く。 -/
theorem JobWithin.advance (h : JobWithin bs m j) (f : Fate) (w : World) :
    JobWithin bs m (j.advance f w).1 ∧
      ((j.advance f w).2 = w ∨ ∃ x, m.Within bs x ∧ x.off + x.bytes.length ≤ w.disk.sizeBytes ∧
        (j.advance f w).2 = w.emit [.write x]) := by
  obtain ⟨src, dst, total, state⟩ := j
  unfold CopyJob.advance
  cases state with
  | ended r => exact ⟨h, Or.inl rfl⟩
  | ready left crc =>
    obtain ⟨hr, pos, htiles⟩ := h
    cases left with
    | nil => exact ⟨trivial, Or.inl rfl⟩
    | cons c left =>
      obtain ⟨p, n⟩ := c
      obtain ⟨rfl, hrest⟩ := htiles
      dsimp only
      split
      · exact ⟨trivial, Or.inl rfl⟩
      · split
        · exact ⟨trivial, Or.inl rfl⟩
        · cases hread : w.disk.readExact (src + p) n with
          | error e => exact ⟨trivial, Or.inl rfl⟩
          | ok span =>
            obtain ⟨-, rfl⟩ := Disk.readExact_eq_ok_iff.mp hread
            refine ⟨⟨⟨hr.written, hr.src, hr.dst, hr.total⟩, ?_⟩, Or.inl rfl⟩
            rw [Image.length_read]
            exact hrest
  | holding pos span left crc =>
    obtain ⟨hr, htiles⟩ := h
    have hdst : dst = m.destinationBlock * bs := hr.dst
    have hle := htiles.le
    dsimp only
    split
    · next k e hk =>
      refine ⟨trivial, ?_⟩
      rcases run_write_cases w (dst + pos) (span.take k) with ⟨e', he⟩ | ⟨hfit, hok⟩
      · exact Or.inl (by rw [he])
      · have := List.length_take_le' k span
        refine Or.inr ⟨_, ⟨?_, ?_⟩, hfit, by rw [hok]⟩
        · dsimp only
          omega
        · dsimp only
          omega
    · rcases run_write_cases w (dst + pos) span with ⟨e, he⟩ | ⟨hfit, hok⟩
      · rw [he]
        exact ⟨trivial, Or.inl rfl⟩
      · rw [hok]
        exact ⟨⟨⟨hr.written, hr.src, hr.dst, hr.total⟩, _, htiles⟩,
          Or.inr ⟨_, ⟨by dsimp only; omega, by dsimp only; omega⟩, hfit, rfl⟩⟩

end Job

/-! ## journal の見え方 -/

/-- 計画の意図だけが、順に置かれている。 -/
def Intents (plan : OwnerRelocationPlan) (records : List JournalRecord) : Prop :=
  records.filter (fun r => decide (r.type = .relocationIntent)) =
    TransactionJournal.numbered 0 (plan.moves.map (moveRecord .relocationIntent))

/--
計画の journal。

戻してよい phase では、作りたてで何も置かれていないか、意図がすべて置かれている。
-/
structure PlanJournal (V : Volume) (plan : OwnerRelocationPlan) (v : JournalView) : Prop where
  moves : plan.moves ≠ []
  few : plan.moves.length < 2 ^ 63
  device : v.identity.deviceSize = UInt64.ofNat V.disk.sizeBytes
  target : v.identity.targetSize = UInt64.ofNat plan.targetBytes
  filesystem : parseUuid V.sb.uuid = .ok v.identity.filesystemUuid
  intents : v.phase.reversible = true → v.phase = .prepared ∧ v.records = [] ∨ Intents plan v.records

section Journal

variable {V : Volume} {plan : OwnerRelocationPlan} {v : JournalView}

theorem mem_numbered {r : JournalRecord} : ∀ {n : Nat} {rs : List JournalRecord},
    r ∈ TransactionJournal.numbered n rs → ∃ r' ∈ rs, ∃ q, r = { r' with sequence := q }
  | _, [], h => by cases h
  | n, r' :: rs, h => by
    rcases List.mem_cons.mp h with rfl | h
    · exact ⟨r', List.mem_cons_self, _, rfl⟩
    · obtain ⟨r'', hr, hq⟩ := mem_numbered h
      exact ⟨r'', List.mem_cons_of_mem _ hr, hq⟩

/-- 意図のほかの record を続けても、意図は変わらない。 -/
theorem Intents.extend (h : Intents plan v.records) {rs : List JournalRecord}
    (hrs : ∀ r ∈ rs, r.type ≠ .relocationIntent) : Intents plan (v.extend rs).records := by
  show List.filter _ (v.records ++ TransactionJournal.numbered v.records.length rs) = _
  rw [List.filter_append, h, List.filter_eq_nil_iff.mpr, List.append_nil]
  intro r hr
  obtain ⟨r', hr', q, rfl⟩ := mem_numbered hr
  simpa using hrs r' hr'

/-- phase の record も、意図ではない。 -/
theorem Intents.checkpoint (h : Intents plan v.records) (phase : OperationPhase) :
    Intents plan (JournalOp.recorded v (.checkpoint phase)).records := by
  refine h.extend fun r hr => ?_
  rw [List.mem_singleton.mp hr]
  exact nofun

/-- 意図を置いた journal。 -/
theorem intents_extend (h : v.records = []) :
    Intents plan (v.extend (plan.moves.map (moveRecord .relocationIntent))).records := by
  show List.filter _ (v.records ++ TransactionJournal.numbered v.records.length _) = _
  rw [h, List.nil_append, List.length_nil, List.filter_eq_self]
  intro r hr
  obtain ⟨r', hr', q, rfl⟩ := mem_numbered hr
  obtain ⟨m, -, rfl⟩ := List.mem_map.mp hr'
  rfl

/-- 見え方の条件は、identity と、戻してよい phase での record だけを見る。 -/
theorem PlanJournal.congr (h : PlanJournal V plan v) {v' : JournalView}
    (hid : v'.identity = v.identity)
    (hi : v'.phase.reversible = true → Intents plan v'.records) : PlanJournal V plan v' where
  moves := h.moves
  few := h.few
  device := by rw [hid]; exact h.device
  target := by rw [hid]; exact h.target
  filesystem := by rw [hid]; exact h.filesystem
  intents := fun hr => Or.inr (hi hr)

/-- 操作は identity を変えない。 -/
theorem identity_of_mem_states {op : JournalOp} {v' : JournalView} (h : v' ∈ op.states v) :
    v'.identity = v.identity := by
  simp only [JournalOp.states, List.mem_cons, List.not_mem_nil, or_false] at h
  rcases h with rfl | rfl <;> cases op <;> rfl

/-- 戻してよく、意図が置かれている journal。 -/
def Copying (plan : OwnerRelocationPlan) (j : Option JournalFile) : Prop :=
  ∃ f, j = some f ∧ f.view.phase.reversible = true ∧ Intents plan f.view.records

/-- もう戻せない journal。 -/
def Forward (j : Option JournalFile) : Prop := ∃ f, j = some f ∧ f.view.phase.reversible = false

theorem Copying.revertible {j : Option JournalFile} (h : Copying plan j) : Revertible j := by
  obtain ⟨f, rfl, hr, -⟩ := h
  intro g hg
  cases hg
  exact hr

theorem Forward.not_revertible {j : Option JournalFile} (h : Forward j) : ¬ Revertible j := by
  obtain ⟨f, rfl, hr⟩ := h
  intro hall
  rw [hall f rfl] at hr
  cases hr

end Journal

/-! ## engine の世界 -/

/-- 計画の約束の下にある世界。 -/
abbrev Bound (V : Volume) (plan : OwnerRelocationPlan) (boot w : World) : Prop :=
  Gated Revertible (Harmless V plan) (PlanJournal V plan) boot w

/-- さらに、いまの journal が `Q` を満たす。 -/
abbrev BoundAt (V : Volume) (plan : OwnerRelocationPlan) (Q : Option JournalFile → Prop)
    (boot w : World) : Prop :=
  GatedAt Revertible (Harmless V plan) (PlanJournal V plan) Q boot w

/-- 起動したときの世界。戻してよければ、device は始めたときのままである。 -/
structure Booted (V : Volume) (plan : OwnerRelocationPlan) (boot : World) : Prop where
  trace : boot.trace = []
  size : boot.disk.sizeBytes = V.disk.sizeBytes
  journal : ∀ f, boot.journal = some f → PlanJournal V plan f.view
  started : Revertible boot.journal → AsStarted V plan boot.disk.data

section Bound

variable {V : Volume} {plan : OwnerRelocationPlan} {boot w : World}
  {Q R : Option JournalFile → Prop} {J : JournalView → Prop}

/-- 戻してよいあいだ、device は始めたときのままである。 -/
theorem Booted.asStarted (hb : Booted V plan boot) (h : Bound V plan boot w)
    (hr : Revertible w.journal) : AsStarted V plan w.disk.data :=
  h.holds hr hb.started fun _ hx _ hi => hi.apply hx

/-! ### 写し -/

/-- **どの予定でも、batch の写しは約束を守り、journal に触れない。** -/
theorem keeps_copyParallel {gate : Option JournalFile → Prop} {sched : List (Nat × Fate)}
    {chunk : Nat} {batch : List OwnerMove} (hsub : ∀ m ∈ batch, m ∈ plan.moves) :
    Keeps (GatedAt gate (Harmless V plan) J Q boot) (copyParallel sched V.bs chunk batch) := by
  intro w hw
  have hinv := @interleave_inv _ _ _ CopyJob.advance (GatedAt gate (Harmless V plan) J Q boot)
    (fun _ j _ => ∃ m ∈ plan.moves, JobWithin V.bs m j) (fun f i j s hG hI => ?_)
    (sched ++ drain (batch.map (CopyJob.start w.disk V.bs chunk)))
    (batch.map (CopyJob.start w.disk V.bs chunk)) w hw fun i j hj => ?_
  · exact ⟨fun a w' hr => (Prod.mk.inj hr).2 ▸ hinv.1, fun e w' hr => (Prod.mk.inj hr).2 ▸ hinv.1⟩
  · obtain ⟨m, hm, hjob⟩ := hI
    obtain ⟨hown, hstep⟩ := hjob.advance f s
    refine ⟨?_, ⟨m, hm, hown⟩, fun k j' _ hk => hk⟩
    rcases hstep with hsame | ⟨x, hx, -, hemit⟩
    · rw [hsame]
      exact hG
    · rw [hemit]
      refine ⟨hG.1.dev fun y hy _ => ?_, hG.2⟩
      cases hy
      exact Or.inl ⟨m, hm, hx⟩
  · rw [List.getElem?_map] at hj
    obtain ⟨m, hm, rfl⟩ := Option.map_eq_some_iff.mp hj
    exact ⟨m, hsub m (List.mem_of_getElem? hm), JobWithin.start _ _⟩

/-- 意図のほかの record を続ける。 -/
theorem copying_appendBatch {rs : List JournalRecord} (hrs : ∀ r ∈ rs, r.type ≠ .relocationIntent) :
    Keeps (BoundAt V plan (Copying plan) boot) (appendBatch rs) := by
  refine gatedAt_journalOp (fun f hf hJ => ?_) fun _ h => h
  obtain ⟨f', hf', hr, hi⟩ := hf
  cases hf'
  have hext := hi.extend hrs
  refine ⟨fun v hv => ?_, ⟨_, rfl, hr, hext⟩⟩
  simp only [JournalOp.states, JournalOp.recorded, JournalOp.result, List.mem_cons,
    List.not_mem_nil, or_false, or_self] at hv
  subst hv
  exact ⟨hJ.congr rfl fun _ => hext, fun _ => Copying.revertible ⟨f, rfl, hr, hi⟩⟩

/-- 戻してよい phase を記す。 -/
theorem copying_checkpoint {phase : OperationPhase} (hphase : phase.reversible = true) :
    Keeps (BoundAt V plan (Copying plan) boot) (checkpoint phase) := by
  refine gatedAt_journalOp (fun f hf hJ => ?_) fun _ h => h
  obtain ⟨f', hf', hr, hi⟩ := hf
  cases hf'
  have hext := hi.checkpoint phase
  refine ⟨fun v hv => ⟨?_, fun _ => Copying.revertible ⟨f, rfl, hr, hi⟩⟩, ⟨_, rfl, hphase, hext⟩⟩
  refine hJ.congr (identity_of_mem_states hv) fun _ => ?_
  simp only [JournalOp.states, List.mem_cons, List.not_mem_nil, or_false] at hv
  rcases hv with rfl | rfl
  · exact hext
  · exact hext

/-- `op` が記す phase は、どれも戻せない。 -/
def Onward (op : JournalOp) : Prop := ∀ p, op = .checkpoint p → p.reversible = false

/-- 戻せない journal では、どの操作も約束を破らない。 -/
theorem carries_forward : Carries Onward (BoundAt V plan Forward boot) where
  write := fun _ _ =>
    gatedAt_write (fun _ h => ⟨h, fun hr => absurd hr h.2.not_revertible⟩) fun _ h => h
  flush := gatedAt_flush
  journal := by
    intro op hop
    refine gatedAt_journalOp (fun f hf hJ => ?_) fun _ h => h
    obtain ⟨f', hf', hr⟩ := hf
    cases hf'
    have hphase : ∀ v ∈ op.states f.view, v.phase.reversible = false := by
      intro v hv
      simp only [JournalOp.states, List.mem_cons, List.not_mem_nil, or_false] at hv
      cases op with
      | appendBatch rs =>
        rcases hv with rfl | rfl
        · exact hr
        · exact hr
      | checkpoint p =>
        rcases hv with rfl | rfl
        · exact hr
        · exact hop p rfl
    refine ⟨fun v hv => ⟨hJ.congr (identity_of_mem_states hv) fun h => ?_, fun h => ?_⟩,
      ⟨_, rfl, hphase _ (by simp [JournalOp.states])⟩⟩
    · rw [hphase v hv] at h
      cases h
    · have := h _ rfl
      rw [hphase v hv] at this
      cases this

/-! ### 写しを作る段 -/

theorem keeps_stageLoopWith {copy : Nat → List OwnerMove → EngineM (List (UInt32 × Nat))}
    (hcopy : ∀ n batch, (∀ m ∈ batch, m ∈ plan.moves) →
      Keeps (BoundAt V plan (Copying plan) boot) (copy n batch)) {host : Host} {opts : StageOptions}
    {workers chunk : Nat} : ∀ (fuel : Nat) (verified : List Nat) (ms : List OwnerMove)
    (report : StageReport), (∀ m ∈ ms, m ∈ plan.moves) →
    Keeps (BoundAt V plan (Copying plan) boot)
      (stageLoopWith copy host opts plan workers chunk fuel verified ms report)
  | 0, _, _, _, _ => Triple.pure fun _ h => h
  | fuel + 1, verified, ms, report, hms => by
    have hrest : ∀ m ∈ ms.dropWhile (fun m => decide (m.transactionId ∈ verified)), m ∈ plan.moves :=
      fun m hm => hms m ((List.dropWhile_sublist _).mem hm)
    have htake := takeBatch_spec verified workers
      (ms.dropWhile fun m => decide (m.transactionId ∈ verified))
    refine Triple.ite (fun _ => Triple.pure fun _ h => h) fun _ => Triple.ite (fun _ => ?_) fun _ => ?_
    · exact Triple.bind (copying_checkpoint rfl) fun _ => Triple.pure fun _ h => h
    · refine Triple.bind (triple_onError (hcopy _ _ fun m hm => hrest m (htake.batch.mem hm))
        (copying_checkpoint rfl)) fun copied => Triple.bind gatedAt_flush fun _ => ?_
      refine Triple.bind (R := fun rs w => BoundAt V plan (Copying plan) boot w ∧
        ∀ r ∈ rs, r.type ≠ .relocationIntent) (Triple.reading ?_ fun _ h => h) fun rs => ?_
      · intro w rs hw hrs
        refine ⟨hw, fun r hr => ?_⟩
        obtain ⟨m, crc, -, rfl⟩ := mem_verifyBatch hrs r hr
        exact nofun
      · intro w hw
        exact (Triple.bind (copying_appendBatch hw.2) fun _ =>
          keeps_stageLoopWith hcopy fuel _ _ _ fun m hm => hrest m (htake.rest.mem hm)) w hw.1

/-- 作りたての journal。 -/
def JustCreated (j : Option JournalFile) : Prop :=
  ∃ f, j = some f ∧ f.view.phase = .prepared ∧ f.view.records = []

/-- 新しい journal を作り、意図を置き、写し始める。 -/
theorem triple_startStage_bound (hb : Booted V plan boot) {jhost : JournalHost} {fu : Uuid}
    (hfu : parseUuid V.sb.uuid = .ok fu) (hmoves : plan.moves ≠ []) {w₀ : World}
    (hw₀ : Bound V plan boot w₀) (hnone : w₀.journal = none) :
    Triple (fun w => w = w₀) (startStage jhost fu plan) (fun _ => BoundAt V plan (Copying plan) boot)
      (Bound V plan boot) := by
  unfold startStage
  refine Triple.reading_bind hw₀ fun size hsize => Triple.reading_bind hw₀ fun cap hcap => ?_
  cases hsize
  have hfew : plan.moves.length < 2 ^ 63 := by
    unfold journalCapacity at hcap
    simp only [Result.guard_bind_eq_ok_iff] at hcap
    have := hcap.1
    unfold u64Max at this
    omega
  have hnew : ∀ phase : OperationPhase, phase = .prepared → PlanJournal V plan {
      identity := {
        operationUuid := jhost.operationUuid
        filesystemUuid := fu
        deviceSize := UInt64.ofNat w₀.disk.sizeBytes
        targetSize := UInt64.ofNat plan.targetBytes }
      phase, records := [] } := fun phase hphase => {
    moves := hmoves
    few := hfew
    device := by rw [hw₀.sizeBytes, hb.size]
    target := rfl
    filesystem := hfu
    intents := fun _ => Or.inl ⟨hphase, rfl⟩ }
  refine Triple.bind (R := fun _ => BoundAt V plan JustCreated boot) ?_ fun _ => ?_
  · refine Triple.stepping (fun w w' h hw => ?_) fun w h => h ▸ hw₀
    subst h
    rw [Result.guard_bind_eq_ok_iff] at hw
    obtain ⟨_, -, hw⟩ := Result.bind_eq_ok hw.2
    cases hw
    refine ⟨?_, _, rfl, rfl, rfl⟩
    refine @Gated.journals Revertible (Harmless V plan) (PlanJournal V plan) boot w hw₀ [_] _ rfl
      (fun f hf => ?_) fun f _ _ => ?_
    · rw [List.mem_singleton.mp hf]
      exact hnew _ rfl
    · rw [hnone]
      exact nofun
  · refine Triple.bind (R := fun _ => BoundAt V plan JustCreated boot)
      (Triple.reading (fun _ _ h _ => h) fun _ h => h.1) fun _ => ?_
    refine Triple.bind (R := fun _ => BoundAt V plan (Copying plan) boot)
      (gatedAt_journalOp (fun f hf hJ => ?_) fun _ h => h.1) fun _ =>
        (copying_checkpoint rfl).mono (fun _ h => h) (fun _ _ h => h) fun _ h => h.1
    obtain ⟨f', hf', hphase, hrec⟩ := hf
    cases hf'
    have hint : Intents plan _ := intents_extend hrec
    have hrev : f.view.phase.reversible = true := by
      rw [hphase]
      rfl
    refine ⟨fun v hv => ?_, ⟨_, rfl, hrev, hint⟩⟩
    simp only [JournalOp.states, JournalOp.recorded, JournalOp.result, List.mem_cons,
      List.not_mem_nil, or_false, or_self] at hv
    subst hv
    refine ⟨hJ.congr rfl fun _ => hint, fun _ g hg => ?_⟩
    cases hg
    exact hrev

/-- journal を開くと、意図がすべて置かれている。 -/
theorem triple_openStage_bound (hb : Booted V plan boot) {jhost : JournalHost} {fu : Uuid}
    {chunk : Nat} (hmoves : plan.moves ≠ []) {w₀ : World} (hw₀ : Bound V plan boot w₀)
    (hfu : w₀.journal = none → parseUuid V.sb.uuid = .ok fu) :
    Triple (fun w => w = w₀) (openStage jhost fu plan chunk)
      (fun _ => BoundAt V plan (Copying plan) boot) (Bound V plan boot) := by
  unfold openStage
  refine Triple.bind (R := fun w' w => w' = w₀ ∧ w = w₀) (Triple.get fun w h => ⟨h, h⟩) fun w' => ?_
  rintro w ⟨rfl, rfl⟩
  cases hj : w.journal with
  | none =>
    have hnew : Triple (fun v => v = w) (startStage jhost fu plan >>= fun _ => Pure.pure [])
        (fun (_ : List Nat) => BoundAt V plan (Copying plan) boot) (Bound V plan boot) :=
      Triple.bind (triple_startStage_bound hb (hfu hj) hmoves hw₀ hj) fun _ =>
        Triple.pure fun _ h => h
    exact hnew w rfl
  | some j =>
    refine (Triple.reading_bind hw₀ fun _ _ => Triple.reading (fun v vs hv hvs => ?_)
      fun v hv => hv ▸ hw₀ : Triple (fun v => v = w) _ _ _) w rfl
    subst hv
    refine ⟨hw₀, j, hj, ?_⟩
    unfold resumeStage at hvs
    simp only [Result.guard_bind_eq_ok_iff] at hvs
    obtain ⟨hphase, hcount, -⟩ := hvs
    have hrev : j.view.phase.reversible = true := by
      cases hp : j.view.phase <;> simp [hp, OperationPhase.reversible] at hphase ⊢
    refine ⟨hrev, ?_⟩
    rcases (hw₀.always.now j hj).intents hrev with ⟨-, hnil⟩ | hint
    · rw [hnil] at hcount
      refine absurd (List.length_eq_zero_iff.mp (not_not.mp hcount).symm) hmoves
    · exact hint

/-- **`stage_relocation` は約束を守る。** -/
theorem triple_stage_bound (hc : V.Consistent) (hp : V.Plans plan) (hb : Booted V plan boot)
    {sched : Nat → List (Nat × Fate)} {host : Host} {jhost : JournalHost} {opts : StageOptions}
    {w₀ : World} (hw₀ : Bound V plan boot w₀) :
    Triple (fun w => w = w₀) (stageRelocationIn sched host jhost plan opts)
      (fun _ => Bound V plan boot) (Bound V plan boot) := by
  have hstart : ∀ w, w = w₀ → Bound V plan boot w := fun w h => h ▸ hw₀
  unfold stageRelocationIn stageRelocationWith
  refine Triple.guard hstart fun _ => Triple.reading_bind hw₀ fun _ _ => Triple.ite
    (fun _ => Triple.pure hstart) fun hmoves => ?_
  refine Triple.reading_bind hw₀ fun sb hsb => Triple.reading_bind hw₀ fun fu hfu =>
    Triple.reading_bind hw₀ fun prof _ => ?_
  have huuid : w₀.journal = none → parseUuid V.sb.uuid = .ok fu := by
    intro hnone
    have hnow := hb.asStarted hw₀ (by rw [hnone]; exact nofun)
    unfold checkStageFilesystem at hsb
    obtain ⟨sb', hsb', hsb⟩ := Result.bind_eq_ok hsb
    have heq := hnow.sb_eq hc hp hsb'
    have hsame : sb = sb' := by
      simp only [Result.guard_bind_eq_ok_iff] at hsb
      obtain ⟨-, -, hsb⟩ := hsb
      split at hsb
      · obtain ⟨_, -, hsb⟩ := Result.bind_eq_ok hsb
        rw [Result.guard_bind_eq_ok_iff] at hsb
        cases hsb.2
        rfl
      · cases hsb
        rfl
    rw [hsame, heq] at hfu
    exact hfu
  refine Triple.bind (triple_openStage_bound hb hmoves hw₀ huuid) fun vs => ?_
  dsimp only
  refine Triple.bind (R := fun _ => BoundAt V plan (Copying plan) boot) ?_ fun report => ?_
  · refine (keeps_stageLoopWith (fun n batch hsub => ?_) _ _ _ _ fun m hm => hm).mono
      (fun _ h => h) (fun _ _ h => h) fun _ h => h.1
    rw [hp.blockSize]
    exact keeps_copyParallel hsub
  · refine Triple.ite (fun _ => Triple.pure fun _ h => h.1) fun _ => ?_
    exact Triple.bind ((copying_checkpoint rfl).mono (fun _ h => h) (fun _ _ h => h) fun _ h => h.1)
      fun _ => Triple.pure fun _ h => h.1

/-! ### metadata を確定する段 -/

theorem onward_append (r : JournalRecord) : Onward (.appendBatch [r]) := nofun

theorem onward_checkpoint {p : OperationPhase} (h : p.reversible = false) : Onward (.checkpoint p) := by
  intro q hq
  cases hq
  exact h

/-- 戻せない phase を記す。もとの journal は、戻せても戻せなくてもよい。 -/
theorem forward_checkpoint {phase : OperationPhase} (hphase : phase.reversible = false) :
    Triple (BoundAt V plan (fun j => Copying plan j ∨ Forward j) boot) (checkpoint phase)
      (fun _ => BoundAt V plan Forward boot) (Bound V plan boot) := by
  refine gatedAt_journalOp (fun f hf hJ => ⟨fun v hv => ?_, ⟨_, rfl, hphase⟩⟩) fun _ h => h.1
  simp only [JournalOp.states, List.mem_cons, List.not_mem_nil, or_false] at hv
  rcases hf with ⟨f', hf', hr, hi⟩ | ⟨f', hf', hr⟩
  · cases hf'
    have hext := hi.checkpoint phase
    have hopen : Revertible (some f) := Copying.revertible ⟨f, rfl, hr, hi⟩
    rcases hv with rfl | rfl
    · exact ⟨hJ.congr rfl fun _ => hext, fun _ => hopen⟩
    · exact ⟨hJ.congr rfl fun _ => hext, fun _ => hopen⟩
  · cases hf'
    have hlocked : v.phase.reversible = false := by
      rcases hv with rfl | rfl
      · exact hr
      · exact hphase
    refine ⟨hJ.congr (by rcases hv with rfl | rfl <;> rfl) fun h => ?_, fun h => ?_⟩
    · rw [hlocked] at h
      cases h
    · have := h _ rfl
      rw [hlocked] at this
      cases this

/-- 意図のほかの record を一つ足す。 -/
theorem either_append {r : JournalRecord} (hr : r.type ≠ .relocationIntent) :
    Keeps (BoundAt V plan (fun j => Copying plan j ∨ Forward j) boot) (append r) := by
  rintro w ⟨hw, hcopy | hforward⟩
  · have h := @copying_appendBatch V plan boot [r] (fun r' hr' => List.mem_singleton.mp hr' ▸ hr) w
      ⟨hw, hcopy⟩
    exact ⟨fun a w' hrun => (h.1 a w' hrun).imp_right Or.inl,
      fun e w' hrun => (h.2 e w' hrun).imp_right Or.inl⟩
  · have h := (@carries_forward V plan boot).journal _ (onward_append r) w ⟨hw, hforward⟩
    exact ⟨fun a w' hrun => (h.1 a w' hrun).imp_right Or.inr,
      fun e w' hrun => (h.2 e w' hrun).imp_right Or.inr⟩

/-- **確定を始めるまでに変わるのは印だけで、その後の phase は戻せない。** -/
theorem triple_beginCommit_bound (hb : Booted V plan boot) {ctx : MetadataContext} :
    Triple (BoundAt V plan (fun j => Copying plan j ∨ Forward j) boot) (beginCommit ctx)
      (fun _ => BoundAt V plan Forward boot) (Bound V plan boot) := by
  have hmark : Triple (BoundAt V plan (fun j => Copying plan j ∨ Forward j) boot)
      (markFilesystemState false)
      (fun _ => BoundAt V plan (fun j => Copying plan j ∨ Forward j) boot) (Bound V plan boot) := by
    refine Triple.bind (R := fun raw w => BoundAt V plan (fun j => Copying plan j ∨ Forward j) boot w ∧
      (Revertible w.journal → Harmless V plan ⟨1024, raw⟩)) (Triple.reading ?_ fun _ h => h.1)
      fun raw => Triple.bind (gatedAt_write (fun _ h => h) fun _ h => h.1.1) fun _ =>
        gatedAt_flush.mono (fun _ h => h) (fun _ _ h => h) fun _ h => h.1
    exact fun w raw hw hraw => ⟨hw, fun hr => harmless_stateUpdate (hb.asStarted hw.1 hr) hraw⟩
  refine Triple.ite (fun _ => ?_) fun _ => forward_checkpoint rfl
  refine Triple.bind hmark fun _ => Triple.bind ?_ fun _ => forward_checkpoint rfl
  exact (either_append (by exact nofun)).mono (fun _ h => h) (fun _ _ h => h) fun _ h => h.1

/-- **`commit_staged_relocation` は約束を守る。** -/
theorem triple_commit_bound (hb : Booted V plan boot) {host : Host} {opts : CommitOptions}
    {w₀ : World} (hw₀ : Bound V plan boot w₀) :
    Triple (fun w => w = w₀) (commitStagedRelocation host plan opts) (fun _ => Bound V plan boot)
      (Bound V plan boot) := by
  have hstart : ∀ w, w = w₀ → Bound V plan boot w := fun w h => h ▸ hw₀
  unfold commitStagedRelocation
  refine Triple.guard hstart fun _ => Triple.reading_bind hw₀ fun _ _ =>
    Triple.reading_bind hw₀ fun ctx _ => Triple.reading_bind hw₀ fun j hj =>
      Triple.reading_bind hw₀ fun _ hcheck => Triple.ite (fun _ => Triple.pure hstart) fun _ => ?_
  have hjournal : w₀.journal = some j := by
    cases h : w₀.journal with
    | none =>
      rw [h] at hj
      cases hj
    | some j' =>
      rw [h] at hj
      cases hj
      rfl
  -- 開いた journal は、写し終えたところか、すでに戻せないかのどちらかである
  have heither : Copying plan w₀.journal ∨ Forward w₀.journal := by
    unfold checkCommitJournal at hcheck
    obtain ⟨_, -, hcheck⟩ := Result.bind_eq_ok hcheck
    obtain ⟨_, -, hcheck⟩ := Result.bind_eq_ok hcheck
    rw [Result.guard_bind_eq_ok_iff] at hcheck
    rw [hjournal]
    by_cases hstaged : j.view.phase = .staged
    · have hrev : j.view.phase.reversible = true := by
        rw [hstaged]
        rfl
      refine Or.inl ⟨j, rfl, hrev, ?_⟩
      rcases (hw₀.always.now j hjournal).intents hrev with ⟨hprep, -⟩ | hint
      · rw [hstaged] at hprep
        cases hprep
      · exact hint
    · refine Or.inr ⟨j, rfl, ?_⟩
      have hphase := hcheck.1
      cases hp : j.view.phase <;> simp [hp, OperationPhase.reversible] at hphase hstaged ⊢
  refine Triple.bind ((triple_beginCommit_bound hb).mono ?_ (fun _ _ h => h) fun _ h => h) fun _ => ?_
  · rintro w rfl
    exact ⟨hw₀, heither⟩
  · refine Triple.bind (R := fun _ => BoundAt V plan Forward boot)
      ((carries_forward.keeps_commitMoves onward_append (onward_checkpoint rfl) _ _ _).mono
        (fun _ h => h) (fun _ _ h => h) fun _ h => h.1) fun report => ?_
    refine Triple.ite (fun _ => Triple.pure fun _ h => h.1) fun _ => ?_
    exact (carries_forward.keeps_finishCommit onward_append (onward_checkpoint rfl)).mono
      (fun _ h => h) (fun _ _ h => h.1) fun _ h => h.1

/-- **`finalize_metadata_only_shrink` は約束を守る。** 戻してよいあいだは、何もせずに断る。 -/
theorem triple_finalize_bound (hc : V.Consistent) (hp : V.Plans plan) (hb : Booted V plan boot)
    (htarget : plan.targetBytes = plan.targetBlocks * V.bs) (hfits : plan.targetBytes < 2 ^ 64)
    {host : Host} {missing : Error} {targetBytes : Nat} {opts : FinalizeOptions} {w₀ : World}
    (hw₀ : Bound V plan boot w₀) :
    Triple (fun w => w = w₀) (finalizeMetadataOnlyShrink host missing targetBytes opts)
      (fun _ => Bound V plan boot) (Bound V plan boot) := by
  have hstart : ∀ w, w = w₀ → Bound V plan boot w := fun w h => h ▸ hw₀
  unfold finalizeMetadataOnlyShrink
  refine Triple.guard hstart fun _ => Triple.reading_bind hw₀ fun _ _ =>
    Triple.reading_bind hw₀ fun ctx hctx => Triple.reading_bind hw₀ fun j hj =>
      Triple.reading_bind hw₀ fun _ hcheck => ?_
  have hjournal : w₀.journal = some j := by
    cases h : w₀.journal with
    | none =>
      rw [h] at hj
      cases hj
    | some j' =>
      rw [h] at hj
      cases hj
      rfl
  have hforward : Forward w₀.journal := by
    rw [hjournal]
    refine ⟨j, rfl, ?_⟩
    cases hrev : j.view.phase.reversible with
    | false => rfl
    | true =>
      have hopen : Revertible w₀.journal := by
        intro f hf
        cases hjournal.symm.trans hf
        exact hrev
      have hsane := hw₀.always.now j hjournal
      obtain ⟨-, heq, -⟩ := checkFinalizeJournal_eq_ok hcheck
      rw [hsane.target, UInt64.toNat_ofNat_of_lt' hfits] at heq
      subst heq
      exact absurd hctx (finalize_refuses (hb.asStarted hw₀ hopen) hc hp hsane.moves htarget)
  have hrest : ∀ {α : Type} {p : EngineM α}, Keeps (BoundAt V plan Forward boot) p →
      Triple (fun w => w = w₀) p (fun _ => Bound V plan boot) (Bound V plan boot) :=
    fun h => h.mono (fun w hw => hw ▸ ⟨hw₀, hforward⟩) (fun _ _ h => h.1) fun _ h => h.1
  refine hrest (Triple.bind keeps_device fun sbraw => Triple.bind keeps_device fun raw => ?_)
  refine Triple.bind (Triple.bind carries_forward.keeps_writeSuperCopies fun _ =>
    Triple.bind (carries_forward.journal _ (onward_append _)) fun _ =>
      carries_forward.journal _ (onward_checkpoint rfl)) fun _ => ?_
  refine Triple.bind carries_forward.keeps_shrinkTail fun _ => Triple.bind keeps_device fun _ => ?_
  exact carries_forward.keeps_completeFinalize onward_append (onward_checkpoint rfl)

end Bound

/-! ## 何度でも呼び、どこでも止まる run -/

/--
engine の一歩。三つの段をどの順で呼んでもよく、写しの予定も、host の返事も、選択も任意である。

crash は起動してからの記録のどこでも起こる。呼び出しの途中で止まるのも、その一つである。
-/
inductive EngineStep (plan : OwnerRelocationPlan) : Session → Session → Prop
  | stage {s : Session} (sched : Nat → List (Nat × Fate)) (host : Host) (jhost : JournalHost)
      (opts : StageOptions) :
      EngineStep plan s { s with now := (run (stageRelocationIn sched host jhost plan opts) s.now).2 }
  | commit {s : Session} (host : Host) (opts : CommitOptions) :
      EngineStep plan s { s with now := (run (commitStagedRelocation host plan opts) s.now).2 }
  | finalize {s : Session} (host : Host) (missing : Error) (targetBytes : Nat)
      (opts : FinalizeOptions) :
      EngineStep plan s
        { s with now := (run (finalizeMetadataOnlyShrink host missing targetBytes opts) s.now).2 }
  | crash {s : Session} {w : World} : CrashWorld s.boot s.now.trace w → EngineStep plan s ⟨w, w⟩

/-- 何歩でも。 -/
abbrev EngineRun (plan : OwnerRelocationPlan) : Session → Session → Prop :=
  Relation.ReflTransGen (EngineStep plan)

/-- journal のない device で始める。 -/
def Volume.fresh (V : Volume) : Session := ⟨⟨V.disk, none, []⟩, ⟨V.disk, none, []⟩⟩

/-- 計画の約束の下にある session。 -/
structure Promised (V : Volume) (plan : OwnerRelocationPlan) (s : Session) : Prop where
  booted : Booted V plan s.boot
  bound : Bound V plan s.boot s.now

section Run

variable {V : Volume} {plan : OwnerRelocationPlan} {s s' : Session}

/-- 計画の target は、block の数どおりの byte の数で、64 bit に収まる。 -/
theorem Volume.target_of_build {host : Host} {target : Nat}
    (h : buildOwnerRelocationPlan host V.disk target = .ok plan) :
    plan.targetBytes = plan.targetBlocks * V.bs ∧ plan.targetBytes < 2 ^ 64 := by
  unfold buildOwnerRelocationPlan at h
  rw [readSuperblock_of_loadMetadataContext V.load, Result.ok_bind] at h
  simp only [Result.guard_bind_eq_ok_iff] at h
  obtain ⟨hsmaller, -, h⟩ := h
  obtain ⟨graph, -, h⟩ := Result.bind_eq_ok h
  obtain ⟨owners, -, h⟩ := Result.bind_eq_ok h
  obtain ⟨_, -, h⟩ := Result.bind_eq_ok h
  obtain ⟨fixed, -, h⟩ := Result.bind_eq_ok h
  cases h
  refine ⟨rfl, ?_⟩
  have hlt : V.sb.sizeBytes < 2 ^ 64 := by
    rw [V.accepted.sizeBytes_eq V.disk.size_lt]
    exact lt_of_le_of_lt V.accepted.fits (lt_trans V.disk.size_lt (by decide))
  have hle : target / V.sb.blockSize * V.sb.blockSize ≤ target := Nat.div_mul_le_self _ _
  exact lt_of_le_of_lt hle (lt_trans (Nat.not_le.mp hsmaller) hlt)

theorem Promised.fresh : Promised V plan V.fresh where
  booted := ⟨rfl, rfl, nofun, fun _ _ _ _ => rfl⟩
  bound := Gated.start rfl nofun

/-- どの一歩も約束を守る。 -/
theorem Promised.step (hc : V.Consistent) (hp : V.Plans plan)
    (htarget : plan.targetBytes = plan.targetBlocks * V.bs) (hfits : plan.targetBytes < 2 ^ 64)
    (h : Promised V plan s) (hstep : EngineStep plan s s') : Promised V plan s' := by
  cases hstep with
  | stage sched host jhost opts =>
    exact ⟨h.booted, (triple_stage_bound hc hp h.booted h.bound).holds rfl⟩
  | commit host opts => exact ⟨h.booted, (triple_commit_bound h.booted h.bound).holds rfl⟩
  | finalize host missing targetBytes opts =>
    exact ⟨h.booted, (triple_finalize_bound hc hp h.booted htarget hfits h.bound).holds rfl⟩
  | crash hcrash =>
    have hboot : JournalAlways (PlanJournal V plan) s.boot :=
      ⟨h.booted.journal, fun f hf => by rw [h.booted.trace] at hf; cases hf⟩
    have hjournal := hboot.crash h.bound.always hcrash
    have hstarted := fun hr => h.bound.crash hcrash hr h.booted.started fun _ hx _ hi => hi.apply hx
    obtain ⟨pre, -, img, -, rfl⟩ := hcrash
    exact ⟨⟨rfl, h.booted.size, hjournal.now, hstarted⟩, Gated.start rfl hjournal.now⟩

theorem Promised.run (hc : V.Consistent) {planHost : Host} {target : Nat}
    (hplan : buildOwnerRelocationPlan planHost V.disk target = .ok plan)
    (hrun : EngineRun plan V.fresh s) : Promised V plan s := by
  have hp := Volume.plans_of_build hc.inodes hplan
  obtain ⟨htarget, hfits⟩ := Volume.target_of_build hplan
  induction hrun with
  | refl => exact Promised.fresh
  | tail _ hstep ih => exact ih.step hc hp htarget hfits hstep

end Run

/-! ## 再開できること -/

section Resume

variable {V : Volume} {plan : OwnerRelocationPlan} {records : List JournalRecord} {m : OwnerMove}

/-- record の欄に収まる移動。 -/
structure OwnerMove.Fits (m : OwnerMove) : Prop where
  transaction : m.transactionId < 2 ^ 64
  source : m.sourceBlock < 2 ^ 64
  destination : m.destinationBlock < 2 ^ 64
  count : m.blockCount < 2 ^ 64
  inode : m.inode < 2 ^ 64

/-- 移動の inode は、superblock の数える inode である。 -/
theorem Volume.Consistent.source_inode (hc : V.Consistent) (hm : V.SourceOf m) :
    m.inode ≤ V.sb.inodesCount := by
  rcases hm with ⟨-, ino, e, hl, he, -, -, hi, -⟩ | ⟨-, ino, t, hl, ht, -, -, hi, -⟩
  · rw [hi, (extent_bounds (hc.trees ino hl).1 he).1]
    exact hl.le
  · rw [hi, (tree_bounds (hc.trees ino hl).1 ht).1]
    exact hl.le

theorem Volume.Plans.fits (hp : V.Plans plan) (hc : V.Consistent) (hfew : plan.moves.length < 2 ^ 63)
    (hm : m ∈ plan.moves) : m.Fits := by
  have hwf := hp.shape.moves m hm
  have hcount := hwf.count_pos
  have hsource := hwf.source_fits
  obtain ⟨⟨-, hlast, -⟩, -⟩ :=
    hp.placed.free m hm (m.destinationBlock + m.blockCount - 1) (by omega) (by omega)
  have hblocks := blocksCount_le_size (readSuperblock_of_loadMetadataContext V.load)
  have hsize := V.disk.size_lt
  have hinode := hc.source_inode (hp.sources m hm)
  have hinodes : V.sb.inodesCount < 2 ^ 32 := by
    obtain ⟨-, hdec, -⟩ := readSuperblock_eq_ok_iff.mp (readSuperblock_of_loadMetadataContext V.load)
    show V.ctx.sb.inodesCount < 2 ^ 32
    rw [← hdec]
    exact inodesCount_decodeSuperblock_lt _
  obtain ⟨i, hi⟩ := List.mem_iff_getElem?.mp hm
  have hnum := hp.shape.numbered i m hi
  have hlt := (List.getElem?_eq_some_iff.mp hi).1
  refine ⟨by omega, by omega, ?_, by omega, by omega⟩
  change V.sb.blocksCount ≤ V.disk.sizeBytes at hblocks
  omega

/-- 番号は移動を決める。 -/
theorem Volume.Plans.eq_of_transactionId (hp : V.Plans plan) {m' : OwnerMove} (hm : m ∈ plan.moves)
    (hm' : m' ∈ plan.moves) (h : m.transactionId = m'.transactionId) : m = m' := by
  obtain ⟨i, hi⟩ := List.mem_iff_getElem?.mp hm
  obtain ⟨k, hk⟩ := List.mem_iff_getElem?.mp hm'
  have h1 := hp.shape.numbered i m hi
  have h2 := hp.shape.numbered k m' hk
  have hik : i = k := by omega
  rw [hik, hk] at hi
  exact (Option.some.inj hi).symm

theorem map_transactionId_numbered : ∀ (n : Nat) (rs : List JournalRecord),
    (TransactionJournal.numbered n rs).map JournalRecord.transactionId =
      rs.map JournalRecord.transactionId
  | _, [] => rfl
  | n, _ :: rs => congrArg (List.cons _) (map_transactionId_numbered (n + 1) rs)

/-- 意図の数は、移動の数である。 -/
theorem Intents.count (h : Intents plan records) (hp : V.Plans plan)
    (hfits : ∀ m ∈ plan.moves, m.Fits) :
    recordCount records .relocationIntent = plan.moves.length := by
  unfold recordCount
  rw [h, map_transactionId_numbered, List.map_map]
  have hnodup : (plan.moves.map fun m => UInt64.ofNat m.transactionId).Nodup := by
    have hmoves : plan.moves.Nodup := by
      refine List.nodup_iff_injective_getElem.mpr fun i k hik => Fin.ext ?_
      have h1 := hp.shape.numbered i _ (List.getElem?_eq_getElem i.isLt)
      have h2 := hp.shape.numbered k _ (List.getElem?_eq_getElem k.isLt)
      have hik' : plan.moves[i.val] = plan.moves[k.val] := hik
      rw [hik'] at h1
      omega
    refine (List.nodup_map_iff_inj_on hmoves).mpr fun x hx y hy hxy => ?_
    refine hp.eq_of_transactionId hx hy ?_
    have := congrArg UInt64.toNat hxy
    rwa [UInt64.toNat_ofNat_of_lt' (hfits x hx).transaction,
      UInt64.toNat_ofNat_of_lt' (hfits y hy).transaction] at this
  show (List.map (fun m => UInt64.ofNat m.transactionId) plan.moves).dedup.length = _
  rw [hnodup.dedup, List.length_map]

/-- どの移動にも、その場所の意図がある。 -/
theorem Intents.last (h : Intents plan records) (hp : V.Plans plan)
    (hfits : ∀ m ∈ plan.moves, m.Fits) (hm : m ∈ plan.moves) :
    ∃ r, lastRecord records .relocationIntent m.transactionId = some r ∧ sameGeometry r m = true := by
  have hfilter : records.filter (fun r => decide (r.type = .relocationIntent ∧
      r.transactionId.toNat = m.transactionId)) =
      (TransactionJournal.numbered 0 (plan.moves.map (moveRecord .relocationIntent))).filter
        fun r => decide (r.transactionId.toNat = m.transactionId) := by
    rw [← h, List.filter_filter]
    refine List.filter_congr fun r _ => ?_
    rw [Bool.decide_and, Bool.and_comm]
  have hid : (UInt64.ofNat m.transactionId).toNat = m.transactionId :=
    UInt64.toNat_ofNat_of_lt' (hfits m hm).transaction
  unfold lastRecord
  rw [hfilter]
  cases hlast : (List.filter (fun r : JournalRecord => decide (r.transactionId.toNat = m.transactionId))
      (TransactionJournal.numbered 0 (plan.moves.map (moveRecord .relocationIntent)))).getLast? with
  | none =>
    -- `m` の意図が残っているはずである
    have hmem : UInt64.ofNat m.transactionId ∈
        (TransactionJournal.numbered 0 (plan.moves.map (moveRecord .relocationIntent))).map
          JournalRecord.transactionId := by
      rw [map_transactionId_numbered, List.map_map]
      exact List.mem_map.mpr ⟨m, hm, rfl⟩
    obtain ⟨r, hr, hrid⟩ := List.mem_map.mp hmem
    have hnil := List.getLast?_eq_none_iff.mp hlast
    have := List.filter_eq_nil_iff.mp hnil r hr
    rw [hrid, hid] at this
    simp at this
  | some r =>
    obtain ⟨hr, hrid⟩ := List.mem_filter.mp (List.mem_of_getLast? hlast)
    obtain ⟨r', hr', q, rfl⟩ := mem_numbered hr
    obtain ⟨m', hm', rfl⟩ := List.mem_map.mp hr'
    have hsame : m' = m := by
      refine hp.eq_of_transactionId hm' hm ?_
      have := of_decide_eq_true hrid
      rwa [show ({ moveRecord .relocationIntent m' with sequence := q } : JournalRecord).transactionId =
        UInt64.ofNat m'.transactionId from rfl,
        UInt64.toNat_ofNat_of_lt' (hfits m' hm').transaction] at this
    subst hsame
    refine ⟨_, rfl, ?_⟩
    have hf := hfits m' hm'
    simp [sameGeometry, moveRecord, UInt64.toNat_ofNat_of_lt' hf.source,
      UInt64.toNat_ofNat_of_lt' hf.destination, UInt64.toNat_ofNat_of_lt' hf.count,
      UInt64.toNat_ofNat_of_lt' hf.inode]

/-- 意図がすべて置かれていれば、移動ごとの検査はどれも通る。 -/
theorem resumeMoves_isOk {d : Disk} {chunk : Nat} : ∀ {ms : List OwnerMove},
    (∀ m ∈ ms, RangeIn d V.bs m.destinationBlock m.blockCount) →
    (∀ m ∈ ms, ∃ r, lastRecord records .relocationIntent m.transactionId = some r ∧
      sameGeometry r m = true) →
    ∃ vs, resumeMoves d records V.bs chunk ms = .ok vs
  | [], _, _ => ⟨[], rfl⟩
  | m :: ms, hin, hlast => by
    obtain ⟨others, hothers⟩ := resumeMoves_isOk (fun x hx => hin x (List.mem_cons_of_mem _ hx))
      fun x hx => hlast x (List.mem_cons_of_mem _ hx)
    exact ⟨_, (resumeMoves_cons_iff (hin m List.mem_cons_self)).mpr
      ⟨hlast m List.mem_cons_self, others, hothers, rfl⟩⟩

end Resume

namespace Tiny

/-- 検査に通った journal の状態。 -/
def statusOf (v : JournalView) : JournalStatus where
  identity := v.identity
  phase := v.phase
  headerAValid := true
  recordsValid := true

/-- 写しを終えた session。 -/
def copied : Session where
  boot := world filled
  now := (run (stageRelocationIn (fun _ => [(0, {}), (0, {})]) host journalHost (plan false)
    fastOptions) (world filled)).2

/-- journal を作ったところで止まった session。 -/
def cutShort : Session where
  boot := (world filled).stoppedAt (copied.now.trace.take 1)
  now := (world filled).stoppedAt (copied.now.trace.take 1)

theorem fresh_filled {V : Volume} (h : V.disk = disk filled) :
    V.fresh = ⟨world filled, world filled⟩ := by
  unfold Volume.fresh
  rw [h]
  rfl

theorem run_copied : EngineRun (plan false) ⟨world filled, world filled⟩ copied :=
  Relation.ReflTransGen.single
    (EngineStep.stage (s := ⟨world filled, world filled⟩) (fun _ => [(0, {}), (0, {})]) host
      journalHost fastOptions)

theorem run_cutShort : EngineRun (plan false) ⟨world filled, world filled⟩ cutShort :=
  run_copied.tail (EngineStep.crash (s := copied) (crashWorld_stoppedAt (List.take_prefix 1 _)))

theorem rollbackAvailable_statusOf {v : JournalView} (h : v.phase.reversible = true) :
    (assessRecovery (statusOf v)).rollbackAvailable = true :=
  rollbackAvailable_iff.mpr ⟨⟨rfl, Or.inl rfl⟩, h⟩

end Tiny

/-! ## 主な結果 -/

section Main

variable {V : Volume} {plan : OwnerRelocationPlan} {s : Session} {f : JournalFile}
  {st : JournalStatus}

/-- 戻してよいと答える journal の phase は、戻せる。 -/
theorem revertible_of_rollbackAvailable (hj : s.now.journal = some f) (hphase : st.phase = f.view.phase)
    (hroll : (assessRecovery st).rollbackAvailable = true) : Revertible s.now.journal := by
  intro g hg
  rw [hj] at hg
  cases hg
  rw [← hphase]
  exact (rollbackAvailable_iff.mp hroll).2

/--
**戻してよいと答える journal の下では、計画の行き先と superblock の印のほかの byte は、始めたときのままである。**
行き先は、始めたときに空きだった block だけからなり、持ち主のある block はどれも変わっていない。
-/
theorem rollback_untouched (hc : V.Consistent) {planHost : Host} {target : Nat}
    (hplan : buildOwnerRelocationPlan planHost V.disk target = .ok plan)
    (hrun : EngineRun plan V.fresh s) (hj : s.now.journal = some f) (hphase : st.phase = f.view.phase)
    (hroll : (assessRecovery st).rollbackAvailable = true) :
    (∀ i, (∀ m ∈ plan.moves, m.Outside V.bs i) → ¬ SuperStamp i → s.now.disk.data i = V.data i) ∧
    (∀ m ∈ plan.moves, ∀ b, m.destinationBlock ≤ b → b < m.destinationBlock + m.blockCount →
      V.Vacant b) ∧
    ∀ o b, V.Owns o b → o ≠ .system → V.blockAt s.now.disk.data b = V.blockAt V.data b := by
  have hp := Volume.plans_of_build hc.inodes hplan
  have h := Promised.run hc hplan hrun
  have hstarted := h.booted.asStarted h.bound (revertible_of_rollbackAvailable hj hphase hroll)
  exact ⟨hstarted, fun m hm b h1 h2 => (hp.placed.free m hm b h1 h2).1,
    fun o b ho hne => hstarted.block hc hp ho hne⟩

/-- 二つの仕事を交互に進めて五つの移動を写し終えた世界。 -/
def Tiny.spreadCopied (plan : OwnerRelocationPlan) : World :=
  (run (stageRelocationIn (fun _ => [(0, {}), (1, {}), (1, {}), (0, {})]) Tiny.twoWorkers
    Tiny.journalHost plan Tiny.fastOptions) ⟨Tiny.spread, none, []⟩).2

/-- 五つの移動を写し終えた journal は戻してよく、file の block は始めたときのままである。 -/
theorem rollback_untouched_spread : ∃ plan f,
    buildOwnerRelocationPlan Tiny.host Tiny.spread 22528 = .ok plan ∧ plan.moves.length = 5 ∧
      (Tiny.spreadCopied plan).journal = some f ∧ f.view.phase = .staged ∧
      ∀ i, 20480 ≤ i → (Tiny.spreadCopied plan).disk.data i = Tiny.spread.data i := by
  obtain ⟨V, hV, hbs, hc⟩ := Tiny.exists_spread
  have hall : (buildOwnerRelocationPlan Tiny.host Tiny.spread 22528).map (fun plan =>
      (plan.moves.length, plan.moves.all fun m => decide (m.destinationBlock + m.blockCount ≤ 10),
        (Tiny.spreadCopied plan).journal.map fun f => f.view.phase)) =
      .ok (5, true, some .staged) := by decide +kernel
  cases hplan : buildOwnerRelocationPlan Tiny.host Tiny.spread 22528 with
  | error e =>
    rw [hplan] at hall
    cases hall
  | ok plan =>
    rw [hplan] at hall
    have hvalues := Except.ok.inj hall
    simp only [Prod.mk.injEq, List.all_eq_true, decide_eq_true_eq] at hvalues
    obtain ⟨hlen, hdest, hphase⟩ := hvalues
    obtain ⟨f, hf, hphase⟩ := Option.map_eq_some_iff.mp hphase
    have hrun : EngineRun plan V.fresh ⟨V.fresh.boot, Tiny.spreadCopied plan⟩ := by
      unfold Tiny.spreadCopied
      rw [← hV]
      exact Relation.ReflTransGen.single (EngineStep.stage _ _ _ _)
    obtain ⟨hsame, -, -⟩ := @rollback_untouched V _ _ f (Tiny.statusOf f.view) hc _ _
      (by rw [hV]; exact hplan) hrun hf rfl (Tiny.rollbackAvailable_statusOf (by rw [hphase]; rfl))
    refine ⟨plan, f, rfl, hlen, hf, hphase, fun i hi => ?_⟩
    refine (hsame i (fun m hm => Or.inr ?_) ?_).trans (by rw [Volume.data, hV])
    · -- 行き先は block 10 より前にある
      rw [← Nat.add_mul, hbs]
      have := Nat.mul_le_mul_right 2048 (hdest m hm)
      omega
    · rintro ⟨-, hlt, -⟩
      omega

/--
**戻してよいと答える journal から写しを再開できるのは、record があるとき、そのときに限る。**

journal を作ってから意図を置くまでのあいだに止まると、record のない journal が残る。その journal にも
`assess_recovery` は続けてよいと答えるが、再開は断られる。
-/
theorem openStage_resumes_iff (hc : V.Consistent) {planHost : Host} {target : Nat}
    (hplan : buildOwnerRelocationPlan planHost V.disk target = .ok plan)
    (hrun : EngineRun plan V.fresh s) (hj : s.now.journal = some f) (hphase : st.phase = f.view.phase)
    (hroll : (assessRecovery st).rollbackAvailable = true) (jhost : JournalHost) {fu : Uuid}
    (hfu : parseUuid V.sb.uuid = .ok fu) (chunk : Nat) :
    (∃ vs w, run (openStage jhost fu plan chunk) s.now = (.ok vs, w)) ↔ f.view.records ≠ [] := by
  have hp := Volume.plans_of_build hc.inodes hplan
  have h := Promised.run hc hplan hrun
  have hsane := h.bound.always.now f hj
  have hrev : f.view.phase.reversible = true :=
    revertible_of_rollbackAvailable hj hphase hroll f hj
  have hsize : s.now.disk.sizeBytes = V.disk.sizeBytes := by rw [h.bound.sizeBytes, h.booted.size]
  have hidentity : checkIdentity f.view.identity fu s.now.disk.sizeBytes plan
      "journal target size does not match plan" = .ok () := by
    have huuid := Except.ok.inj (hsane.filesystem.symm.trans hfu)
    have hlt := V.disk.size_lt
    unfold checkIdentity
    rw [hsane.device, hsane.target, huuid, hsize,
      UInt64.toNat_ofNat_of_lt' (show V.disk.sizeBytes < 2 ^ 64 by omega),
      UInt64.toNat_ofNat_of_lt' (Volume.target_of_build hplan).2]
    simp only [ne_eq, not_true_eq_false, ↓reduceIte]
    rfl
  have hopen : run (openStage jhost fu plan chunk) s.now =
      (resumeStage s.now.disk f.view plan chunk, s.now) := by
    unfold openStage
    rw [run_bind_ok (run_get _), hj]
    dsimp only
    rw [run_device_bind hidentity]
    rfl
  rw [hopen]
  constructor
  · -- 意図がなければ、数が合わない
    rintro ⟨vs, w, hok⟩ hnil
    have hres := (Prod.mk.inj hok).1
    unfold resumeStage at hres
    simp only [Result.guard_bind_eq_ok_iff] at hres
    obtain ⟨-, hcount, -⟩ := hres
    rw [hnil] at hcount
    exact hsane.moves (List.length_eq_zero_iff.mp (not_not.mp hcount).symm)
  · intro hsome
    have hint : Intents plan f.view.records := by
      rcases hsane.intents hrev with ⟨-, hnil⟩ | hint
      · exact absurd hnil hsome
      · exact hint
    have hfits : ∀ m ∈ plan.moves, m.Fits := fun m hm => hp.fits hc hsane.few hm
    have hranges : ∀ m ∈ plan.moves, RangeIn s.now.disk V.bs m.destinationBlock m.blockCount := by
      intro m hm
      have hcount := (hp.shape.moves m hm).count_pos
      obtain ⟨⟨-, hlast, -⟩, -⟩ :=
        hp.placed.free m hm (m.destinationBlock + m.blockCount - 1) (by omega) (by omega)
      refine ⟨Volume.bs_pos, hcount, ?_⟩
      rw [hsize]
      exact (Nat.mul_le_mul_right _ (by omega)).trans V.accepted.fits
    obtain ⟨vs, hvs⟩ : ∃ vs, resumeMoves s.now.disk f.view.records V.bs chunk plan.moves = .ok vs :=
      resumeMoves_isOk hranges fun m hm => hint.last hp hfits hm
    refine ⟨vs, s.now, ?_⟩
    have hres : resumeStage s.now.disk f.view plan chunk = .ok vs := by
      unfold resumeStage
      simp only [Result.guard_bind_eq_ok_iff]
      refine ⟨?_, by rw [hint.count hp hfits]; exact fun hne => hne rfl, hp.blockSize ▸ hvs⟩
      cases hphase' : f.view.phase <;> simp [hphase', OperationPhase.reversible] at hrev ⊢
    rw [hres]

/-- journal を作ったところで止まると、続けてよいと答える journal が残るのに、再開は断られる。 -/
theorem openStage_resumes_iff_cut : ∃ f fu, Tiny.cutShort.now.journal = some f ∧
    (assessRecovery (Tiny.statusOf f.view)).safeToResume = true ∧
    ∀ chunk, ¬ ∃ vs w, run (openStage Tiny.journalHost fu (Tiny.plan false) chunk)
      Tiny.cutShort.now = (.ok vs, w) := by
  obtain ⟨V, hV, -, hc⟩ := Tiny.exists_filled
  have hcut : Tiny.cutShort.now.journal.map (fun f => (f.view.phase, f.view.records.length)) =
      some (.prepared, 0) := by decide +kernel
  obtain ⟨f, hf, hpair⟩ := Option.map_eq_some_iff.mp hcut
  obtain ⟨hphase, hlen⟩ := Prod.mk.inj hpair
  have huuid : (readSuperblock (Tiny.disk Tiny.filled) >>= fun sb => parseUuid sb.uuid) =
      .ok (Uuid.ofBytes (zeros 16)) := by decide +kernel
  rw [← hV, readSuperblock_of_loadMetadataContext V.load] at huuid
  refine ⟨f, Uuid.ofBytes (zeros 16), hf, ?_, fun chunk hok => ?_⟩
  · unfold assessRecovery Tiny.statusOf
    rw [hphase]
    rfl
  · have hiff := @openStage_resumes_iff V _ _ f (Tiny.statusOf f.view) hc _ _
      (by rw [hV]; exact Tiny.build_filled) (by rw [Tiny.fresh_filled hV]; exact Tiny.run_cutShort) hf
      rfl (Tiny.rollbackAvailable_statusOf (by rw [hphase]; rfl)) Tiny.journalHost _ huuid chunk
    exact hiff.mp hok (List.length_eq_zero_iff.mp hlen)

end Main

end Fsx.Ext4
