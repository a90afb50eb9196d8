import Fsx.Ext4.Geometry
import Fsx.Ext4.Plan

/-!
# 計画の形

`build_owner_relocation_plan` が返す計画について、入力の像によらず言えること。

* transaction の番号は 1 から順に付く。
* どの移動も空でなく、destination は target より下に収まり、source は target より上にかかり、
  filesystem の中に収まる。

走査の側の事実は、走査が集めるものの不変条件として、葉と途中の entry の一歩から示す。
-/

namespace Fsx.Ext4

/-! ## 走査の不変条件 -/

section Parse

variable {c : ParseCtx} {I : ParseState → Prop}

/-- 葉の一歩が保つものは、葉のループが保つ。 -/
theorem parseLeaf_keeps {node : Bytes} {off blk : Nat} {kind : ExtentRefKind}
    (hleaf : ∀ {i last s s'}, I s → leafStep c node off blk kind i last s = .ok s' → I s') :
    ∀ {n i last s s'}, I s → parseLeaf c node off blk kind n i last s = .ok s' → I s'
  | 0, _, _, _, _, hs, h => by cases h; exact hs
  | n + 1, i, last, s, s', hs, h => by
    obtain ⟨s₁, h₁, h₂⟩ := Result.bind_eq_ok h
    exact parseLeaf_keeps hleaf (hleaf hs h₁) h₂

/-- 途中の一歩と子の走査が保つものは、途中のループが保つ。 -/
theorem parseIndex_keeps {node : Bytes} {off depth : Nat}
    {down : Bytes → Nat → Nat → ParseState → Result ParseState}
    (hindex : ∀ {i last s s'}, I s → indexStep c node off depth i last s = .ok s' → I s')
    (hdown : ∀ {buf o b s s'}, I s → down buf o b s = .ok s' → I s') :
    ∀ {n i last s s'}, I s → parseIndex c node off depth down n i last s = .ok s' → I s'
  | 0, _, _, _, _, hs, h => by cases h; exact hs
  | n + 1, i, last, s, s', hs, h => by
    obtain ⟨s₁, h₁, h⟩ := Result.bind_eq_ok h
    obtain ⟨buf, _, h⟩ := Result.bind_eq_ok h
    obtain ⟨s₂, h₂, h⟩ := Result.bind_eq_ok h
    exact parseIndex_keeps hindex hdown (hdown (hindex hs h₁) h₂) h

/-- **木の走査は、葉と途中の entry の一歩が保つものを保つ。** -/
theorem parseExtentNode_keeps
    (hleaf : ∀ {node off blk kind i last s s'}, I s →
      leafStep c node off blk kind i last s = .ok s' → I s')
    (hindex : ∀ {node off depth i last s s'}, I s →
      indexStep c node off depth i last s = .ok s' → I s') :
    ∀ {depth kind node off blk s s'}, I s →
      parseExtentNode c depth kind node off blk s = .ok s' → I s'
  | 0, _, _, _, _, _, _, hs, h => by
    obtain ⟨entries, _, h⟩ := Result.bind_eq_ok h
    exact parseLeaf_keeps hleaf hs h
  | depth + 1, _, _, _, _, _, _, hs, h => by
    obtain ⟨entries, _, h⟩ := Result.bind_eq_ok h
    exact parseIndex_keeps hindex (parseExtentNode_keeps hleaf hindex) hs h

end Parse

/-- 葉の一歩が通ったときに分かること。 -/
theorem leafStep_eq_ok_iff {c : ParseCtx} {node : Bytes} {off blk i : Nat} {kind : ExtentRefKind}
    {last : Option Nat} {s s' : ParseState} :
    leafStep c node off blk kind i last s = .ok s' ↔
      readLe 2 node (entryOffset i + 4) ≠ 0 ∧
      ¬ ((leafExtent c node off blk kind i).physicalBlock = 0 ∨
        (leafExtent c node off blk kind i).physicalBlock ≥ c.sb.blocksCount ∨
        (leafExtent c node off blk kind i).length >
          c.sb.blocksCount - (leafExtent c node off blk kind i).physicalBlock) ∧
      ¬ (last.any fun l => (leafExtent c node off blk kind i).logicalBlock < l) = true ∧
      s' = if (leafExtent c node off blk kind i).endBlock > c.retainFrom then
          { s with out := { s.out with
            extents := s.out.extents ++ [leafExtent c node off blk kind i] } }
        else s := by
  unfold leafStep
  simp only [Result.guard_bind_eq_ok_iff, Result.pure_eq_ok_iff]

/-- 途中の一歩が通ったときに分かること。 -/
theorem indexStep_eq_ok_iff {c : ParseCtx} {node : Bytes} {off depth i : Nat}
    {last : Option Nat} {s s' : ParseState} :
    indexStep c node off depth i last s = .ok s' ↔
      ¬ (last.any fun l => readLe 4 node (entryOffset i) ≤ l) = true ∧
      ¬ (indexChild node (entryOffset i) = 0 ∨
        indexChild node (entryOffset i) ≥ c.sb.blocksCount) ∧
      indexChild node (entryOffset i) ∉ s.visited ∧
      s' = {
        out := if indexChild node (entryOffset i) ≥ c.retainFrom then
            { s.out with treeBlocks := s.out.treeBlocks ++ [{
              inode := c.inode, physicalBlock := indexChild node (entryOffset i)
              parentContainerByteOffset := off, parentEntryOffset := entryOffset i, depth }] }
          else s.out
        visited := indexChild node (entryOffset i) :: s.visited } := by
  unfold indexStep
  simp only [Result.guard_bind_eq_ok_iff, Result.pure_eq_ok_iff]

/-- 集めた extent と tree block は空でなく、`retain` より上にかかり、filesystem に収まる。 -/
structure Bounded (blocks retain : Nat) (out : OwnerScan) : Prop where
  extents : ∀ e ∈ out.extents, 0 < e.length ∧ retain < e.endBlock ∧ e.endBlock ≤ blocks
  treeBlocks : ∀ t ∈ out.treeBlocks, retain ≤ t.physicalBlock ∧ t.physicalBlock < blocks

theorem entryLength_pos {n : Nat} (h : n ≠ 0) : 0 < entryLength n := by
  unfold entryLength
  split
  · omega
  · omega

theorem Bounded.parse {c : ParseCtx} {depth : Nat} {kind : ExtentRefKind} {node : Bytes}
    {off blk : Nat} {s s' : ParseState} (hs : Bounded c.sb.blocksCount c.retainFrom s.out)
    (h : parseExtentNode c depth kind node off blk s = .ok s') :
    Bounded c.sb.blocksCount c.retainFrom s'.out := by
  refine @parseExtentNode_keeps c (fun s => Bounded c.sb.blocksCount c.retainFrom s.out)
    ?_ ?_ depth kind node off blk s s' hs h
  · intro node off blk kind i last s s' hs h
    obtain ⟨hlen, hphys, -, rfl⟩ := leafStep_eq_ok_iff.mp h
    split
    · next hend =>
      refine ⟨fun e he => ?_, hs.treeBlocks⟩
      rcases List.mem_append.mp he with he | he
      · exact hs.extents e he
      · rw [List.mem_singleton] at he
        subst he
        refine ⟨entryLength_pos hlen, hend, ?_⟩
        simp only [OwnedExtent.endBlock]
        omega
    · exact hs
  · intro node off depth i last s s' hs h
    obtain ⟨-, hchild, -, rfl⟩ := indexStep_eq_ok_iff.mp h
    dsimp only
    split
    · next hret =>
      refine ⟨hs.extents, fun t ht => ?_⟩
      rcases List.mem_append.mp ht with ht | ht
      · exact hs.treeBlocks t ht
      · rw [List.mem_singleton] at ht
        subst ht
        exact ⟨hret, by dsimp only; omega⟩
    · exact hs

theorem Bounded.parseInode {c : ParseCtx} {inode : Bytes} {abs : Nat} {out out' : OwnerScan}
    (hs : Bounded c.sb.blocksCount c.retainFrom out)
    (h : Ext4.parseInode c inode abs out = .ok out') :
    Bounded c.sb.blocksCount c.retainFrom out' := by
  obtain ⟨s, hp, h⟩ := Result.bind_eq_ok h
  cases h
  exact Bounded.parse (by exact hs) hp

theorem Bounded.scanGroupInodes {d : Disk} {sb : Superblock} {mctx : MetadataContext}
    {retain : Nat} {gd : GroupDesc} {ib table : Bytes} {first : Nat} :
    ∀ {n idx out out'}, Bounded sb.blocksCount retain out →
      Ext4.scanGroupInodes d sb mctx retain gd ib table first n idx out = .ok out' →
      Bounded sb.blocksCount retain out'
  | 0, _, _, _, hs, h => by cases h; exact hs
  | n + 1, idx, out, out', hs, h => by
    rw [Ext4.scanGroupInodes] at h
    dsimp only at h
    split at h
    · exact Bounded.scanGroupInodes hs h
    · split at h
      · exact Bounded.scanGroupInodes (by exact ⟨hs.extents, hs.treeBlocks⟩) h
      · split at h
        · exact Bounded.scanGroupInodes (by exact ⟨hs.extents, hs.treeBlocks⟩) h
        · obtain ⟨out₂, hp, h⟩ := Result.bind_eq_ok h
          refine Bounded.scanGroupInodes ?_ h
          exact Bounded.parseInode (by exact ⟨hs.extents, hs.treeBlocks⟩) hp

theorem Bounded.scanGroup {d : Disk} {sb : Superblock} {mctx : MetadataContext}
    {retain g : Nat} {out out' : OwnerScan} (hs : Bounded sb.blocksCount retain out)
    (h : Ext4.scanGroup d sb mctx retain g out = .ok out') : Bounded sb.blocksCount retain out' := by
  obtain ⟨gd, _, h⟩ := Result.bind_eq_ok h
  split at h
  · cases h
    exact hs
  · obtain ⟨ib, _, h⟩ := Result.bind_eq_ok h
    obtain ⟨table, _, h⟩ := Result.bind_eq_ok h
    exact Bounded.scanGroupInodes hs h

theorem Bounded.scanGroups {cancel : Nat → Bool} {d : Disk} {sb : Superblock}
    {mctx : MetadataContext} {retain : Nat} : ∀ {n g out out'}, Bounded sb.blocksCount retain out →
    Ext4.scanGroups cancel d sb mctx retain n g out = .ok out' → Bounded sb.blocksCount retain out'
  | 0, _, _, _, hs, h => by cases h; exact hs
  | n + 1, g, out, out', hs, h => by
    rw [Ext4.scanGroups] at h
    rw [Result.guard_bind_eq_ok_iff] at h
    obtain ⟨out₁, h₁, h⟩ := Result.bind_eq_ok h.2
    exact Bounded.scanGroups (Bounded.scanGroup hs h₁) h

theorem bounded_scanExtentOwners {srt : StdSort} {cancel : Nat → Bool} {d : Disk} {retain : Nat}
    {sb : Superblock} {out : OwnerScan} (hsb : readSuperblock d = .ok sb)
    (h : scanExtentOwners srt cancel d retain = .ok out) :
    Bounded sb.blocksCount (min retain sb.blocksCount) out := by
  unfold scanExtentOwners at h
  rw [hsb, Result.ok_bind] at h
  obtain ⟨mctx, _, h⟩ := Result.bind_eq_ok h
  obtain ⟨_, _, h⟩ := Result.bind_eq_ok h
  obtain ⟨out₁, h₁, h⟩ := Result.bind_eq_ok h
  cases h
  have hb : Bounded sb.blocksCount (min retain sb.blocksCount) out₁ :=
    Bounded.scanGroups ⟨fun e he => (by cases he), fun t ht => (by cases ht)⟩ h₁
  exact ⟨fun e he => hb.extents e ((srt.perm _ _).mem_iff.mp he), hb.treeBlocks⟩

/-! ## 行き先の割り当て -/

/-- 選ばれた slot は、要る長さを収める。 -/
theorem bestFit_fits {length : Nat} : ∀ {slots : List FreeSlot} {k : Nat} {best : Option (Nat × Nat)}
    {i w : Nat}, bestFit length slots k best = some (i, w) →
    best = some (i, w) ∨ ∃ s, k ≤ i ∧ slots[i - k]? = some s ∧ length ≤ s.length
  | [], _, _, _, _, h => Or.inl h
  | s :: rest, k, best, i, w, h => by
    have hrest : ∀ {best'}, bestFit length rest (k + 1) best' = some (i, w) →
        best' = some (i, w) ∨ ∃ t, k ≤ i ∧ (s :: rest)[i - k]? = some t ∧ length ≤ t.length := by
      intro best' h'
      rcases bestFit_fits h' with h' | ⟨t, hk, ht, hl⟩
      · exact Or.inl h'
      · refine Or.inr ⟨t, by omega, ?_, hl⟩
        rw [show i - k = (i - (k + 1)) + 1 by omega, List.getElem?_cons_succ]
        exact ht
    have hhere : ∀ {w'}, length ≤ s.length → some (k, w') = some (i, w) →
        ∃ t, k ≤ i ∧ (s :: rest)[i - k]? = some t ∧ length ≤ t.length := by
      intro w' hl he
      cases he
      exact ⟨s, le_refl _, by rw [Nat.sub_self]; rfl, hl⟩
    rw [bestFit] at h
    split at h
    · exact hrest h
    · next hl =>
      dsimp only at h
      split at h
      · split at h
        · exact Or.inr (hhere (by omega) h)
        · rcases hrest h with h | h
          · exact Or.inr (hhere (by omega) h)
          · exact Or.inr h
      · exact hrest h

/-- 割り当てたときに分かること。 -/
theorem allocateBestFit_eq_some {slots slots' : List FreeSlot} {length dest : Nat}
    (h : allocateBestFit slots length = some (dest, slots')) :
    ∃ i s, slots[i]? = some s ∧ length ≤ s.length ∧ dest = s.start ∧
      slots' = if s.length - length = 0 then slots.eraseIdx i
        else slots.set i ⟨s.start + length, s.length - length⟩ := by
  unfold allocateBestFit at h
  cases hb : bestFit length slots 0 none with
  | none =>
    rw [hb] at h
    cases h
  | some p =>
    obtain ⟨i, w⟩ := p
    rcases bestFit_fits hb with hn | ⟨s, _, hs, hl⟩
    · cases hn
    · rw [Nat.sub_zero] at hs
      rw [hb] at h
      dsimp only at h
      rw [hs] at h
      cases h
      exact ⟨i, s, hs, hl, rfl, rfl⟩

/-- 割り当ての後の slot は、もとの slot の部分である。 -/
theorem mem_slots_after {slots slots' : List FreeSlot} {length dest : Nat}
    (h : allocateBestFit slots length = some (dest, slots')) {s' : FreeSlot} (hs : s' ∈ slots') :
    ∃ s ∈ slots, s.start ≤ s'.start ∧ s'.start + s'.length = s.start + s.length := by
  obtain ⟨i, s, hi, hl, -, rfl⟩ := allocateBestFit_eq_some h
  split at hs
  · exact ⟨s', List.mem_of_mem_eraseIdx hs, le_refl _, rfl⟩
  · rcases List.mem_or_eq_of_mem_set hs with hs | rfl
    · exact ⟨s', hs, le_refl _, rfl⟩
    · exact ⟨s, List.mem_of_getElem? hi, by dsimp only; omega, by dsimp only; omega⟩

/-! ## 計画 -/

/-- 移動の形。`limit` は filesystem の block 数である。 -/
structure OwnerMove.WellFormed (target limit : Nat) (m : OwnerMove) : Prop where
  count_pos : 0 < m.blockCount
  destination : m.destinationBlock + m.blockCount ≤ target
  source_above : target < m.sourceBlock + m.blockCount
  source_fits : m.sourceBlock + m.blockCount ≤ limit

/-- 割り当ての途中の形。 -/
structure Placement.WellFormed (target limit : Nat) (p : Placement) : Prop where
  slots : ∀ s ∈ p.slots, s.start + s.length ≤ target
  moves : ∀ m ∈ p.moves, m.WellFormed target limit
  next : p.txn = p.moves.length + 1
  numbered : ∀ i m, p.moves[i]? = some m → m.transactionId = i + 1

theorem Placement.WellFormed.place {target limit : Nat} {p : Placement}
    (hp : p.WellFormed target limit) {length : Nat} {mk : Nat → Nat → OwnerMove}
    (hid : ∀ txn dest, (mk txn dest).transactionId = txn)
    (hmk : ∀ txn dest, dest + length ≤ target → (mk txn dest).WellFormed target limit) :
    (p.place length mk).WellFormed target limit := by
  unfold Placement.place
  split
  · exact hp
  · cases ha : allocateBestFit p.slots length with
    | none => exact ⟨hp.slots, hp.moves, hp.next, hp.numbered⟩
    | some r =>
      obtain ⟨dest, slots⟩ := r
      obtain ⟨i, s, hi, hl, hdest, -⟩ := allocateBestFit_eq_some ha
      have hroom : dest + length ≤ target := by
        have := hp.slots s (List.mem_of_getElem? hi)
        omega
      refine ⟨fun s' hs' => ?_, fun m hm => ?_, ?_, fun k m hk => ?_⟩
      · obtain ⟨t, ht, _, hend⟩ := mem_slots_after ha hs'
        rw [hend]
        exact hp.slots t ht
      · rcases List.mem_append.mp hm with hm | hm
        · exact hp.moves m hm
        · rw [List.mem_singleton.mp hm]
          exact hmk _ _ hroom
      · simp only [List.length_append, List.length_singleton, hp.next]
      · rcases Nat.lt_or_ge k p.moves.length with hlt | hge
        · rw [List.getElem?_append_left hlt] at hk
          exact hp.numbered k m hk
        · rw [List.getElem?_append_right hge] at hk
          have hk0 : k - p.moves.length = 0 := by
            by_contra hne
            rw [List.getElem?_eq_none (by simp only [List.length_singleton]; omega)] at hk
            cases hk
          rw [hk0] at hk
          cases hk
          rw [hid, hp.next]
          omega

theorem wellFormed_placeAll {target limit : Nat} {slots : List FreeSlot} {data : List OwnedExtent}
    {trees : List ExtentTreeBlock} (hslots : ∀ s ∈ slots, s.start + s.length ≤ target)
    (hdata : ∀ e ∈ data, 0 < e.length ∧ target < e.endBlock ∧ e.endBlock ≤ limit)
    (htrees : ∀ t ∈ trees, target ≤ t.physicalBlock ∧ t.physicalBlock < limit) :
    (placeAll slots data trees).WellFormed target limit := by
  unfold placeAll
  have hfirst : (data.foldl (fun p e => p.place e.length fun txn dest => dataMove txn e dest)
      ({ slots } : Placement)).WellFormed target limit := by
    have hinit : ({ slots } : Placement).WellFormed target limit :=
      ⟨hslots, fun m hm => (by cases hm), rfl, fun i m hi => by simp at hi⟩
    revert hinit
    generalize ({ slots } : Placement) = p
    induction data generalizing p with
    | nil => exact fun hp => hp
    | cons e rest ih =>
      intro hp
      obtain ⟨hpos, habove, hfits⟩ := hdata e List.mem_cons_self
      refine ih (fun e' he' => hdata e' (List.mem_cons_of_mem _ he')) _
        (hp.place (fun _ _ => rfl) fun txn dest hroom => ⟨hpos, hroom, habove, hfits⟩)
  revert hfirst
  generalize data.foldl _ _ = p
  induction trees generalizing p with
  | nil => exact fun hp => hp
  | cons t rest ih =>
    intro hp
    obtain ⟨habove, hfits⟩ := htrees t List.mem_cons_self
    refine ih (fun t' ht' => htrees t' (List.mem_cons_of_mem _ ht')) _
      (hp.place (fun _ _ => rfl) fun txn dest hroom => ⟨Nat.one_pos, hroom, ?_, ?_⟩)
    · exact Nat.lt_succ_of_le habove
    · exact hfits

theorem freeSlots_le {graph : AllocationGraph} {target : Nat} {s : FreeSlot}
    (hs : s ∈ freeSlots graph target) : s.start + s.length ≤ target := by
  obtain ⟨e, _, he⟩ := List.mem_filterMap.mp hs
  dsimp only at he
  split at he
  · cases he
    dsimp only
    omega
  · cases he

/-- 計画の形。 -/
structure OwnerRelocationPlan.WellFormed (plan : OwnerRelocationPlan) : Prop where
  moves : ∀ m ∈ plan.moves, m.WellFormed plan.targetBlocks (2 ^ 63)
  numbered : ∀ i m, plan.moves[i]? = some m → m.transactionId = i + 1

/-- 読めた superblock の block 数は、device に収まる。 -/
theorem blocksCount_le_size {d : Disk} {sb : Superblock} (h : readSuperblock d = .ok sb) :
    sb.blocksCount ≤ d.sizeBytes := by
  obtain ⟨hsize, -, hc⟩ := readSuperblock_eq_ok_iff.mp h
  exact (hc.fits (by omega)).trans (Nat.div_le_self _ _)

/-- **計画の番号は 1 から順に付き、どの移動も target をまたいで下りる。** -/
theorem wellFormed_buildOwnerRelocationPlan {host : Host} {d : Disk} {targetBytes : Nat}
    {plan : OwnerRelocationPlan} (h : buildOwnerRelocationPlan host d targetBytes = .ok plan) :
    plan.WellFormed := by
  unfold buildOwnerRelocationPlan at h
  obtain ⟨sb, hsb, h⟩ := Result.bind_eq_ok h
  simp only [Result.guard_bind_eq_ok_iff] at h
  obtain ⟨hsize, hlow, h⟩ := h
  obtain ⟨graph, hgraph, h⟩ := Result.bind_eq_ok h
  obtain ⟨owners, howners, h⟩ := Result.bind_eq_ok h
  obtain ⟨_, _, h⟩ := Result.bind_eq_ok h
  obtain ⟨fixed, _, h⟩ := Result.bind_eq_ok h
  cases h
  have hblocks : sb.blocksCount < 2 ^ 63 := lt_of_le_of_lt (blocksCount_le_size hsb) d.size_lt
  have hb := bounded_scanExtentOwners hsb howners
  have hw := @wellFormed_placeAll (targetBytes / sb.blockSize) (2 ^ 63)
    (host.srt.sort (fun a b => decide (a.length < b.length))
      (freeSlots graph (targetBytes / sb.blockSize)))
    (host.srt.sort (fun a b => decide (a.length > b.length))
      (owners.extents.filter fun e => decide (e.endBlock > targetBytes / sb.blockSize)))
    (owners.treeBlocks.filter fun t => decide (t.physicalBlock ≥ targetBytes / sb.blockSize))
    (fun s hs => freeSlots_le ((host.srt.perm _ _).mem_iff.mp hs))
    (fun e he => by
      obtain ⟨hmem, habove⟩ := List.mem_filter.mp ((host.srt.perm _ _).mem_iff.mp he)
      obtain ⟨hpos, -, hfits⟩ := hb.extents e hmem
      exact ⟨hpos, of_decide_eq_true habove, by omega⟩)
    (fun t ht => by
      obtain ⟨hmem, habove⟩ := List.mem_filter.mp ht
      have := (hb.treeBlocks t hmem).2
      exact ⟨of_decide_eq_true habove, by omega⟩)
  exact ⟨hw.moves, hw.numbered⟩

end Fsx.Ext4
