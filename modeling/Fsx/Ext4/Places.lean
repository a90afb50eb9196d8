import Mathlib.Data.List.Pairwise
import Mathlib.Data.List.Perm.Basic
import Fsx.Ext4.PlanShape
import Fsx.Ext4.Volume

/-!
# 計画の行き先

`build_owner_relocation_plan` の行き先は、bitmap が空きとする block だけからなり、互いに重ならない。

三段で示す。

1. `build_allocation_graph` の区間は、bitmap の印をそのまま集めたもので、重ならずに並ぶ。
2. `allocate_best_fit` は、空きの slot を重ならないままに切り分ける。
3. したがって、割り当てた行き先は空きの block に収まり、互いにも残りの slot とも重ならない。
-/

namespace Fsx.Ext4

/-! ## 使用中と空きの区間 -/

/-- 使用中の区間か、空きの区間。 -/
def AllocationGraph.side (g : AllocationGraph) (used : Bool) : List BlockExtent :=
  if used then g.allocated else g.free

/-- 走査した block のうち印が `used` のものだけからなり、`next` までに重ならずに並ぶ区間。 -/
structure Runs (used : Bool) (states : List (Nat × Bool)) (next : Nat) (es : List BlockExtent) :
    Prop where
  marked : ∀ e ∈ es, ∀ b, e.start ≤ b → b < e.endBlock → (b, used) ∈ states
  sorted : es.Pairwise fun a b => a.endBlock ≤ b.start
  below : ∀ e ∈ es, e.endBlock ≤ next

section Runs

variable {used : Bool} {states : List (Nat × Bool)} {next : Nat} {es : List BlockExtent}

theorem Runs.nil : Runs used states next [] :=
  ⟨fun e he => (by cases he), List.Pairwise.nil, fun e he => (by cases he)⟩

theorem Runs.mono (h : Runs used states next es) {states' : List (Nat × Bool)} {next' : Nat}
    (hs : ∀ x ∈ states, x ∈ states') (hn : next ≤ next') : Runs used states' next' es :=
  ⟨fun e he b h1 h2 => hs _ (h.marked e he b h1 h2), h.sorted,
    fun e he => (h.below e he).trans hn⟩

/-- 末尾に新しい区間を足す。 -/
theorem Runs.concat {start len : Nat} (h : Runs used states start es)
    (hnew : ∀ b, start ≤ b → b < start + len → (b, used) ∈ states) :
    Runs used states (start + len) (es ++ [⟨start, len⟩]) := by
  refine ⟨fun e he => ?_, List.pairwise_append.mpr ⟨h.sorted, List.pairwise_singleton _ _, ?_⟩,
    fun e he => ?_⟩
  · rcases List.mem_append.mp he with he | he
    · exact h.marked e he
    · rw [List.mem_singleton.mp he]
      exact hnew
  · intro a ha b hb
    rw [List.mem_singleton.mp hb]
    exact h.below a ha
  · rcases List.mem_append.mp he with he | he
    · exact (h.below e he).trans (Nat.le_add_right _ _)
    · rw [List.mem_singleton.mp he]
      exact le_refl _

/-- `append_run` は、末尾の区間に繋がれば伸ばし、そうでなければ足す。 -/
theorem Runs.appendRun {start len : Nat} (h : Runs used states start es)
    (hnew : ∀ b, start ≤ b → b < start + len → (b, used) ∈ states) :
    Runs used states (start + len) (appendRun es start len) := by
  unfold Ext4.appendRun
  split
  · exact h.mono (fun _ hx => hx) (Nat.le_add_right _ _)
  · cases hl : es.getLast? with
    | none => exact h.concat hnew
    | some e =>
      dsimp only
      split
      · next hend =>
        -- 伸ばした区間は、もとの区間と新しい区間を合わせたものである
        obtain ⟨init, rfl⟩ := List.getLast?_eq_some_iff.mp hl
        rw [List.dropLast_concat]
        obtain ⟨hinit, -, hcross⟩ := List.pairwise_append.mp h.sorted
        have hshort : Runs used states e.start init :=
          ⟨fun x hx => h.marked x (List.mem_append_left _ hx), hinit,
            fun x hx => hcross x hx e (List.mem_singleton.mpr rfl)⟩
        have hgrow := @Runs.concat used states init e.start (e.length + len) hshort ?_
        · rw [show start + len = e.start + (e.length + len) by
            unfold BlockExtent.endBlock at hend; omega]
          exact hgrow
        · intro b h1 h2
          rcases Nat.lt_or_ge b e.endBlock with hb | hb
          · exact h.marked e (List.mem_append_right _ (List.mem_singleton.mpr rfl)) b h1 hb
          · refine hnew b (hend ▸ hb) ?_
            unfold BlockExtent.endBlock at hend
            omega
      · exact h.concat hnew

end Runs

/-- 走査の途中。 -/
structure Scanned (states : List (Nat × Bool)) (next : Nat) (g : AllocationGraph)
    (run : Option OpenRun) : Prop where
  settled : run = none → ∀ used, Runs used states next (g.side used)
  opened : ∀ r, run = some r → r.start + r.length ≤ next ∧
    (∀ used, Runs used states r.start (g.side used)) ∧
    ∀ b, r.start ≤ b → b < r.start + r.length → (b, r.used) ∈ states

section Scan

variable {states : List (Nat × Bool)} {next : Nat} {g : AllocationGraph} {run : Option OpenRun}

/-- 区間を閉じると、どちらの側も `next` までに並ぶ。 -/
theorem Scanned.flushRun (h : Scanned states next g run) (used : Bool) :
    Runs used states next ((flushRun g run).side used) := by
  cases run with
  | none => exact h.settled rfl used
  | some r =>
    obtain ⟨hle, hside, hrun⟩ := h.opened r rfl
    have hkeep : Runs used states next (g.side used) :=
      (hside used).mono (fun _ hx => hx) (by omega)
    have hgrow : Runs r.used states next (appendRun (g.side r.used) r.start r.length) :=
      ((hside r.used).appendRun hrun).mono (fun _ hx => hx) hle
    rw [Ext4.flushRun]
    cases hu : r.used with
    | true =>
      rw [hu] at hgrow
      rw [if_pos rfl]
      cases used with
      | true => exact hgrow
      | false => exact hkeep
    | false =>
      rw [hu] at hgrow
      rw [if_neg Bool.false_ne_true]
      cases used with
      | true => exact hkeep
      | false => exact hgrow

theorem Scanned.step (h : Scanned states next g run) {block : Nat} {used : Bool}
    (hnext : next ≤ block) : Scanned (states ++ [(block, used)]) (block + 1)
      (graphStep (g, run) (block, used)).1 (graphStep (g, run) (block, used)).2 := by
  have hmem : ∀ x ∈ states, x ∈ states ++ [(block, used)] := fun x hx => List.mem_append_left _ hx
  have hlast : (block, used) ∈ states ++ [(block, used)] :=
    List.mem_append_right _ (List.mem_singleton.mpr rfl)
  -- `block` だけの区間を開いた後
  have hfresh : ∀ g', (∀ v, Runs v states next (g'.side v)) →
      Scanned (states ++ [(block, used)]) (block + 1) g' (some ⟨used, block, 1⟩) := by
    intro g' hg'
    refine ⟨fun hn => (by cases hn), fun r hr => ?_⟩
    cases hr
    refine ⟨le_refl _, fun v => (hg' v).mono hmem hnext, fun b h1 h2 => ?_⟩
    dsimp only at h1 h2 ⊢
    rw [show b = block by omega]
    exact hlast
  cases run with
  | none => exact hfresh g (h.settled rfl)
  | some r =>
    obtain ⟨hle, hside, hrun⟩ := h.opened r rfl
    rw [graphStep]
    split
    · next hsame =>
      refine ⟨fun hn => (by cases hn), fun r' hr' => ?_⟩
      cases hr'
      dsimp only
      refine ⟨by omega, fun v => (hside v).mono hmem (le_refl _), fun b h1 h2 => ?_⟩
      rcases Nat.lt_or_ge b (r.start + r.length) with hb | hb
      · exact hmem _ (hrun b h1 hb)
      · rw [show b = block by omega, ← hsame.1]
        exact hlast
    · exact hfresh _ h.flushRun

/-- 番号の増える block の列を、順に走査する。 -/
theorem Scanned.foldl : ∀ {rest : List (Nat × Bool)} {states : List (Nat × Bool)} {next : Nat}
    {p : AllocationGraph × Option OpenRun}, Scanned states next p.1 p.2 →
    rest.Pairwise (fun a b => a.1 < b.1) → (∀ x ∈ rest, next ≤ x.1) →
    ∃ next', Scanned (states ++ rest) next' (rest.foldl graphStep p).1 (rest.foldl graphStep p).2
  | [], states, next, p, h, _, _ => ⟨next, by rw [List.append_nil]; exact h⟩
  | (block, used) :: rest, states, next, p, h, hsorted, hnext => by
    obtain ⟨hhead, htail⟩ := List.pairwise_cons.mp hsorted
    obtain ⟨next', h'⟩ := Scanned.foldl (@Scanned.step _ _ _ _ h block used (hnext _ List.mem_cons_self)) htail
      fun x hx => hhead x hx
    rw [List.append_assoc, List.singleton_append] at h'
    exact ⟨next', h'⟩

end Scan

/-! ## bitmap の印 -/

namespace Volume

variable {V : Volume}

theorem accepted (V : Volume) : V.sb.Accepted V.disk.sizeBytes :=
  accepted_of_readSuperblock (readSuperblock_of_loadMetadataContext V.load)

/-- 一つの group の block の列。 -/
theorem mem_groupBlockStates {g : Nat} (hg : g < V.sb.groupsCount) {x : Nat × Bool}
    (hx : x ∈ groupBlockStates V.sb g (V.blockAt V.data (V.desc g).blockBitmap)) :
    V.sb.firstDataBlock + g * V.sb.blocksPerGroup ≤ x.1 ∧
      x.1 < V.sb.firstDataBlock + (g + 1) * V.sb.blocksPerGroup ∧ x.1 < V.sb.blocksCount ∧
      (V.Marked V.data x.1 ↔ x.2 = true) := by
  obtain ⟨i, hi, rfl⟩ := List.mem_map.mp hx
  rw [List.mem_range, V.accepted.groupBlockCount_eq V.disk.size_lt hg] at hi
  rw [V.accepted.groupStartBlock_eq V.disk.size_lt hg, Nat.add_one_mul]
  obtain ⟨hgrp, hidx⟩ := V.accepted.groupOf_indexOf_of_eq
    (b := V.sb.firstDataBlock + g * V.sb.blocksPerGroup + i) (g := g) (i := i) (by omega) rfl
  dsimp only
  refine ⟨by omega, by omega, by omega, ?_⟩
  unfold Marked
  rw [hgrp, hidx]

theorem readDescs_eq {n g : Nat} {gds : List GroupDesc} (hn : g + n ≤ V.sb.groupsCount)
    (h : readDescs V.disk V.sb n g = .ok gds) : gds = (List.range n).map fun i => V.desc (g + i) := by
  induction n generalizing g gds with
  | zero =>
    cases h
    rfl
  | succ n ih =>
    rw [readDescs, V.descs g (show g < V.sb.groupsCount by omega), Result.ok_bind, Result.guard_bind_eq_ok_iff] at h
    obtain ⟨rest, hrest, h⟩ := Result.bind_eq_ok h.2
    cases h
    rw [ih (by omega) hrest, map_range_from_succ]

/-- 読んだ印の列は block の番号の順に並び、bitmap の印と一致する。 -/
theorem readBlockStates_spec {cancel : Nat → Bool} {n g : Nat} {ss : List (Nat × Bool)}
    (hn : g + n ≤ V.sb.groupsCount)
    (h : readBlockStates cancel V.disk V.sb g ((List.range n).map fun i => V.desc (g + i)) = .ok ss) :
    ss.Pairwise (fun a b => a.1 < b.1) ∧ ∀ x ∈ ss,
      V.sb.firstDataBlock + g * V.sb.blocksPerGroup ≤ x.1 ∧ x.1 < V.sb.blocksCount ∧
        (V.Marked V.data x.1 ↔ x.2 = true) := by
  induction n generalizing g ss with
  | zero =>
    cases h
    exact ⟨List.Pairwise.nil, fun x hx => (by cases hx)⟩
  | succ n ih =>
    rw [map_range_from_succ, readBlockStates, Result.guard_bind_eq_ok_iff,
      Result.guard_bind_eq_ok_iff] at h
    obtain ⟨bm, hbm, h⟩ := Result.bind_eq_ok h.2.2
    obtain ⟨rest, hrest, h⟩ := Result.bind_eq_ok h
    cases h
    obtain ⟨hsorted, hmem⟩ := ih (by omega) hrest
    rw [(Disk.readExact_eq_ok_iff.mp hbm).2]
    have hhere := fun x => @mem_groupBlockStates V g (by omega) x
    refine ⟨List.pairwise_append.mpr ⟨?_, hsorted, ?_⟩, fun x hx => ?_⟩
    · refine List.pairwise_map.mpr (List.pairwise_lt_range.imp fun hab => ?_)
      exact Nat.add_lt_add_left hab _
    · intro a ha b hb
      have h1 := (hhere a ha).2.1
      have h2 := (hmem b hb).1
      omega
    · rcases List.mem_append.mp hx with hx | hx
      · obtain ⟨h1, -, h3, h4⟩ := hhere x hx
        exact ⟨h1, h3, h4⟩
      · obtain ⟨h1, h2, h3⟩ := hmem x hx
        rw [Nat.add_one_mul] at h1
        exact ⟨by omega, h2, h3⟩

/-- **区間は bitmap の印をそのまま集めたもので、重ならずに並ぶ。** -/
theorem side_buildAllocationGraph {host : Host} {graph : AllocationGraph}
    (h : buildAllocationGraph host V.disk = .ok graph) (used : Bool) :
    (∀ e ∈ graph.side used, ∀ b, e.start ≤ b → b < e.endBlock →
      V.sb.firstDataBlock ≤ b ∧ b < V.sb.blocksCount ∧ (V.Marked V.data b ↔ used = true)) ∧
    (graph.side used).Pairwise fun a b => a.endBlock ≤ b.start := by
  unfold buildAllocationGraph at h
  rw [readSuperblock_of_loadMetadataContext V.load, Result.ok_bind] at h
  simp only [Result.guard_bind_eq_ok_iff] at h
  obtain ⟨_, _, h⟩ := Result.bind_eq_ok h.2.2
  obtain ⟨descs, hdescs, h⟩ := Result.bind_eq_ok h
  obtain ⟨states, hstates, h⟩ := Result.bind_eq_ok h
  cases h
  rw [readDescs_eq (Nat.zero_add _).le hdescs] at hstates
  obtain ⟨hsorted, hmem⟩ := readBlockStates_spec (Nat.zero_add _).le hstates
  obtain ⟨next, hs⟩ := @Scanned.foldl states [] 0 ({}, none)
    ⟨fun _ v => (by cases v <;> exact Runs.nil), fun r hr => (by cases hr)⟩ hsorted
    fun x _ => Nat.zero_le _
  rw [List.nil_append] at hs
  have hruns := hs.flushRun used
  refine ⟨fun e he b h1 h2 => ?_, hruns.sorted⟩
  obtain ⟨h3, h4, h5⟩ := hmem _ (hruns.marked e he b h1 h2)
  exact ⟨by omega, h4, h5⟩

end Volume

/-! ## 空きの切り分け -/

/-- 二つの区間 `[a, a + n)` と `[b, b + m)` が重ならない。 -/
def Apart (a n b m : Nat) : Prop := a + n ≤ b ∨ b + m ≤ a

theorem Apart.symm {a n b m : Nat} (h : Apart a n b m) : Apart b m a n := Or.symm h

theorem Apart.mono {a n b m a' n' b' m' : Nat} (h : Apart a n b m) (ha : a ≤ a')
    (hn : a' + n' ≤ a + n) (hb : b ≤ b') (hm : b' + m' ≤ b + m) : Apart a' n' b' m' := by
  unfold Apart at h ⊢
  omega

/-- 重ならない slot の組。 -/
def FreeSlot.Apart (s t : FreeSlot) : Prop := Ext4.Apart s.start s.length t.start t.length

/-- 行き先が重ならない移動の組。 -/
def OwnerMove.ApartDst (m n : OwnerMove) : Prop :=
  Apart m.destinationBlock m.blockCount n.destinationBlock n.blockCount

instance : Std.Symm OwnerMove.ApartDst := ⟨fun _ _ h => Apart.symm h⟩

/-- slot を一つ選んで使った後の slot は、残りと、使わなかった末尾である。 -/
theorem allocateBestFit_perm {slots slots' : List FreeSlot} {length dest : Nat}
    (h : allocateBestFit slots length = some (dest, slots')) :
    ∃ s rest, slots.Perm (s :: rest) ∧ length ≤ s.length ∧ dest = s.start ∧
      (slots' = rest ∨ slots'.Perm (⟨s.start + length, s.length - length⟩ :: rest)) := by
  obtain ⟨i, s, hi, hl, hdest, rfl⟩ := allocateBestFit_eq_some h
  obtain ⟨hlt, hget⟩ := List.getElem?_eq_some_iff.mp hi
  refine ⟨s, slots.eraseIdx i, ?_, hl, hdest, ?_⟩
  · rw [← hget]
    exact (List.getElem_cons_eraseIdx_perm hlt).symm
  · split
    · exact Or.inl rfl
    · exact Or.inr (List.set_perm_cons_eraseIdx hlt _)

/--
割り当ての途中の行き先。`F` は空きの block である。

slot と行き先は `F` だけからなり、どの二つも重ならない。
-/
structure Placement.Placed (F : Nat → Prop) (p : Placement) : Prop where
  slotsFree : ∀ s ∈ p.slots, ∀ b, s.start ≤ b → b < s.start + s.length → F b
  slotsApart : p.slots.Pairwise FreeSlot.Apart
  free : ∀ m ∈ p.moves, ∀ b, m.destinationBlock ≤ b → b < m.destinationBlock + m.blockCount → F b
  apart : p.moves.Pairwise OwnerMove.ApartDst
  across : ∀ m ∈ p.moves, ∀ s ∈ p.slots, Apart m.destinationBlock m.blockCount s.start s.length

theorem Placement.Placed.place {F : Nat → Prop} {p : Placement} (h : p.Placed F) {length : Nat}
    {mk : Nat → Nat → OwnerMove}
    (hmk : ∀ txn dest, (mk txn dest).destinationBlock = dest ∧ (mk txn dest).blockCount = length) :
    (p.place length mk).Placed F := by
  unfold Placement.place
  split
  · exact h
  · cases ha : allocateBestFit p.slots length with
    | none => exact ⟨h.slotsFree, h.slotsApart, h.free, h.apart, h.across⟩
    | some r =>
      obtain ⟨dest, slots⟩ := r
      obtain ⟨s, rest, hperm, hl, rfl, hslots⟩ := allocateBestFit_perm ha
      obtain ⟨hdst, hcount⟩ := hmk p.txn s.start
      obtain ⟨hhead, hrest⟩ := List.pairwise_cons.mp (hperm.pairwise h.slotsApart Apart.symm)
      have hold : ∀ t ∈ s :: rest, t ∈ p.slots := fun t ht => hperm.mem_iff.mpr ht
      have hs := hold s List.mem_cons_self
      -- 新しい slot は、残りか、選んだ slot の末尾である
      have hnew : ∀ t ∈ slots, t ∈ rest ∨ t = ⟨s.start + length, s.length - length⟩ := by
        intro t ht
        rcases hslots with rfl | hslots
        · exact Or.inl ht
        · exact (List.mem_cons.mp (hslots.mem_iff.mp ht)).symm
      have hin : ∀ t ∈ slots, ∃ u ∈ p.slots, u.start ≤ t.start ∧
          t.start + t.length ≤ u.start + u.length := by
        intro t ht
        rcases hnew t ht with ht | rfl
        · exact ⟨t, hold t (List.mem_cons_of_mem _ ht), le_refl _, le_refl _⟩
        · exact ⟨s, hs, by dsimp only; omega, by dsimp only; omega⟩
      refine ⟨fun t ht b h1 h2 => ?_, ?_, fun m hm b h1 h2 => ?_, ?_, fun m hm t ht => ?_⟩
      · obtain ⟨u, hu, h3, h4⟩ := hin t ht
        exact h.slotsFree u hu b (by omega) (by omega)
      · rcases hslots with rfl | hslots
        · exact hrest
        · refine (hslots.symm.pairwise (List.pairwise_cons.mpr ⟨fun t ht => ?_, hrest⟩) Apart.symm)
          exact (hhead t ht).mono (by dsimp only; omega) (by dsimp only; omega) (le_refl _) (le_refl _)
      · rcases List.mem_append.mp hm with hm | hm
        · exact h.free m hm b h1 h2
        · rw [List.mem_singleton.mp hm, hdst, hcount] at h2
          rw [List.mem_singleton.mp hm, hdst] at h1
          exact h.slotsFree s hs b h1 (by omega)
      · refine List.pairwise_append.mpr ⟨h.apart, List.pairwise_singleton _ _, fun m hm n hn => ?_⟩
        rw [List.mem_singleton.mp hn]
        unfold OwnerMove.ApartDst
        rw [hdst, hcount]
        exact (h.across m hm s hs).mono (le_refl _) (le_refl _) (le_refl _) (by omega)
      · obtain ⟨u, hu, h3, h4⟩ := hin t ht
        rcases List.mem_append.mp hm with hm | hm
        · exact (h.across m hm u hu).mono (le_refl _) (le_refl _) h3 h4
        · rw [List.mem_singleton.mp hm, hdst, hcount]
          rcases hnew t ht with ht | rfl
          · exact (hhead t ht).mono (le_refl _) (by omega) (le_refl _) (le_refl _)
          · exact Or.inl (le_refl _)

/-- 計画の行き先は空きの block だけからなり、互いに重ならない。 -/
structure PlacedMoves (F : Nat → Prop) (moves : List OwnerMove) : Prop where
  free : ∀ m ∈ moves, ∀ b, m.destinationBlock ≤ b → b < m.destinationBlock + m.blockCount → F b
  apart : moves.Pairwise OwnerMove.ApartDst

theorem placed_placeAll {F : Nat → Prop} {slots : List FreeSlot} (data : List OwnedExtent)
    (trees : List ExtentTreeBlock)
    (hfree : ∀ s ∈ slots, ∀ b, s.start ≤ b → b < s.start + s.length → F b)
    (hapart : slots.Pairwise FreeSlot.Apart) :
    PlacedMoves F (placeAll slots data trees).moves := by
  have hstart : ({ slots } : Placement).Placed F :=
    ⟨hfree, hapart, fun m hm => (by cases hm), List.Pairwise.nil, fun m hm => (by cases hm)⟩
  have hdata : (data.foldl (fun p e => p.place e.length fun txn dest => dataMove txn e dest)
      ({ slots } : Placement)).Placed F := by
    refine List.foldlRecOn data _ hstart fun p hp e _ => ?_
    exact hp.place fun _ _ => ⟨rfl, rfl⟩
  have hall : (placeAll slots data trees).Placed F := by
    refine List.foldlRecOn trees _ hdata fun p hp t _ => ?_
    exact hp.place fun _ _ => ⟨rfl, rfl⟩
  exact ⟨hall.free, hall.apart⟩

/-- 割り当てた移動は、どれも対象の一つについてのものである。 -/
theorem placeAll_forall {P : OwnerMove → Prop} {slots : List FreeSlot} {data : List OwnedExtent}
    {trees : List ExtentTreeBlock} (hdata : ∀ e ∈ data, ∀ txn dest, P (dataMove txn e dest))
    (htrees : ∀ t ∈ trees, ∀ txn dest, P (treeMove txn t dest)) :
    ∀ m ∈ (placeAll slots data trees).moves, P m := by
  have hplace : ∀ {p : Placement} {length : Nat} {mk : Nat → Nat → OwnerMove},
      (∀ m ∈ p.moves, P m) → (∀ txn dest, P (mk txn dest)) →
      ∀ m ∈ (p.place length mk).moves, P m := by
    intro p length mk hp hmk m hm
    unfold Placement.place at hm
    split at hm
    · exact hp m hm
    · cases ha : allocateBestFit p.slots length with
      | none =>
        rw [ha] at hm
        exact hp m hm
      | some r =>
        rw [ha] at hm
        rcases List.mem_append.mp hm with hm | hm
        · exact hp m hm
        · rw [List.mem_singleton.mp hm]
          exact hmk _ _
  have hfirst : ∀ m ∈ (data.foldl (fun p e => p.place e.length fun txn dest => dataMove txn e dest)
      ({ slots } : Placement)).moves, P m :=
    List.foldlRecOn (motive := fun p : Placement => ∀ m ∈ p.moves, P m) data _
      (fun m hm => (by cases hm)) fun p hp e he => hplace hp (hdata e he)
  exact List.foldlRecOn (motive := fun p : Placement => ∀ m ∈ p.moves, P m) trees _ hfirst
    fun p hp t ht => hplace hp (htrees t ht)

/-- target より下の空きは、空きの区間を切り詰めたものである。 -/
theorem freeSlots_spec {graph : AllocationGraph} {target : Nat}
    (hsorted : graph.free.Pairwise fun a b => a.endBlock ≤ b.start) :
    (∀ s ∈ freeSlots graph target, ∃ e ∈ graph.free, e.start = s.start ∧
      s.start + s.length ≤ e.endBlock) ∧ (freeSlots graph target).Pairwise FreeSlot.Apart := by
  have hslot : ∀ {e : BlockExtent} {s : FreeSlot},
      (if min e.endBlock target > e.start then some (⟨e.start, min e.endBlock target - e.start⟩ : FreeSlot)
        else none) = some s → e.start = s.start ∧ s.start + s.length ≤ e.endBlock := by
    intro e s h
    split at h
    · cases h
      exact ⟨rfl, by dsimp only; omega⟩
    · cases h
  constructor
  · intro s hs
    obtain ⟨e, he, h⟩ := List.mem_filterMap.mp hs
    exact ⟨e, List.takeWhile_subset _ he, hslot h⟩
  · refine List.pairwise_filterMap.mpr
      ((hsorted.sublist (List.takeWhile_sublist _)).imp fun {a b} hab s hs t ht => ?_)
    obtain ⟨-, h1⟩ := hslot hs
    obtain ⟨h2, -⟩ := hslot ht
    exact Or.inl (by omega)

end Fsx.Ext4
