import Fsx.Ext4.Owners
import Fsx.Ext4.Session

/-!
# 計画の健全さ

`build_owner_relocation_plan` が成功したときの計画について、像によらず次を示す。

* transaction の番号は 1 から順に付く。
* 行き先は `[first_data_block, target)` の空きの block だけからなり、互いに重ならない。
* 移動の元は互いに重ならない。
* 行き先がすべて見つかったとき、移動は使われている枠の extent と tree block のうち
  target より上にかかるものと、過不足なく対応する。
-/

namespace Fsx.Ext4

/-! ## 割り当ての進み方 -/

/-- 移動から、番号と行き先を除いたもの。 -/
def OwnerMove.subject (m : OwnerMove) : OwnerMove :=
  { m with transactionId := 0, destinationBlock := 0 }

/-- 移動の元の範囲。 -/
def OwnerMove.sourceSpan (m : OwnerMove) : Nat × Nat := (m.sourceBlock, m.blockCount)

/-- 対象の列 `xs` までの割り当て。止まらない限り、移動は対象と順に対応する。 -/
structure Placement.Follows (xs : List OwnerMove) (p : Placement) : Prop where
  started : p.moves.map OwnerMove.subject <+: xs
  all : p.allPlaced = true → p.moves.map OwnerMove.subject = xs

theorem Placement.Follows.place {xs : List OwnerMove} {p : Placement} (h : p.Follows xs)
    {length : Nat} {mk : Nat → Nat → OwnerMove} {x : OwnerMove}
    (hmk : ∀ txn dest, (mk txn dest).subject = x) : (p.place length mk).Follows (xs ++ [x]) := by
  have hmore : p.moves.map OwnerMove.subject <+: xs ++ [x] :=
    h.started.trans (List.prefix_append _ _)
  unfold Placement.place
  split
  · next hstop => exact ⟨hmore, fun hall => absurd (hstop.symm.trans hall) (by decide)⟩
  · next hgo =>
    rw [Bool.not_eq_false] at hgo
    cases allocateBestFit p.slots length with
    | none => exact ⟨hmore, fun hall => (by cases hall)⟩
    | some r =>
      have hmap : (p.moves ++ [mk p.txn r.1]).map OwnerMove.subject = xs ++ [x] := by
        rw [List.map_append, h.all hgo, List.map_singleton, hmk]
      exact ⟨hmap ▸ List.prefix_rfl, fun _ => hmap⟩

theorem Placement.Follows.foldl {α : Type} {size : α → Nat} {mk : α → Nat → Nat → OwnerMove}
    {subject : α → OwnerMove} (hmk : ∀ a txn dest, (mk a txn dest).subject = subject a) :
    ∀ {as : List α} {xs : List OwnerMove} {p : Placement}, p.Follows xs →
      (as.foldl (fun p a => p.place (size a) (mk a)) p).Follows (xs ++ as.map subject)
  | [], xs, p, h => by rwa [List.map_nil, List.append_nil]
  | a :: as, xs, p, h => by
    have hnext : (p.place (size a) (mk a)).Follows (xs ++ [subject a]) := h.place (hmk a)
    have hrest := @Placement.Follows.foldl α size mk subject hmk as _ _ hnext
    rwa [List.append_assoc] at hrest

/-- 割り当てる対象の列。 -/
def subjects (data : List OwnedExtent) (trees : List ExtentTreeBlock) : List OwnerMove :=
  data.map (dataMove 0 · 0) ++ trees.map (treeMove 0 · 0)

/-- **割り当ては対象を順に移し、すべて置けたときは対象の全部を移す。** -/
theorem follows_placeAll (slots : List FreeSlot) (data : List OwnedExtent)
    (trees : List ExtentTreeBlock) :
    (placeAll slots data trees).Follows (subjects data trees) := by
  have hstart : ({ slots } : Placement).Follows [] := ⟨List.prefix_rfl, fun _ => rfl⟩
  have hdata := @Placement.Follows.foldl OwnedExtent (fun e => e.length)
    (fun e txn dest => dataMove txn e dest) (dataMove 0 · 0) (fun _ _ _ => rfl) data _ _ hstart
  exact @Placement.Follows.foldl ExtentTreeBlock (fun _ => 1)
    (fun t txn dest => treeMove txn t dest) (treeMove 0 · 0) (fun _ _ _ => rfl) trees _ _ hdata

/-- 対象の元の範囲は、extent と tree block の範囲である。 -/
theorem map_sourceSpan_subjects (data : List OwnedExtent) (trees : List ExtentTreeBlock) :
    (subjects data trees).map OwnerMove.sourceSpan =
      data.map extentSpan ++ trees.map treeSpan := by
  unfold subjects
  rw [List.map_append, List.map_map, List.map_map]
  rfl

/-! ## 持ち主の重なりの検査 -/

theorem strictWeak_before : StrictWeak OwnedRange.before := by
  constructor
  · intro a b h
    unfold OwnedRange.before at h ⊢
    grind
  · intro a b c h1 h2
    unfold OwnedRange.before at h1 h2 ⊢
    grind

/-- 位置の順に並んだ列で隣り合う範囲が重ならなければ、どの二つも重ならない。 -/
theorem pairwise_of_checkOwnedRanges : ∀ {rs : List OwnedRange},
    rs.Pairwise (fun a b => a.start ≤ b.start) → checkOwnedRanges rs = .ok () →
    rs.Pairwise fun a b => a.endBlock ≤ b.start
  | [], _, _ => List.Pairwise.nil
  | [_], _, _ => List.pairwise_singleton _ _
  | a :: b :: rest, hsorted, h => by
    rw [checkOwnedRanges] at h
    split at h
    · cases h
    · next hab =>
      obtain ⟨-, htail⟩ := List.pairwise_cons.mp hsorted
      have hb := (List.pairwise_cons.mp htail).1
      refine List.pairwise_cons.mpr ⟨fun c hc => ?_, pairwise_of_checkOwnedRanges htail h⟩
      rcases List.mem_cons.mp hc with rfl | hc
      · omega
      · have := hb c hc
        omega

/-- **検査を通った走査では、extent と tree block の範囲はどの二つも重ならない。** -/
theorem spans_apart_of_validate {srt : StdSort} {owners : OwnerScan}
    (h : validateOwnerRanges srt owners = .ok ()) :
    (owners.extents.map extentSpan ++ owners.treeBlocks.map treeSpan).Pairwise SpanApart := by
  have hsorted : (srt.sort OwnedRange.before (ownedRanges owners)).Pairwise
      fun a b => a.start ≤ b.start := by
    refine (srt.sorted _ _ strictWeak_before).imp fun {a b} hab => ?_
    unfold OwnedRange.before at hab
    grind
  have happart : (ownedRanges owners).Pairwise
      fun a b => a.endBlock ≤ b.start ∨ b.endBlock ≤ a.start :=
    (srt.perm OwnedRange.before _).pairwise
      ((pairwise_of_checkOwnedRanges hsorted h).imp fun hab => Or.inl hab) fun h => Or.symm h
  unfold ownedRanges at happart
  simp only [List.pairwise_append, List.pairwise_map, List.forall_mem_map] at happart ⊢
  exact happart

/-- **移動の元の列は、重ならない範囲の列を並べ替えたものの前半なので、互いに重ならない。** -/
theorem sources_apart {moves : List OwnerMove} {data extents : List OwnedExtent}
    {trees treeBlocks : List ExtentTreeBlock}
    (hmoves : moves.map OwnerMove.subject <+: subjects data trees)
    (hdata : data.Subperm extents) (htrees : trees.Sublist treeBlocks)
    (h : (extents.map extentSpan ++ treeBlocks.map treeSpan).Pairwise SpanApart) :
    moves.Pairwise fun m n => SpanApart m.sourceSpan n.sourceSpan := by
  obtain ⟨kept, hperm, hsub⟩ := hdata
  have hkept := h.sublist ((hsub.map extentSpan).append (htrees.map treeSpan))
  have hall := ((hperm.map extentSpan).append_right (trees.map treeSpan)).pairwise hkept
    fun h => Apart.symm h
  rw [← map_sourceSpan_subjects] at hall
  have hmap := hall.sublist (hmoves.map OwnerMove.sourceSpan).sublist
  rwa [List.map_map, List.pairwise_map] at hmap

/-! ## 計画 -/

namespace Volume

variable {V : Volume}

/-- target より上にかかる extent と target 以上の tree block を移すときの対象。 -/
def subjectsAbove (V : Volume) (target : Nat) : List OwnerMove :=
  subjects (V.liveSlots.flatMap (V.keptExtents target)) (V.liveSlots.flatMap (V.keptTrees target))

/-- 計画の健全さ。 -/
structure PlanSound (V : Volume) (plan : OwnerRelocationPlan) : Prop where
  numbered : ∀ i m, plan.moves[i]? = some m → m.transactionId = i + 1
  destinations : ∀ m ∈ plan.moves, ∀ b, m.destinationBlock ≤ b →
    b < m.destinationBlock + m.blockCount →
    V.sb.firstDataBlock ≤ b ∧ b < plan.targetBlocks ∧ ¬ V.Marked V.data b
  destinationsApart : plan.moves.Pairwise OwnerMove.ApartDst
  sourcesApart : plan.moves.Pairwise fun m n => SpanApart m.sourceSpan n.sourceSpan
  complete : plan.destinationsAvailable = true →
    (plan.moves.map OwnerMove.subject).Perm (V.subjectsAbove plan.targetBlocks)

/-- target は filesystem の大きさより小さい。 -/
theorem target_lt {targetBytes : Nat} (h : ¬ targetBytes ≥ V.sb.sizeBytes) :
    targetBytes / V.sb.blockSize < V.sb.blocksCount := by
  have hbs := V.accepted.blockSize_ge
  rw [V.accepted.sizeBytes_eq V.disk.size_lt] at h
  rw [Nat.div_lt_iff_lt_mul (by omega)]
  omega

/-- 集めた extent と tree block を並べ替えて選んだものは、対象の並べ替えである。 -/
theorem Scanned.perm_subjects {target : Nat} {out : OwnerScan} (h : V.Scanned target out)
    (srt : StdSort) :
    (subjects
      (srt.sort (fun a b => decide (a.length > b.length))
        (out.extents.filter fun e => decide (e.endBlock > target)))
      (out.treeBlocks.filter fun t => decide (t.physicalBlock ≥ target))).Perm
      (V.subjectsAbove target) := by
  have hE : (out.extents.filter fun e => decide (e.endBlock > target)) = out.extents := by
    refine List.filter_eq_self.mpr fun e he => ?_
    obtain ⟨s, -, he⟩ := List.mem_flatMap.mp (h.extents.mem_iff.mp he)
    exact (List.mem_filter.mp he).2
  have hT : (out.treeBlocks.filter fun t => decide (t.physicalBlock ≥ target)) =
      out.treeBlocks := by
    refine List.filter_eq_self.mpr fun t ht => ?_
    rw [h.trees] at ht
    obtain ⟨s, -, ht⟩ := List.mem_flatMap.mp ht
    exact (List.mem_filter.mp ht).2
  rw [hE, hT]
  exact (((srt.perm _ _).trans h.extents).map _).append ((List.Perm.of_eq h.trees).map _)

end Volume

/-- **成功した計画の番号、行き先、移動の元は正しく、すべて置けたときは過不足がない。** -/
theorem buildOwnerRelocationPlan_sound {host : Host} {d : Disk} {targetBytes : Nat}
    {plan : OwnerRelocationPlan} (h : buildOwnerRelocationPlan host d targetBytes = .ok plan) :
    ∃ V : Volume, V.disk = d ∧ V.PlanSound plan := by
  have hshape := wellFormed_buildOwnerRelocationPlan h
  have hrun := h
  unfold buildOwnerRelocationPlan at hrun
  obtain ⟨sb, hsb, hrun⟩ := Result.bind_eq_ok hrun
  simp only [Result.guard_bind_eq_ok_iff] at hrun
  obtain ⟨hsize, -, hrun⟩ := hrun
  obtain ⟨graph, -, hrun⟩ := Result.bind_eq_ok hrun
  obtain ⟨owners, howners, hrun⟩ := Result.bind_eq_ok hrun
  obtain ⟨_, hvalid, hrun⟩ := Result.bind_eq_ok hrun
  obtain ⟨fixed, -, hrun⟩ := Result.bind_eq_ok hrun
  cases hrun
  obtain ⟨V, rfl⟩ := Volume.exists_of_scanExtentOwners howners
  obtain rfl : V.sb = sb :=
    Except.ok.inj ((readSuperblock_of_loadMetadataContext V.load).symm.trans hsb)
  have hplaced := Volume.placed_of_build h
  have hscan := Volume.scanned_scanExtentOwners howners
  rw [Nat.min_eq_left (Volume.target_lt hsize).le] at hscan
  have hsubjects := hscan.perm_subjects host.srt
  have hfollows := follows_placeAll
    (host.srt.sort (fun a b => decide (a.length < b.length))
      (freeSlots graph (targetBytes / V.sb.blockSize)))
    (host.srt.sort (fun a b => decide (a.length > b.length))
      (owners.extents.filter fun e => decide (e.endBlock > targetBytes / V.sb.blockSize)))
    (owners.treeBlocks.filter fun t => decide (t.physicalBlock ≥ targetBytes / V.sb.blockSize))
  refine ⟨V, rfl, hshape.numbered, fun m hm b h1 h2 => ?_, hplaced.apart, ?_, fun hall => ?_⟩
  · obtain ⟨hvac, hlt⟩ := hplaced.free m hm b h1 h2
    exact ⟨hvac.1, hlt, hvac.2.2⟩
  · exact sources_apart hfollows.started
      ((host.srt.perm _ _).subperm.trans List.filter_sublist.subperm) List.filter_sublist
      (spans_apart_of_validate hvalid)
  · exact (List.Perm.of_eq (hfollows.all hall)).trans hsubjects

/-- 二つの file の extent と木の block を、target より下に移す計画。 -/
theorem buildOwnerRelocationPlan_sound_tiny : ∃ (V : Volume) (plan : OwnerRelocationPlan),
    V.disk = Tiny.spread ∧ plan.moves.length = 5 ∧ plan.destinationsAvailable = true ∧
      V.PlanSound plan := by
  have hrun : (buildOwnerRelocationPlan Tiny.host Tiny.spread 22528).map
      (fun plan => (plan.moves.length, plan.destinationsAvailable)) = .ok (5, true) := by
    decide +kernel
  cases hp : buildOwnerRelocationPlan Tiny.host Tiny.spread 22528 with
  | error e =>
    rw [hp] at hrun
    cases hrun
  | ok plan =>
    rw [hp] at hrun
    obtain ⟨V, hV, hsound⟩ := buildOwnerRelocationPlan_sound hp
    obtain ⟨h1, h2⟩ := Prod.mk.inj (Except.ok.inj hrun)
    exact ⟨V, plan, hV, h1, h2, hsound⟩

end Fsx.Ext4
