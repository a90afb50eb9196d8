import Fsx.Ext4.AllocationRuns

/-!
# 移動の幾何（`src/ext4/allocation.cpp`）

`build_relocation_geometry` は、target 以上の使用中の区間と target より下の空きの区間を、長い順に並べて
端から突き合わせる。二つの列の進みは別々なので、どちらの区間も途中で切れる。

区間を block の列に開くと、突き合わせは二つの列を同じ長さずつ取り出していくだけになる
（`placeSources_spec`）。容量が足りれば行き先の列は尽きない。

`std::sort` は同じ長さの区間の順を決めないので、`StdSort` の仕様だけを使う。区間が filesystem に
収まるかぎり `uint64_t` の和はあふれないので、`Nat` で計算する。
-/

namespace Fsx.Ext4

structure GeometryMove where
  source : BlockExtent
  destination : BlockExtent
  deriving DecidableEq

structure RelocationGeometry where
  targetBlocks : Nat
  sourceBlocks : Nat
  destinationBlocks : Nat
  largestSourceExtent : Nat
  largestDestinationExtent : Nat
  moves : List GeometryMove := []
  capacityOk : Bool
  deriving DecidableEq

/-- target 以上の使用中の区間。 -/
def geometrySources (g : AllocationGraph) (target : Nat) : List BlockExtent :=
  (g.allocated.filter fun e => ¬ e.endBlock ≤ target).map fun e =>
    ⟨max e.start target, e.endBlock - max e.start target⟩

/-- target より下の空きの区間。最初の target 以上の区間で打ち切る。 -/
def geometryDests (g : AllocationGraph) (target : Nat) : List BlockExtent :=
  (g.free.takeWhile fun e => ¬ e.start ≥ target).filterMap fun e =>
    if min e.endBlock target > e.start then some ⟨e.start, min e.endBlock target - e.start⟩
    else none

/-- 使い切った行き先を飛ばす。行き先の列は `dests` の `di` 番目から後である。 -/
def skipUsed : List BlockExtent → Nat → List BlockExtent × Nat
  | [], dused => ([], dused)
  | d :: ds, dused => if dused = d.length then skipUsed ds 0 else (d :: ds, dused)

/-- 突き合わせの途中。 -/
structure Pairing where
  dests : List BlockExtent
  dused : Nat := 0
  moves : List GeometryMove := []

/--
一つの移動元についてのループ。`fuel` が尽きれば `none` とする。

進む一回ごとに `soff` は少なくとも 1 増えるので、移動元の長さだけの `fuel` で足りなければ、
ループは止まらない。
-/
def placeSource (s : BlockExtent) : Nat → Nat → Pairing → Option (Result Pairing)
  | 0, soff, p => if soff < s.length then none else some (.ok p)
  | fuel + 1, soff, p =>
    if soff < s.length then
      match skipUsed p.dests p.dused with
      | ([], _) =>
        some (.error { code := .internal
                       message := "relocation geometry exhausted destination extents" })
      | (d :: ds, dused) =>
        let n := min (s.length - soff) (d.length - dused)
        placeSource s fuel (soff + n) {
          dests := d :: ds
          dused := dused + n
          moves := p.moves ++ [⟨⟨s.start + soff, n⟩, ⟨d.start + dused, n⟩⟩] }
    else some (.ok p)

/-- 移動元を順に突き合わせる。 -/
def placeSources : List BlockExtent → Pairing → Option (Result Pairing)
  | [], p => some (.ok p)
  | s :: ss, p =>
    match placeSource s s.length 0 p with
    | some (.ok p') => placeSources ss p'
    | r => r

/-- `build_relocation_geometry`。`none` は、ループが止まらないことを表す。 -/
def buildRelocationGeometry (srt : StdSort) (g : CountedGraph) (target : Nat) :
    Option (Result RelocationGeometry) :=
  if target = 0 ∨ target ≥ g.totalBlocks then
    some (.error { code := .invalidArgument
                   message := "relocation target must be inside filesystem" })
  else
    let lenDesc := fun a b : BlockExtent => decide (a.length > b.length)
    let sources := srt.sort lenDesc (geometrySources g.toAllocationGraph target)
    let dests := srt.sort lenDesc (geometryDests g.toAllocationGraph target)
    let sourceBlocks := (sources.map BlockExtent.length).sum
    let destinationBlocks := (dests.map BlockExtent.length).sum
    let r : RelocationGeometry := {
      targetBlocks := target
      sourceBlocks
      destinationBlocks
      largestSourceExtent := (sources.map BlockExtent.length).foldl max 0
      largestDestinationExtent := (dests.map BlockExtent.length).foldl max 0
      capacityOk := decide (destinationBlocks ≥ sourceBlocks) }
    if r.capacityOk = false then some (.ok r)
    else
      match placeSources sources { dests } with
      | none => none
      | some (.error e) => some (.error e)
      | some (.ok p) => some (.ok { r with moves := p.moves })

/-! ## block の列 -/

/-- 区間の block の列。 -/
def BlockExtent.blocks (e : BlockExtent) : List Nat := List.range' e.start e.length

/-- 区間の列の block を、つなげた列。 -/
def blocksOf (es : List BlockExtent) : List Nat := es.flatMap BlockExtent.blocks

section Blocks

variable {e : BlockExtent} {es : List BlockExtent} {b : Nat}

@[simp] theorem length_blocks (e : BlockExtent) : e.blocks.length = e.length := List.length_range'

@[simp] theorem blocksOf_nil : blocksOf [] = [] := rfl

@[simp] theorem blocksOf_cons (e : BlockExtent) (es : List BlockExtent) :
    blocksOf (e :: es) = e.blocks ++ blocksOf es := List.flatMap_cons

theorem blocksOf_append (es es' : List BlockExtent) :
    blocksOf (es ++ es') = blocksOf es ++ blocksOf es' := List.flatMap_append

theorem mem_blocks : b ∈ e.blocks ↔ e.start ≤ b ∧ b < e.endBlock := List.mem_range'_1

theorem mem_blocksOf : b ∈ blocksOf es ↔ InRuns es b := by
  rw [blocksOf, List.mem_flatMap]
  simp only [mem_blocks, InRuns]

theorem length_blocksOf (es : List BlockExtent) :
    (blocksOf es).length = (es.map BlockExtent.length).sum := by
  rw [blocksOf, List.length_flatMap]
  simp only [length_blocks]

/-- 区間のはじめの `n` block を除いた残り。 -/
theorem drop_blocks (e : BlockExtent) (n : Nat) :
    e.blocks.drop n = List.range' (e.start + n) (e.length - n) := by
  rw [BlockExtent.blocks, List.drop_range', Nat.mul_one]

/-- 重ならない区間の block は重複しない。 -/
theorem nodup_blocksOf (h : es.Pairwise fun a b => a.endBlock ≤ b.start ∨ b.endBlock ≤ a.start) :
    (blocksOf es).Nodup := by
  rw [blocksOf, List.nodup_flatMap]
  refine ⟨fun e _ => List.nodup_range', h.imp ?_⟩
  intro a b hab x ha hb
  rw [mem_blocks] at ha hb
  omega

/-- 重複しない block の列を成す空でない区間は、互いに重ならない。 -/
theorem pairwise_of_nodup_blocksOf (h : (blocksOf es).Nodup) (hpos : ∀ e ∈ es, 0 < e.length) :
    es.Pairwise fun a b => a.endBlock ≤ b.start ∨ b.endBlock ≤ a.start := by
  rw [blocksOf, List.nodup_flatMap] at h
  refine h.2.imp_of_mem ?_
  intro a b ha hb hdisj
  have h1 := hpos a ha
  have h2 := hpos b hb
  by_contra hc
  rw [not_or, Nat.not_le, Nat.not_le] at hc
  unfold BlockExtent.endBlock at hc
  -- 二つの区間の先頭の大きい方は、どちらの区間にも入る
  refine hdisj (mem_blocks.mpr ⟨Nat.le_max_left a.start b.start, ?_⟩)
    (mem_blocks.mpr ⟨Nat.le_max_right _ _, ?_⟩)
  · unfold BlockExtent.endBlock
    omega
  · unfold BlockExtent.endBlock
    omega

end Blocks

/-! ## 突き合わせ -/

/-- まだ使っていない行き先の block。 -/
def Pairing.remaining (p : Pairing) : List Nat := (blocksOf p.dests).drop p.dused

/-- 使った分は、先頭の行き先の長さを超えない。 -/
def Pairing.Sane (p : Pairing) : Prop := ∀ d ∈ p.dests.head?, p.dused ≤ d.length

/-- 移動の組の、移動元と行き先の長さ。 -/
def GeometryMove.Even (m : GeometryMove) : Prop :=
  0 < m.source.length ∧ m.destination.length = m.source.length

section Pairing

variable {s : BlockExtent} {p p' : Pairing} {soff fuel : Nat}

/-- 使い切った行き先を飛ばしても、残りの block は変わらない。 -/
theorem skipUsed_spec : ∀ {ds : List BlockExtent} {dused : Nat},
    (∀ d ∈ ds.head?, dused ≤ d.length) →
    (blocksOf (skipUsed ds dused).1).drop (skipUsed ds dused).2 = (blocksOf ds).drop dused ∧
      ∀ d ∈ (skipUsed ds dused).1.head?, (skipUsed ds dused).2 < d.length
  | [], dused, _ => ⟨rfl, fun d hd => by cases hd⟩
  | d :: ds, dused, h => by
    have hle := h d rfl
    unfold skipUsed
    by_cases heq : dused = d.length
    · rw [if_pos heq]
      obtain ⟨h1, h2⟩ := @skipUsed_spec ds 0 fun _ _ => Nat.zero_le _
      refine ⟨h1.trans ?_, h2⟩
      rw [blocksOf_cons, List.drop_append_of_le_length (by rw [length_blocks]; omega), heq,
        ← length_blocks d, List.drop_length, List.nil_append, List.drop_zero]
    · rw [if_neg heq]
      refine ⟨rfl, fun d' hd' => ?_⟩
      cases hd'
      exact Nat.lt_of_le_of_ne hle heq

/-- 区間の列の、途中からの `n` block。 -/
theorem take_drop_blocks {d : BlockExtent} {ds : List BlockExtent} {k n : Nat}
    (h : k + n ≤ d.length) : (blocksOf (d :: ds)).drop k =
      List.range' (d.start + k) n ++ (blocksOf (d :: ds)).drop (k + n) := by
  have hk : (d.blocks).drop k = List.range' (d.start + k) n ++ d.blocks.drop (k + n) := by
    rw [drop_blocks, drop_blocks, ← Nat.add_assoc, List.range'_append_1]
    congr 1
    omega
  rw [blocksOf_cons, List.drop_append_of_le_length (by rw [length_blocks]; omega),
    List.drop_append_of_le_length (by rw [length_blocks]; omega), hk, List.append_assoc]

/--
**一つの移動元は、残りの行き先の先頭から順に、同じ長さだけ取る。**

ループは移動元の長さだけの回数で止まり、行き先は尽きない。
-/
theorem placeSource_spec (hfuel : s.length - soff ≤ fuel) (hsoff : soff ≤ s.length)
    (hs : p.Sane) (hcap : s.length - soff ≤ p.remaining.length) :
    ∃ p' ms, placeSource s fuel soff p = some (.ok p') ∧ p'.Sane ∧ p'.moves = p.moves ++ ms ∧
      (∀ m ∈ ms, m.Even) ∧
      blocksOf (ms.map GeometryMove.source) = s.blocks.drop soff ∧
      p.remaining = blocksOf (ms.map GeometryMove.destination) ++ p'.remaining := by
  induction fuel generalizing soff p with
  | zero =>
    unfold placeSource
    rw [if_neg (by omega)]
    refine ⟨p, [], rfl, hs, (List.append_nil _).symm, fun m hm => (by cases hm), ?_, rfl⟩
    rw [List.drop_eq_nil_of_le (by rw [length_blocks]; omega)]
    rfl
  | succ fuel ih =>
    unfold placeSource
    by_cases hlt : soff < s.length
    · rw [if_pos hlt]
      obtain ⟨hrem, hhead⟩ := skipUsed_spec hs
      cases hskip : skipUsed p.dests p.dused with
      | mk ds dused =>
        rw [hskip] at hrem hhead
        dsimp only at hrem hhead
        cases ds with
        | nil =>
          -- 残りの block がないので、容量が足りない
          rw [blocksOf_nil, List.drop_nil] at hrem
          rw [Pairing.remaining, ← hrem, List.length_nil] at hcap
          omega
        | cons d ds =>
          have hd := hhead d rfl
          dsimp only
          generalize hn : min (s.length - soff) (d.length - dused) = n
          have hpos : 0 < n := by omega
          have hsplit := @take_drop_blocks d ds dused n (by omega)
          rw [hrem] at hsplit
          have hlen : (blocksOf (d :: ds)).drop (dused + n) =
              ({ dests := d :: ds, dused := dused + n
                 moves := p.moves ++ [⟨⟨s.start + soff, n⟩, ⟨d.start + dused, n⟩⟩] } :
                Pairing).remaining := rfl
          rw [hlen] at hsplit
          have hcap' := congrArg List.length hsplit
          rw [List.length_append, List.length_range'] at hcap'
          have hcap : s.length - soff ≤ ((blocksOf p.dests).drop p.dused).length := hcap
          obtain ⟨p', ms, hrun, hsane, hmoves, heven, hsrc, hdst⟩ := @ih
            { dests := d :: ds, dused := dused + n
              moves := p.moves ++ [⟨⟨s.start + soff, n⟩, ⟨d.start + dused, n⟩⟩] }
            (soff + n) (by omega) (by omega)
            (by
              intro d' hd'
              cases hd'
              dsimp only
              omega)
            (by omega)
          refine ⟨p', ⟨⟨s.start + soff, n⟩, ⟨d.start + dused, n⟩⟩ :: ms, hrun, hsane, ?_, ?_, ?_, ?_⟩
          · rw [hmoves, List.append_assoc, List.singleton_append]
          · intro m hm
            rcases List.mem_cons.mp hm with rfl | hm
            · exact ⟨hpos, rfl⟩
            · exact heven m hm
          · rw [List.map_cons, blocksOf_cons, hsrc, drop_blocks, drop_blocks]
            show List.range' (s.start + soff) n ++ _ = _
            rw [← Nat.add_assoc, List.range'_append_1]
            congr 1
            omega
          · rw [List.map_cons, blocksOf_cons, List.append_assoc, ← hdst]
            exact hsplit
    · rw [if_neg hlt]
      refine ⟨p, [], rfl, hs, (List.append_nil _).symm, fun m hm => (by cases hm), ?_, rfl⟩
      rw [List.drop_eq_nil_of_le (by rw [length_blocks]; omega)]
      rfl

/-- **移動元をすべて突き合わせると、行き先は残りの先頭から順に埋まる。** -/
theorem placeSources_spec {ss : List BlockExtent} (hs : p.Sane)
    (hcap : (blocksOf ss).length ≤ p.remaining.length) :
    ∃ p' ms, placeSources ss p = some (.ok p') ∧ p'.moves = p.moves ++ ms ∧ (∀ m ∈ ms, m.Even) ∧
      blocksOf (ms.map GeometryMove.source) = blocksOf ss ∧
      p.remaining = blocksOf (ms.map GeometryMove.destination) ++ p'.remaining := by
  induction ss generalizing p with
  | nil => exact ⟨p, [], rfl, (List.append_nil _).symm, fun m hm => (by cases hm), rfl, rfl⟩
  | cons s ss ih =>
    rw [blocksOf_cons, List.length_append, length_blocks] at hcap
    obtain ⟨p₁, ms₁, hrun, hsane, hmoves, heven, hsrc, hdst⟩ :=
      @placeSource_spec s p 0 s.length (Nat.sub_le _ _) (Nat.zero_le _) hs (by omega)
    rw [List.drop_zero] at hsrc
    have hlen := congrArg List.length hdst
    have hsame : (blocksOf (ms₁.map GeometryMove.destination)).length =
        (blocksOf (ms₁.map GeometryMove.source)).length := by
      rw [length_blocksOf, length_blocksOf, List.map_map, List.map_map]
      refine congrArg _ (List.map_congr_left fun m hm => ?_)
      exact (heven m hm).2
    rw [List.length_append, hsame, hsrc, length_blocks] at hlen
    obtain ⟨p₂, ms₂, hrun₂, hmoves₂, heven₂, hsrc₂, hdst₂⟩ := ih hsane (by omega)
    refine ⟨p₂, ms₁ ++ ms₂, ?_, ?_, ?_, ?_, ?_⟩
    · rw [placeSources, hrun]
      exact hrun₂
    · rw [hmoves₂, hmoves, List.append_assoc]
    · intro m hm
      rcases List.mem_append.mp hm with hm | hm
      · exact heven m hm
      · exact heven₂ m hm
    · rw [List.map_append, blocksOf_append, hsrc, hsrc₂, blocksOf_cons]
    · rw [hdst, hdst₂, List.map_append, blocksOf_append, List.append_assoc]

end Pairing

/-! ## 移動元と行き先の候補 -/

/-- 二つの区間は block を共有しない。 -/
def BlockExtent.Apart (a b : BlockExtent) : Prop := a.endBlock ≤ b.start ∨ b.endBlock ≤ a.start

/-- **使用中と空きの区間による、block の範囲の分割。** -/
structure CountedGraph.Partition (g : CountedGraph) (first : Nat) : Prop where
  positive : ∀ e ∈ g.allocated ++ g.free, 0 < e.length
  allocated : g.allocated.Pairwise fun a b => a.endBlock ≤ b.start
  free : g.free.Pairwise fun a b => a.endBlock ≤ b.start
  covers : ∀ b, InRuns g.allocated b ∨ InRuns g.free b ↔ first ≤ b ∧ b < g.totalBlocks
  disjoint : ∀ b, ¬ (InRuns g.allocated b ∧ InRuns g.free b)

/-- 走査して得た graph は、filesystem の block の分割である。 -/
theorem partition_of_build {host : ScanHost} {requested : Option IoTuning} {d : Disk}
    {g : CountedGraph} (h : buildAllocationGraphWith host requested d = .ok g) :
    ∃ sb, readSuperblock d = .ok sb ∧ g.totalBlocks = sb.blocksCount ∧
      g.Partition sb.firstDataBlock := by
  obtain ⟨sb, s, hsb, -, -, -, hs, rfl⟩ := buildAllocationGraphWith_eq_ok h
  have hlt := (accepted_of_readSuperblock hsb).first_lt
  have hscan := (Scanning.init (bitAt d sb) sb.firstDataBlock).foldl (Nat.le_refl _)
    (sb.blocksCount - sb.firstDataBlock)
  rw [← hs, Nat.add_sub_cancel' hlt.le] at hscan
  have hused : MaximalRuns (bitAt d sb) true sb.firstDataBlock sb.blocksCount
    (flushRun s.graph s.run).allocated := hscan.flush true
  have hfree : MaximalRuns (bitAt d sb) false sb.firstDataBlock sb.blocksCount
    (flushRun s.graph s.run).free := hscan.flush false
  refine ⟨sb, hsb, rfl, ?_, hused.gaps.imp Nat.le_of_lt, hfree.gaps.imp Nat.le_of_lt, ?_, ?_⟩
  · intro e he
    rcases List.mem_append.mp he with he | he
    · exact hused.positive e he
    · exact hfree.positive e he
  · intro b
    rw [hused.exact b, hfree.exact b]
    cases bitAt d sb b <;> simp
  · rintro b ⟨h1, h2⟩
    have h3 := ((hused.exact b).mp h1).2.2
    rw [((hfree.exact b).mp h2).2.2] at h3
    cases h3

section Candidates

variable {g : CountedGraph} {first target b : Nat}

/-- 後ろの要素が通るなら前の要素も通る列では、`takeWhile` は通る要素をすべて残す。 -/
theorem mem_takeWhile_of_pairwise {α : Type} {p : α → Bool} {l : List α}
    (h : l.Pairwise fun a b => p b = true → p a = true) {a : α} (ha : a ∈ l) (hp : p a = true) :
    a ∈ l.takeWhile p := by
  induction l with
  | nil => cases ha
  | cons x l ih =>
    obtain ⟨hx, hl⟩ := List.pairwise_cons.mp h
    have hpx : p x = true := by
      rcases List.mem_cons.mp ha with rfl | ha
      · exact hp
      · exact hx a ha hp
    rw [List.takeWhile_cons_of_pos hpx]
    rcases List.mem_cons.mp ha with rfl | ha
    · exact List.mem_cons_self
    · exact List.mem_cons_of_mem _ (ih hl ha)

theorem inRuns_geometrySources :
    InRuns (geometrySources g.toAllocationGraph target) b ↔ target ≤ b ∧ InRuns g.allocated b := by
  unfold InRuns geometrySources BlockExtent.endBlock
  simp only [List.mem_map, List.mem_filter, decide_eq_true_eq]
  constructor
  · rintro ⟨_, ⟨e, ⟨he, hend⟩, rfl⟩, h1, h2⟩
    dsimp only at h1 h2
    exact ⟨by omega, e, he, by omega, by omega⟩
  · rintro ⟨ht, e, he, h1, h2⟩
    exact ⟨_, ⟨e, ⟨he, by omega⟩, rfl⟩, by dsimp only; omega, by dsimp only; omega⟩

theorem inRuns_geometryDests (hg : g.Partition first) :
    InRuns (geometryDests g.toAllocationGraph target) b ↔ b < target ∧ InRuns g.free b := by
  unfold InRuns geometryDests
  simp only [List.mem_filterMap]
  constructor
  · rintro ⟨_, ⟨e, he, hsome⟩, h1, h2⟩
    split at hsome
    · cases hsome
      unfold BlockExtent.endBlock at h2 ⊢
      dsimp only at h1 h2
      exact ⟨by omega, e, List.takeWhile_subset _ he, h1, by omega⟩
    · cases hsome
  · rintro ⟨ht, e, he, h1, h2⟩
    have hmem : e ∈ g.free.takeWhile fun e => ¬ e.start ≥ target := by
      refine mem_takeWhile_of_pairwise (hg.free.imp ?_) he (by simpa using by omega)
      intro a c hac hc
      have hc' : c.start < target := by simpa using hc
      have : a.start ≤ a.endBlock := Nat.le_add_right _ _
      simpa using by omega
    refine ⟨⟨e.start, min e.endBlock target - e.start⟩, ⟨e, hmem, if_pos (by omega)⟩, h1, ?_⟩
    show b < e.start + (min e.endBlock target - e.start)
    omega

theorem pairwise_geometrySources (hg : g.Partition first) :
    (geometrySources g.toAllocationGraph target).Pairwise BlockExtent.Apart := by
  unfold geometrySources
  refine List.pairwise_map.mpr ((hg.allocated.filter _).imp_of_mem ?_)
  intro a c ha hc hac
  have ha' := (List.mem_filter.mp ha).2
  rw [decide_eq_true_eq] at ha'
  refine Or.inl ?_
  show max a.start target + (a.endBlock - max a.start target) ≤ max c.start target
  have : a.start ≤ a.endBlock := Nat.le_add_right _ _
  omega

theorem pairwise_geometryDests (hg : g.Partition first) :
    (geometryDests g.toAllocationGraph target).Pairwise BlockExtent.Apart := by
  unfold geometryDests
  rw [List.pairwise_filterMap]
  refine (hg.free.sublist (List.takeWhile_sublist _)).imp ?_
  intro a c hac x hx y hy
  split at hx
  · split at hy
    · cases hx
      cases hy
      refine Or.inl ?_
      show a.start + (min a.endBlock target - a.start) ≤ c.start
      omega
    · cases hy
  · cases hx

end Candidates

/-! ## 容量と移動 -/

instance (es : List BlockExtent) (b : Nat) : Decidable (InRuns es b) :=
  inferInstanceAs (Decidable (∃ e ∈ es, e.start ≤ b ∧ b < e.endBlock))

/-- target 以上の使用中の block。 -/
def allocatedAbove (g : CountedGraph) (target : Nat) : Finset Nat :=
  (Finset.range g.totalBlocks).filter fun b => target ≤ b ∧ InRuns g.allocated b

/-- target より下の空きの block。 -/
def freeBelow (g : CountedGraph) (target : Nat) : Finset Nat :=
  (Finset.range g.totalBlocks).filter fun b => b < target ∧ InRuns g.free b

section Exact

variable {g : CountedGraph} {first target : Nat} {srt : StdSort} {es : List BlockExtent}

/-- 重ならない区間の長さの和は、block の数である。 -/
theorem sum_length_eq_card {A : Finset Nat} (hpw : es.Pairwise BlockExtent.Apart)
    (hmem : ∀ b, InRuns es b ↔ b ∈ A) : (es.map BlockExtent.length).sum = A.card := by
  rw [← length_blocksOf, ← List.toFinset_card_of_nodup (nodup_blocksOf hpw)]
  refine congrArg _ (Finset.ext fun b => ?_)
  rw [List.mem_toFinset, mem_blocksOf, hmem]

theorem inRuns_perm {es' : List BlockExtent} (h : es.Perm es') (b : Nat) :
    InRuns es b ↔ InRuns es' b := by
  unfold InRuns
  simp only [h.mem_iff]

theorem apart_symm : ∀ a b : BlockExtent, a.Apart b → b.Apart a := fun _ _ h => h.symm

/-- target が filesystem の中にあれば、必ず止まって正確な結果を返す。容量が足りなければ移動はない。 -/
theorem buildRelocationGeometry_inside (srt : StdSort) (hg : g.Partition first) (ht : 0 < target)
    (htotal : target < g.totalBlocks) : ∃ r, buildRelocationGeometry srt g target = some (.ok r) ∧
      (r.capacityOk = true ↔ (allocatedAbove g target).card ≤ (freeBelow g target).card) ∧
      (r.capacityOk = true →
        (∀ m ∈ r.moves, 0 < m.source.length ∧ m.destination.length = m.source.length) ∧
        (r.moves.map GeometryMove.source).Pairwise BlockExtent.Apart ∧
        (∀ b, InRuns (r.moves.map GeometryMove.source) b ↔ target ≤ b ∧ InRuns g.allocated b) ∧
        (r.moves.map GeometryMove.destination).Pairwise BlockExtent.Apart ∧
        ∀ b, InRuns (r.moves.map GeometryMove.destination) b → b < target ∧ InRuns g.free b) ∧
      (r.capacityOk = false → r.moves = []) ∧
      r.largestSourceExtent =
        ((srt.sort (fun a b : BlockExtent => decide (a.length > b.length))
          (geometrySources g.toAllocationGraph target)).map BlockExtent.length).foldl max 0 := by
  have hsrcperm := srt.perm (fun a b : BlockExtent => decide (a.length > b.length))
    (geometrySources g.toAllocationGraph target)
  have hdstperm := srt.perm (fun a b : BlockExtent => decide (a.length > b.length))
    (geometryDests g.toAllocationGraph target)
  generalize hsrc : srt.sort (fun a b : BlockExtent => decide (a.length > b.length))
    (geometrySources g.toAllocationGraph target) = sources at hsrcperm ⊢
  generalize hdst : srt.sort (fun a b : BlockExtent => decide (a.length > b.length))
    (geometryDests g.toAllocationGraph target) = dests at hdstperm
  have hsrcpw : sources.Pairwise BlockExtent.Apart :=
    (hsrcperm.pairwise_iff (apart_symm _ _)).mpr (pairwise_geometrySources hg)
  have hdstpw : dests.Pairwise BlockExtent.Apart :=
    (hdstperm.pairwise_iff (apart_symm _ _)).mpr (pairwise_geometryDests hg)
  have hsrcmem : ∀ b, InRuns sources b ↔ target ≤ b ∧ InRuns g.allocated b :=
    fun b => (inRuns_perm hsrcperm b).trans inRuns_geometrySources
  have hdstmem : ∀ b, InRuns dests b ↔ b < target ∧ InRuns g.free b :=
    fun b => (inRuns_perm hdstperm b).trans (inRuns_geometryDests hg)
  have hsrccard : (sources.map BlockExtent.length).sum = (allocatedAbove g target).card := by
    refine sum_length_eq_card hsrcpw fun b => ?_
    rw [hsrcmem, allocatedAbove, Finset.mem_filter, Finset.mem_range]
    exact ⟨fun h => ⟨((hg.covers b).mp (.inl h.2)).2, h⟩, fun h => h.2⟩
  have hdstcard : (dests.map BlockExtent.length).sum = (freeBelow g target).card := by
    refine sum_length_eq_card hdstpw fun b => ?_
    rw [hdstmem, freeBelow, Finset.mem_filter, Finset.mem_range]
    exact ⟨fun h => ⟨((hg.covers b).mp (.inr h.2)).2, h⟩, fun h => h.2⟩
  unfold buildRelocationGeometry
  rw [if_neg (by omega)]
  dsimp only
  rw [hsrc, hdst, hsrccard, hdstcard]
  by_cases hcap : (allocatedAbove g target).card ≤ (freeBelow g target).card
  · have hlen : (blocksOf sources).length ≤ ({ dests } : Pairing).remaining.length := by
      rw [Pairing.remaining, List.drop_zero, length_blocksOf, length_blocksOf, hsrccard, hdstcard]
      exact hcap
    obtain ⟨p, ms, hrun, hmoves, heven, hsrcs, hdsts⟩ :=
      placeSources_spec (fun d _ => Nat.zero_le _) hlen
    rw [List.nil_append] at hmoves
    rw [Pairing.remaining, List.drop_zero] at hdsts
    rw [if_neg (by simpa using hcap), hrun]
    refine ⟨_, rfl, by simp, fun _ => ?_, fun h => absurd hcap (by simpa using h), rfl⟩
    dsimp only
    rw [hmoves]
    have hsrcpos : ∀ e ∈ ms.map GeometryMove.source, 0 < e.length := by
      intro e he
      obtain ⟨m, hm, rfl⟩ := List.mem_map.mp he
      exact (heven m hm).1
    have hdstpos : ∀ e ∈ ms.map GeometryMove.destination, 0 < e.length := by
      intro e he
      obtain ⟨m, hm, rfl⟩ := List.mem_map.mp he
      rw [(heven m hm).2]
      exact (heven m hm).1
    have hdstnodup := nodup_blocksOf hdstpw
    rw [hdsts] at hdstnodup
    refine ⟨heven, ?_, ?_, ?_, ?_⟩
    · refine pairwise_of_nodup_blocksOf ?_ hsrcpos
      rw [hsrcs]
      exact nodup_blocksOf hsrcpw
    · intro b
      rw [← hsrcmem, ← mem_blocksOf, ← mem_blocksOf, hsrcs]
    · exact pairwise_of_nodup_blocksOf (List.nodup_append.mp hdstnodup).1 hdstpos
    · intro b hb
      rw [← hdstmem, ← mem_blocksOf, hdsts]
      exact List.mem_append_left _ (mem_blocksOf.mpr hb)
  · rw [if_pos (by simpa using hcap)]
    refine ⟨_, rfl, by simp, fun h => ?_, fun _ => rfl, rfl⟩
    exact absurd (by simpa using h) hcap

/--
**移動の幾何は正確である。**

target が filesystem の中にあれば、必ず止まって結果を返す。容量が足りるとするのは、target より下の
空きが target 以上の使用中より少なくないときである。そのとき、移動元は target 以上の使用中の block を
ちょうど分割し、行き先は target より下の空きの、互いに重ならない block で、どの移動の二つの長さも
等しく、0 ではない。
-/
theorem buildRelocationGeometry_exact (srt : StdSort) (hg : g.Partition first) (target : Nat) :
    (target = 0 ∨ g.totalBlocks ≤ target → buildRelocationGeometry srt g target =
      some (.error { code := .invalidArgument
                     message := "relocation target must be inside filesystem" })) ∧
    (0 < target ∧ target < g.totalBlocks → ∃ r, buildRelocationGeometry srt g target = some (.ok r) ∧
      (r.capacityOk = true ↔ (allocatedAbove g target).card ≤ (freeBelow g target).card) ∧
      (r.capacityOk = true →
        (∀ m ∈ r.moves, 0 < m.source.length ∧ m.destination.length = m.source.length) ∧
        (r.moves.map GeometryMove.source).Pairwise BlockExtent.Apart ∧
        (∀ b, InRuns (r.moves.map GeometryMove.source) b ↔ target ≤ b ∧ InRuns g.allocated b) ∧
        (r.moves.map GeometryMove.destination).Pairwise BlockExtent.Apart ∧
        ∀ b, InRuns (r.moves.map GeometryMove.destination) b → b < target ∧ InRuns g.free b)) := by
  constructor
  · intro ht
    unfold buildRelocationGeometry
    rw [if_pos ht]
  · rintro ⟨ht, htotal⟩
    obtain ⟨r, hr, hcap, hmoves, -, -⟩ := buildRelocationGeometry_inside srt hg ht htotal
    exact ⟨r, hr, hcap, hmoves⟩

/-- 16 block の graph。 -/
def Tiny.graph : CountedGraph where
  allocated := [⟨0, 3⟩, ⟨10, 4⟩]
  free := [⟨3, 7⟩, ⟨14, 2⟩]
  blockSize := 1024
  totalBlocks := 16
  allocatedBlocks := 7
  freeBlocks := 9

theorem Tiny.partition_graph : Tiny.graph.Partition 0 where
  positive := by decide
  allocated := by decide
  free := by decide
  covers := fun b => by
    simp only [InRuns, Tiny.graph, BlockExtent.endBlock, List.mem_cons, List.not_mem_nil, or_false,
      exists_eq_or_imp, exists_eq_left]
    omega
  disjoint := fun b => by
    simp only [InRuns, Tiny.graph, BlockExtent.endBlock, List.mem_cons, List.not_mem_nil, or_false,
      exists_eq_or_imp, exists_eq_left]
    omega

theorem buildRelocationGeometry_exact_tiny :
    ∃ r, buildRelocationGeometry StdSort.ofStable Tiny.graph 8 = some (.ok r) ∧
      (r.capacityOk = true ↔ (allocatedAbove Tiny.graph 8).card ≤ (freeBelow Tiny.graph 8).card) := by
  obtain ⟨r, h1, h2, -⟩ :=
    (buildRelocationGeometry_exact StdSort.ofStable Tiny.partition_graph 8).2 (by decide)
  exact ⟨r, h1, h2⟩

end Exact

end Fsx.Ext4
