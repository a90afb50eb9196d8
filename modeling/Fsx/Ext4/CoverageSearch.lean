import Fsx.Ext4.AllocationRuns

/-!
# 使用中の区間の探索（`src/ext4/relocate.cpp`・`src/ext4/verify.cpp`）

計画は `range_fully_allocated` で、深い検査は `fully_allocated` で、block の範囲がすべて使用中の
区間に入るかを調べる。二つは別々に書かれているが、どちらも `Interval.covers` を計算する。

`end()` の和は 64 bit で桁あふれしうる。区間の終わりが 64 bit に収まるときは、二分探索と
隣り合う区間をつなぐ走査の答えは、範囲の block がすべて区間に入ることに等しい。
-/

namespace Fsx.Ext4

/-- 始まりの順に並び、空でなく、互いに重ならない区間の列。終わりは 64 bit に収まる。 -/
structure SortedRuns (runs : List BlockExtent) : Prop where
  sorted : runs.Pairwise fun a b => a.start ≤ b.start
  nonempty : ∀ e ∈ runs, 0 < e.length
  disjoint : runs.Pairwise fun a b => a.endBlock ≤ b.start ∨ b.endBlock ≤ a.start
  bounded : ∀ e ∈ runs, e.endBlock ≤ u64Max

namespace SortedRuns

variable {runs : List BlockExtent} (h : SortedRuns runs)
include h

theorem end64_eq {e : BlockExtent} (he : e ∈ runs) : e.end64 = e.endBlock := by
  refine u64_of_lt ?_
  have := h.bounded e he
  unfold u64Max at this
  omega

theorem start_lt {e : BlockExtent} (he : e ∈ runs) : e.start < e.end64 := by
  rw [h.end64_eq he]
  have := h.nonempty e he
  unfold BlockExtent.endBlock
  omega

/-- 始まりの順に並ぶので、重ならない二つのうち先に終わるのは前の区間である。 -/
theorem ordered : Interval.Ordered BlockExtent.start BlockExtent.end64 runs := by
  refine List.Pairwise.imp_of_mem ?_ (h.sorted.and h.disjoint)
  rintro a b ha hb ⟨hle, hab⟩
  rw [h.end64_eq ha]
  have hb' := h.start_lt hb
  rw [h.end64_eq hb] at hb'
  omega

/-- **探索の答えは、範囲の block がすべて区間に入ることに等しい。** -/
theorem covers_iff {start stop : Nat} (hlt : start < stop) :
    Interval.covers BlockExtent.start BlockExtent.end64 runs start stop = true ↔
      ∀ b, start ≤ b → b < stop → InRuns runs b := by
  rw [Interval.covers_iff h.ordered (fun e he => h.start_lt he) hlt]
  refine forall_congr' fun b => imp_congr_right fun _ => imp_congr_right fun _ =>
    exists_congr fun e => and_congr_right fun he => ?_
  rw [h.end64_eq he]

/-- `u64Max` は、どの区間にも入らない。 -/
theorem lt_of_inRuns {b : Nat} (hb : InRuns runs b) : b < u64Max := by
  obtain ⟨e, he, -, hlt⟩ := hb
  exact hlt.trans_le (h.bounded e he)

theorem rangeFullyAllocated_iff {start length : Nat} :
    rangeFullyAllocated runs start length = true ↔
      length = 0 ∨ ∀ b, start ≤ b → b < start + length → InRuns runs b := by
  rw [rangeFullyAllocated_eq]
  by_cases h0 : length = 0
  · simp [h0]
  have hlt : start < start + length := by omega
  rw [if_neg h0, or_iff_right h0]
  by_cases hwrap : length > u64Max - start
  · -- 和があふれる範囲は、64 bit の最大の block 番号かその後ろの block を含む。
    rw [if_pos hwrap]
    refine ⟨fun hf => (by cases hf), fun hall => ?_⟩
    have := h.lt_of_inRuns (hall (start + length - 1) (by omega) (by omega))
    omega
  · rw [if_neg hwrap]
    exact h.covers_iff hlt

end SortedRuns

theorem rangeFullyAllocated_eq_false {runs : List BlockExtent} {start length : Nat}
    (hstart : start ≤ u64Max) (hover : u64Max < start + length) :
    rangeFullyAllocated runs start length = false := by
  rw [rangeFullyAllocated_eq, if_neg (by omega), if_pos (by omega)]

/--
**二つの探索は正確で、答えが一致する。**

区間が始まりの順に並び、空でなく、互いに重ならず（隣り合うのはよい）、終わりが 64 bit に
収まるとき、答えが真になるのは、長さが 0 であるか、範囲のどの block もどれかの区間に入るときに限る。
和が 64 bit を超える範囲の答えは偽である。
-/
theorem coverage_searches_exact {runs : List BlockExtent} (h : SortedRuns runs) {start length : Nat}
    (hstart : start ≤ u64Max) :
    Deep.fullyAllocated runs start length = rangeFullyAllocated runs start length ∧
    (rangeFullyAllocated runs start length = true ↔ length = 0 ∨
      ∀ b, start ≤ b → b < start + length → ∃ e ∈ runs, e.start ≤ b ∧ b < e.endBlock) ∧
    (u64Max < start + length → rangeFullyAllocated runs start length = false) :=
  ⟨Deep.fullyAllocated_eq runs start length, h.rangeFullyAllocated_iff,
    fun hover => rangeFullyAllocated_eq_false hstart hover⟩

/-- 隣り合う二つの区間と、64 bit の終わりに接する区間。 -/
def Tiny.runs : List BlockExtent := [⟨1, 4⟩, ⟨5, 3⟩, ⟨u64Max - 2, 2⟩]

theorem Tiny.sortedRuns : SortedRuns Tiny.runs where
  sorted := by decide
  nonempty := by decide
  disjoint := by decide
  bounded := by decide

theorem coverage_searches_exact_tiny :
    Deep.fullyAllocated Tiny.runs 2 6 = rangeFullyAllocated Tiny.runs 2 6 ∧
    (rangeFullyAllocated Tiny.runs 2 6 = true ↔ 6 = 0 ∨
      ∀ b, 2 ≤ b → b < 2 + 6 → ∃ e ∈ Tiny.runs, e.start ≤ b ∧ b < e.endBlock) ∧
    (u64Max < 2 + 6 → rangeFullyAllocated Tiny.runs 2 6 = false) :=
  coverage_searches_exact Tiny.sortedRuns (by decide)

/-! ## 走査した区間 -/

section Built

variable {host : ScanHost} {requested : Option IoTuning} {d : Disk} {r : CountedGraph}

/-- `build_allocation_graph` の使用中の区間は、探索の前提を満たす。 -/
theorem sortedRuns_of_build (h : buildAllocationGraphWith host requested d = .ok r) :
    SortedRuns r.allocated := by
  obtain ⟨sb, hsb, hused, -⟩ := maximalRuns_of_build h
  have hblocks := (accepted_of_readSuperblock hsb).blocks_lt d.size_lt
  refine ⟨?_, hused.positive, hused.gaps.imp fun hab => .inl hab.le, fun e he => ?_⟩
  · refine hused.gaps.imp fun {a b} hab => ?_
    unfold BlockExtent.endBlock at hab
    omega
  · -- 区間の最後の block は filesystem の中にある。
    have hpos := hused.positive e he
    unfold BlockExtent.endBlock
    have hlast := (hused.exact (e.start + e.length - 1)).mp
      ⟨e, he, by omega, by unfold BlockExtent.endBlock; omega⟩
    unfold u64Max
    omega

/-- **走査した区間での答えは、範囲の block がすべて bitmap で使用中であることに等しい。** -/
theorem rangeFullyAllocated_build (h : buildAllocationGraphWith host requested d = .ok r) :
    ∃ sb, readSuperblock d = .ok sb ∧ ∀ start length,
      rangeFullyAllocated r.allocated start length = true ↔ length = 0 ∨
        ∀ b, start ≤ b → b < start + length →
          sb.firstDataBlock ≤ b ∧ b < sb.blocksCount ∧ bitAt d sb b = true := by
  obtain ⟨sb, hsb, hused, -⟩ := maximalRuns_of_build h
  refine ⟨sb, hsb, fun start length => ?_⟩
  rw [(sortedRuns_of_build h).rangeFullyAllocated_iff]
  simp only [hused.exact]

end Built

end Fsx.Ext4
