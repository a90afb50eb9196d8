import Mathlib.Algebra.Order.BigOperators.Group.Finset
import Mathlib.Order.Interval.Finset.Nat

/-!
# 数え上げ

述語の真偽の個数と、大きさをそろえて区切った区間の長さの和。対象によらない一般の事実だけを置く。
-/

namespace Fsx

open Finset

/-- 真の個数と偽の個数を合わせると全体になる。 -/
theorem countP_range_add_not (p : Nat → Bool) (n : Nat) :
    (List.range n).countP p + (List.range n).countP (fun i => !p i) = n := by
  have h := List.length_eq_countP_add_countP p (l := List.range n)
  rw [List.length_range] at h
  have hnot : (List.range n).countP (fun i => !p i) =
      (List.range n).countP fun i => decide ¬ p i = true :=
    List.countP_congr fun i _ => by simp
  rw [hnot]
  exact h.symm

theorem countP_range_mono (p : Nat → Bool) {m n : Nat} (h : m ≤ n) :
    (List.range m).countP p ≤ (List.range n).countP p :=
  (List.range_sublist.mpr h).countP_le

/-- 長さ `N` を `k` ずつに区切ると、はじめの `n` 区間の長さの和は `N` か `n * k` の小さいほうである。 -/
theorem sum_min_tile (k N : Nat) : ∀ n, ∑ g ∈ range n, min k (N - g * k) = min N (n * k)
  | 0 => by simp
  | n + 1 => by
    rw [sum_range_succ, sum_min_tile k N n, Nat.succ_mul]
    omega

theorem sum_min_tile_of_le {k N n : Nat} (h : N ≤ n * k) :
    ∑ g ∈ range n, min k (N - g * k) = N := by
  rw [sum_min_tile, Nat.min_eq_left h]

/-- `[0, N)` の中の、互いに重ならない長さ `L` の区間が `n` 個あれば、`n * L ≤ N` である。 -/
theorem mul_le_of_disjoint_intervals {n L N : Nat} {start : Nat → Nat}
    (hin : ∀ i < n, start i + L ≤ N)
    (hap : ∀ i < n, ∀ j < n, i ≠ j → start i + L ≤ start j ∨ start j + L ≤ start i) :
    n * L ≤ N := by
  have hdis : (range n : Set Nat).PairwiseDisjoint fun i => Ico (start i) (start i + L) := by
    intro i hi j hj hne
    rw [Function.onFun, Finset.disjoint_left]
    intro x hx hy
    rw [mem_Ico] at hx hy
    rcases hap i (by simpa using hi) j (by simpa using hj) hne with h | h <;> omega
  have hsub : (range n).biUnion (fun i => Ico (start i) (start i + L)) ⊆ range N := by
    intro x hx
    obtain ⟨i, hi, hx⟩ := mem_biUnion.mp hx
    rw [mem_Ico] at hx
    have := hin i (mem_range.mp hi)
    exact mem_range.mpr (by omega)
  have hcard := card_le_card hsub
  rw [card_biUnion hdis, card_range] at hcard
  simpa using hcard

end Fsx
