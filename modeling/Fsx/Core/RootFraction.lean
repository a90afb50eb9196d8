import Mathlib.Data.Nat.Nth
import Mathlib.Data.Nat.Prime.Basic

/-!
# 根の小数部による定数

ハッシュ関数の標準は、定数を「素数の平方根や立方根の小数部のはじめの数 bit」として与える。
`rootFraction n w p` がその値で、整数の根 `Nat.findGreatest` から取る。

`i` 番の素数は `Nat.nth Nat.Prime i` である。はじめの素数の列は、割り切る数を探して決める
（`nth_prime_eq`）。
-/

namespace Fsx

/-- `n` 乗が `a` を超えない最大の数。 -/
def rootFloor (n a : Nat) : Nat := Nat.findGreatest (fun x => x ^ n ≤ a) a

theorem rootFloor_eq {n a r : Nat} (hn : n ≠ 0) (hle : r ^ n ≤ a) (hlt : a < (r + 1) ^ n) :
    rootFloor n a = r := by
  have hr : r ≤ a := Nat.le_trans (Nat.le_self_pow hn r) hle
  refine Nat.findGreatest_eq_iff.mpr ⟨hr, fun _ => hle, fun k hk _ hka => ?_⟩
  exact absurd hka (not_le.mpr (Nat.lt_of_lt_of_le hlt (Nat.pow_le_pow_left hk n)))

/-- `p` の `n` 乗根の小数部の、はじめの `w` bit。 -/
def rootFraction (n w p : Nat) : BitVec w := BitVec.ofNat w (rootFloor n (p * 2 ^ (n * w)))

/-- 整数部 `q` と小数部の bit 列 `x` を並べた数が根を挟むなら、`x` が小数部である。 -/
theorem rootFraction_eq {n w p q : Nat} {x : BitVec w} (hn : n ≠ 0)
    (hle : (q * 2 ^ w + x.toNat) ^ n ≤ p * 2 ^ (n * w))
    (hlt : p * 2 ^ (n * w) < (q * 2 ^ w + x.toNat + 1) ^ n) : rootFraction n w p = x := by
  apply BitVec.eq_of_toNat_eq
  rw [rootFraction, rootFloor_eq hn hle hlt, BitVec.toNat_ofNat, Nat.mul_comm q,
    Nat.mul_add_mod_self_left, Nat.mod_eq_of_lt x.isLt]

/-! ## はじめの素数 -/

/-- 性質を満たす数を小さい順に拾った列は、`Nat.nth` の列である。 -/
theorem filter_range_eq_map_nth (p : Nat → Prop) [DecidablePred p] (n : Nat) :
    (List.range n).filter p = (List.range (Nat.count p n)).map (Nat.nth p) := by
  induction n with
  | zero => rw [Nat.count_zero]; rfl
  | succ n ih =>
    rw [List.range_succ, List.filter_append, ih, Nat.count_succ]
    by_cases h : p n
    · rw [if_pos h, List.range_succ, List.map_append, List.map_singleton, Nat.nth_count h,
        List.filter_cons_of_pos (by simpa using h), List.filter_nil]
    · rw [if_neg h, List.filter_cons_of_neg (by simpa using h), List.filter_nil, List.append_nil,
        Nat.add_zero]

/-- はじめの 64 個の素数。 -/
def smallPrimes : List Nat :=
  [2, 3, 5, 7, 11, 13, 17, 19, 23, 29, 31, 37, 41, 43, 47, 53, 59, 61, 67, 71, 73, 79, 83, 89, 97,
   101, 103, 107, 109, 113, 127, 131, 137, 139, 149, 151, 157, 163, 167, 173, 179, 181, 191, 193,
   197, 199, 211, 223, 227, 229, 233, 239, 241, 251, 257, 263, 269, 271, 277, 281, 283, 293, 307,
   311]

/-- 18 の平方より小さい数の素数判定。 -/
def smallPrime (n : Nat) : Bool :=
  decide (2 ≤ n) && (List.range' 2 16).all fun m => decide (n ≤ m) || n % m != 0

theorem smallPrime_iff {n : Nat} (h : n < 18 ^ 2) : smallPrime n = true ↔ n.Prime := by
  simp only [smallPrime, Bool.and_eq_true, decide_eq_true_eq, List.all_eq_true,
    List.mem_range'_1, Bool.or_eq_true, bne_iff_ne, ne_eq, ← Nat.dvd_iff_mod_eq_zero]
  constructor
  · rintro ⟨h2, hall⟩
    refine Nat.prime_def_le_sqrt.mpr ⟨h2, fun m hm hsqrt => ?_⟩
    have hlt : m < 18 := Nat.lt_of_le_of_lt hsqrt (Nat.sqrt_lt'.mpr h)
    have hself := Nat.sqrt_lt_self (show 1 < n by omega)
    exact (hall m ⟨hm, hlt⟩).resolve_left (by omega)
  · intro hp
    refine ⟨hp.two_le, fun m hm => or_iff_not_imp_right.mpr fun hdvd => ?_⟩
    rcases (Nat.dvd_prime hp).mp (not_not.mp hdvd) with h1 | hn
    · omega
    · exact Nat.le_of_eq hn.symm

theorem filter_prime_eq : (List.range 312).filter Nat.Prime = smallPrimes := by
  have hsmall : (List.range 312).filter smallPrime = smallPrimes := by decide +kernel
  rw [← hsmall]
  refine List.filter_congr fun n hn => ?_
  have hlt := List.mem_range.mp hn
  exact Bool.eq_iff_iff.mpr (decide_eq_true_iff.trans (smallPrime_iff (by omega)).symm)

theorem nth_prime_eq {i : Nat} (h : i < 64) : Nat.nth Nat.Prime i = smallPrimes.getD i 0 := by
  have hmap := filter_range_eq_map_nth Nat.Prime 312
  rw [filter_prime_eq] at hmap
  have hcount : Nat.count Nat.Prime 312 = 64 := by
    have := congrArg List.length hmap
    rw [List.length_map, List.length_range] at this
    exact this.symm
  rw [hmap, hcount, List.getD_eq_getElem?_getD, List.getElem?_map,
    List.getElem?_range h]
  rfl

end Fsx
