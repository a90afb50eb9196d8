import Fsx.Core.Bytes

/-!
# 詰めて並べた bit 幅の値

byte 列を little endian の一つの数とみなすと、幅 `w` の値を詰めて並べた表の `i` 番は、
その数の `w * i` bit 目からの `w` bit である（`packed`）。幅が 8 の倍数でなくてもよい。

byte を一つずつ読んで shift と or で組み立てた値は、この数の切り出しに等しい。
-/

namespace Fsx

/-- 幅 `w` の値を詰めて並べた表の `i` 番。 -/
def packed (w : Nat) (b : Bytes) (i : Nat) : Nat := leNat b >>> (w * i) % 2 ^ w

theorem leNat_drop : ∀ (b : Bytes) (k : Nat), leNat (b.drop k) = leNat b / 256 ^ k
  | b, 0 => by rw [List.drop_zero, Nat.pow_zero, Nat.div_one]
  | [], k + 1 => by rw [List.drop_nil, leNat, Nat.zero_div]
  | x :: xs, k + 1 => by
    have hx : x.toNat < 256 := x.toNat_lt
    rw [List.drop_succ_cons, leNat_drop xs k, leNat, Nat.pow_succ', ← Nat.div_div_eq_div_mul,
      Nat.add_mul_div_left _ _ (by omega), Nat.div_eq_of_lt hx, Nat.zero_add]

theorem leNat_take : ∀ (b : Bytes) (n : Nat), leNat (b.take n) = leNat b % 256 ^ n
  | b, 0 => by rw [List.take_zero, Nat.pow_zero, Nat.mod_one, leNat]
  | [], n + 1 => by rw [List.take_nil, leNat, Nat.zero_mod]
  | x :: xs, n + 1 => by
    have hx : x.toNat < 256 := x.toNat_lt
    rw [List.take_succ_cons, leNat, leNat, leNat_take xs n, Nat.pow_succ', Nat.mod_mul,
      Nat.add_mul_mod_self_left, Nat.mod_eq_of_lt hx, Nat.add_mul_div_left _ _ (by omega),
      Nat.div_eq_of_lt hx, Nat.zero_add]

/-- 切り出して読んだ値は、列の全体を読んだ数の切り出しである。 -/
theorem readLe_eq_bits (n : Nat) (b : Bytes) (off : Nat) :
    readLe n b off = leNat b / 256 ^ off % 256 ^ n := by
  unfold readLe slice
  rw [leNat_take, leNat_drop]

theorem toNat_getD (b : Bytes) (i : Nat) : (b.getD i 0).toNat = leNat b / 256 ^ i % 256 := by
  have h := readLe_eq_bits 1 b i
  rw [Nat.pow_one] at h
  rw [← h]
  unfold readLe slice
  cases hd : b.drop i with
  | nil =>
    have hlen : b.length ≤ i := List.drop_eq_nil_iff.mp hd
    rw [List.getD_eq_getElem?_getD, List.getElem?_eq_none hlen]
    rfl
  | cons x xs =>
    have hx : b[i]? = some x := by
      rw [← Nat.add_zero i, ← List.getElem?_drop, hd]
      rfl
    rw [List.getD_eq_getElem?_getD, hx]
    simp [leNat]

/-- 重ならない bit の or は和である。 -/
theorem lor_shiftLeft {a k : Nat} (h : a < 2 ^ k) (b : Nat) : a ||| (b <<< k) = a + b * 2 ^ k := by
  rw [Nat.or_comm, ← Nat.shiftLeft_add_eq_or_of_lt h, Nat.shiftLeft_eq, Nat.add_comm]

/-! ## byte の組み立て -/

/-- 続いた byte の番号。 -/
theorem div_pow_add (x i k : Nat) : x / 256 ^ (i + k) = x / 256 ^ i / 256 ^ k := by
  rw [Nat.pow_add, Nat.div_div_eq_div_mul]

/-- 二つの byte を組み立てる。 -/
theorem assemble_two (x i : Nat) :
    x / 256 ^ i % 256 ||| ((x / 256 ^ (i + 1) % 256) <<< 8) = x / 256 ^ i % 2 ^ 16 := by
  have hlow : x / 256 ^ i % 256 < 2 ^ 8 := Nat.mod_lt _ (by omega)
  rw [lor_shiftLeft hlow, div_pow_add]
  omega

/-- 四つの byte を組み立てる。 -/
theorem assemble_four (x i : Nat) :
    x / 256 ^ i % 256 ||| ((x / 256 ^ (i + 1) % 256) <<< 8) |||
      ((x / 256 ^ (i + 2) % 256) <<< 16) ||| ((x / 256 ^ (i + 3) % 256) <<< 24) =
      x / 256 ^ i % 2 ^ 32 := by
  have hlow : x / 256 ^ i % 2 ^ 16 < 2 ^ 16 := Nat.mod_lt _ (by omega)
  rw [assemble_two, div_pow_add x i 2, div_pow_add x i 3, lor_shiftLeft hlow]
  have hmid : x / 256 ^ i % 2 ^ 16 + x / 256 ^ i / 256 ^ 2 % 256 * 2 ^ 16 < 2 ^ 24 := by omega
  rw [lor_shiftLeft hmid]
  omega

end Fsx
