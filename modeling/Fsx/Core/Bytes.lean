import Mathlib.Data.List.Basic
import Mathlib.Tactic.Linarith

/-!
# バイト列と little endian

`include/fsx/endian.hpp` の `read_le` / `write_le16` / `write_le32` / `write_le64` と、
`std::span` の切り出しに当たるもの。固定長の buffer は `List UInt8` で表す。

`patch` は長さを変えない上書きである。はみ出す分は捨てるので、長さの補題に条件が要らない。
encode は `patch` の列、decode は `slice` の列なので、codec の往復は
`slice_patch_self` と `slice_patch_of_disjoint` の二つに帰着する。
-/

namespace Fsx

abbrev Bytes := List UInt8

/-- 零で埋めた `n` byte の buffer。 -/
def zeros (n : Nat) : Bytes := List.replicate n 0

@[simp] theorem length_zeros (n : Nat) : (zeros n).length = n := List.length_replicate

/-! ## 切り出しと上書き -/

/-- `off` から `n` byte を切り出す。 -/
def slice (b : Bytes) (off n : Nat) : Bytes := (b.drop off).take n

/-- `off` から `xs` で上書きする。長さは変わらない。 -/
def patch (b : Bytes) (off : Nat) (xs : Bytes) : Bytes :=
  b.take off ++ xs.take (b.length - off) ++ b.drop (off + xs.length)

@[simp] theorem length_patch (b : Bytes) (off : Nat) (xs : Bytes) :
    (patch b off xs).length = b.length := by
  simp only [patch, List.length_append, List.length_take, List.length_drop]
  omega

theorem length_slice {b : Bytes} {off n : Nat} (h : off + n ≤ b.length) :
    (slice b off n).length = n := by
  simp only [slice, List.length_take, List.length_drop]
  omega

theorem getElem?_slice (b : Bytes) (off n i : Nat) :
    (slice b off n)[i]? = if i < n then b[off + i]? else none := by
  simp only [slice, List.getElem?_take, List.getElem?_drop]

theorem getElem?_patch (b : Bytes) (off : Nat) (xs : Bytes) (i : Nat) :
    (patch b off xs)[i]? =
      if off ≤ i ∧ i < off + xs.length then (if i < b.length then xs[i - off]? else none)
      else b[i]? := by
  unfold patch
  rcases Nat.lt_or_ge i off with hi | hi
  · rw [if_neg (by omega), List.append_assoc]
    rcases Nat.lt_or_ge i b.length with hb | hb
    · rw [List.getElem?_append_left (by simp only [List.length_take]; omega),
        List.getElem?_take, if_pos hi]
    · rw [List.getElem?_eq_none hb, List.getElem?_eq_none]
      simp only [List.length_append, List.length_take, List.length_drop]
      omega
  · rw [List.append_assoc, List.getElem?_append_right (by simp only [List.length_take]; omega)]
    rcases Nat.lt_or_ge i b.length with hb | hb
    · have hlen : (b.take off).length = off := by simp only [List.length_take]; omega
      rw [hlen]
      rcases Nat.lt_or_ge i (off + xs.length) with hx | hx
      · rw [if_pos ⟨hi, hx⟩, if_pos hb,
          List.getElem?_append_left (by simp only [List.length_take]; omega),
          List.getElem?_take, if_pos (by omega)]
      · rw [if_neg (by omega), List.getElem?_append_right (by simp only [List.length_take]; omega),
          List.getElem?_drop]
        congr 1
        simp only [List.length_take]
        omega
    · rw [List.getElem?_eq_none (by
        simp only [List.length_append, List.length_take, List.length_drop]; omega)]
      split
      · rw [if_neg (by omega)]
      · rw [List.getElem?_eq_none hb]

/-- 上書きした範囲を切り出すと、書いたものが出てくる。 -/
theorem slice_patch_self {b : Bytes} {off : Nat} {xs : Bytes} {n : Nat} (hn : xs.length = n)
    (h : off + n ≤ b.length) : slice (patch b off xs) off n = xs := by
  subst hn
  apply List.ext_getElem?
  intro i
  rw [getElem?_slice, getElem?_patch]
  split
  · rw [if_pos (by omega), if_pos (by omega), Nat.add_sub_cancel_left]
  · rw [List.getElem?_eq_none (by omega)]

/-- 上書きと重ならない範囲は変わらない。 -/
theorem slice_patch_of_disjoint {b : Bytes} {off o n : Nat} {xs : Bytes}
    (h : o + n ≤ off ∨ off + xs.length ≤ o) : slice (patch b off xs) o n = slice b o n := by
  apply List.ext_getElem?
  intro i
  rw [getElem?_slice, getElem?_slice]
  split
  · rw [getElem?_patch, if_neg (by omega)]
  · rfl

/-- 上書きより手前の先頭部分は変わらない。 -/
theorem take_patch_of_le {b : Bytes} {off k : Nat} {xs : Bytes} (h : k ≤ off) :
    (patch b off xs).take k = b.take k := by
  have hs : slice (patch b off xs) 0 k = slice b 0 k :=
    slice_patch_of_disjoint (Or.inl (by omega))
  simpa [slice] using hs

/-- 同じ範囲への二度の上書きは、後のものだけが残る。 -/
theorem patch_patch {b : Bytes} {off : Nat} {xs ys : Bytes} (h : xs.length = ys.length) :
    patch (patch b off xs) off ys = patch b off ys := by
  apply List.ext_getElem?
  intro i
  rw [getElem?_patch, getElem?_patch, getElem?_patch, length_patch, h]
  split <;> simp_all

/-- 重ならない上書きは交換できる。 -/
theorem patch_comm {b : Bytes} {o1 o2 : Nat} {xs ys : Bytes}
    (h : o1 + xs.length ≤ o2 ∨ o2 + ys.length ≤ o1) :
    patch (patch b o1 xs) o2 ys = patch (patch b o2 ys) o1 xs := by
  apply List.ext_getElem?
  intro i
  simp only [getElem?_patch, length_patch]
  by_cases h1 : o1 ≤ i ∧ i < o1 + xs.length
  · rw [if_pos h1, if_pos h1, if_neg (by omega)]
  · rw [if_neg h1, if_neg h1]

/-- はみ出さない上書き。 -/
theorem patch_eq_append {b : Bytes} {off : Nat} {xs : Bytes} (h : off + xs.length ≤ b.length) :
    patch b off xs = b.take off ++ xs ++ b.drop (off + xs.length) := by
  rw [patch, List.take_of_length_le (show xs.length ≤ b.length - off by omega)]

/-- もとの内容での上書きは何もしない。 -/
theorem patch_slice {b : Bytes} {off n : Nat} : patch b off (slice b off n) = b := by
  apply List.ext_getElem?
  intro i
  rw [getElem?_patch]
  split
  · next h =>
    rw [getElem?_slice]
    have hl : (slice b off n).length ≤ n := by simp only [slice, List.length_take]; omega
    split
    · rw [if_pos (by omega), Nat.add_sub_cancel' h.1]
    · rw [List.getElem?_eq_none (by omega)]
  · rfl

theorem slice_slice (b : Bytes) (off n o m : Nat) (h : o + m ≤ n) :
    slice (slice b off n) o m = slice b (off + o) m := by
  apply List.ext_getElem?
  intro i
  rw [getElem?_slice, getElem?_slice, getElem?_slice]
  split
  · rw [if_pos (by omega), Nat.add_assoc]
  · rfl

/-- つないだ列の真ん中を切り出す。 -/
theorem slice_append_middle {a b c : Bytes} {k n : Nat} (ha : a.length = k) (hb : b.length = n) :
    slice (a ++ b ++ c) k n = b := by
  subst ha hb
  unfold slice
  rw [List.append_assoc, List.drop_left, List.take_left]

theorem slice_append_left {a b : Bytes} {off n : Nat} (h : off + n ≤ a.length) :
    slice (a ++ b) off n = slice a off n := by
  unfold slice
  rw [List.drop_append_of_le_length (by omega), List.take_append_of_le_length]
  rw [List.length_drop]
  omega

theorem slice_append_right {a b : Bytes} {off n : Nat} (h : a.length ≤ off) :
    slice (a ++ b) off n = slice b (off - a.length) n := by
  unfold slice
  rw [List.drop_append, List.drop_eq_nil_of_le h, List.nil_append]

/-! ## little endian -/

/-- 下位の byte から読んだ値。 -/
def leNat : Bytes → Nat
  | [] => 0
  | x :: xs => x.toNat + 256 * leNat xs

/-- 値の下位 `n` byte。 -/
def leBytes : Nat → Nat → Bytes
  | 0, _ => []
  | n + 1, v => UInt8.ofNat (v % 256) :: leBytes n (v / 256)

@[simp] theorem length_leBytes : ∀ n v, (leBytes n v).length = n
  | 0, _ => rfl
  | n + 1, v => by rw [leBytes, List.length_cons, length_leBytes n]

theorem leNat_lt : ∀ b : Bytes, leNat b < 256 ^ b.length
  | [] => by simp [leNat]
  | x :: xs => by
    have hx : x.toNat < 256 := x.toNat_lt
    have ih := leNat_lt xs
    rw [leNat, List.length_cons, Nat.pow_succ]
    omega

theorem leNat_leBytes : ∀ n v, leNat (leBytes n v) = v % 256 ^ n
  | 0, v => by simp [leBytes, leNat, Nat.mod_one]
  | n + 1, v => by
    rw [leBytes, leNat, leNat_leBytes n, Nat.pow_succ, Nat.mul_comm (256 ^ n), Nat.mod_mul]
    simp

theorem leBytes_leNat : ∀ b : Bytes, leBytes b.length (leNat b) = b
  | [] => rfl
  | x :: xs => by
    have hx : x.toNat < 256 := x.toNat_lt
    rw [List.length_cons, leBytes, leNat, Nat.add_mul_mod_self_left, Nat.mod_eq_of_lt hx,
      Nat.add_mul_div_left _ _ (by omega), Nat.div_eq_of_lt hx, Nat.zero_add, leBytes_leNat xs]
    simp

/-- `read_le`。`n` は byte 数である。 -/
def readLe (n : Nat) (b : Bytes) (off : Nat) : Nat := leNat (slice b off n)

/-- `write_le16` / `write_le32` / `write_le64`。`n` は byte 数である。 -/
def writeLe (n : Nat) (b : Bytes) (off v : Nat) : Bytes := patch b off (leBytes n v)

@[simp] theorem length_writeLe (n : Nat) (b : Bytes) (off v : Nat) :
    (writeLe n b off v).length = b.length := length_patch b off _

theorem readLe_lt (n : Nat) (b : Bytes) (off : Nat) : readLe n b off < 256 ^ n := by
  refine lt_of_lt_of_le (leNat_lt _) (Nat.pow_le_pow_right (by omega) ?_)
  simp only [slice, List.length_take]
  omega

/-- 書いた値は、その幅で切り詰めて読み戻せる。 -/
theorem readLe_writeLe_self {n : Nat} {b : Bytes} {off v : Nat} (h : off + n ≤ b.length) :
    readLe n (writeLe n b off v) off = v % 256 ^ n := by
  unfold readLe writeLe
  rw [slice_patch_self (length_leBytes n v) h, leNat_leBytes]

theorem readLe_writeLe_of_disjoint {n m : Nat} {b : Bytes} {off o v : Nat}
    (h : o + m ≤ off ∨ off + n ≤ o) : readLe m (writeLe n b off v) o = readLe m b o := by
  unfold readLe writeLe
  rw [slice_patch_of_disjoint (by rw [length_leBytes]; exact h)]

theorem readLe_patch_of_disjoint {m : Nat} {b : Bytes} {off o : Nat} {xs : Bytes}
    (h : o + m ≤ off ∨ off + xs.length ≤ o) : readLe m (patch b off xs) o = readLe m b o := by
  unfold readLe
  rw [slice_patch_of_disjoint h]

theorem slice_writeLe_of_disjoint {n m : Nat} {b : Bytes} {off o v : Nat}
    (h : o + m ≤ off ∨ off + n ≤ o) : slice (writeLe n b off v) o m = slice b o m := by
  unfold writeLe
  rw [slice_patch_of_disjoint (by rw [length_leBytes]; exact h)]

/-- 同じ場所への二度の書き込みは、後のものだけが残る。 -/
theorem writeLe_writeLe (n : Nat) (b : Bytes) (off v v' : Nat) :
    writeLe n (writeLe n b off v) off v' = writeLe n b off v' :=
  patch_patch (by rw [length_leBytes, length_leBytes])

theorem writeLe_comm {n m : Nat} {b : Bytes} {off o v v' : Nat} (h : off + n ≤ o ∨ o + m ≤ off) :
    writeLe m (writeLe n b off v) o v' = writeLe n (writeLe m b o v') off v :=
  patch_comm (by rw [length_leBytes, length_leBytes]; exact h)

/-- すでに入っている値を書いても変わらない。 -/
theorem writeLe_eq_self {n : Nat} {b : Bytes} {off v : Nat} (h : off + n ≤ b.length)
    (hv : readLe n b off = v % 256 ^ n) : writeLe n b off v = b := by
  have hlen := length_slice h
  have hsame : leBytes n v = slice b off n := by
    have h1 := leBytes_leNat (leBytes n v)
    have h2 := leBytes_leNat (slice b off n)
    rw [length_leBytes, leNat_leBytes] at h1
    rw [hlen] at h2
    rw [← h1, ← hv]
    exact h2
  unfold writeLe
  rw [hsame]
  exact patch_slice

end Fsx
