import Mathlib.Data.List.Basic

/-!
# 塊ごとの走査

列を先頭から `n` 個ずつ取り出して進む loop。残りが `least` 個以上ある間だけ続ける。
`n ≤ least` なら、回る回数と残りの位置は長さだけで決まり、loop は番号の付いた塊の畳み込みになる
（`consume_eq`）。
-/

namespace Fsx.Blocks

variable {α σ : Type}

/-- `i` 番の塊。 -/
def block (n : Nat) (xs : List α) (i : Nat) : List α := (xs.drop (i * n)).take n

/-- はじめの `k` 個の塊を順に渡す。 -/
def fold (n : Nat) (step : σ → List α → σ) (k : Nat) (s : σ) (xs : List α) : σ :=
  (List.range k).foldl (fun s i => step s (block n xs i)) s

/-- loop の本体。一回ごとに列は短くなるので、`fuel` は列の長さだけあればよい。 -/
def consumeFrom (n least : Nat) (step : σ → List α → σ) : Nat → σ → List α → σ × List α
  | 0, s, xs => (s, xs)
  | fuel + 1, s, xs =>
    if least ≤ xs.length then consumeFrom n least step fuel (step s (xs.take n)) (xs.drop n)
    else (s, xs)

/-- 残りが `least` 個以上ある間、先頭の `n` 個を `step` に渡して進む。残りも返す。 -/
def consume (n least : Nat) (step : σ → List α → σ) (s : σ) (xs : List α) : σ × List α :=
  consumeFrom n least step xs.length s xs

/-- loop の回る回数。 -/
def turns (n least len : Nat) : Nat := (len + n - least) / n

/-! ## 塊 -/

variable {n k : Nat} {step : σ → List α → σ} {s : σ} {xs ys : List α}

theorem block_zero (n : Nat) (xs : List α) : block n xs 0 = xs.take n := by
  rw [block, Nat.zero_mul, List.drop_zero]

theorem block_succ (n : Nat) (xs : List α) (i : Nat) :
    block n xs (i + 1) = block n (xs.drop n) i := by
  rw [block, block, List.drop_drop, Nat.succ_mul, Nat.add_comm]

theorem length_block {i : Nat} (h : (i + 1) * n ≤ xs.length) : (block n xs i).length = n := by
  rw [Nat.succ_mul] at h
  rw [block, List.length_take, List.length_drop]
  omega

theorem block_append_left {i : Nat} (h : (i + 1) * n ≤ xs.length) :
    block n (xs ++ ys) i = block n xs i := by
  rw [Nat.succ_mul] at h
  rw [block, block, List.drop_append_of_le_length (by omega), List.take_append_of_le_length]
  rw [List.length_drop]
  omega

/-- 塊の境目で切った列の続き。 -/
theorem block_add (n : Nat) (xs : List α) (k i : Nat) :
    block n xs (k + i) = block n (xs.drop (k * n)) i := by
  rw [block, block, List.drop_drop, Nat.add_mul]

/-! ## 畳み込み -/

theorem fold_zero (n : Nat) (step : σ → List α → σ) (s : σ) (xs : List α) :
    fold n step 0 s xs = s := rfl

theorem fold_succ (n : Nat) (step : σ → List α → σ) (k : Nat) (s : σ) (xs : List α) :
    fold n step (k + 1) s xs = step (fold n step k s xs) (block n xs k) := by
  rw [fold, List.range_succ, List.foldl_append]
  rfl

theorem fold_cons (n : Nat) (step : σ → List α → σ) (k : Nat) (s : σ) (xs : List α) :
    fold n step (k + 1) s xs = fold n step k (step s (xs.take n)) (xs.drop n) := by
  induction k with
  | zero => rw [fold_succ, fold_zero, fold_zero, block_zero]
  | succ k ih => rw [fold_succ, ih, fold_succ n step k, block_succ]

/-- 渡す塊が同じなら、結果も同じである。 -/
theorem fold_congr (h : ∀ i < k, block n xs i = block n ys i) :
    fold n step k s xs = fold n step k s ys := by
  induction k with
  | zero => rfl
  | succ k ih =>
    rw [fold_succ, fold_succ, ih fun i hi => h i (Nat.lt_succ_of_lt hi), h k (Nat.lt_succ_self k)]

/-- 番号の順の畳み込みを、状態の写像で移す。 -/
theorem foldl_range_hom {τ : Type} {g : σ → Nat → σ} {g' : τ → Nat → τ} (f : σ → τ)
    (h : ∀ s, ∀ i < k, f (g s i) = g' (f s) i) :
    f ((List.range k).foldl g s) = (List.range k).foldl g' (f s) := by
  induction k with
  | zero => rfl
  | succ k ih =>
    rw [List.range_succ, List.foldl_append, List.foldl_append, List.foldl_cons, List.foldl_nil,
      List.foldl_cons, List.foldl_nil, h _ k (Nat.lt_succ_self k),
      ih fun s i hi => h s i (Nat.lt_succ_of_lt hi)]

/-- 二つの状態を対応させる写像は、畳み込みを対応させる。 -/
theorem fold_hom {τ : Type} {step' : τ → List α → τ} (f : σ → τ)
    (h : ∀ s, ∀ i < k, f (step s (block n xs i)) = step' (f s) (block n xs i)) :
    f (fold n step k s xs) = fold n step' k (f s) xs :=
  foldl_range_hom f h

/-- 途中で区切った畳み込み。 -/
theorem fold_add (n : Nat) (step : σ → List α → σ) (k j : Nat) (s : σ) (xs : List α) :
    fold n step (k + j) s xs = fold n step j (fold n step k s xs) (xs.drop (k * n)) := by
  induction j with
  | zero => rfl
  | succ j ih => rw [← Nat.add_assoc, fold_succ, ih, fold_succ n step j, block_add]

theorem fold_append_left (h : k * n ≤ xs.length) :
    fold n step k s (xs ++ ys) = fold n step k s xs :=
  fold_congr fun _ hi => block_append_left (Nat.le_trans (Nat.mul_le_mul_right n hi) h)

/-! ## loop -/

theorem turns_of_lt {least len : Nat} (hn : 0 < n) (h : len < least) : turns n least len = 0 :=
  Nat.div_eq_of_lt (by omega)

theorem turns_of_le {least len : Nat} (hn : 0 < n) (hle : n ≤ least) (h : least ≤ len) :
    turns n least len = turns n least (len - n) + 1 := by
  unfold turns
  rw [Nat.sub_add_cancel (Nat.le_trans hle h), ← Nat.add_div_right _ hn]
  congr 1
  omega

/-- 一回ごとに条件を見る loop では、読み切る長さが番号の付いた塊の列になる。 -/
theorem consumeFrom_eq {least : Nat} (hn : 0 < n) (hle : n ≤ least) {fuel : Nat}
    (hfuel : xs.length ≤ fuel) :
    consumeFrom n least step fuel s xs =
      (fold n step (turns n least xs.length) s xs, xs.drop (turns n least xs.length * n)) := by
  induction fuel generalizing s xs with
  | zero => rw [consumeFrom, turns_of_lt hn (by omega), fold_zero, Nat.zero_mul, List.drop_zero]
  | succ fuel ih =>
    rw [consumeFrom]
    split
    · next h =>
      rw [ih (by rw [List.length_drop]; omega), List.length_drop, turns_of_le hn hle h, fold_cons,
        List.drop_drop, Nat.succ_mul, Nat.add_comm n]
    · next h =>
      rw [turns_of_lt hn (by omega), fold_zero, Nat.zero_mul, List.drop_zero]

/-- **loop は、回る回数だけの塊の畳み込みであり、その続きを残す。** -/
theorem consume_eq {least : Nat} (hn : 0 < n) (hle : n ≤ least) :
    consume n least step s xs =
      (fold n step (turns n least xs.length) s xs, xs.drop (turns n least xs.length * n)) :=
  consumeFrom_eq hn hle (Nat.le_refl _)

/-- 条件が塊の長さと同じなら、回る回数は商である。 -/
theorem turns_self (n len : Nat) : turns n n len = len / n := by
  rw [turns, Nat.add_sub_cancel]

end Fsx.Blocks
