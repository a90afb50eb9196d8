import Fsx.Hash.WordOps
import Fsx.Hash.Xxh64
import Mathlib.Data.Fintype.Basic
import Mathlib.Tactic.FinCases

/-!
# `xxhash64` は XXH64 である

実装は残りを削りながら進む。仕様の番地は先頭から数えるので、loop の回数から位置を出して合わせる。
-/

namespace Fsx

/-! ## 語の計算 -/

@[simp] theorem toBitVec_xxhPrime1 : xxhPrime1.toBitVec = Xxh64.prime1 := rfl
@[simp] theorem toBitVec_xxhPrime2 : xxhPrime2.toBitVec = Xxh64.prime2 := rfl
@[simp] theorem toBitVec_xxhPrime3 : xxhPrime3.toBitVec = Xxh64.prime3 := rfl
@[simp] theorem toBitVec_xxhPrime4 : xxhPrime4.toBitVec = Xxh64.prime4 := rfl
@[simp] theorem toBitVec_xxhPrime5 : xxhPrime5.toBitVec = Xxh64.prime5 := rfl

/-- 一回の混ぜ合わせは仕様の round である。 -/
@[simp] theorem toBitVec_xxhRound (acc input : UInt64) :
    (xxhRound acc input).toBitVec = Xxh64.round acc.toBitVec input.toBitVec := by
  simp [xxhRound, Xxh64.round, toBitVec_rotl64]

@[simp] theorem toBitVec_xxhMerge (acc val : UInt64) :
    (xxhMerge acc val).toBitVec = Xxh64.mergeAccumulator acc.toBitVec val.toBitVec := by
  simp [xxhMerge, Xxh64.mergeAccumulator]

/-- 仕上げの混ぜ合わせは仕様の avalanche である。 -/
theorem toBitVec_xxhAvalanche (h : UInt64) :
    (xxhAvalanche h).toBitVec = Xxh64.avalanche h.toBitVec := by
  simp [xxhAvalanche, Xxh64.avalanche]

/-! ## 読む位置 -/

/-- 先頭を落とした列の語は、もとの列の後ろの語である。 -/
theorem lane_drop (n : Nat) (m : Bytes) (base off : Nat) :
    Xxh64.lane n (m.drop base) off = Xxh64.lane n m (base + off) := by
  rw [Xxh64.lane, Xxh64.lane, readLe, readLe, slice, slice, List.drop_drop]

/-- 塊の中の語。 -/
theorem lane_block {n k : Nat} {m : Bytes} {i off : Nat} (h : off + k ≤ n) :
    Xxh64.lane k (Blocks.block n m i) off = Xxh64.lane k m (i * n + off) := by
  rw [Xxh64.lane, Xxh64.lane, readLe, readLe]
  exact congrArg (fun b => BitVec.ofNat 64 (leNat b)) (slice_slice m (i * n) n off k h)

theorem toNat_lane {n : Nat} (hn : n ≤ 8) (m : Bytes) (off : Nat) :
    (Xxh64.lane n m off).toNat = readLe n m off := by
  have hlt : readLe n m off < 2 ^ 64 :=
    Nat.lt_of_lt_of_le (readLe_lt n m off) (Nat.pow_le_pow_right (show 0 < 256 by omega) hn)
  rw [Xxh64.lane, BitVec.toNat_ofNat, Nat.mod_eq_of_lt hlt]

/-- `read64le` は仕様の 8 byte の語を読む。 -/
theorem toBitVec_read64le (p : Bytes) (off : Nat) :
    (read64le (p.drop off)).toBitVec = Xxh64.lane 8 p off := by
  apply BitVec.eq_of_toNat_eq
  rw [toNat_lane (Nat.le_refl 8)]
  exact toNat_read64le (p.drop off)

theorem toBitVec_read32le (p : Bytes) : (read32le p).toUInt64.toBitVec = Xxh64.lane 4 p 0 := by
  apply BitVec.eq_of_toNat_eq
  rw [toNat_lane (by omega)]
  exact toNat_read32le p

theorem toBitVec_getD (p : Bytes) : (p.getD 0 0).toUInt64.toBitVec = Xxh64.lane 1 p 0 := by
  apply BitVec.eq_of_toNat_eq
  rw [toNat_lane (by omega), readLe_eq_bits, Nat.pow_one, ← toNat_getD]
  exact UInt8.toNat_toUInt64 _

/-! ## stripe -/

/-- `j` 番の変数。 -/
def XxhLanes.lane (v : XxhLanes) : Fin 4 → Xxh64.Word
  | 0 => v.v1.toBitVec
  | 1 => v.v2.toBitVec
  | 2 => v.v3.toBitVec
  | 3 => v.v4.toBitVec

/-- 四つの変数の初期値は仕様のものである。 -/
theorem lane_init (seed : UInt64) (j : Fin 4) :
    (XxhLanes.init seed).lane j = Xxh64.accumulatorInit seed.toBitVec j := by
  fin_cases j <;> simp [XxhLanes.lane, XxhLanes.init, Xxh64.accumulatorInit]

/-- stripe を一つ取り込むと、どの変数も自分の語と混ざる。 -/
theorem lane_absorb (v : XxhLanes) (p : Bytes) (j : Fin 4) :
    (v.absorb p).lane j = Xxh64.round (v.lane j) (Xxh64.lane 8 p (8 * j)) := by
  fin_cases j <;> simp [XxhLanes.lane, XxhLanes.absorb, ← toBitVec_read64le]

/-- 四つの変数の合わせ方は仕様の converge である。 -/
theorem toBitVec_merge (v : XxhLanes) : v.merge.toBitVec = Xxh64.converge v.lane := by
  simp [XxhLanes.merge, Xxh64.converge, XxhLanes.lane, toBitVec_rotl64, List.finRange]

/-- どの変数も、自分の 8 byte を順に取り込む。 -/
theorem lane_fold (seed : UInt64) (data : Bytes) (j : Fin 4) :
    (Blocks.fold 32 XxhLanes.absorb (data.length / 32) (XxhLanes.init seed) data).lane j =
      Xxh64.accumulator seed.toBitVec data j := by
  rw [Xxh64.accumulator, ← lane_init]
  refine Blocks.foldl_range_hom (XxhLanes.lane · j) fun s i _ => ?_
  rw [lane_absorb, lane_block (by omega), Nat.mul_comm]

/-! ## 残り -/

/-- 32 byte ごとの部分が終わった値は、長さを足すと仕様の始めの値になる。 -/
theorem toBitVec_xxhBody (data : Bytes) (seed : UInt64) :
    ((xxhBody data seed).1 + UInt64.ofNat data.length).toBitVec =
      Xxh64.start seed.toBitVec data := by
  rw [UInt64.toBitVec_add, UInt64.toBitVec_ofNat', Xxh64.start, xxhBody]
  rcases Nat.lt_or_ge data.length 32 with h | h
  · rw [if_neg (Nat.not_le.mpr h), if_pos h]
    simp
  · rw [if_pos h, if_neg (Nat.not_lt.mpr h), Blocks.consume_eq (by omega) (Nat.le_refl 32),
      Blocks.turns_self, toBitVec_merge, funext (lane_fold seed data)]

/-- 残るのは、32 byte で割り切れる長さを除いた末尾である。 -/
theorem xxhBody_rest (data : Bytes) (seed : UInt64) :
    (xxhBody data seed).2 = data.drop (data.length / 32 * 32) := by
  rw [xxhBody]
  split
  · rw [Blocks.consume_eq (by omega) (Nat.le_refl 32), Blocks.turns_self]
  · next h => rw [Nat.div_eq_of_lt (Nat.not_le.mp h), Nat.zero_mul, List.drop_zero]

/-- 8 byte ごとの loop。 -/
theorem toBitVec_fold8 (h : UInt64) (data : Bytes) (base k : Nat) :
    (Blocks.fold 8 xxhMix8 k h (data.drop base)).toBitVec =
      (List.range k).foldl (fun h i => Xxh64.mix8 h (Xxh64.lane 8 data (base + 8 * i)))
        h.toBitVec := by
  refine Blocks.foldl_range_hom UInt64.toBitVec fun s i _ => ?_
  have hread := toBitVec_read64le (Blocks.block 8 (data.drop base) i) 0
  rw [List.drop_zero, lane_block (by omega), lane_drop, Nat.add_zero, Nat.mul_comm] at hread
  simp [xxhMix8, Xxh64.mix8, toBitVec_rotl64, hread]

/-- 1 byte ごとの loop。 -/
theorem toBitVec_fold1 (h : UInt64) (data : Bytes) (base k : Nat) :
    (Blocks.fold 1 xxhMix1 k h (data.drop base)).toBitVec =
      (List.range k).foldl (fun h i => Xxh64.mix1 h (Xxh64.lane 1 data (base + i)))
        h.toBitVec := by
  refine Blocks.foldl_range_hom UInt64.toBitVec fun s i _ => ?_
  have hread := toBitVec_getD (Blocks.block 1 (data.drop base) i)
  rw [lane_block (by omega), lane_drop, Nat.add_zero, Nat.mul_one] at hread
  simp only [xxhMix1, Xxh64.mix1, UInt64.toBitVec_mul, toBitVec_rotl64 _ (show 0 < 11 by omega)
    (show 11 < 64 by omega), UInt64.toBitVec_xor, hread, toBitVec_xxhPrime1, toBitVec_xxhPrime5]

/-- 4 byte の残りの取り込みは仕様の mix4 である。 -/
theorem toBitVec_xxhMix4 (h : UInt64) (data : Bytes) (base : Nat) :
    (xxhMix4 h (data.drop base)).toBitVec = Xxh64.mix4 h.toBitVec (Xxh64.lane 4 data base) := by
  have hread := toBitVec_read32le (data.drop base)
  rw [lane_drop, Nat.add_zero] at hread
  simp only [xxhMix4, Xxh64.mix4, UInt64.toBitVec_add, UInt64.toBitVec_mul,
    toBitVec_rotl64 _ (show 0 < 23 by omega) (show 23 < 64 by omega), UInt64.toBitVec_xor, hread,
    toBitVec_xxhPrime1, toBitVec_xxhPrime2, toBitVec_xxhPrime3]

/-- **`xxhash64` は、どの seed でも XXH64 である。** -/
theorem xxhash64_eq (data : Bytes) (seed : UInt64) :
    (xxhash64 data seed).toBitVec = Xxh64.xxh64 seed.toBitVec data := by
  rw [Xxh64.xxh64, ← toBitVec_xxhBody, xxhash64]
  cases hbody : xxhBody data seed with
  | mk h p =>
    have hp : p = data.drop (data.length / 32 * 32) := by
      rw [← xxhBody_rest data seed, hbody]
    subst hp
    have hlen : (data.drop (data.length / 32 * 32)).length = data.length % 32 := by
      rw [List.length_drop]
      omega
    dsimp only
    rw [Blocks.consume_eq (by omega) (Nat.le_refl 8), Blocks.turns_self, hlen, List.drop_drop,
      show data.length / 32 * 32 + data.length % 32 / 8 * 8 = data.length / 8 * 8 by omega]
    have hlen8 : (data.drop (data.length / 8 * 8)).length = data.length % 8 := by
      rw [List.length_drop]
      omega
    rw [Xxh64.tail, ← toBitVec_fold8, hlen8]
    generalize Blocks.fold 8 xxhMix8 (data.length % 32 / 8) (h + UInt64.ofNat data.length)
      (data.drop (data.length / 32 * 32)) = h8
    dsimp only
    rcases Nat.lt_or_ge (data.length % 8) 4 with h4 | h4
    · rw [if_neg (Nat.not_le.mpr h4), if_pos h4, Blocks.consume_eq (by omega) (Nat.le_refl 1),
        Blocks.turns_self, hlen8, Nat.div_one, toBitVec_xxhAvalanche, toBitVec_fold1,
        show data.length / 8 * 8 = data.length / 4 * 4 by omega,
        show data.length % 8 = data.length % 4 by omega]
    · rw [if_pos h4, if_neg (Nat.not_lt.mpr h4), Blocks.consume_eq (by omega) (Nat.le_refl 1),
        Blocks.turns_self, List.drop_drop, List.length_drop, Nat.div_one, toBitVec_xxhAvalanche,
        toBitVec_fold1, toBitVec_xxhMix4,
        show data.length / 8 * 8 + 4 = data.length / 4 * 4 by omega,
        show data.length - data.length / 4 * 4 = data.length % 4 by omega]

end Fsx
