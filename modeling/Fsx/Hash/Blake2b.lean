import Fsx.Hash.Rfc7693
import Fsx.Hash.WordOps
import Mathlib.Data.Fintype.Basic
import Mathlib.Tactic.FinCases

/-!
# `blake2b_256` は BLAKE2b である

実装の配列と `UInt64` の計算を、標準の vector と `BitVec 64` の計算に写す。二つの変数 `t0` と `t1` は
一つの 128 bit の数を表し、繰り上がりを含めて、それまでの byte 数に等しい。
-/

namespace Fsx

/-- 配列を標準の語の列とみる。 -/
def lanes {n : Nat} (v : Vector UInt64 n) : Fin n → Rfc7693.Word := fun i => v[i].toBitVec

theorem toBitVec_getElem {n : Nat} (v : Vector UInt64 n) (i : Fin n) :
    v[i].toBitVec = lanes v i := rfl

theorem lanes_set_apply {n : Nat} (v : Vector UInt64 n) {a : Nat} (ha : a < n) (x : UInt64)
    (i : Fin n) : lanes (v.set a x ha) i = if i = ⟨a, ha⟩ then x.toBitVec else lanes v i := by
  rw [lanes, Fin.getElem_fin, Vector.getElem_set]
  by_cases h : i = ⟨a, ha⟩
  · rw [if_pos h, if_pos (congrArg Fin.val h.symm)]
  · rw [if_neg h, if_neg fun hc => h (Fin.ext hc.symm)]
    rfl

theorem lanes_set {n : Nat} (v : Vector UInt64 n) (a : Fin n) (x : UInt64) :
    lanes (v.set a x) = Function.update (lanes v) a x.toBitVec := by
  funext i
  rw [lanes_set_apply, Function.update_apply]

theorem lanes_ofFn {n : Nat} (f : Fin n → UInt64) :
    lanes (Vector.ofFn f) = fun i => (f i).toBitVec := by
  funext i
  rw [lanes, Fin.getElem_fin, Vector.getElem_ofFn]

/-! ## 定数 -/

theorem b2iv_eq {i : Nat} (h : i < 8) : (b2iv i).toBitVec = Rfc7693.iv i := by
  have hall : ∀ i < 8, ∃ q < 5,
      (q * 2 ^ 64 + (b2iv i).toBitVec.toNat) ^ 2 ≤ smallPrimes.getD i 0 * 2 ^ (2 * 64) ∧
      smallPrimes.getD i 0 * 2 ^ (2 * 64) < (q * 2 ^ 64 + (b2iv i).toBitVec.toNat + 1) ^ 2 := by
    decide +kernel
  obtain ⟨q, -, hle, hlt⟩ := hall i h
  rw [Rfc7693.iv, nth_prime_eq (by omega)]
  exact (rootFraction_eq (by decide) hle hlt).symm

/-- 12 段の表は、10 段の表を繰り返したものである。 -/
theorem b2Sigma_eq {r : Nat} (h : r < 12) :
    b2Sigma.getD r [] = Rfc7693.sigma.getD (r % 10) [] := by
  have hall : ∀ r < 12, b2Sigma.getD r [] = Rfc7693.sigma.getD (r % 10) [] := by decide
  exact hall r h

/-! ## 圧縮 -/

theorem lanes_mix (v : Vector UInt64 16) (a b c d : Fin 16) (x y : UInt64) :
    lanes (b2Mix v a b c d x y) = Rfc7693.mix (lanes v) a b c d x.toBitVec y.toBitVec := by
  simp only [b2Mix, Rfc7693.mix, lanes_set, UInt64.toBitVec_add, UInt64.toBitVec_xor,
    toBitVec_rotr64 _ (show 0 < 32 by omega) (show 32 < 64 by omega),
    toBitVec_rotr64 _ (show 0 < 24 by omega) (show 24 < 64 by omega),
    toBitVec_rotr64 _ (show 0 < 16 by omega) (show 16 < 64 by omega),
    toBitVec_rotr64 _ (show 0 < 63 by omega) (show 63 < 64 by omega), toBitVec_getElem]

theorem lanes_round (m v : Vector UInt64 16) {r : Nat} (hr : r < 12) :
    lanes (b2Round m v r) = Rfc7693.round (lanes m) (lanes v) r := by
  simp only [b2Round, Rfc7693.round, lanes_mix, toBitVec_getElem, b2Sigma_eq hr]

/-- 前半が `h`、後半が初期値である。 -/
theorem lanes_base (h : Vector UInt64 8) (i : Fin 16) :
    lanes (h ++ Vector.ofFn fun i : Fin 8 => b2iv i : Vector UInt64 16) i =
      if hi : i.val < 8 then lanes h ⟨i, hi⟩ else Rfc7693.iv (i - 8) := by
  rw [lanes, Fin.getElem_fin]
  refine (congrArg UInt64.toBitVec (Vector.getElem_append i.isLt)).trans ?_
  split
  · rfl
  · rw [Vector.getElem_ofFn, b2iv_eq (by omega)]

/-- `t0` と `t1` は、byte 数の下位と上位である。 -/
theorem lanes_start (h : Vector UInt64 8) {t0 t1 : UInt64} {t : Nat} (last : Bool)
    (h0 : t0.toBitVec = BitVec.ofNat 64 (t % 2 ^ 64)) (h1 : t1.toBitVec = BitVec.ofNat 64 (t / 2 ^ 64)) :
    lanes (b2Start h t0 t1 last) = Rfc7693.start (lanes h) t last := by
  rw [b2Start]
  generalize hbase : (h ++ Vector.ofFn fun i : Fin 8 => b2iv i : Vector UInt64 16) = v
  have hv : ∀ i : Fin 16, lanes v i =
      if hi : i.val < 8 then lanes h ⟨i, hi⟩ else Rfc7693.iv (i - 8) := hbase ▸ lanes_base h
  have h12 : v[12].toBitVec = Rfc7693.iv 4 := hv 12
  have h13 : (v.set 12 (v[12] ^^^ t0))[13].toBitVec = Rfc7693.iv 5 := by
    rw [Vector.getElem_set_ne _ _ (by omega)]
    exact hv 13
  have hpair : ∀ i, lanes ((v.set 12 (v[12] ^^^ t0)).set 13
      ((v.set 12 (v[12] ^^^ t0))[13] ^^^ t1)) i =
      if i = 13 then Rfc7693.iv 5 ^^^ BitVec.ofNat 64 (t / 2 ^ 64)
      else if i = 12 then Rfc7693.iv 4 ^^^ BitVec.ofNat 64 (t % 2 ^ 64) else lanes v i := fun i => by
    rw [lanes_set_apply, lanes_set_apply, UInt64.toBitVec_xor, UInt64.toBitVec_xor, h12, h13, h0, h1]
    rfl
  generalize (v.set 12 (v[12] ^^^ t0)).set 13 ((v.set 12 (v[12] ^^^ t0))[13] ^^^ t1) = v2 at hpair
  have h14 : v2[14].toBitVec = Rfc7693.iv 6 := (hpair 14).trans (hv 14)
  have hlast : ∀ i, lanes (if last = true then v2.set 14 (~~~v2[14]) else v2) i =
      if i = 14 ∧ last = true then Rfc7693.iv 6 ^^^ BitVec.allOnes 64 else lanes v2 i := fun i => by
    cases last with
    | false => simp
    | true =>
      rw [if_pos rfl, lanes_set_apply, UInt64.toBitVec_not, h14, BitVec.xor_allOnes]
      simp only [and_true]
      rfl
  funext i
  rw [hlast, hpair, hv, Rfc7693.start]
  by_cases i12 : i = 12
  · subst i12
    simp
  · by_cases i13 : i = 13
    · subst i13
      simp
    · by_cases i14 : i = 14
      · subst i14
        simp
      · simp [i12, i13, i14]

theorem lanes_compress (h : Vector UInt64 8) (block : Bytes) {t0 t1 : UInt64} {t : Nat} (last : Bool)
    (h0 : t0.toBitVec = BitVec.ofNat 64 (t % 2 ^ 64)) (h1 : t1.toBitVec = BitVec.ofNat 64 (t / 2 ^ 64)) :
    lanes (blake2bCompress h block t0 t1 last) =
      Rfc7693.compress (lanes h) (fun i => BitVec.ofNat 64 (leNat (slice block (i * 8) 8))) t last := by
  have hwords : lanes (Vector.ofFn fun i : Fin 16 => read64le (block.drop (i * 8))) =
      fun i : Fin 16 => BitVec.ofNat 64 (leNat (slice block (i * 8) 8)) := by
    rw [lanes_ofFn]
    funext i
    apply BitVec.eq_of_toNat_eq
    rw [slice, ← toNat_read64le, BitVec.toNat_ofNat, Nat.mod_eq_of_lt (UInt64.toNat_lt _)]
    rfl
  have hrounds := Blocks.foldl_range_hom (k := 12) (s := b2Start h t0 t1 last) lanes
    (g := b2Round (Vector.ofFn fun i : Fin 16 => read64le (block.drop (i * 8))))
    fun s r hr => lanes_round _ s hr
  rw [hwords, lanes_start h last h0 h1] at hrounds
  rw [blake2bCompress, lanes_ofFn, Rfc7693.compress, ← hrounds]
  funext i
  rw [UInt64.toBitVec_xor, UInt64.toBitVec_xor, ← BitVec.xor_assoc]
  rfl

/-! ## byte 数 -/

namespace Blake2bState

/-- 二つの変数の表す数。 -/
def total (s : Blake2bState) : Nat := s.t0.toNat + 2 ^ 64 * s.t1.toNat

/-- 繰り上がりを含めて、数は `n` だけ進む。 -/
theorem total_count (s : Blake2bState) {n : Nat} (hn : n < 2 ^ 64) (h : s.total + n < 2 ^ 128) :
    (s.count n).total = s.total + n := by
  have h0 := s.t0.toNat_lt
  have h1 := s.t1.toNat_lt
  have hadd : (s.t0 + UInt64.ofNat n).toNat = (s.t0.toNat + n) % 2 ^ 64 := by
    rw [UInt64.toNat_add, UInt64.toNat_ofNat', Nat.mod_eq_of_lt hn]
  have hcarry : (s.t1 + 1).toNat = (s.t1.toNat + 1) % 2 ^ 64 := UInt64.toNat_add _ _
  unfold total at h ⊢
  rw [count]
  dsimp only
  by_cases hlt : s.t0 + UInt64.ofNat n < s.t0
  · rw [if_pos hlt, hcarry, hadd]
    rw [UInt64.lt_iff_toNat_lt, hadd] at hlt
    omega
  · rw [if_neg hlt, hadd]
    rw [UInt64.lt_iff_toNat_lt, hadd] at hlt
    omega

theorem lanes_step (s : Blake2bState) (block : Bytes) (last : Bool) :
    lanes (s.compress block last).h = Rfc7693.compress (lanes s.h)
      (fun i => BitVec.ofNat 64 (leNat (slice block (i * 8) 8))) s.total last := by
  have h0 := s.t0.toNat_lt
  refine lanes_compress s.h block last ?_ ?_
  · apply BitVec.eq_of_toNat_eq
    rw [total, Nat.add_mul_mod_self_left, BitVec.toNat_ofNat, Nat.mod_mod, UInt64.toNat_toBitVec,
      Nat.mod_eq_of_lt h0]
  · apply BitVec.eq_of_toNat_eq
    rw [total, Nat.add_mul_div_left _ _ (by omega), Nat.div_eq_of_lt h0, Nat.zero_add,
      BitVec.toNat_ofNat, UInt64.toNat_toBitVec, Nat.mod_eq_of_lt s.t1.toNat_lt]

@[simp] theorem total_compress (s : Blake2bState) (block : Bytes) (last : Bool) :
    (s.compress block last).total = s.total := rfl

@[simp] theorem count_h (s : Blake2bState) (n : Nat) : (s.count n).h = s.h := rfl

end Blake2bState

/-- はじめの値。parameter block は鍵がなく 32 byte を出すことを言う。 -/
theorem lanes_init : lanes Blake2bState.init.h = Rfc7693.initial 32 := by
  have hparam : (0x01010020 : BitVec 64) = 0x01010000 ^^^ BitVec.ofNat 64 32 := by decide
  funext i
  have hiv : lanes (Vector.ofFn fun i : Fin 8 => b2iv i) i = Rfc7693.iv i := by
    rw [lanes_ofFn]
    exact b2iv_eq i.isLt
  rw [Blake2bState.init, lanes_set_apply, hiv, Rfc7693.initial, UInt64.toBitVec_xor,
    b2iv_eq (by omega), BitVec.xor_assoc, ← hparam]
  rfl

/-! ## 塊 -/

/-- 最後でない塊の語。 -/
theorem blockWords_inner {data : Bytes} {i : Nat} (h : (i + 1) * 128 ≤ data.length) :
    (fun j : Fin 16 => BitVec.ofNat 64 (leNat (slice (Blocks.block 128 data i) (j * 8) 8))) =
      Rfc7693.blockWords data i := by
  rw [Nat.succ_mul] at h
  funext j
  have hj := j.isLt
  have hslice : slice (Blocks.block 128 data i) (j * 8) 8 = slice data (i * 128 + j * 8) 8 :=
    slice_slice data (i * 128) 128 (j * 8) 8 (by omega)
  rw [Rfc7693.blockWords, hslice, slice_append_left (by omega)]

/-- 最後の塊は、残りを零で埋めたものである。 -/
theorem blockWords_last (data : Bytes) :
    (fun j : Fin 16 => BitVec.ofNat 64 (leNat (slice
      (patch (zeros 128) 0 (data.drop ((data.length - 1) / 128 * 128))) (j * 8) 8))) =
      Rfc7693.blockWords data (Rfc7693.blockCount data.length - 1) := by
  have hcount : Rfc7693.blockCount data.length = (data.length - 1) / 128 + 1 := by
    rw [Rfc7693.blockCount]
    omega
  have hlen : (data.drop ((data.length - 1) / 128 * 128)).length =
      data.length - (data.length - 1) / 128 * 128 := List.length_drop
  have hbuf : patch (zeros 128) 0 (data.drop ((data.length - 1) / 128 * 128)) =
      (data ++ zeros (Rfc7693.blockCount data.length * 128 - data.length)).drop
        ((data.length - 1) / 128 * 128) := by
    rw [patch_eq_append (by rw [length_zeros, hlen]; omega), List.drop_append_of_le_length (by omega),
      Nat.zero_add, List.take_zero, List.nil_append, zeros, zeros, List.drop_replicate, hlen, hcount]
    congr 2
    omega
  funext j
  rw [hbuf, Rfc7693.blockWords, hcount, Nat.add_sub_cancel, slice, slice, List.drop_drop, ← hcount]

/-- loop は、最後でない塊を標準のとおりに圧縮し、byte 数を数える。 -/
theorem lanes_loop {data : Bytes} (hlen : data.length < 2 ^ 128) {k : Nat}
    (hk : k * 128 ≤ data.length) :
    (Blocks.fold 128 (fun s p => (s.count 128).compress p false) k Blake2bState.init data).total =
        k * 128 ∧
      lanes (Blocks.fold 128 (fun s p => (s.count 128).compress p false) k Blake2bState.init data).h =
        (List.range k).foldl (fun h i => Rfc7693.compress h (Rfc7693.blockWords data i)
          ((i + 1) * 128) false) (Rfc7693.initial 32) := by
  induction k with
  | zero => exact ⟨rfl, lanes_init⟩
  | succ k ih =>
    obtain ⟨htotal, hh⟩ := ih (by omega)
    have hnext := Blake2bState.total_count (n := 128)
      (Blocks.fold 128 (fun s p => (s.count 128).compress p false) k Blake2bState.init data)
      (by omega) (by omega)
    rw [Blocks.fold_succ, List.range_succ, List.foldl_append, List.foldl_cons, List.foldl_nil, ← hh]
    refine ⟨by rw [Blake2bState.total_compress, hnext, htotal, Nat.succ_mul], ?_⟩
    rw [Blake2bState.lanes_step, hnext, htotal, blockWords_inner hk, Nat.succ_mul,
      Blake2bState.count_h]

/-- はじめの四つの語が、標準の並べ方での 32 byte である。 -/
theorem Blake2bState.digest_eq (s : Blake2bState) :
    s.digest = ((List.finRange 8).flatMap fun i => leBytes 8 (lanes s.h i).toNat).take 32 := by
  simp only [Blake2bState.digest, List.flatMap_cons, List.flatMap_nil, write64le_eq]
  rfl

/-- **`blake2b_256` は、32 byte を出す鍵のない BLAKE2b である。** -/
theorem blake2b256_eq {data : Bytes} (h : data.length < 2 ^ 128) :
    blake2b256 data = Rfc7693.blake2b 32 data := by
  have hturns : Blocks.turns 128 129 data.length = (data.length - 1) / 128 := by
    rw [Blocks.turns]
    omega
  have hdd : Rfc7693.blockCount data.length - 1 = (data.length - 1) / 128 := by
    rw [Rfc7693.blockCount]
    omega
  have hle : (data.length - 1) / 128 * 128 ≤ data.length := by omega
  obtain ⟨htotal, hh⟩ := lanes_loop h hle
  have hrest : (data.drop ((data.length - 1) / 128 * 128)).length ≤ 128 := by
    rw [List.length_drop]
    omega
  have hlast := Blake2bState.lanes_step (Blake2bState.count
    (Blocks.fold 128 (fun s p => (s.count 128).compress p false) ((data.length - 1) / 128)
      Blake2bState.init data) (data.drop ((data.length - 1) / 128 * 128)).length)
    (patch (zeros 128) 0 (data.drop ((data.length - 1) / 128 * 128))) true
  have hend : (data.length - 1) / 128 * 128 +
      (data.drop ((data.length - 1) / 128 * 128)).length = data.length := by
    rw [List.length_drop]
    omega
  rw [Blake2bState.total_count _ (by omega) (by omega), htotal, hend, Blake2bState.count_h, hh,
    blockWords_last] at hlast
  rw [hdd] at hlast
  rw [Rfc7693.blake2b, hdd, blake2b256, Blocks.consume_eq (by omega) (by omega), hturns]
  exact (Blake2bState.digest_eq _).trans (congrArg (fun h : Fin 8 → Rfc7693.Word =>
    ((List.finRange 8).flatMap fun i => leBytes 8 (h i).toNat).take 32) hlast)

end Fsx
