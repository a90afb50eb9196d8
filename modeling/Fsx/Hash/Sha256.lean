import Fsx.Hash.Fips180
import Fsx.Hash.WordOps

/-!
# `sha256` は SHA-256 である

実装の `UInt32` の計算を、標準の `BitVec 32` の計算に写す。定数・一段・schedule・圧縮の順に合わせ、
最後に、残りの byte と終わりの buffer をつないだものが padding の続きであることを使う。
-/

namespace Fsx

/-! ## 定数 -/

namespace Sha256Words

/-- 八つの語を標準の語とみる。 -/
def toWork (v : Sha256Words) : Fips180.Work where
  a := v.a.toBitVec
  b := v.b.toBitVec
  c := v.c.toBitVec
  d := v.d.toBitVec
  e := v.e.toBitVec
  f := v.f.toBitVec
  g := v.g.toBitVec
  h := v.h.toBitVec

end Sha256Words

/-- `K256` は、はじめの 64 個の素数の立方根の小数部である。整数部は 6 を超えない。 -/
theorem k256_eq {i : Nat} (h : i < 64) : (k256 i).toBitVec = Fips180.k i := by
  have hall : ∀ i < 64, ∃ q < 7,
      (q * 2 ^ 32 + (k256 i).toBitVec.toNat) ^ 3 ≤ smallPrimes.getD i 0 * 2 ^ (3 * 32) ∧
      smallPrimes.getD i 0 * 2 ^ (3 * 32) < (q * 2 ^ 32 + (k256 i).toBitVec.toNat + 1) ^ 3 := by
    decide +kernel
  obtain ⟨q, -, hle, hlt⟩ := hall i h
  rw [Fips180.k, nth_prime_eq h]
  exact (rootFraction_eq (by decide) hle hlt).symm

/-- 八つの語 `x` が、はじめの八つの素数の平方根の小数部である。 -/
theorem sha256Init_eq : sha256Init.toWork = Fips180.initialHash := by
  have hroot : ∀ j < 64, ∀ (q : Nat) (x : BitVec 32),
      (q * 2 ^ 32 + x.toNat) ^ 2 ≤ smallPrimes.getD j 0 * 2 ^ (2 * 32) →
      smallPrimes.getD j 0 * 2 ^ (2 * 32) < (q * 2 ^ 32 + x.toNat + 1) ^ 2 →
      x = Fips180.initial j := fun j hj q x hle hlt => by
    rw [Fips180.initial, nth_prime_eq hj]
    exact (rootFraction_eq (by decide) hle hlt).symm
  apply Fips180.Work.ext
  · exact hroot 0 (by decide) 1 _ (by decide +kernel) (by decide +kernel)
  · exact hroot 1 (by decide) 1 _ (by decide +kernel) (by decide +kernel)
  · exact hroot 2 (by decide) 2 _ (by decide +kernel) (by decide +kernel)
  · exact hroot 3 (by decide) 2 _ (by decide +kernel) (by decide +kernel)
  · exact hroot 4 (by decide) 3 _ (by decide +kernel) (by decide +kernel)
  · exact hroot 5 (by decide) 3 _ (by decide +kernel) (by decide +kernel)
  · exact hroot 6 (by decide) 4 _ (by decide +kernel) (by decide +kernel)
  · exact hroot 7 (by decide) 4 _ (by decide +kernel) (by decide +kernel)

/-! ## 圧縮 -/

theorem toWork_round (k w : UInt32) (v : Sha256Words) :
    (sha256Round k w v).toWork = Fips180.round k.toBitVec w.toBitVec v.toWork := by
  simp [sha256Round, Sha256Words.toWork, Fips180.round, Fips180.bigSigma0, Fips180.bigSigma1,
    Fips180.ch, Fips180.maj, toBitVec_rotr32]

theorem toBitVec_smallSigma0 (x : UInt32) :
    (rotr32 x 7 ^^^ rotr32 x 18 ^^^ (x >>> 3)).toBitVec = Fips180.smallSigma0 x.toBitVec := by
  simp [Fips180.smallSigma0, toBitVec_rotr32]

theorem toBitVec_smallSigma1 (x : UInt32) :
    (rotr32 x 17 ^^^ rotr32 x 19 ^^^ (x >>> 10)).toBitVec = Fips180.smallSigma1 x.toBitVec := by
  simp [Fips180.smallSigma1, toBitVec_rotr32]

section Schedule

variable {w : Array UInt32}

theorem getD_setIfInBounds {i : Nat} (h : i < w.size) (x : UInt32) (j : Nat) :
    (w.setIfInBounds i x).getD j 0 = if i = j then x else w.getD j 0 := by
  rw [Array.getD_eq_getD_getElem?, Array.getD_eq_getD_getElem?, Array.getElem?_setIfInBounds]
  split <;> rfl

theorem size_load_and_getD (f : Nat → UInt32) {n : Nat} (hn : n ≤ 64) :
    ∀ w, w = (List.range n).foldl (fun w i => w.setIfInBounds i (f i)) (Array.replicate 64 0) →
      w.size = 64 ∧ ∀ t < n, w.getD t 0 = f t := by
  induction n with
  | zero =>
    rintro w rfl
    exact ⟨Array.size_replicate, fun t ht => absurd ht (Nat.not_lt_zero t)⟩
  | succ n ih =>
    rintro w rfl
    obtain ⟨hsize, hval⟩ := ih (by omega) _ rfl
    rw [List.range_succ, List.foldl_append, List.foldl_cons, List.foldl_nil]
    refine ⟨by rw [Array.size_setIfInBounds, hsize], fun t ht => ?_⟩
    rw [getD_setIfInBounds (by omega)]
    split
    · next h => rw [h]
    · exact hval t (by omega)

/-- はじめの 16 語は塊の語である。 -/
theorem getD_load {block : Bytes} (hlen : 64 ≤ block.length) :
    (sha256Load block).size = 64 ∧ ∀ t < 16, ((sha256Load block).getD t 0).toBitVec =
      Fips180.schedule (Fips180.messageWord block) t := by
  obtain ⟨hsize, hval⟩ := size_load_and_getD (fun i => read32be (block.drop (i * 4)))
    (show 16 ≤ 64 by omega) _ rfl
  refine ⟨hsize, fun t ht => ?_⟩
  rw [sha256Load, hval t ht, Fips180.schedule_of_lt ht, Fips180.messageWord]
  apply BitVec.eq_of_toNat_eq
  rw [BitVec.toNat_ofNat, slice, Nat.mul_comm 4, ← toNat_read32be (by rw [List.length_drop]; omega),
    Nat.mod_eq_of_lt (UInt32.toNat_lt _)]
  rfl

/-- loop の一回は、標準の漸化式の一段である。 -/
theorem getD_extend {m : Nat → Fips180.Word} {n : Nat} (hn : 16 + n < 64) (hsize : w.size = 64)
    (hval : ∀ t < 16 + n, (w.getD t 0).toBitVec = Fips180.schedule m t) :
    (sha256Extend w (16 + n)).size = 64 ∧
    ∀ t < 16 + n + 1, ((sha256Extend w (16 + n)).getD t 0).toBitVec = Fips180.schedule m t := by
  refine ⟨by rw [sha256Extend, Array.size_setIfInBounds, hsize], fun t ht => ?_⟩
  rw [sha256Extend, getD_setIfInBounds (by omega)]
  split
  · next h =>
    subst h
    rw [Fips180.schedule_of_le (by omega), ← hval (16 + n - 2) (by omega),
      ← hval (16 + n - 7) (by omega), ← hval (16 + n - 15) (by omega),
      ← hval (16 + n - 16) (by omega)]
    simp only [UInt32.toBitVec_add, toBitVec_smallSigma0, toBitVec_smallSigma1]
    ac_rfl
  · exact hval t (by omega)

/-- loop を `n` 回まわると、`16 + n` 語が標準の schedule である。 -/
theorem getD_extends {m : Nat → Fips180.Word} (hsize : w.size = 64)
    (hval : ∀ t < 16, (w.getD t 0).toBitVec = Fips180.schedule m t) {n : Nat} (hn : n ≤ 48) :
    ((List.range' 16 n).foldl sha256Extend w).size = 64 ∧ ∀ t < 16 + n,
      (((List.range' 16 n).foldl sha256Extend w).getD t 0).toBitVec = Fips180.schedule m t := by
  induction n with
  | zero => exact ⟨hsize, hval⟩
  | succ n ih =>
    obtain ⟨h1, h2⟩ := ih (by omega)
    rw [List.range'_1_concat, List.foldl_append, List.foldl_cons, List.foldl_nil]
    exact getD_extend (by omega) h1 h2

/-- 全部の語が、標準の schedule である。 -/
theorem toBitVec_schedule {block : Bytes} (hlen : 64 ≤ block.length) {t : Nat} (ht : t < 64) :
    ((sha256Schedule block).getD t 0).toBitVec =
      Fips180.schedule (Fips180.messageWord block) t := by
  obtain ⟨hsize, hload⟩ := getD_load hlen
  exact (getD_extends hsize hload (Nat.le_refl 48)).2 t ht

end Schedule

/-- 塊一つの圧縮は、標準の圧縮である。 -/
theorem toWork_compress (h : Sha256Words) (block : Bytes) (hlen : 64 ≤ block.length) :
    (sha256Compress h block).toWork = Fips180.compress h.toWork block := by
  have hrounds : ((List.range 64).foldl (fun v i => sha256Round (k256 i)
      ((sha256Schedule block).getD i 0) v) h).toWork = (List.range 64).foldl (fun v t =>
      Fips180.round (Fips180.k t) (Fips180.schedule (Fips180.messageWord block) t) v) h.toWork :=
    Blocks.foldl_range_hom Sha256Words.toWork fun s i hi => by
      rw [toWork_round, k256_eq hi, toBitVec_schedule hlen hi]
  rw [Fips180.compress, ← hrounds, sha256Compress]
  apply Fips180.Work.ext <;>
    simp only [Sha256Words.toWork, Fips180.Work.add, UInt32.toBitVec_add, BitVec.add_comm]

/-! ## 終わりの buffer -/

/-- 書いた範囲のすぐ手前に一 byte を足す。 -/
theorem patch_cons {b : Bytes} {off : Nat} {xs : Bytes} (x : UInt8)
    (h : off + 1 + xs.length ≤ b.length) :
    patch (patch b (off + 1) xs) off [x] = patch b off (x :: xs) := by
  have hlen : (b.take (off + 1)).length = off + 1 := by rw [List.length_take]; omega
  rw [patch_eq_append (b := patch b (off + 1) xs)
      (by rw [length_patch, List.length_singleton]; omega), patch_eq_append h,
    patch_eq_append (b := b) (by rw [List.length_cons]; omega), List.length_singleton,
    List.length_cons, List.append_assoc (b.take (off + 1)),
    List.take_append_of_le_length (by omega), List.take_take, Nat.min_eq_left (Nat.le_succ off),
    List.drop_left' hlen, List.append_assoc, List.append_assoc, List.singleton_append,
    Nat.add_right_comm]
  rfl

/-- 後ろから前へ一 byte ずつ書くと、逆順の列を一度に書いたものになる。 -/
theorem foldl_patch_down (f : Nat → UInt8) (t : Bytes) {u k : Nat} (hk : k ≤ u) (hu : u ≤ t.length) :
    (List.range k).foldl (fun t i => patch t (u - 1 - i) [f i]) t =
      patch t (u - k) ((List.range k).map f).reverse := by
  induction k with
  | zero => rw [patch_eq_append (by simpa using hu)]; simp
  | succ k ih =>
    have hlen : ((List.range k).map f).reverse.length = k := by
      rw [List.length_reverse, List.length_map, List.length_range]
    rw [List.range_succ, List.foldl_append, ih (by omega), List.foldl_cons, List.foldl_nil,
      List.map_append, List.reverse_append, List.map_singleton, List.reverse_singleton,
      List.singleton_append, show u - k = u - 1 - k + 1 by omega,
      patch_cons _ (by rw [hlen]; omega), show u - 1 - k = u - (k + 1) by omega]

theorem take_zeros {n k : Nat} (h : k ≤ n) : (zeros n).take k = zeros k := by
  rw [zeros, List.take_replicate, Nat.min_eq_left h, zeros]

theorem drop_zeros (n k : Nat) : (zeros n).drop k = zeros (n - k) := List.drop_replicate

/-- 残りと `0x80` を置いた buffer。 -/
theorem patch_mark {p : Bytes} {n : Nat} (hp : p.length < n) :
    patch (patch (zeros n) 0 p) p.length [0x80] = p ++ [0x80] ++ zeros (n - p.length - 1) := by
  have hload : patch (zeros n) 0 p = p ++ zeros (n - p.length) := by
    rw [patch_eq_append (by rw [length_zeros]; omega), Nat.zero_add, drop_zeros]
    rfl
  rw [hload, patch_eq_append (by
      rw [List.length_append, length_zeros, List.length_singleton]; omega),
    List.take_left, List.length_singleton, ← List.drop_drop, List.drop_left, drop_zeros]

/-- **終わりの buffer は、残りの byte に padding を続けたものである。** -/
theorem tail_take {p : Bytes} (hp : p.length < 64) (bits : UInt64) :
    (sha256Tail p bits).take (sha256Used p.length) =
      p ++ [0x80] ++ zeros (sha256Used p.length - p.length - 9) ++ beBytes 8 bits.toNat := by
  have hused : p.length + 9 ≤ sha256Used p.length ∧ sha256Used p.length ≤ 128 := by
    unfold sha256Used
    split <;> omega
  have hbits : ((List.range 8).map fun i =>
      ((bits >>> UInt64.ofNat (i * 8)) &&& 0xff).toUInt8).reverse = beBytes 8 bits.toNat := by
    rw [beBytes, ← write64le_eq]
    rfl
  unfold sha256Tail
  generalize sha256Used p.length = u at hused
  obtain ⟨hlow, hhigh⟩ := hused
  have hmark := patch_mark (p := p) (n := 128) (by omega)
  have hlen : (p ++ [(0x80 : UInt8)] ++ zeros (128 - p.length - 1)).length = 128 := by
    rw [List.length_append, List.length_append, List.length_singleton, length_zeros]
    omega
  have hfront : (p ++ [(0x80 : UInt8)] ++ zeros (128 - p.length - 1)).take (u - 8) =
      p ++ [0x80] ++ zeros (u - p.length - 9) := by
    rw [List.take_append, List.length_append, List.length_singleton,
      List.take_of_length_le (by rw [List.length_append, List.length_singleton]; omega),
      take_zeros (by omega), show u - 8 - (p.length + 1) = u - p.length - 9 by omega]
  dsimp only
  rw [hmark, foldl_patch_down _ _ (by omega) (by rw [hlen]; exact hhigh), hbits,
    patch_eq_append (by rw [hlen, length_beBytes]; omega), length_beBytes, hfront,
    List.take_left' (by
      rw [List.length_append, List.length_append, List.length_append, List.length_singleton,
        length_zeros, length_beBytes]
      omega)]

theorem length_sha256Tail (p : Bytes) (bits : UInt64) : (sha256Tail p bits).length = 128 := by
  have hfold : ∀ (is : List Nat) (f : Nat → UInt8) (g : Nat → Nat) (t : Bytes),
      (is.foldl (fun t i => patch t (g i) [f i]) t).length = t.length := fun is f g => by
    induction is with
    | nil => exact fun t => rfl
    | cons i is ih => exact fun t => (ih _).trans (length_patch _ _ _)
  rw [sha256Tail, hfold, length_patch, length_patch, length_zeros]

/-- 終わりの buffer の圧縮は、残りの塊の圧縮である。 -/
theorem toWork_finish (h : Sha256Words) (p : Bytes) (bits : UInt64) :
    (if sha256Used p.length = 128 then
        sha256Compress (sha256Compress h (sha256Tail p bits)) ((sha256Tail p bits).drop 64)
      else sha256Compress h (sha256Tail p bits)).toWork =
      Blocks.fold 64 Fips180.compress (sha256Used p.length / 64) h.toWork
        ((sha256Tail p bits).take (sha256Used p.length)) := by
  have hlen := length_sha256Tail p bits
  generalize sha256Tail p bits = tail at hlen
  have hfirst := toWork_compress h tail (by omega)
  rcases Nat.lt_or_ge p.length 56 with hn | hn
  · rw [sha256Used, if_pos hn, if_neg (by omega), hfirst, show 64 / 64 = 0 + 1 from rfl,
      Blocks.fold_succ, Blocks.fold_zero, Blocks.block_zero, List.take_take, Nat.min_self,
      Fips180.compress_take]
  · have hsecond : Blocks.block 64 (tail.take 128) 1 = tail.drop 64 := by
      rw [List.take_of_length_le (Nat.le_of_eq hlen), Blocks.block, Nat.one_mul,
        List.take_of_length_le (by rw [List.length_drop]; omega)]
    rw [sha256Used, if_neg (Nat.not_lt.mpr hn), if_pos rfl,
      toWork_compress _ _ (by rw [List.length_drop]; omega), hfirst, show 128 / 64 = 0 + 1 + 1 from rfl,
      Blocks.fold_succ, Blocks.fold_succ, Blocks.fold_zero, Blocks.block_zero, hsecond,
      List.take_take, Nat.min_eq_left (by omega), Fips180.compress_take]

theorem digest_toWork (v : Sha256Words) :
    v.toWork.digest = [v.a, v.b, v.c, v.d, v.e, v.f, v.g, v.h].flatMap write32be := by
  simp only [Fips180.Work.digest, List.flatMap_cons, List.flatMap_nil, write32be_eq]
  rfl

theorem drop_pad (data : Bytes) :
    (Fips180.pad data).drop (data.length / 64 * 64) =
      data.drop (data.length / 64 * 64) ++ [0x80] ++ zeros (Fips180.padding data.length)
        ++ beBytes 8 (8 * data.length) := by
  have hle : data.length / 64 * 64 ≤ data.length := Nat.div_mul_le_self _ _
  rw [Fips180.pad, List.append_assoc, List.append_assoc, List.drop_append_of_le_length hle,
    List.append_assoc, List.append_assoc]

/-- **`sha256` は標準の SHA-256 である。** -/
theorem sha256_eq {data : Bytes} (h : data.length < 2 ^ 61) : sha256 data = Fips180.sha256 data := by
  have hconsume : Blocks.consume 64 64 sha256Compress sha256Init data =
      (Blocks.fold 64 sha256Compress (data.length / 64) sha256Init data,
        data.drop (data.length / 64 * 64)) := by
    rw [Blocks.consume_eq (by omega) (Nat.le_refl 64), Blocks.turns_self]
  have hq : data.length / 64 * 64 ≤ data.length := Nat.div_mul_le_self _ _
  have hn : (data.drop (data.length / 64 * 64)).length < 64 := by
    rw [List.length_drop]
    omega
  have hbits : (UInt64.ofNat data.length * 8).toNat = 8 * data.length := by
    rw [UInt64.toNat_mul, UInt64.toNat_ofNat', Nat.mod_eq_of_lt (show data.length < 2 ^ 64 by omega),
      show (8 : UInt64).toNat = 8 from rfl, Nat.mul_comm, Nat.mod_eq_of_lt (by omega)]
  -- 標準の塊は、データの塊に、終わりの buffer の塊を続けたものである
  have htail : (Fips180.pad data).drop (data.length / 64 * 64) =
      (sha256Tail (data.drop (data.length / 64 * 64)) (UInt64.ofNat data.length * 8)).take
        (sha256Used (data.drop (data.length / 64 * 64)).length) := by
    rw [drop_pad, tail_take hn, hbits]
    congr 3
    rw [List.length_drop, Fips180.padding, sha256Used]
    split <;> omega
  have hcount : (Fips180.pad data).length / 64 =
      data.length / 64 + sha256Used (data.drop (data.length / 64 * 64)).length / 64 := by
    rw [Fips180.length_pad, List.length_drop, Fips180.padding, sha256Used]
    split <;> omega
  have hbody : (Blocks.fold 64 sha256Compress (data.length / 64) sha256Init data).toWork =
      Blocks.fold 64 Fips180.compress (data.length / 64) Fips180.initialHash
        (Fips180.pad data) := by
    rw [← sha256Init_eq, Fips180.pad, List.append_assoc, List.append_assoc,
      Blocks.fold_append_left hq]
    refine Blocks.fold_hom Sha256Words.toWork fun s i hi => toWork_compress s _ ?_
    rw [Blocks.length_block ((Nat.mul_le_mul_right 64 hi).trans hq)]
  rw [Fips180.sha256, hcount, Blocks.fold_add, ← hbody, htail, ← toWork_finish, digest_toWork,
    sha256, hconsume]

end Fsx
