import Fsx.Core.Crc

/-!
# CRC が見つける変化

1 byte 進める写像は排他的論理和について線形で、生成多項式の最上位の bit が立っていれば単射である。
表を使って 8 byte ずつ進める実装は、1 byte ずつ進めるのと同じ値になる。
したがって、長さの同じ二つの列が 1 byte だけ違えば、CRC は必ず違う。
-/

namespace Fsx

section Linear

variable (poly : UInt32)

/-! ## 線形性 -/

theorem xor_and (a b m : UInt32) : (a ^^^ b) &&& m = (a &&& m) ^^^ (b &&& m) := by
  rw [← UInt32.toBitVec_inj]
  ext i hi
  simp only [UInt32.toBitVec_and, UInt32.toBitVec_xor, BitVec.getElem_and, BitVec.getElem_xor,
    Bool.and_xor_distrib_right]

theorem low_bit (c : UInt32) : c &&& 1 = 0 ∨ c &&& 1 = 1 := by
  have h : (c &&& 1).toNat = c.toNat % 2 := by
    rw [UInt32.toNat_and]
    exact Nat.and_one_is_mod _
  rcases Nat.mod_two_eq_zero_or_one c.toNat with h0 | h1
  · exact Or.inl (UInt32.toNat_inj.mp (h.trans h0))
  · exact Or.inr (UInt32.toNat_inj.mp (h.trans h1))

theorem crcBit_of_even {c : UInt32} (h : c &&& 1 = 0) : crcBit poly c = c >>> 1 := by
  unfold crcBit
  rw [if_neg (not_not.mpr h)]

theorem crcBit_of_odd {c : UInt32} (h : c &&& 1 = 1) : crcBit poly c = poly ^^^ (c >>> 1) := by
  unfold crcBit
  rw [if_pos (by rw [h]; decide)]

theorem crcBit_xor (a b : UInt32) : crcBit poly (a ^^^ b) = crcBit poly a ^^^ crcBit poly b := by
  have hand : (a ^^^ b) &&& 1 = (a &&& 1) ^^^ (b &&& 1) := xor_and a b 1
  rcases low_bit a with ha | ha <;> rcases low_bit b with hb | hb <;> rw [ha, hb] at hand
  · rw [crcBit_of_even poly ha, crcBit_of_even poly hb, crcBit_of_even poly hand, UInt32.shiftRight_xor]
  · rw [crcBit_of_even poly ha, crcBit_of_odd poly hb, crcBit_of_odd poly hand, UInt32.shiftRight_xor]
    ac_rfl
  · rw [crcBit_of_odd poly ha, crcBit_of_even poly hb, crcBit_of_odd poly hand, UInt32.shiftRight_xor]
    ac_rfl
  · have hself : ∀ x y : UInt32, x ^^^ y = poly ^^^ x ^^^ (poly ^^^ y) := fun x y => by
      calc x ^^^ y = (poly ^^^ poly) ^^^ (x ^^^ y) := by rw [UInt32.xor_self, UInt32.zero_xor]
        _ = poly ^^^ x ^^^ (poly ^^^ y) := by ac_rfl
    rw [crcBit_of_odd poly ha, crcBit_of_odd poly hb, crcBit_of_even poly hand, UInt32.shiftRight_xor]
    exact hself _ _

theorem crcByte_xor (a b : UInt32) : crcByte poly (a ^^^ b) = crcByte poly a ^^^ crcByte poly b := by
  unfold crcByte
  simp only [crcBit_xor]

theorem crcByte_zero : crcByte poly 0 = 0 := by
  have h := crcByte_xor poly 0 0
  rw [UInt32.xor_self] at h
  rw [h, UInt32.xor_self]

/-- 下位の bit が零なら、1 bit 進めるのは右に 1 bit ずらすことである。 -/
theorem crcBit_shift {c : UInt32} {k : Nat} (h : c.toNat % 2 ^ (k + 1) = 0) :
    (crcBit poly c).toNat = c.toNat / 2 ∧ (crcBit poly c).toNat % 2 ^ k = 0 := by
  have heven : c &&& 1 = 0 := by
    have hdvd : (2 : Nat) ∣ 2 ^ (k + 1) := ⟨2 ^ k, by rw [Nat.pow_succ, Nat.mul_comm]⟩
    have hmod := Nat.mod_eq_zero_of_dvd (hdvd.trans (Nat.dvd_of_mod_eq_zero h))
    rw [← UInt32.toNat_inj, UInt32.toNat_and]
    exact (Nat.and_one_is_mod _).trans hmod
  have hval : (crcBit poly c).toNat = c.toNat / 2 := by
    rw [crcBit_of_even poly heven, UInt32.toNat_shiftRight]
    exact Nat.shiftRight_eq_div_pow _ 1
  refine ⟨hval, ?_⟩
  obtain ⟨q, hq⟩ := Nat.dvd_of_mod_eq_zero h
  rw [hval, hq, Nat.pow_succ, Nat.mul_right_comm, Nat.mul_div_cancel _ (by decide : 0 < 2),
    Nat.mul_mod_right]

/-- 下位の 8 bit が零なら、1 byte 進めるのは右に 8 bit ずらすことである。 -/
theorem crcByte_of_low {c : UInt32} (h : c.toNat % 2 ^ 8 = 0) : crcByte poly c = c >>> 8 := by
  have hval : (crcByte poly c).toNat = c.toNat / 2 / 2 / 2 / 2 / 2 / 2 / 2 / 2 := by
    obtain ⟨e1, h⟩ := @crcBit_shift poly _ 7 h
    obtain ⟨e2, h⟩ := @crcBit_shift poly _ 6 h
    obtain ⟨e3, h⟩ := @crcBit_shift poly _ 5 h
    obtain ⟨e4, h⟩ := @crcBit_shift poly _ 4 h
    obtain ⟨e5, h⟩ := @crcBit_shift poly _ 3 h
    obtain ⟨e6, h⟩ := @crcBit_shift poly _ 2 h
    obtain ⟨e7, h⟩ := @crcBit_shift poly _ 1 h
    obtain ⟨e8, -⟩ := @crcBit_shift poly _ 0 h
    rw [← e1, ← e2, ← e3, ← e4, ← e5, ← e6, ← e7, ← e8]
    rfl
  have hshift : (c >>> 8).toNat = c.toNat / 2 ^ 8 := by
    rw [UInt32.toNat_shiftRight]
    exact Nat.shiftRight_eq_div_pow _ 8
  rw [← UInt32.toNat_inj, hval, hshift]
  omega

/-- 上位の 24 bit だけを残した値。 -/
theorem high_bits (c : UInt32) : (c ^^^ (c &&& 0xff)).toNat % 2 ^ 8 = 0 ∧
    (c ^^^ (c &&& 0xff)) >>> 8 = c >>> 8 := by
  have hlow : (c &&& 0xff).toNat = c.toNat % 2 ^ 8 := by
    rw [UInt32.toNat_and]
    exact Nat.and_two_pow_sub_one_eq_mod c.toNat 8
  constructor
  · rw [UInt32.toNat_xor, hlow, Nat.xor_mod_two_pow, Nat.mod_mod, Nat.xor_self]
  · have hz : (c &&& 0xff) >>> 8 = 0 := by
      rw [← UInt32.toNat_inj, UInt32.toNat_shiftRight, hlow]
      show (c.toNat % 2 ^ 8) >>> 8 = 0
      rw [Nat.shiftRight_eq_div_pow]
      omega
    rw [UInt32.shiftRight_xor, hz, UInt32.xor_zero]

/-- 1 byte 進めるのは、下位の 8 bit を表で引き、残りをずらすことである。 -/
theorem crcByte_split (c : UInt32) : crcByte poly c = crcByte poly (c &&& 0xff) ^^^ (c >>> 8) := by
  obtain ⟨hmod, hshift⟩ := high_bits c
  have hsplit : c = (c &&& 0xff) ^^^ (c ^^^ (c &&& 0xff)) := by
    rw [UInt32.xor_comm c, ← UInt32.xor_assoc, UInt32.xor_self, UInt32.zero_xor]
  calc crcByte poly c = crcByte poly ((c &&& 0xff) ^^^ (c ^^^ (c &&& 0xff))) := by rw [← hsplit]
    _ = crcByte poly (c &&& 0xff) ^^^ crcByte poly (c ^^^ (c &&& 0xff)) := crcByte_xor ..
    _ = crcByte poly (c &&& 0xff) ^^^ (c >>> 8) := by rw [crcByte_of_low poly hmod, hshift]

theorem byte_shift (b : UInt8) : b.toUInt32 >>> 8 = 0 := by
  have hlt := b.toNat_lt
  rw [← UInt32.toNat_inj, UInt32.toNat_shiftRight, UInt8.toNat_toUInt32]
  show b.toNat >>> 8 = 0
  rw [Nat.shiftRight_eq_div_pow]
  omega

/-- `run` の後半のループの本体は、byte を足し込んでから 1 byte 進めることである。 -/
theorem crcStep_eq (c : UInt32) (b : UInt8) : crcStep poly c b = crcByte poly (c ^^^ b.toUInt32) := by
  unfold crcStep
  rw [crcByte_split poly (c ^^^ b.toUInt32), UInt32.shiftRight_xor, byte_shift, UInt32.xor_zero]
  rfl

/-! ## 8 byte ずつ進める -/

theorem table_eq (n : Nat) (i : UInt32) : table poly n i = (crcByte poly)^[n + 1] i := by
  induction n with
  | zero => rfl
  | succ n ih =>
    rw [Function.iterate_succ_apply', ← ih, crcByte_split]
    rfl

theorem iterate_xor (n : Nat) (a b : UInt32) :
    (crcByte poly)^[n] (a ^^^ b) = (crcByte poly)^[n] a ^^^ (crcByte poly)^[n] b := by
  induction n generalizing a b with
  | zero => rfl
  | succ n ih => rw [Function.iterate_succ_apply, crcByte_xor, ih]; rfl

theorem iterate_zero (n : Nat) : (crcByte poly)^[n] 0 = 0 := by
  induction n with
  | zero => rfl
  | succ n ih => rw [Function.iterate_succ_apply, crcByte_zero, ih]

/-- 下位の byte を表で引き、残りは一つ少なく進める。 -/
theorem iterate_split (n : Nat) (c : UInt32) : (crcByte poly)^[n + 1] c =
    (crcByte poly)^[n + 1] (c &&& 0xff) ^^^ (crcByte poly)^[n] (c >>> 8) := by
  rw [Function.iterate_succ_apply, crcByte_split, iterate_xor]
  rfl

/-- byte の列を足し込みながら進めた値は、始めの値と各 byte を別々に進めた値の和である。 -/
theorem foldl_crcStep (bs : Bytes) (c : UInt32) : bs.foldl (crcStep poly) c =
    (crcByte poly)^[bs.length] c ^^^ bs.foldl (crcStep poly) 0 := by
  induction bs generalizing c with
  | nil => exact (UInt32.xor_zero).symm
  | cons b bs ih =>
    rw [List.foldl_cons, List.foldl_cons, ih, ih (crcStep poly 0 b), crcStep_eq, crcStep_eq,
      UInt32.zero_xor, crcByte_xor, iterate_xor, List.length_cons, Function.iterate_succ_apply]
    ac_rfl

theorem foldl_crcStep_cons (b : UInt8) (bs : Bytes) : (b :: bs).foldl (crcStep poly) 0 =
    (crcByte poly)^[bs.length + 1] b.toUInt32 ^^^ bs.foldl (crcStep poly) 0 := by
  rw [List.foldl_cons, foldl_crcStep, crcStep_eq, UInt32.zero_xor, Function.iterate_succ_apply]

/-- 8 byte の値から取り出した byte。 -/
theorem lane_toNat (x k : UInt64) (hk : k.toNat < 64) :
    ((x >>> k) &&& 0xff).toUInt32.toNat = x.toNat / 2 ^ k.toNat % 256 := by
  have hand : ((x >>> k) &&& 0xff).toNat = x.toNat / 2 ^ k.toNat % 256 := by
    rw [UInt64.toNat_and, UInt64.toNat_shiftRight, Nat.mod_eq_of_lt hk, Nat.shiftRight_eq_div_pow]
    exact Nat.and_two_pow_sub_one_eq_mod _ 8
  rw [UInt64.toNat_toUInt32, hand]
  omega

theorem leNat_div_mod : ∀ (bs : Bytes) (j : Nat),
    leNat bs / 256 ^ j % 256 = (bs.getD j 0).toNat
  | [], j => by simp [leNat]
  | b :: bs, 0 => by
    have hlt := b.toNat_lt
    rw [leNat, Nat.pow_zero, Nat.div_one, List.getD_cons_zero]
    omega
  | b :: bs, j + 1 => by
    have hlt := b.toNat_lt
    rw [leNat, Nat.pow_succ', ← Nat.div_div_eq_div_mul, List.getD_cons_succ, ← leNat_div_mod bs j]
    congr 2
    omega

/-- 8 byte の値に始めの値を足し込んだものの、`j` 番目の byte。 -/
theorem lane_eq {bs : Bytes} (hlen : bs.length = 8) (c : UInt32) (k : UInt64) (j : Nat)
    (hk : k.toNat = 8 * j) (hj : j < 8) :
    (((UInt64.ofNat (leNat bs) ^^^ c.toUInt64) >>> k) &&& 0xff).toUInt32 =
      (bs.getD j 0).toUInt32 ^^^ ((c.toUInt64 >>> k) &&& 0xff).toUInt32 := by
  have hnat : (UInt64.ofNat (leNat bs)).toNat = leNat bs := by
    have hlt := leNat_lt bs
    rw [hlen] at hlt
    exact UInt64.toNat_ofNat_of_lt' hlt
  have hdist : ((UInt64.ofNat (leNat bs) ^^^ c.toUInt64) >>> k) &&& 0xff =
      ((UInt64.ofNat (leNat bs) >>> k) &&& 0xff) ^^^ ((c.toUInt64 >>> k) &&& 0xff) := by
    rw [UInt64.shiftRight_xor, ← UInt64.toBitVec_inj]
    ext i hi
    simp only [UInt64.toBitVec_and, UInt64.toBitVec_xor, BitVec.getElem_and, BitVec.getElem_xor,
      Bool.and_xor_distrib_right]
  have hbyte : ((UInt64.ofNat (leNat bs) >>> k) &&& 0xff).toUInt32 = (bs.getD j 0).toUInt32 := by
    rw [← UInt32.toNat_inj, lane_toNat _ _ (by omega), hnat, hk, Nat.pow_mul, UInt8.toNat_toUInt32]
    exact leNat_div_mod bs j
  rw [hdist, UInt64.toUInt32_xor, hbyte]

/-- 始めの値の `k` bit 目からの byte。 -/
theorem seed_lane (c : UInt32) (k : UInt64) (k' : UInt32) (hk : k.toNat < 32) (hk' : k'.toNat = k.toNat) :
    ((c.toUInt64 >>> k) &&& 0xff).toUInt32 = (c >>> k') &&& 0xff := by
  rw [← UInt32.toNat_inj, lane_toNat _ _ (by omega), UInt32.toNat_and, UInt32.toNat_shiftRight, hk',
    Nat.mod_eq_of_lt hk, Nat.shiftRight_eq_div_pow, UInt32.toNat_toUInt64]
  exact (Nat.and_two_pow_sub_one_eq_mod _ 8).symm

theorem seed_lane_high (c : UInt32) (k : UInt64) (hk : 32 ≤ k.toNat) (hk' : k.toNat < 64) :
    ((c.toUInt64 >>> k) &&& 0xff).toUInt32 = 0 := by
  have hlt := c.toNat_lt
  have hpow : 2 ^ 32 ≤ 2 ^ k.toNat := Nat.pow_le_pow_right (by decide) hk
  rw [← UInt32.toNat_inj, lane_toNat _ _ hk', UInt32.toNat_toUInt64,
    Nat.div_eq_of_lt (Nat.lt_of_lt_of_le hlt hpow)]
  rfl

/-- 始めの値を 8 byte 進めるのは、その 4 byte を別々に進めることである。 -/
theorem iterate_eight (c : UInt32) : (crcByte poly)^[8] c =
    (crcByte poly)^[8] ((c >>> 0) &&& 0xff) ^^^ ((crcByte poly)^[7] ((c >>> 8) &&& 0xff) ^^^
      ((crcByte poly)^[6] ((c >>> 16) &&& 0xff) ^^^ (crcByte poly)^[5] ((c >>> 24) &&& 0xff))) := by
  have hshift : ∀ {a b s : UInt32}, a.toNat + b.toNat = s.toNat → s.toNat < 32 →
      (c >>> a) >>> b = c >>> s := by
    intro a b s hab hs
    rw [← UInt32.toNat_inj]
    simp only [UInt32.toNat_shiftRight]
    rw [Nat.mod_eq_of_lt (by omega), Nat.mod_eq_of_lt (by omega), Nat.mod_eq_of_lt hs, ← hab,
      Nat.shiftRight_add]
  have hlast : (c >>> 24) >>> 8 = 0 := by
    have hlt := c.toNat_lt
    rw [← UInt32.toNat_inj]
    simp only [UInt32.toNat_shiftRight]
    show (c.toNat >>> 24) >>> 8 = 0
    rw [Nat.shiftRight_eq_div_pow, Nat.shiftRight_eq_div_pow]
    omega
  rw [UInt32.shiftRight_zero, iterate_split poly 7, iterate_split poly 6, iterate_split poly 5,
    iterate_split poly 4, @hshift 8 8 16 rfl (by decide), @hshift 16 8 24 rfl (by decide), hlast,
    iterate_zero, UInt32.xor_zero]

/-- **`run` の前半のループの本体は、1 byte ずつ 8 回進めるのと同じである。** -/
theorem crcStep8_eq (c : UInt32) (b0 b1 b2 b3 b4 b5 b6 b7 : UInt8) :
    crcStep8 poly c [b0, b1, b2, b3, b4, b5, b6, b7] =
      [b0, b1, b2, b3, b4, b5, b6, b7].foldl (crcStep poly) c := by
  have hlen : [b0, b1, b2, b3, b4, b5, b6, b7].length = 8 := rfl
  unfold crcStep8
  dsimp only
  rw [lane_eq hlen c 0 0 rfl (by decide), lane_eq hlen c 8 1 rfl (by decide),
    lane_eq hlen c 16 2 rfl (by decide), lane_eq hlen c 24 3 rfl (by decide),
    lane_eq hlen c 32 4 rfl (by decide), lane_eq hlen c 40 5 rfl (by decide),
    lane_eq hlen c 48 6 rfl (by decide), lane_eq hlen c 56 7 rfl (by decide),
    seed_lane c 0 0 (by decide) rfl, seed_lane c 8 8 (by decide) rfl,
    seed_lane c 16 16 (by decide) rfl, seed_lane c 24 24 (by decide) rfl,
    seed_lane_high c 32 (by decide) (by decide), seed_lane_high c 40 (by decide) (by decide),
    seed_lane_high c 48 (by decide) (by decide), seed_lane_high c 56 (by decide) (by decide)]
  rw [foldl_crcStep, hlen, iterate_eight]
  simp only [table_eq, iterate_xor, UInt32.xor_zero, List.getD_cons_zero, List.getD_cons_succ,
    foldl_crcStep_cons, List.foldl_nil, List.length_cons, List.length_nil, Nat.reduceAdd]
  ac_rfl

/-- **表を使う `run` は、1 byte ずつ進めるのと同じである。** -/
theorem crcRun_eq (c : UInt32) (bs : Bytes) : crcRun poly c bs = bs.foldl (crcStep poly) c := by
  fun_induction crcRun poly c bs with
  | case1 c b0 b1 b2 b3 b4 b5 b6 b7 rest ih =>
    rw [ih, crcStep8_eq]
    simp only [List.foldl_cons, List.foldl_nil]
  | case2 c bs _ => rfl

/-! ## 単射性 -/

section Injective

variable {poly : UInt32} (hp : 2 ^ 31 ≤ poly.toNat)
include hp

theorem crcBit_eq_zero {x : UInt32} (h : crcBit poly x = 0) : x = 0 := by
  have hlt := x.toNat_lt
  have hshift : (x >>> 1).toNat = x.toNat / 2 := by
    rw [UInt32.toNat_shiftRight]
    exact Nat.shiftRight_eq_div_pow _ 1
  rcases low_bit x with he | ho
  · rw [crcBit_of_even poly he] at h
    have hmod : x.toNat % 2 = 0 := by
      have := congrArg UInt32.toNat he
      rw [UInt32.toNat_and] at this
      exact (Nat.and_one_is_mod _).symm.trans this
    rw [h] at hshift
    have hz : (0 : UInt32).toNat = 0 := rfl
    rw [← UInt32.toNat_inj]
    omega
  · -- 奇数なら最上位の bit が残る
    rw [crcBit_of_odd poly ho, UInt32.xor_eq_zero_iff] at h
    rw [h, hshift] at hp
    omega

theorem crcByte_eq_zero {x : UInt32} (h : crcByte poly x = 0) : x = 0 := by
  unfold crcByte at h
  exact crcBit_eq_zero hp (crcBit_eq_zero hp (crcBit_eq_zero hp (crcBit_eq_zero hp
    (crcBit_eq_zero hp (crcBit_eq_zero hp (crcBit_eq_zero hp (crcBit_eq_zero hp h)))))))

theorem crcByte_injective : Function.Injective (crcByte poly) := by
  intro a b h
  rw [← UInt32.xor_eq_zero_iff, ← crcByte_xor] at h
  exact UInt32.xor_eq_zero_iff.mp (crcByte_eq_zero hp h)

/-- 後ろに同じ列が続くかぎり、違いは消えない。 -/
theorem foldl_crcStep_injective (bs : Bytes) : Function.Injective (bs.foldl (crcStep poly)) := by
  induction bs with
  | nil =>
    intro a b h
    exact h
  | cons b bs ih =>
    intro x y h
    have hstep := ih h
    rw [crcStep_eq, crcStep_eq] at hstep
    exact UInt32.xor_left_inj _ |>.mp (crcByte_injective hp hstep)

/-- **1 byte だけ違う列の CRC は違う。** -/
theorem crcRun_set_ne (c : UInt32) (bs : Bytes) {k : Nat} {v : UInt8} (hk : k < bs.length)
    (hv : bs.getD k 0 ≠ v) : crcRun poly c (bs.set k v) ≠ crcRun poly c bs := by
  rw [crcRun_eq, crcRun_eq]
  induction bs generalizing c k with
  | nil => cases hk
  | cons b bs ih =>
    cases k with
    | succ k => exact ih (crcStep poly c b) (Nat.lt_of_succ_lt_succ hk) hv
    | zero =>
      intro h
      have hstep := foldl_crcStep_injective hp bs h
      rw [crcStep_eq, crcStep_eq] at hstep
      have hbyte := UInt32.xor_right_inj _ |>.mp (crcByte_injective hp hstep)
      have hnat := congrArg UInt32.toNat hbyte
      rw [UInt8.toNat_toUInt32, UInt8.toNat_toUInt32] at hnat
      exact hv (UInt8.toNat_inj.mp hnat).symm

end Injective

end Linear

/-- 列を区切って順に計算しても、CRC は変わらない。 -/
theorem crc32c_append (xs ys : Bytes) (seed : UInt32) :
    crc32c (xs ++ ys) seed = crc32c ys (crc32c xs seed) := by
  unfold crc32c
  rw [crcRun_eq, crcRun_eq, crcRun_eq, List.foldl_append]

/-- journal・image の checksum は 1 byte の変化を必ず見つける。 -/
theorem crc32cFinal_set_ne (bs : Bytes) {k : Nat} {v : UInt8} (hk : k < bs.length)
    (hv : bs.getD k 0 ≠ v) : crc32cFinal (bs.set k v) ≠ crc32cFinal bs := by
  unfold crc32cFinal crc32c
  rw [ne_eq, UInt32.xor_left_inj]
  exact crcRun_set_ne (by decide) _ _ hk hv

end Fsx
