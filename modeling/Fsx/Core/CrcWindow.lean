import Fsx.Core.CrcDetect
import Fsx.Core.Packed

/-!
# 四 byte までの違いを見つける CRC

32 bit の CRC は、違いが続いた四 byte の中に収まる二つの列を必ず区別する。

四 byte までの列を足し込むことは、それを little endian の語として一度に足し、長さだけ進めることに等しい
（`foldl_crcStep_word`）。進める写像は単射なので、語が違えば結果も違う。
-/

namespace Fsx

section Window

variable {poly : UInt32}

/-- 下位の一 byte が 0 の語は、進めると一 byte 下がる。 -/
theorem crcByte_shiftLeft {x : UInt32} (h : x.toNat < 2 ^ 24) :
    crcByte poly (UInt32.ofNat (x.toNat * 256)) = x := by
  have hlt : x.toNat * 256 < 2 ^ 32 := by omega
  have hnat : (UInt32.ofNat (x.toNat * 256)).toNat = x.toNat * 256 := by
    rw [UInt32.toNat_ofNat', Nat.mod_eq_of_lt hlt]
  rw [crcByte_of_low poly (by rw [hnat]; omega), ← UInt32.toNat_inj, UInt32.toNat_shiftRight, hnat]
  show (x.toNat * 256) >>> 8 = x.toNat
  rw [Nat.shiftRight_eq_div_pow]
  omega

/-- 重ならない bit の和は排他的論理和である。 -/
theorem xor_shiftLeft {a k : Nat} (h : a < 2 ^ k) (b : Nat) : a ^^^ (b <<< k) = a + b * 2 ^ k := by
  rw [← lor_shiftLeft h]
  refine Nat.eq_of_testBit_eq fun i => ?_
  rw [Nat.testBit_xor, Nat.testBit_or, Nat.testBit_shiftLeft]
  by_cases hi : k ≤ i
  · rw [Nat.testBit_lt_two_pow (lt_of_lt_of_le h (Nat.pow_le_pow_right (by omega) hi))]
    simp
  · simp [hi]

theorem leNat_lt_of_length_le {bs : Bytes} {n : Nat} (h : bs.length ≤ n) : leNat bs < 256 ^ n :=
  lt_of_lt_of_le (leNat_lt bs) (Nat.pow_le_pow_right (by omega) h)

/-- 足し込む列を語にまとめる。 -/
theorem ofNat_leNat_cons (b : UInt8) {bs : Bytes} (h : bs.length ≤ 3) :
    UInt32.ofNat (leNat (b :: bs)) = b.toUInt32 ^^^ UInt32.ofNat (leNat bs * 256) := by
  have hbs : leNat bs < 256 ^ 3 := leNat_lt_of_length_le h
  have hb : b.toNat < 2 ^ 8 := b.toNat_lt
  rw [← UInt32.toNat_inj, UInt32.toNat_xor, UInt8.toNat_toUInt32, UInt32.toNat_ofNat',
    UInt32.toNat_ofNat', Nat.mod_eq_of_lt (show leNat bs * 256 < 2 ^ 32 by omega), leNat,
    Nat.mod_eq_of_lt (by omega), Nat.mul_comm 256, show (256 : Nat) = 2 ^ 8 from rfl,
    ← xor_shiftLeft hb, Nat.shiftLeft_eq]

/-- 四 byte までの列を足し込むことは、語を足して長さだけ進めることである。 -/
theorem foldl_crcStep_word {bs : Bytes} (h : bs.length ≤ 4) (c : UInt32) :
    bs.foldl (crcStep poly) c =
      (crcByte poly)^[bs.length] (c ^^^ UInt32.ofNat (leNat bs)) := by
  induction bs generalizing c with
  | nil => exact UInt32.xor_zero.symm
  | cons b bs ih =>
    rw [List.length_cons] at h ⊢
    have hbs : leNat bs < 256 ^ 3 := leNat_lt_of_length_le (by omega)
    have hword : (UInt32.ofNat (leNat bs)).toNat = leNat bs := by
      rw [UInt32.toNat_ofNat', Nat.mod_eq_of_lt (by omega)]
    have hshift := @crcByte_shiftLeft poly (UInt32.ofNat (leNat bs)) (by rw [hword]; omega)
    rw [hword] at hshift
    rw [List.foldl_cons, ih (by omega), crcStep_eq, Function.iterate_succ_apply,
      ofNat_leNat_cons b (by omega), ← UInt32.xor_assoc, crcByte_xor poly (c ^^^ b.toUInt32), hshift]

theorem crcByte_iterate_injective (hp : 2 ^ 31 ≤ poly.toNat) (n : Nat) :
    Function.Injective (crcByte poly)^[n] :=
  (crcByte_injective hp).iterate n

/-- **前後が等しく、四 byte までの真ん中だけが違う列の CRC は違う。** -/
theorem crcRun_window_ne (hp : 2 ^ 31 ≤ poly.toNat) (c : UInt32) (xs zs : Bytes) {w w' : Bytes}
    (hlen : w'.length = w.length) (hw : w.length ≤ 4) (hne : w' ≠ w) :
    crcRun poly c (xs ++ w' ++ zs) ≠ crcRun poly c (xs ++ w ++ zs) := by
  intro h
  rw [crcRun_eq, crcRun_eq, List.foldl_append, List.foldl_append, List.foldl_append,
    List.foldl_append] at h
  have hmid := foldl_crcStep_injective hp zs h
  rw [foldl_crcStep_word (hlen.le.trans hw), foldl_crcStep_word hw, hlen] at hmid
  have hword := UInt32.xor_right_inj _ |>.mp (crcByte_iterate_injective hp _ hmid)
  have hnat := congrArg UInt32.toNat hword
  have hlt := @leNat_lt_of_length_le w 4 hw
  have hlt' := @leNat_lt_of_length_le w' 4 (hlen.le.trans hw)
  rw [UInt32.toNat_ofNat', UInt32.toNat_ofNat', Nat.mod_eq_of_lt (by omega),
    Nat.mod_eq_of_lt (by omega)] at hnat
  refine hne ?_
  rw [← leBytes_leNat w', ← leBytes_leNat w, hnat, hlen]

/-- 四 byte までの上書きは、CRC を必ず変える。 -/
theorem crcRun_patch_ne (hp : 2 ^ 31 ≤ poly.toNat) (c : UInt32) {b w : Bytes} {off : Nat}
    (hoff : off + w.length ≤ b.length) (hw : w.length ≤ 4) (hne : slice b off w.length ≠ w) :
    crcRun poly c (patch b off w) ≠ crcRun poly c b := by
  have hlen : (slice b off w.length).length = w.length := length_slice hoff
  have hself := @patch_eq_append b off (slice b off w.length) (by rw [hlen]; exact hoff)
  rw [patch_slice, hlen] at hself
  rw [patch_eq_append hoff]
  nth_rewrite 3 [hself]
  exact crcRun_window_ne hp _ _ _ hlen.symm (hlen.le.trans hw) hne.symm

end Window

section Final

variable {b w : Bytes} {off : Nat} (hoff : off + w.length ≤ b.length) (hw : w.length ≤ 4)
  (hne : slice b off w.length ≠ w)
include hoff hw hne

/-- 上書きが四 byte までなら、CRC-32C は必ず変わる。 -/
theorem crc32cFinal_patch_ne : crc32cFinal (patch b off w) ≠ crc32cFinal b := by
  unfold crc32cFinal crc32c
  rw [ne_eq, UInt32.xor_left_inj]
  exact crcRun_patch_ne (by decide) _ hoff hw hne

/-- 上書きが四 byte までなら、IEEE の CRC-32 も必ず変わる。 -/
theorem crc32IeeeFinal_patch_ne : crc32IeeeFinal (patch b off w) ≠ crc32IeeeFinal b := by
  unfold crc32IeeeFinal crc32Ieee
  rw [ne_eq, UInt32.xor_left_inj]
  exact crcRun_patch_ne (by decide) _ hoff hw hne

end Final

end Fsx
