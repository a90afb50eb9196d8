import Fsx.Core.Packed

/-!
# byte 列と固定幅の語

byte を一つずつ shift と or で組み立てた語は、little endian または big endian で読んだ数であり、
shift で取り出した byte はその逆である。shift 二つの or による回転は、bit 列の回転である。
-/

namespace Fsx

/-! ## big endian -/

/-- 上位の byte から読んだ値。 -/
def beNat (b : Bytes) : Nat := leNat b.reverse

/-- 値の下位 `n` byte を上位から並べたもの。 -/
def beBytes (n v : Nat) : Bytes := (leBytes n v).reverse

@[simp] theorem length_beBytes (n v : Nat) : (beBytes n v).length = n := by
  rw [beBytes, List.length_reverse, length_leBytes]

/-- `read_be`。`n` は byte 数である。 -/
def readBe (n : Nat) (b : Bytes) (off : Nat) : Nat := beNat (slice b off n)

theorem leNat_take_succ (b : Bytes) (n : Nat) :
    leNat (b.take (n + 1)) = leNat (b.take n) + (b.getD n 0).toNat * 256 ^ n := by
  rw [leNat_take, leNat_take, toNat_getD, Nat.pow_succ, Nat.mod_mul, Nat.mul_comm (256 ^ n)]

theorem leNat_take_lt (b : Bytes) (n : Nat) : leNat (b.take n) < 256 ^ n := by
  rw [leNat_take]
  exact Nat.mod_lt _ (Nat.pow_pos (by omega))

/-- 一 byte を上に重ねる。 -/
theorem leNat_take_lor (b : Bytes) (n : Nat) :
    leNat (b.take n) ||| ((b.getD n 0).toNat <<< (n * 8)) = leNat (b.take (n + 1)) := by
  have hlt : leNat (b.take n) < 2 ^ (n * 8) := by
    rw [Nat.mul_comm, Nat.pow_mul]
    exact leNat_take_lt b n
  rw [lor_shiftLeft hlt, leNat_take_succ, Nat.mul_comm n, Nat.pow_mul]

theorem shiftLeft_byte_lt (x : UInt8) {n w : Nat} (h : 8 + n * 8 ≤ w) :
    x.toNat <<< (n * 8) < 2 ^ w := by
  rw [Nat.shiftLeft_eq]
  calc x.toNat * 2 ^ (n * 8) < 2 ^ 8 * 2 ^ (n * 8) :=
        Nat.mul_lt_mul_of_pos_right x.toNat_lt (Nat.pow_pos (by omega))
    _ = 2 ^ (8 + n * 8) := (Nat.pow_add _ _ _).symm
    _ ≤ 2 ^ w := Nat.pow_le_pow_right (by omega) h

/-- 下位から順に byte を重ねた 64 bit の語。 -/
theorem toNat_foldl_uint64 (b : Bytes) {n : Nat} (hn : n ≤ 8) :
    ((List.range n).foldl
      (fun v i => v ||| (b.getD i 0).toUInt64 <<< UInt64.ofNat (i * 8)) 0).toNat =
      leNat (b.take n) := by
  induction n with
  | zero => rw [List.take_zero]; rfl
  | succ n ih =>
    rw [List.range_succ, List.foldl_append, List.foldl_cons, List.foldl_nil, UInt64.toNat_or,
      ih (by omega), UInt64.toNat_shiftLeft, UInt8.toNat_toUInt64, UInt64.toNat_ofNat',
      Nat.mod_eq_of_lt (show n * 8 < 2 ^ 64 by omega), Nat.mod_eq_of_lt (show n * 8 < 64 by omega),
      Nat.mod_eq_of_lt (shiftLeft_byte_lt _ (by omega)), leNat_take_lor]

/-- 下位から順に byte を重ねた 32 bit の語。 -/
theorem toNat_foldl_uint32 (b : Bytes) {n : Nat} (hn : n ≤ 4) :
    ((List.range n).foldl
      (fun v i => v ||| (b.getD i 0).toUInt32 <<< UInt32.ofNat (i * 8)) 0).toNat =
      leNat (b.take n) := by
  induction n with
  | zero => rw [List.take_zero]; rfl
  | succ n ih =>
    rw [List.range_succ, List.foldl_append, List.foldl_cons, List.foldl_nil, UInt32.toNat_or,
      ih (by omega), UInt32.toNat_shiftLeft, UInt8.toNat_toUInt32, UInt32.toNat_ofNat',
      Nat.mod_eq_of_lt (show n * 8 < 2 ^ 32 by omega), Nat.mod_eq_of_lt (show n * 8 < 32 by omega),
      Nat.mod_eq_of_lt (shiftLeft_byte_lt _ (by omega)), leNat_take_lor]

/-! ## byte への分解 -/

theorem leBytes_eq_map (n v : Nat) :
    leBytes n v = (List.range n).map fun i => UInt8.ofNat (v / 256 ^ i % 256) := by
  induction n generalizing v with
  | zero => rfl
  | succ n ih =>
    rw [List.range_succ_eq_map, List.map_cons, List.map_map, leBytes, ih]
    congr 1
    · rw [Nat.pow_zero, Nat.div_one]
    · refine List.map_congr_left fun i _ => ?_
      rw [Function.comp_apply, Nat.succ_eq_add_one, Nat.pow_succ', Nat.div_div_eq_div_mul]

theorem shiftRight_and_255 (v i : Nat) : v >>> (i * 8) &&& 255 = v / 256 ^ i % 256 := by
  rw [Nat.shiftRight_eq_div_pow, Nat.mul_comm, Nat.pow_mul]
  exact Nat.and_two_pow_sub_one_eq_mod _ 8

/-- 64 bit の語の `i` 番の byte。 -/
theorem byte_uint64 (v : UInt64) {i : Nat} (hi : i < 8) :
    ((v >>> UInt64.ofNat (i * 8)) &&& 0xff).toUInt8 = UInt8.ofNat (v.toNat / 256 ^ i % 256) := by
  apply UInt8.toNat_inj.mp
  rw [UInt64.toNat_toUInt8, UInt64.toNat_and, UInt64.toNat_shiftRight, UInt64.toNat_ofNat',
    Nat.mod_eq_of_lt (show i * 8 < 2 ^ 64 by omega), Nat.mod_eq_of_lt (show i * 8 < 64 by omega),
    show (0xff : UInt64).toNat = 255 from rfl, shiftRight_and_255, UInt8.toNat_ofNat']

/-- 32 bit の語の `i` 番の byte。 -/
theorem byte_uint32 (v : UInt32) {i : Nat} (hi : i < 4) :
    ((v >>> UInt32.ofNat (i * 8)) &&& 0xff).toUInt8 = UInt8.ofNat (v.toNat / 256 ^ i % 256) := by
  apply UInt8.toNat_inj.mp
  rw [UInt32.toNat_toUInt8, UInt32.toNat_and, UInt32.toNat_shiftRight, UInt32.toNat_ofNat',
    Nat.mod_eq_of_lt (show i * 8 < 2 ^ 32 by omega), Nat.mod_eq_of_lt (show i * 8 < 32 by omega),
    show (0xff : UInt32).toNat = 255 from rfl, shiftRight_and_255, UInt8.toNat_ofNat']

/-! ## 回転 -/

/-- 二つの shift の or は左回転である。 -/
theorem toBitVec_rotateLeft64 (x : UInt64) {r : Nat} (h0 : 0 < r) (hr : r < 64) :
    (x <<< UInt64.ofNat r ||| x >>> UInt64.ofNat (64 - r)).toBitVec = x.toBitVec.rotateLeft r := by
  have hsub : (64 - r) % 64 = 64 - r := Nat.mod_eq_of_lt (by omega)
  simp [BitVec.rotateLeft_def, Nat.mod_eq_of_lt hr, hsub]

/-- 二つの shift の or は右回転である。 -/
theorem toBitVec_rotateRight64 (x : UInt64) {r : Nat} (h0 : 0 < r) (hr : r < 64) :
    (x >>> UInt64.ofNat r ||| x <<< UInt64.ofNat (64 - r)).toBitVec = x.toBitVec.rotateRight r := by
  have hsub : (64 - r) % 64 = 64 - r := Nat.mod_eq_of_lt (by omega)
  simp [BitVec.rotateRight_def, Nat.mod_eq_of_lt hr, hsub]

/-- 32 bit の語の右回転。 -/
theorem toBitVec_rotateRight32 (x : UInt32) {r : Nat} (h0 : 0 < r) (hr : r < 32) :
    (x >>> UInt32.ofNat r ||| x <<< UInt32.ofNat (32 - r)).toBitVec = x.toBitVec.rotateRight r := by
  have hsub : (32 - r) % 32 = 32 - r := Nat.mod_eq_of_lt (by omega)
  simp [BitVec.rotateRight_def, Nat.mod_eq_of_lt hr, hsub]

end Fsx
