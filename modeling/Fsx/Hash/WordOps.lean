import Fsx.Core.Words
import Fsx.Hash.Model

/-!
# 語の読み書きと回転

`hash.cpp` の `rotl64`・`read64le`・`write32be` などが、bit 列の回転と、little endian または
big endian の読み書きであること。
-/

namespace Fsx

/-! ## 回転 -/

theorem toBitVec_rotl64 (x : UInt64) {r : Nat} (h0 : 0 < r) (hr : r < 64) :
    (rotl64 x r).toBitVec = x.toBitVec.rotateLeft r := toBitVec_rotateLeft64 x h0 hr

theorem toBitVec_rotr64 (x : UInt64) {r : Nat} (h0 : 0 < r) (hr : r < 64) :
    (rotr64 x r).toBitVec = x.toBitVec.rotateRight r := toBitVec_rotateRight64 x h0 hr

theorem toBitVec_rotr32 (x : UInt32) {r : Nat} (h0 : 0 < r) (hr : r < 32) :
    (rotr32 x r).toBitVec = x.toBitVec.rotateRight r := toBitVec_rotateRight32 x h0 hr

/-! ## 読み書き -/

theorem toNat_read32le (p : Bytes) : (read32le p).toNat = leNat (p.take 4) :=
  toNat_foldl_uint32 p (Nat.le_refl 4)

theorem toNat_read64le (p : Bytes) : (read64le p).toNat = leNat (p.take 8) :=
  toNat_foldl_uint64 p (Nat.le_refl 8)

theorem read32be_eq (a b c d : UInt8) (rest : Bytes) :
    read32be (a :: b :: c :: d :: rest) = read32le [d, c, b, a] := by
  have hle : read32le [d, c, b, a] = (0 : UInt32) ||| (d.toUInt32 <<< 0)
      ||| (c.toUInt32 <<< 8) ||| (b.toUInt32 <<< 16) ||| (a.toUInt32 <<< 24) := rfl
  have hbe : read32be (a :: b :: c :: d :: rest) = (a.toUInt32 <<< 24) ||| (b.toUInt32 <<< 16)
      ||| (c.toUInt32 <<< 8) ||| d.toUInt32 := rfl
  rw [hle, hbe, UInt32.zero_or, UInt32.shiftLeft_zero]
  generalize a.toUInt32 <<< 24 = x
  generalize b.toUInt32 <<< 16 = y
  generalize c.toUInt32 <<< 8 = z
  ac_rfl

theorem toNat_read32be {p : Bytes} (h : 4 ≤ p.length) :
    (read32be p).toNat = beNat (p.take 4) := by
  obtain ⟨a, b, c, d, rest, rfl⟩ : ∃ a b c d rest, p = a :: b :: c :: d :: rest := by
    rcases p with _ | ⟨a, _ | ⟨b, _ | ⟨c, _ | ⟨d, rest⟩⟩⟩⟩ <;> simp at h
    exact ⟨a, b, c, d, rest, rfl⟩
  rw [read32be_eq, toNat_read32le]
  rfl

theorem write64le_eq (v : UInt64) : write64le v = leBytes 8 v.toNat := by
  rw [leBytes_eq_map, write64le]
  exact List.map_congr_left fun i hi => byte_uint64 v (List.mem_range.mp hi)

theorem write32be_eq (v : UInt32) : write32be v = beBytes 4 v.toNat := by
  rw [beBytes, leBytes_eq_map, ← List.map_congr_left fun i hi => byte_uint32 v (List.mem_range.mp hi)]
  rfl

end Fsx
