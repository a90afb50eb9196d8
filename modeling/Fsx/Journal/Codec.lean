import Fsx.Core.CrcDetect
import Fsx.Journal.Format

/-!
# journal の形式と 1 byte の損傷

header も record も、末尾の 4 byte に、その手前のすべての byte の CRC32C を持つ。
1 byte だけが変われば、末尾の手前なら CRC が変わり、末尾なら書かれた値が変わる。
どちらにしても decode は失敗する。使っていない余白の byte も例外でない。
-/

namespace Fsx

/-! ## 末尾の CRC -/

section Trailer

variable {b : Bytes} {n k : Nat} {v : UInt8}

theorem leNat_injective {a b : Bytes} (hlen : a.length = b.length) (h : leNat a = leNat b) : a = b := by
  rw [← leBytes_leNat a, ← leBytes_leNat b, h, hlen]

theorem slice_set_of_lt {off m : Nat} (hk : k < off) : slice (b.set k v) off m = slice b off m := by
  unfold slice
  rw [List.drop_set_of_lt hk]

/-- **末尾に CRC を持つ列の 1 byte を変えると、CRC は合わなくなる。** -/
theorem trailer_set_ne (hlen : b.length = n + 4) (hk : k < n + 4) (hv : b.getD k 0 ≠ v)
    (h : readLe 4 b n = (crc32cFinal (b.take n)).toNat) :
    readLe 4 (b.set k v) n ≠ (crc32cFinal ((b.set k v).take n)).toNat := by
  intro hc
  rcases Nat.lt_or_ge k n with hlt | hge
  · -- CRC の範囲の中
    have hget : (b.take n).getD k 0 ≠ v := by
      rwa [List.getD_eq_getElem?_getD, List.getElem?_take_of_lt hlt, ← List.getD_eq_getElem?_getD]
    unfold readLe at hc h
    rw [slice_set_of_lt hlt, List.take_set, h] at hc
    exact crc32cFinal_set_ne (b.take n) (by rw [List.length_take]; omega) hget
      (UInt32.toNat_inj.mp hc).symm
  · -- 書かれた CRC の中
    rw [List.take_set_of_le hge, ← h] at hc
    unfold readLe at hc
    have hslice := leNat_injective (by rw [length_slice (by rw [List.length_set]; omega),
      length_slice (by omega)]) hc
    have hat := congrArg (fun s => s[k - n]?) hslice
    rw [getElem?_slice, getElem?_slice, if_pos (by omega), if_pos (by omega),
      show n + (k - n) = k by omega, List.getElem?_set_self (by omega)] at hat
    rw [List.getD_eq_getElem?_getD, ← hat] at hv
    exact hv rfl

end Trailer

/-! ## decode -/

/-- 末尾の CRC が合わない header は読めない。 -/
theorem decodeHeader_of_trailer {b : Bytes} (hlen : b.length = 4096)
    (h : readLe 4 b 4092 ≠ (crc32cFinal (b.take 4092)).toNat) : ∃ e, decodeHeader b = .error e := by
  have htmp : (writeLe 4 (b.take 4096) 4092 0).take 4092 = b.take 4092 := by
    rw [writeLe, take_patch_of_le (by omega), List.take_take, Nat.min_eq_left (by omega)]
  unfold decodeHeader
  dsimp only
  rw [htmp, if_neg (by omega)]
  by_cases hm : slice b 0 8 ≠ headerMagic
  · rw [if_pos hm]
    exact ⟨_, rfl⟩
  · rw [if_neg hm]
    by_cases hv : readLe 4 b 8 ≠ headerVersion ∨ readLe 4 b 12 ≠ 4096
    · rw [if_pos hv]
      exact ⟨_, rfl⟩
    · rw [if_neg hv, if_pos h]
      exact ⟨_, rfl⟩

/-- 末尾の CRC が合わない record は読めない。 -/
theorem decodeRecord_of_trailer {b : Bytes} (h : readLe 4 b 124 ≠ (crc32cFinal (b.take 124)).toNat) : ∃ e, decodeRecord b = .error e := by
  have htmp : (writeLe 4 (b.take 128) 124 0).take 124 = b.take 124 := by
    rw [writeLe, take_patch_of_le (by omega), List.take_take, Nat.min_eq_left (by omega)]
  unfold decodeRecord
  dsimp only
  rw [htmp]
  by_cases hm : b.length < 128 ∨ readLe 4 b 0 ≠ recordMagic ∨ readLe 2 b 4 ≠ recordVersion
  · rw [if_pos hm]
    exact ⟨_, rfl⟩
  · rw [if_neg hm, if_pos h]
    exact ⟨_, rfl⟩

/--
**journal の codec。** header も record も読み戻せて、どの 1 byte を変えても読めなくなる。
-/
theorem journal_codec :
    (∀ r : JournalRecord, decodeRecord (encodeRecord r) = .ok r) ∧
    (∀ h : DecodedHeader, decodeHeader (encodeHeader h) = .ok h) ∧
    (∀ (r : JournalRecord) (k : Fin 128) (v : UInt8), (encodeRecord r).getD k 0 ≠ v →
      ∃ e, decodeRecord ((encodeRecord r).set k v) = .error e) ∧
    ∀ (h : DecodedHeader) (k : Fin 4096) (v : UInt8), (encodeHeader h).getD k 0 ≠ v →
      ∃ e, decodeHeader ((encodeHeader h).set k v) = .error e := by
  refine ⟨decodeRecord_encodeRecord, decodeHeader_encodeHeader, fun r k v hv => ?_, fun h k v hv => ?_⟩
  · exact decodeRecord_of_trailer
      (trailer_set_ne (length_encodeRecord r) k.2 hv (encodeRecord_crc r))
  · exact decodeHeader_of_trailer (by rw [List.length_set, length_encodeHeader])
      (trailer_set_ne (length_encodeHeader h) k.2 hv (encodeHeader_crc h))

end Fsx
