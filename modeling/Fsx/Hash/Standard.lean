import Fsx.Hash.Blake2b
import Fsx.Hash.Sha256
import Fsx.Hash.Xxhash

/-!
# ハッシュ関数は標準のものである

三つの関数のそれぞれが、全体に padding をして塊に区切る標準の定義に等しい。
byte 数の上限は、SHA-256 の bit 数の欄が 64 bit に収まることだけに要る。
-/

namespace Fsx

/-- **どの byte 列でも、三つのハッシュ関数は標準の値を返す。** -/
theorem hashes_standard {data : Bytes} (h : data.length < 2 ^ 61) :
    sha256 data = Fips180.sha256 data ∧
    blake2b256 data = Rfc7693.blake2b 32 data ∧
    ∀ seed : UInt64, (xxhash64 data seed).toBitVec = Xxh64.xxh64 seed.toBitVec data :=
  ⟨sha256_eq h, blake2b256_eq (by omega), xxhash64_eq data⟩

/-- `"abc"` での値。 -/
theorem hashes_standard_abc :
    sha256 [0x61, 0x62, 0x63] = Fips180.sha256 [0x61, 0x62, 0x63] ∧
    blake2b256 [0x61, 0x62, 0x63] = Rfc7693.blake2b 32 [0x61, 0x62, 0x63] ∧
    ∀ seed : UInt64,
      (xxhash64 [0x61, 0x62, 0x63] seed).toBitVec = Xxh64.xxh64 seed.toBitVec [0x61, 0x62, 0x63] :=
  hashes_standard (by decide)

/-- 空の列の検査値。 -/
example : xxhash64 [] 0 = 0xef46db3751d8e999 := by decide +kernel

example : (sha256 [0x61, 0x62, 0x63]).take 4 = [0xba, 0x78, 0x16, 0xbf] := by decide +kernel

end Fsx
