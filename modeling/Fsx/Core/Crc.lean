import Fsx.Core.Bytes

/-!
# CRC（`src/core/crc.cpp`）

reflected な 32 bit CRC を、8 枚の表を使って 8 byte ずつ進める実装である。
ここに写すのは可搬な経路 `run` で、SSE4.2 の経路は同じ関数を命令で計算する。

表は配列でなく「添字から値への関数」で表す。`table poly n i` が `t[n][i]` に当たる。
-/

namespace Fsx

/-- 1 bit 進める。 -/
def crcBit (poly c : UInt32) : UInt32 :=
  if c &&& 1 ≠ 0 then poly ^^^ (c >>> 1) else c >>> 1

/-- `make_tables` の `t[0][i]`。 -/
def crcByte (poly c : UInt32) : UInt32 :=
  crcBit poly (crcBit poly (crcBit poly (crcBit poly
    (crcBit poly (crcBit poly (crcBit poly (crcBit poly c)))))))

/-- `make_tables` の `t[n][i]`。 -/
def table (poly : UInt32) : Nat → UInt32 → UInt32
  | 0, i => crcByte poly i
  | n + 1, i =>
    let c := table poly n i
    crcByte poly (c &&& 0xff) ^^^ (c >>> 8)

/-- 1 byte 進める。`run` の後半のループの本体である。 -/
def crcStep (poly c : UInt32) (b : UInt8) : UInt32 :=
  table poly 0 ((c ^^^ b.toUInt32) &&& 0xff) ^^^ (c >>> 8)

/-- 8 byte を一度に進める。`run` の前半のループの本体である。 -/
def crcStep8 (poly c : UInt32) (bs : Bytes) : UInt32 :=
  let q : UInt64 := UInt64.ofNat (leNat bs) ^^^ c.toUInt64
  let idx : UInt64 → UInt32 := fun k => ((q >>> k) &&& 0xff).toUInt32
  table poly 7 (idx 0) ^^^ table poly 6 (idx 8) ^^^ table poly 5 (idx 16)
    ^^^ table poly 4 (idx 24) ^^^ table poly 3 (idx 32) ^^^ table poly 2 (idx 40)
    ^^^ table poly 1 (idx 48) ^^^ table poly 0 (idx 56)

/-- `run`。8 byte 以上残っている間は 8 byte ずつ、残りは 1 byte ずつ進める。 -/
def crcRun (poly : UInt32) : UInt32 → Bytes → UInt32
  | c, b0 :: b1 :: b2 :: b3 :: b4 :: b5 :: b6 :: b7 :: rest =>
    crcRun poly (crcStep8 poly c [b0, b1, b2, b3, b4, b5, b6, b7]) rest
  | c, bs => bs.foldl (crcStep poly) c

/-- `crc32_ieee`。 -/
def crc32Ieee (data : Bytes) (seed : UInt32) : UInt32 :=
  crcRun 0xedb88320 seed data

/-- `crc32c`。 -/
def crc32c (data : Bytes) (seed : UInt32) : UInt32 :=
  crcRun 0x82f63b78 seed data

/-- 呼び出し側が seed を省いたときの初期値。 -/
def crcInit : UInt32 := 0xffffffff

/-- 既定の seed で計算し、最後に反転した値。journal・GPT・image が記録する形である。 -/
def crc32cFinal (data : Bytes) : UInt32 := crc32c data crcInit ^^^ 0xffffffff

def crc32IeeeFinal (data : Bytes) : UInt32 := crc32Ieee data crcInit ^^^ 0xffffffff

/-- 検査値（`"123456789"` に対する既知の値）。 -/
example : crc32cFinal [0x31, 0x32, 0x33, 0x34, 0x35, 0x36, 0x37, 0x38, 0x39] = 0xe3069283 := by
  decide +kernel

example : crc32IeeeFinal [0x31, 0x32, 0x33, 0x34, 0x35, 0x36, 0x37, 0x38, 0x39] = 0xcbf43926 := by
  decide +kernel

end Fsx
