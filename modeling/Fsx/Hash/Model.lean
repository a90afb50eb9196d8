import Fsx.Core.Blocks
import Fsx.Core.Bytes

/-!
# ハッシュ関数（`src/core/hash.cpp`）

`xxhash64`・`sha256`・`blake2b_256`。語は `UInt32` と `UInt64` である。

pointer と残りの長さの組は、残りの byte 列で表す。`while (n >= 64)` などの loop は
`Blocks.consume` で、残りが条件の長さ以上ある間、先頭の塊を渡して進む。
配列は `Vector` と `Array` で、添字が固定の範囲を動くものに `Vector` を使う。
-/

namespace Fsx

/-! ## 語の読み書き -/

/-- `rotl64`。 -/
def rotl64 (x : UInt64) (r : Nat) : UInt64 := (x <<< UInt64.ofNat r) ||| (x >>> UInt64.ofNat (64 - r))

/-- `rotr32`。 -/
def rotr32 (x : UInt32) (r : Nat) : UInt32 := (x >>> UInt32.ofNat r) ||| (x <<< UInt32.ofNat (32 - r))

/-- `rotr64`。 -/
def rotr64 (x : UInt64) (r : Nat) : UInt64 := (x >>> UInt64.ofNat r) ||| (x <<< UInt64.ofNat (64 - r))

/-- `read64le`。 -/
def read64le (p : Bytes) : UInt64 :=
  (List.range 8).foldl (fun v i => v ||| (p.getD i 0).toUInt64 <<< UInt64.ofNat (i * 8)) 0

/-- `read32le`。 -/
def read32le (p : Bytes) : UInt32 :=
  (List.range 4).foldl (fun v i => v ||| (p.getD i 0).toUInt32 <<< UInt32.ofNat (i * 8)) 0

/-- `read32be`。 -/
def read32be (p : Bytes) : UInt32 :=
  ((p.getD 0 0).toUInt32 <<< 24) ||| ((p.getD 1 0).toUInt32 <<< 16) ||| ((p.getD 2 0).toUInt32 <<< 8)
    ||| (p.getD 3 0).toUInt32

/-- `write32be`。 -/
def write32be (v : UInt32) : Bytes :=
  [((v >>> 24) &&& 0xff).toUInt8, ((v >>> 16) &&& 0xff).toUInt8, ((v >>> 8) &&& 0xff).toUInt8,
    (v &&& 0xff).toUInt8]

/-- `write64le`。 -/
def write64le (v : UInt64) : Bytes :=
  (List.range 8).map fun i => ((v >>> UInt64.ofNat (i * 8)) &&& 0xff).toUInt8

/-! ## XXH64 -/

def xxhPrime1 : UInt64 := 11400714785074694791
def xxhPrime2 : UInt64 := 14029467366897019727
def xxhPrime3 : UInt64 := 1609587929392839161
def xxhPrime4 : UInt64 := 9650029242287828579
def xxhPrime5 : UInt64 := 2870177450012600261

/-- `xxh_round`。 -/
def xxhRound (acc input : UInt64) : UInt64 := rotl64 (acc + input * xxhPrime2) 31 * xxhPrime1

/-- `xxh_merge`。 -/
def xxhMerge (acc val : UInt64) : UInt64 := (acc ^^^ xxhRound 0 val) * xxhPrime1 + xxhPrime4

/-- 変数 `v1` から `v4`。 -/
@[ext] structure XxhLanes where
  v1 : UInt64
  v2 : UInt64
  v3 : UInt64
  v4 : UInt64

/-- 32 byte を取り込む loop の本体。 -/
def XxhLanes.absorb (v : XxhLanes) (p : Bytes) : XxhLanes where
  v1 := xxhRound v.v1 (read64le p)
  v2 := xxhRound v.v2 (read64le (p.drop 8))
  v3 := xxhRound v.v3 (read64le (p.drop 16))
  v4 := xxhRound v.v4 (read64le (p.drop 24))

def XxhLanes.init (seed : UInt64) : XxhLanes where
  v1 := seed + xxhPrime1 + xxhPrime2
  v2 := seed + xxhPrime2
  v3 := seed
  v4 := seed - xxhPrime1

/-- 四つの変数をまとめる。 -/
def XxhLanes.merge (v : XxhLanes) : UInt64 :=
  let h := rotl64 v.v1 1 + rotl64 v.v2 7 + rotl64 v.v3 12 + rotl64 v.v4 18
  xxhMerge (xxhMerge (xxhMerge (xxhMerge h v.v1) v.v2) v.v3) v.v4

/-- 8 byte ごとの loop の本体。 -/
def xxhMix8 (h : UInt64) (p : Bytes) : UInt64 :=
  rotl64 (h ^^^ xxhRound 0 (read64le p)) 27 * xxhPrime1 + xxhPrime4

/-- 4 byte を取り込むところ。 -/
def xxhMix4 (h : UInt64) (p : Bytes) : UInt64 :=
  rotl64 (h ^^^ (read32le p).toUInt64 * xxhPrime1) 23 * xxhPrime2 + xxhPrime3

/-- 1 byte ごとの loop の本体。 -/
def xxhMix1 (h : UInt64) (p : Bytes) : UInt64 :=
  rotl64 (h ^^^ (p.getD 0 0).toUInt64 * xxhPrime5) 11 * xxhPrime1

/-- 最後の攪拌。 -/
def xxhAvalanche (h : UInt64) : UInt64 :=
  let h := h ^^^ (h >>> 33)
  let h := h * xxhPrime2
  let h := h ^^^ (h >>> 29)
  let h := h * xxhPrime3
  h ^^^ (h >>> 32)

/-- 32 byte ごとの部分。短いデータは seed だけから始める。 -/
def xxhBody (data : Bytes) (seed : UInt64) : UInt64 × Bytes :=
  if 32 ≤ data.length then
    let (v, p) := Blocks.consume 32 32 XxhLanes.absorb (XxhLanes.init seed) data
    (v.merge, p)
  else (seed + xxhPrime5, data)

/-- `xxhash64`。`do … while` は、はじめの検査を通った後なので `while` と同じである。 -/
def xxhash64 (data : Bytes) (seed : UInt64) : UInt64 :=
  let (h, p) := xxhBody data seed
  let h := h + UInt64.ofNat data.length
  let (h, p) := Blocks.consume 8 8 xxhMix8 h p
  let (h, p) := if 4 ≤ p.length then (xxhMix4 h p, p.drop 4) else (h, p)
  let (h, _) := Blocks.consume 1 1 xxhMix1 h p
  xxhAvalanche h

/-! ## SHA-256 -/

/-- `K256`。 -/
def k256Table : List UInt32 := [
  0x428a2f98, 0x71374491, 0xb5c0fbcf, 0xe9b5dba5, 0x3956c25b, 0x59f111f1, 0x923f82a4, 0xab1c5ed5,
  0xd807aa98, 0x12835b01, 0x243185be, 0x550c7dc3, 0x72be5d74, 0x80deb1fe, 0x9bdc06a7, 0xc19bf174,
  0xe49b69c1, 0xefbe4786, 0x0fc19dc6, 0x240ca1cc, 0x2de92c6f, 0x4a7484aa, 0x5cb0a9dc, 0x76f988da,
  0x983e5152, 0xa831c66d, 0xb00327c8, 0xbf597fc7, 0xc6e00bf3, 0xd5a79147, 0x06ca6351, 0x14292967,
  0x27b70a85, 0x2e1b2138, 0x4d2c6dfc, 0x53380d13, 0x650a7354, 0x766a0abb, 0x81c2c92e, 0x92722c85,
  0xa2bfe8a1, 0xa81a664b, 0xc24b8b70, 0xc76c51a3, 0xd192e819, 0xd6990624, 0xf40e3585, 0x106aa070,
  0x19a4c116, 0x1e376c08, 0x2748774c, 0x34b0bcb5, 0x391c0cb3, 0x4ed8aa4a, 0x5b9cca4f, 0x682e6ff3,
  0x748f82ee, 0x78a5636f, 0x84c87814, 0x8cc70208, 0x90befffa, 0xa4506ceb, 0xbef9a3f7, 0xc67178f2]

def k256 (i : Nat) : UInt32 := k256Table.getD i 0

/-- 配列 `h` の八つの語。作業変数 `a` から `hh` もこの順に持つ。 -/
@[ext] structure Sha256Words where
  a : UInt32
  b : UInt32
  c : UInt32
  d : UInt32
  e : UInt32
  f : UInt32
  g : UInt32
  h : UInt32

/-- 塊を `w` のはじめの 16 語に読む loop。 -/
def sha256Load (block : Bytes) : Array UInt32 :=
  (List.range 16).foldl (fun w i => w.setIfInBounds i (read32be (block.drop (i * 4))))
    (Array.replicate 64 0)

/-- `w` を 16 番から先に延ばす loop の本体。 -/
def sha256Extend (w : Array UInt32) (i : Nat) : Array UInt32 :=
  let at15 := w.getD (i - 15) 0
  let at2 := w.getD (i - 2) 0
  let s0 := rotr32 at15 7 ^^^ rotr32 at15 18 ^^^ (at15 >>> 3)
  let s1 := rotr32 at2 17 ^^^ rotr32 at2 19 ^^^ (at2 >>> 10)
  w.setIfInBounds i (w.getD (i - 16) 0 + s0 + w.getD (i - 7) 0 + s1)

/-- `sha256_compress` の配列 `w`。 -/
def sha256Schedule (block : Bytes) : Array UInt32 :=
  (List.range' 16 48).foldl sha256Extend (sha256Load block)

/-- 作業変数を一段進める。 -/
def sha256Round (k w : UInt32) (v : Sha256Words) : Sha256Words :=
  let s1 := rotr32 v.e 6 ^^^ rotr32 v.e 11 ^^^ rotr32 v.e 25
  let ch := (v.e &&& v.f) ^^^ ((~~~v.e) &&& v.g)
  let t1 := v.h + s1 + ch + k + w
  let s0 := rotr32 v.a 2 ^^^ rotr32 v.a 13 ^^^ rotr32 v.a 22
  let maj := (v.a &&& v.b) ^^^ (v.a &&& v.c) ^^^ (v.b &&& v.c)
  let t2 := s0 + maj
  { a := t1 + t2, b := v.a, c := v.b, d := v.c, e := v.d + t1, f := v.e, g := v.f, h := v.g }

/-- `sha256_compress`。 -/
def sha256Compress (h : Sha256Words) (block : Bytes) : Sha256Words :=
  let w := sha256Schedule block
  let v := (List.range 64).foldl (fun v i => sha256Round (k256 i) (w.getD i 0) v) h
  { a := h.a + v.a, b := h.b + v.b, c := h.c + v.c, d := h.d + v.d
    e := h.e + v.e, f := h.f + v.f, g := h.g + v.g, h := h.h + v.h }

def sha256Init : Sha256Words where
  a := 0x6a09e667
  b := 0xbb67ae85
  c := 0x3c6ef372
  d := 0xa54ff53a
  e := 0x510e527f
  f := 0x9b05688c
  g := 0x1f83d9ab
  h := 0x5be0cd19

/-- 終わりの buffer `tail` の、長さの欄の終わり。 -/
def sha256Used (n : Nat) : Nat := if n < 56 then 64 else 128

/-- 終わりの buffer `tail`。残りの `p` の後に `0x80` を置き、`used` の手前に bit 数を置く。 -/
def sha256Tail (p : Bytes) (bits : UInt64) : Bytes :=
  let tail := patch (zeros 128) 0 p
  let tail := patch tail p.length [0x80]
  (List.range 8).foldl
    (fun t i => patch t (sha256Used p.length - 1 - i)
      [((bits >>> UInt64.ofNat (i * 8)) &&& 0xff).toUInt8]) tail

/-- `sha256`。 -/
def sha256 (data : Bytes) : Bytes :=
  let (h, p) := Blocks.consume 64 64 sha256Compress sha256Init data
  let bits : UInt64 := UInt64.ofNat data.length * 8
  let tail := sha256Tail p bits
  let h := sha256Compress h tail
  let h := if sha256Used p.length = 128 then sha256Compress h (tail.drop 64) else h
  [h.a, h.b, h.c, h.d, h.e, h.f, h.g, h.h].flatMap write32be

/-! ## BLAKE2b -/

/-- `B2IV`。 -/
def b2ivTable : List UInt64 := [
  0x6a09e667f3bcc908, 0xbb67ae8584caa73b, 0x3c6ef372fe94f82b, 0xa54ff53a5f1d36f1,
  0x510e527fade682d1, 0x9b05688c2b3e6c1f, 0x1f83d9abfb41bd6b, 0x5be0cd19137e2179]

def b2iv (i : Nat) : UInt64 := b2ivTable.getD i 0

/-- `SIGMA`。終わりの二段は、はじめの二段を繰り返す。 -/
def b2Sigma : List (List (Fin 16)) := [
  [0, 1, 2, 3, 4, 5, 6, 7, 8, 9, 10, 11, 12, 13, 14, 15],
  [14, 10, 4, 8, 9, 15, 13, 6, 1, 12, 0, 2, 11, 7, 5, 3],
  [11, 8, 12, 0, 5, 2, 15, 13, 10, 14, 3, 6, 7, 1, 9, 4],
  [7, 9, 3, 1, 13, 12, 11, 14, 2, 6, 5, 10, 4, 0, 15, 8],
  [9, 0, 5, 7, 2, 4, 10, 15, 14, 1, 11, 12, 6, 8, 3, 13],
  [2, 12, 6, 10, 0, 11, 8, 3, 4, 13, 7, 5, 15, 14, 1, 9],
  [12, 5, 1, 15, 14, 13, 4, 10, 0, 7, 6, 3, 9, 2, 8, 11],
  [13, 11, 7, 14, 12, 1, 3, 9, 5, 0, 15, 4, 8, 6, 2, 10],
  [6, 15, 14, 9, 11, 3, 0, 8, 12, 2, 13, 7, 1, 4, 10, 5],
  [10, 2, 8, 4, 7, 6, 1, 5, 15, 11, 9, 14, 3, 12, 13, 0],
  [0, 1, 2, 3, 4, 5, 6, 7, 8, 9, 10, 11, 12, 13, 14, 15],
  [14, 10, 4, 8, 9, 15, 13, 6, 1, 12, 0, 2, 11, 7, 5, 3]]

/-- 関数 `G`。 -/
def b2Mix (v : Vector UInt64 16) (a b c d : Fin 16) (x y : UInt64) : Vector UInt64 16 :=
  let v := v.set a (v[a] + v[b] + x)
  let v := v.set d (rotr64 (v[d] ^^^ v[a]) 32)
  let v := v.set c (v[c] + v[d])
  let v := v.set b (rotr64 (v[b] ^^^ v[c]) 24)
  let v := v.set a (v[a] + v[b] + y)
  let v := v.set d (rotr64 (v[d] ^^^ v[a]) 16)
  let v := v.set c (v[c] + v[d])
  v.set b (rotr64 (v[b] ^^^ v[c]) 63)

/-- 一段。 -/
def b2Round (m v : Vector UInt64 16) (r : Nat) : Vector UInt64 16 :=
  let s := fun i : Nat => m[(b2Sigma.getD r []).getD i 0]
  let v := b2Mix v 0 4 8 12 (s 0) (s 1)
  let v := b2Mix v 1 5 9 13 (s 2) (s 3)
  let v := b2Mix v 2 6 10 14 (s 4) (s 5)
  let v := b2Mix v 3 7 11 15 (s 6) (s 7)
  let v := b2Mix v 0 5 10 15 (s 8) (s 9)
  let v := b2Mix v 1 6 11 12 (s 10) (s 11)
  let v := b2Mix v 2 7 8 13 (s 12) (s 13)
  b2Mix v 3 4 9 14 (s 14) (s 15)

/-- 配列 `v` のはじめの値。 -/
def b2Start (h : Vector UInt64 8) (t0 t1 : UInt64) (last : Bool) : Vector UInt64 16 :=
  let v := h ++ Vector.ofFn fun i : Fin 8 => b2iv i
  let v := v.set 12 (v[12] ^^^ t0)
  let v := v.set 13 (v[13] ^^^ t1)
  if last then v.set 14 (~~~v[14]) else v

/-- `blake2b_compress`。 -/
def blake2bCompress (h : Vector UInt64 8) (block : Bytes) (t0 t1 : UInt64) (last : Bool) :
    Vector UInt64 8 :=
  let m := Vector.ofFn fun i : Fin 16 => read64le (block.drop (i * 8))
  let v := (List.range 12).foldl (b2Round m) (b2Start h t0 t1 last)
  Vector.ofFn fun i : Fin 8 => h[i] ^^^ (v[i.val] ^^^ v[i.val + 8])

/-- 変数 `h`・`t0`・`t1`。 -/
structure Blake2bState where
  h : Vector UInt64 8
  t0 : UInt64
  t1 : UInt64

/-- `t0` を進め、繰り上がりを `t1` に足す。 -/
def Blake2bState.count (s : Blake2bState) (n : Nat) : Blake2bState :=
  let t0 := s.t0 + UInt64.ofNat n
  { s with t0, t1 := if t0 < s.t0 then s.t1 + 1 else s.t1 }

/-- 圧縮して `h` を進める。 -/
def Blake2bState.compress (s : Blake2bState) (block : Bytes) (last : Bool) : Blake2bState :=
  { s with h := blake2bCompress s.h block s.t0 s.t1 last }

def Blake2bState.init : Blake2bState where
  h := (Vector.ofFn fun i : Fin 8 => b2iv i).set 0 (b2iv 0 ^^^ 0x01010020)
  t0 := 0
  t1 := 0

/-- 出力する 32 byte。 -/
def Blake2bState.digest (s : Blake2bState) : Bytes :=
  [s.h[0], s.h[1], s.h[2], s.h[3]].flatMap write64le

/-- `blake2b_256`。ちょうど 128 byte の残りは最後の塊になるので、loop は 129 byte 以上で回る。 -/
def blake2b256 (data : Bytes) : Bytes :=
  let (s, p) := Blocks.consume 128 129 (fun s p => (s.count 128).compress p false)
    Blake2bState.init data
  let last := patch (zeros 128) 0 p
  ((s.count p.length).compress last true).digest

end Fsx
