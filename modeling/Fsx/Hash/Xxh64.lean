import Fsx.Core.Words

/-!
# XXH64 の仕様

実装とは別に書いた定義。語は `BitVec 64` である。

四つの accumulator はそれぞれ、32 byte の stripe ごとに自分の 8 byte を順に取り込む。
残りの byte は、8 byte の語、高々一つの 4 byte の語、高々三つの byte に分けて混ぜる。
位置はどれもメッセージの先頭からの番地で言う。
-/

namespace Fsx.Xxh64

abbrev Word := BitVec 64

def prime1 : Word := 0x9E3779B185EBCA87
def prime2 : Word := 0xC2B2AE3D27D4EB4F
def prime3 : Word := 0x165667B19E3779F9
def prime4 : Word := 0x85EBCA77C2B2AE63
def prime5 : Word := 0x27D4EB2F165667C5

/-- `off` からの `n` byte の語。 -/
def lane (n : Nat) (m : Bytes) (off : Nat) : Word := BitVec.ofNat 64 (readLe n m off)

def round (acc lane : Word) : Word := (acc + lane * prime2).rotateLeft 31 * prime1

def mergeAccumulator (acc accN : Word) : Word := (acc ^^^ round 0 accN) * prime1 + prime4

/-! ## stripe -/

/-- `j` 番の accumulator の初期値。 -/
def accumulatorInit (seed : Word) : Fin 4 → Word
  | 0 => seed + prime1 + prime2
  | 1 => seed + prime2
  | 2 => seed
  | 3 => seed - prime1

/-- すべての stripe を取り込んだ accumulator。 -/
def accumulator (seed : Word) (m : Bytes) (j : Fin 4) : Word :=
  (List.range (m.length / 32)).foldl (fun acc i => round acc (lane 8 m (32 * i + 8 * j)))
    (accumulatorInit seed j)

/-- 四つの accumulator をまとめる。 -/
def converge (acc : Fin 4 → Word) : Word :=
  (List.finRange 4).foldl (fun h j => mergeAccumulator h (acc j))
    ((acc 0).rotateLeft 1 + (acc 1).rotateLeft 7 + (acc 2).rotateLeft 12 + (acc 3).rotateLeft 18)

/-- 残りを混ぜる前の値。stripe のない短いメッセージは seed だけから始める。 -/
def start (seed : Word) (m : Bytes) : Word :=
  (if m.length < 32 then seed + prime5 else converge (accumulator seed m))
    + BitVec.ofNat 64 m.length

/-! ## 残り -/

def mix8 (h lane : Word) : Word := (h ^^^ round 0 lane).rotateLeft 27 * prime1 + prime4

def mix4 (h lane : Word) : Word := (h ^^^ lane * prime1).rotateLeft 23 * prime2 + prime3

def mix1 (h lane : Word) : Word := (h ^^^ lane * prime5).rotateLeft 11 * prime1

/-- stripe に入らない `len % 32` byte を混ぜる。 -/
def tail (m : Bytes) (h : Word) : Word :=
  let base := m.length / 32 * 32
  let h := (List.range (m.length % 32 / 8)).foldl (fun h i => mix8 h (lane 8 m (base + 8 * i))) h
  let base4 := m.length / 8 * 8
  let h := if m.length % 8 < 4 then h else mix4 h (lane 4 m base4)
  let base1 := m.length / 4 * 4
  (List.range (m.length % 4)).foldl (fun h i => mix1 h (lane 1 m (base1 + i))) h

def avalanche (h : Word) : Word :=
  let h := (h ^^^ h >>> 33) * prime2
  let h := (h ^^^ h >>> 29) * prime3
  h ^^^ h >>> 32

/-- XXH64。 -/
def xxh64 (seed : Word) (m : Bytes) : Word := avalanche (tail m (start seed m))

end Fsx.Xxh64
