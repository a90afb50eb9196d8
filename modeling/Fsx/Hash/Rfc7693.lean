import Fsx.Core.RootFraction
import Fsx.Core.Words

/-!
# BLAKE2b の標準（RFC 7693）

実装とは別に書いた、鍵のない BLAKE2b の定義。語は `BitVec 64` で、初期値は素数の平方根の小数部として
与える。メッセージの全体を零で埋めて 128 byte の塊に区切り、それまでの byte 数を一つの数として渡す。
-/

namespace Fsx.Rfc7693

abbrev Word := BitVec 64

/-- 作業の vector の番号を数で書くために使う。 -/
local instance instNeZeroSixteen : NeZero 16 := ⟨by decide⟩

/-! ## 定数（2.6・2.7） -/

/-- 初期値。`i` 番の素数の平方根の小数部である。 -/
noncomputable def iv (i : Nat) : Word := rootFraction 2 64 (Nat.nth Nat.Prime i)

/-- メッセージの語を使う順。 -/
def sigma : List (List (Fin 16)) := [
  [0, 1, 2, 3, 4, 5, 6, 7, 8, 9, 10, 11, 12, 13, 14, 15],
  [14, 10, 4, 8, 9, 15, 13, 6, 1, 12, 0, 2, 11, 7, 5, 3],
  [11, 8, 12, 0, 5, 2, 15, 13, 10, 14, 3, 6, 7, 1, 9, 4],
  [7, 9, 3, 1, 13, 12, 11, 14, 2, 6, 5, 10, 4, 0, 15, 8],
  [9, 0, 5, 7, 2, 4, 10, 15, 14, 1, 11, 12, 6, 8, 3, 13],
  [2, 12, 6, 10, 0, 11, 8, 3, 4, 13, 7, 5, 15, 14, 1, 9],
  [12, 5, 1, 15, 14, 13, 4, 10, 0, 7, 6, 3, 9, 2, 8, 11],
  [13, 11, 7, 14, 12, 1, 3, 9, 5, 0, 15, 4, 8, 6, 2, 10],
  [6, 15, 14, 9, 11, 3, 0, 8, 12, 2, 13, 7, 1, 4, 10, 5],
  [10, 2, 8, 4, 7, 6, 1, 5, 15, 11, 9, 14, 3, 12, 13, 0]]

/-! ## 圧縮（3.1・3.2） -/

/-- 作業の vector。 -/
abbrev Vec := Fin 16 → Word

/-- mixing 関数 `G`。 -/
def mix (v : Vec) (a b c d : Fin 16) (x y : Word) : Vec :=
  let v := Function.update v a (v a + v b + x)
  let v := Function.update v d ((v d ^^^ v a).rotateRight 32)
  let v := Function.update v c (v c + v d)
  let v := Function.update v b ((v b ^^^ v c).rotateRight 24)
  let v := Function.update v a (v a + v b + y)
  let v := Function.update v d ((v d ^^^ v a).rotateRight 16)
  let v := Function.update v c (v c + v d)
  Function.update v b ((v b ^^^ v c).rotateRight 63)

/-- 一段。列を四つ、斜めを四つ混ぜる。 -/
def round (m : Fin 16 → Word) (v : Vec) (r : Nat) : Vec :=
  let s := fun i => m ((sigma.getD (r % 10) []).getD i 0)
  let v := mix v 0 4 8 12 (s 0) (s 1)
  let v := mix v 1 5 9 13 (s 2) (s 3)
  let v := mix v 2 6 10 14 (s 4) (s 5)
  let v := mix v 3 7 11 15 (s 6) (s 7)
  let v := mix v 0 5 10 15 (s 8) (s 9)
  let v := mix v 1 6 11 12 (s 10) (s 11)
  let v := mix v 2 7 8 13 (s 12) (s 13)
  mix v 3 4 9 14 (s 14) (s 15)

/-- 作業の vector の初期値。`t` はこの塊までの byte 数、`f` は最後の塊の印である。 -/
noncomputable def start (h : Fin 8 → Word) (t : Nat) (f : Bool) : Vec := fun i =>
  if hi : i.val < 8 then h ⟨i, hi⟩
  else if i = 12 then iv 4 ^^^ BitVec.ofNat 64 (t % 2 ^ 64)
  else if i = 13 then iv 5 ^^^ BitVec.ofNat 64 (t / 2 ^ 64)
  else if i = 14 ∧ f = true then iv 6 ^^^ BitVec.allOnes 64
  else iv (i - 8)

/-- 圧縮関数 `F`。 -/
noncomputable def compress (h : Fin 8 → Word) (m : Fin 16 → Word) (t : Nat) (f : Bool) :
    Fin 8 → Word :=
  let v := (List.range 12).foldl (round m) (start h t f)
  fun i => h i ^^^ v (i.castAdd 8) ^^^ v (i.addNat 8)

/-! ## ハッシュ値（3.3） -/

/-- 塊の数。空のメッセージも一つの塊を持つ。 -/
def blockCount (len : Nat) : Nat := max 1 ((len + 127) / 128)

/-- 零で埋めたメッセージの、`i` 番の塊の語。 -/
def blockWords (m : Bytes) (i : Nat) : Fin 16 → Word := fun j =>
  BitVec.ofNat 64
    (leNat (slice (m ++ zeros (blockCount m.length * 128 - m.length)) (i * 128 + j * 8) 8))

/-- parameter block を混ぜた初期値。鍵の長さは 0、出力は `nn` byte である。 -/
noncomputable def initial (nn : Nat) : Fin 8 → Word := fun i =>
  if i = 0 then iv 0 ^^^ 0x01010000 ^^^ BitVec.ofNat 64 nn else iv i

/-- 鍵のない BLAKE2b。最後の塊だけが印を持ち、そこまでの byte 数は全体の長さである。 -/
noncomputable def blake2b (nn : Nat) (m : Bytes) : Bytes :=
  let dd := blockCount m.length
  let h := (List.range (dd - 1)).foldl
    (fun h i => compress h (blockWords m i) ((i + 1) * 128) false) (initial nn)
  let h := compress h (blockWords m (dd - 1)) m.length true
  ((List.finRange 8).flatMap fun i => leBytes 8 (h i).toNat).take nn

end Fsx.Rfc7693
