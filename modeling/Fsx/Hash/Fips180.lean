import Fsx.Core.Blocks
import Fsx.Core.RootFraction
import Fsx.Core.Words

/-!
# SHA-256 の標準（FIPS 180-4）

実装とは別に書いた定義。語は `BitVec 32` で、定数は素数の根の小数部として与える。
実装の定数表や loop の形には触れない。

padding はメッセージの全体に対して行い、64 byte の塊に区切って順に圧縮する。
-/

namespace Fsx.Fips180

abbrev Word := BitVec 32

/-! ## 関数と定数（4.1.2・4.2.2・5.3.3） -/

def ch (x y z : Word) : Word := (x &&& y) ^^^ (~~~x &&& z)

def maj (x y z : Word) : Word := (x &&& y) ^^^ (x &&& z) ^^^ (y &&& z)

def bigSigma0 (x : Word) : Word := x.rotateRight 2 ^^^ x.rotateRight 13 ^^^ x.rotateRight 22

def bigSigma1 (x : Word) : Word := x.rotateRight 6 ^^^ x.rotateRight 11 ^^^ x.rotateRight 25

def smallSigma0 (x : Word) : Word := x.rotateRight 7 ^^^ x.rotateRight 18 ^^^ (x >>> 3)

def smallSigma1 (x : Word) : Word := x.rotateRight 17 ^^^ x.rotateRight 19 ^^^ (x >>> 10)

/-- 定数。`t` 番の素数の立方根の小数部である。 -/
noncomputable def k (t : Nat) : Word := rootFraction 3 32 (Nat.nth Nat.Prime t)

/-- ハッシュ値の初期値。`j` 番の素数の平方根の小数部である。 -/
noncomputable def initial (j : Nat) : Word := rootFraction 2 32 (Nat.nth Nat.Prime j)

/-! ## padding（5.1.1・5.2.1） -/

/-- `0x80` の後に置く零の byte の数。長さの欄の 8 byte を合わせて 64 の倍数になる最小の数である。 -/
def padding (len : Nat) : Nat := (119 - len % 64) % 64

/-- padding したメッセージ。最後の 8 byte に bit 数を置く。 -/
def pad (m : Bytes) : Bytes :=
  m ++ [0x80] ++ zeros (padding m.length) ++ beBytes 8 (8 * m.length)

/-- 塊の `t` 番の語。 -/
def messageWord (block : Bytes) (t : Nat) : Word := BitVec.ofNat 32 (beNat (slice block (4 * t) 4))

/-! ## 圧縮（6.2.2） -/

/-- message schedule。 -/
def schedule (m : Nat → Word) (t : Nat) : Word :=
  if _h : t < 16 then m t
  else
    smallSigma1 (schedule m (t - 2)) + schedule m (t - 7) + smallSigma0 (schedule m (t - 15))
      + schedule m (t - 16)
termination_by t

theorem schedule_of_lt {m : Nat → Word} {t : Nat} (h : t < 16) : schedule m t = m t := by
  rw [schedule, dif_pos h]

theorem schedule_of_le {m : Nat → Word} {t : Nat} (h : 16 ≤ t) : schedule m t =
    smallSigma1 (schedule m (t - 2)) + schedule m (t - 7) + smallSigma0 (schedule m (t - 15))
      + schedule m (t - 16) := by
  rw [schedule, dif_neg (Nat.not_lt.mpr h)]

/-- schedule は、はじめの 16 語だけで決まる。 -/
theorem schedule_congr {m m' : Nat → Word} (h : ∀ t < 16, m t = m' t) (t : Nat) :
    schedule m t = schedule m' t := by
  induction t using Nat.strong_induction_on with
  | h t ih =>
    rcases Nat.lt_or_ge t 16 with ht | ht
    · rw [schedule_of_lt ht, schedule_of_lt ht, h t ht]
    · rw [schedule_of_le ht, schedule_of_le ht, ih (t - 2) (by omega), ih (t - 7) (by omega),
        ih (t - 15) (by omega), ih (t - 16) (by omega)]

/-- 作業変数。ハッシュ値の八つの語もこの順に並ぶ。 -/
@[ext] structure Work where
  a : Word
  b : Word
  c : Word
  d : Word
  e : Word
  f : Word
  g : Word
  h : Word

/-- 一段。 -/
def round (kt wt : Word) (v : Work) : Work :=
  let t1 := v.h + bigSigma1 v.e + ch v.e v.f v.g + kt + wt
  let t2 := bigSigma0 v.a + maj v.a v.b v.c
  { a := t1 + t2, b := v.a, c := v.b, d := v.c, e := v.d + t1, f := v.e, g := v.f, h := v.g }

def Work.add (v w : Work) : Work where
  a := v.a + w.a
  b := v.b + w.b
  c := v.c + w.c
  d := v.d + w.d
  e := v.e + w.e
  f := v.f + w.f
  g := v.g + w.g
  h := v.h + w.h

/-- 塊一つの圧縮。 -/
noncomputable def compress (h : Work) (block : Bytes) : Work :=
  ((List.range 64).foldl (fun v t => round (k t) (schedule (messageWord block) t) v) h).add h

/-- 圧縮は、はじめの 64 byte だけで決まる。 -/
theorem compress_take (h : Work) (block : Bytes) :
    compress h (block.take 64) = compress h block := by
  have hword : ∀ t < 16, messageWord (block.take 64) t = messageWord block t := fun t ht => by
    have hslice : slice (slice block 0 64) (4 * t) 4 = slice block (0 + 4 * t) 4 :=
      slice_slice block 0 64 (4 * t) 4 (by omega)
    rw [Nat.zero_add] at hslice
    exact congrArg (fun b => BitVec.ofNat 32 (beNat b)) hslice
  simp only [compress, schedule_congr hword]

/-! ## ハッシュ値 -/

noncomputable def initialHash : Work where
  a := initial 0
  b := initial 1
  c := initial 2
  d := initial 3
  e := initial 4
  f := initial 5
  g := initial 6
  h := initial 7

/-- 語を上位の byte から並べる。 -/
def Work.digest (v : Work) : Bytes :=
  [v.a, v.b, v.c, v.d, v.e, v.f, v.g, v.h].flatMap fun w => beBytes 4 w.toNat

/-- SHA-256。 -/
noncomputable def sha256 (m : Bytes) : Bytes :=
  (Blocks.fold 64 compress ((pad m).length / 64) initialHash (pad m)).digest

/-! ## padding の性質 -/

theorem length_pad (m : Bytes) : (pad m).length = m.length + padding m.length + 9 := by
  simp only [pad, List.length_append, List.length_singleton, length_zeros, length_beBytes]
  omega

end Fsx.Fips180
