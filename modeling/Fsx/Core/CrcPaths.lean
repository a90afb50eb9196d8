import Fsx.Core.CrcDetect

/-!
# CRC の三つの経路（`src/core/crc.cpp`）

CRC は 1 bit ずつ送り込む写像の繰り返しである（`crcSerial`）。可搬な経路は 8 枚の表を使い、
SSE4.2 の経路は命令を使う。命令のない build では後者はなく、32 bit の build には 64 bit の命令がない。

どの経路も、命令が説明のとおりに動くなら（`CrcInstructions.Documented`）、同じ値になる。
命令そのものは与えられたものとして、引数に取る。
-/

namespace Fsx

/-! ## 1 bit ずつ -/

/-- 下位の `n` bit を、下の桁から並べたもの。 -/
def bitsLe : Nat → Nat → List Bool
  | 0, _ => []
  | n + 1, v => decide (v % 2 = 1) :: bitsLe n (v / 2)

/-- 1 bit を送り込む。はみ出した bit と送り込む bit が違えば、生成多項式を加える。 -/
def crcFeed (poly c : UInt32) (bit : Bool) : UInt32 :=
  if decide (c &&& 1 ≠ 0) ≠ bit then poly ^^^ (c >>> 1) else c >>> 1

/-- 1 bit ずつ計算する reflected な CRC。 -/
def crcSerial (poly seed : UInt32) (data : Bytes) : UInt32 :=
  (data.flatMap fun b => bitsLe 8 b.toNat).foldl (crcFeed poly) seed

section Serial

variable (poly : UInt32)

theorem crcFeed_eq (c : UInt32) (bit : Bool) :
    crcFeed poly c bit = crcBit poly (c ^^^ if bit then 1 else 0) := by
  have hone : crcBit poly 1 = poly := by
    rw [crcBit_of_odd poly (by decide), show (1 : UInt32) >>> 1 = 0 by decide, UInt32.xor_zero]
  rw [crcBit_xor]
  unfold crcFeed
  rcases low_bit c with h | h
  · rw [crcBit_of_even poly h]
    cases bit with
    | false => simp [h, crcBit]
    | true =>
      rw [if_pos (by simp [h]), if_pos rfl, hone]
      ac_rfl
  · rw [crcBit_of_odd poly h]
    cases bit with
    | false => simp [h, crcBit]
    | true =>
      rw [if_neg (by simp [h]), if_pos rfl, hone]
      calc c >>> 1 = (poly ^^^ poly) ^^^ (c >>> 1) := by rw [UInt32.xor_self, UInt32.zero_xor]
        _ = poly ^^^ (c >>> 1) ^^^ poly := by ac_rfl

/-- まとめて加えてから 1 bit 進めるのは、いちばん下の bit を送り込んで残りを加えるのと同じである。 -/
theorem crcBit_xor_word (c v : UInt32) : crcBit poly (c ^^^ v) =
    crcFeed poly c (decide (v.toNat % 2 = 1)) ^^^ (v >>> 1) := by
  have hlow : (v &&& 1).toNat = v.toNat % 2 := by
    rw [UInt32.toNat_and]
    exact Nat.and_one_is_mod _
  rw [crcFeed_eq, crcBit_xor, crcBit_xor]
  rcases low_bit v with h | h
  · have hmod : ¬ v.toNat % 2 = 1 := by
      rw [← hlow, h]
      decide
    rw [crcBit_of_even poly h, decide_eq_false hmod]
    simp [crcBit]
  · have hmod : v.toNat % 2 = 1 := by
      rw [← hlow, h]
      decide
    rw [crcBit_of_odd poly h, decide_eq_true hmod, if_pos rfl,
      crcBit_of_odd poly (show (1 : UInt32) &&& 1 = 1 by decide),
      show (1 : UInt32) >>> 1 = 0 by decide, UInt32.xor_zero, UInt32.xor_assoc]

/-- `n` bit の値を加えて `n` bit 進めるのは、その bit を順に送り込むのと同じである。 -/
theorem iterate_crcBit : ∀ (n : Nat) (c v : UInt32), v.toNat < 2 ^ n →
    (crcBit poly)^[n] (c ^^^ v) = (bitsLe n v.toNat).foldl (crcFeed poly) c
  | 0, c, v, h => by
    have hv : v = 0 := UInt32.toNat_inj.mp (by rw [UInt32.toNat_zero]; omega)
    rw [hv, UInt32.xor_zero]
    rfl
  | n + 1, c, v, h => by
    have hhalf : (v >>> 1).toNat = v.toNat / 2 := by
      rw [UInt32.toNat_shiftRight]
      simp [Nat.shiftRight_eq_div_pow]
    rw [Function.iterate_succ_apply, crcBit_xor_word, iterate_crcBit n _ _ (by rw [hhalf]; omega), hhalf]
    rfl

theorem crcByte_eq_iterate (c : UInt32) : crcByte poly c = (crcBit poly)^[8] c := rfl

/-- **1 byte 進めるのは、その 8 bit を送り込むことである。** -/
theorem crcStep_eq_feed (c : UInt32) (b : UInt8) :
    crcStep poly c b = (bitsLe 8 b.toNat).foldl (crcFeed poly) c := by
  have hlt : b.toUInt32.toNat < 2 ^ 8 := by
    rw [UInt8.toNat_toUInt32]
    exact b.toNat_lt
  rw [crcStep_eq, crcByte_eq_iterate, iterate_crcBit poly 8 c _ hlt, UInt8.toNat_toUInt32]

/-- 表を使う経路は、1 bit ずつ計算した値になる。 -/
theorem crcRun_eq_serial (seed : UInt32) (data : Bytes) :
    crcRun poly seed data = crcSerial poly seed data := by
  rw [crcRun_eq]
  unfold crcSerial
  induction data generalizing seed with
  | nil => rfl
  | cons b data ih =>
    rw [List.foldl_cons, List.flatMap_cons, List.foldl_append, ← crcStep_eq_feed]
    exact ih _

/-- 列を区切っても値は変わらない。 -/
theorem crcSerial_append (seed : UInt32) (a b : Bytes) :
    crcSerial poly seed (a ++ b) = crcSerial poly (crcSerial poly seed a) b := by
  unfold crcSerial
  rw [List.flatMap_append, List.foldl_append]

theorem crcSerial_flatten (seed : UInt32) (chunks : List Bytes) :
    crcSerial poly seed chunks.flatten = chunks.foldl (crcSerial poly) seed := by
  induction chunks generalizing seed with
  | nil => rfl
  | cons a chunks ih =>
    rw [List.flatten_cons, crcSerial_append, ih]
    rfl

end Serial

/-! ## 命令 -/

/-- `crc32c` の生成多項式。 -/
def castagnoli : UInt32 := 0x82f63b78

/-- `crc32_ieee` の生成多項式。 -/
def ieee : UInt32 := 0xedb88320

/-- `_mm_crc32_u8` から `_mm_crc32_u64` まで。 -/
structure CrcInstructions where
  crc32U8 : UInt32 → UInt8 → UInt32
  crc32U16 : UInt32 → UInt16 → UInt32
  crc32U32 : UInt32 → UInt32 → UInt32
  crc32U64 : UInt64 → UInt64 → UInt64

/-- 命令は、operand の byte を下位から順に送り込む。64 bit の命令は結果を零で広げる。 -/
structure CrcInstructions.Documented (hw : CrcInstructions) : Prop where
  u8 : ∀ c v, hw.crc32U8 c v = crcSerial castagnoli c [v]
  u16 : ∀ c v, hw.crc32U16 c v = crcSerial castagnoli c (leBytes 2 v.toNat)
  u32 : ∀ c v, hw.crc32U32 c v = crcSerial castagnoli c (leBytes 4 v.toNat)
  u64 : ∀ c v, hw.crc32U64 c v = (crcSerial castagnoli c.toUInt32 (leBytes 8 v.toNat)).toUInt64

/-! ## SSE4.2 の経路 -/

section Sse42

variable (hw : CrcInstructions)

/-- 最後の `if (n)`。 -/
def crc32cSse42Last (c32 : UInt32) : Bytes → UInt32
  | b :: _ => hw.crc32U8 c32 b
  | [] => c32

/-- 4 byte に満たない残り。`if (n >= 2)` から後である。 -/
def crc32cSse42Short (c32 : UInt32) : Bytes → UInt32
  | b0 :: b1 :: rest => crc32cSse42Last hw (hw.crc32U16 c32 (UInt16.ofNat (leNat [b0, b1]))) rest
  | bs => crc32cSse42Last hw c32 bs

/-- 4 byte ずつ進めるループから後。 -/
def crc32cSse42Tail (c32 : UInt32) : Bytes → UInt32
  | b0 :: b1 :: b2 :: b3 :: rest =>
    crc32cSse42Tail (hw.crc32U32 c32 (UInt32.ofNat (leNat [b0, b1, b2, b3]))) rest
  | bs => crc32cSse42Short hw c32 bs

/-- 64 bit の build の `crc32c_sse42`。8 byte ずつ進め、残りを 32 bit で進める。 -/
def crc32cSse42Wide (c : UInt64) : Bytes → UInt32
  | b0 :: b1 :: b2 :: b3 :: b4 :: b5 :: b6 :: b7 :: rest =>
    crc32cSse42Wide (hw.crc32U64 c (UInt64.ofNat (leNat [b0, b1, b2, b3, b4, b5, b6, b7]))) rest
  | bs => crc32cSse42Tail hw c.toUInt32 bs

end Sse42

/-- build と CPU で決まる経路。 -/
inductive CrcPath where
  /-- 命令のない build か CPU -/
  | portable
  /-- 64 bit の build -/
  | sse42x64
  /-- 32 bit の build -/
  | sse42x86

/-- その経路の `crc32c`。 -/
def CrcPath.crc32c (hw : CrcInstructions) (path : CrcPath) (data : Bytes) (seed : UInt32) : UInt32 :=
  match path with
  | .portable => Fsx.crc32c data seed
  | .sse42x64 => crc32cSse42Wide hw seed.toUInt64 data
  | .sse42x86 => crc32cSse42Tail hw seed data

/-! ## 経路の一致 -/

theorem leBytes_leNat_of_length {bs : Bytes} {n : Nat} (hlen : bs.length = n) :
    leBytes n (leNat bs) = bs := by
  rw [← hlen]
  exact leBytes_leNat bs

section Agree

variable {hw : CrcInstructions} (h : hw.Documented)
include h

theorem crc32cSse42Short_eq (c : UInt32) {bs : Bytes} (hlen : bs.length < 4) :
    crc32cSse42Short hw c bs = crcSerial castagnoli c bs := by
  have hlast : ∀ (c : UInt32) (bs : Bytes), bs.length < 2 →
      crc32cSse42Last hw c bs = crcSerial castagnoli c bs := by
    intro c bs hlen
    rcases bs with _ | ⟨b, _ | ⟨b', bs⟩⟩
    · rfl
    · exact h.u8 c b
    · simp only [List.length_cons] at hlen
      omega
  rcases bs with _ | ⟨b0, _ | ⟨b1, rest⟩⟩
  · rfl
  · exact hlast c [b0] (by simp)
  · have hv : (UInt16.ofNat (leNat [b0, b1])).toNat = leNat [b0, b1] := by
      have hlt : leNat [b0, b1] < 256 ^ 2 := leNat_lt _
      exact UInt16.toNat_ofNat_of_lt' (by simpa using hlt)
    have hrest := hlast (crcSerial castagnoli c [b0, b1]) rest (by
      simp only [List.length_cons] at hlen
      omega)
    rw [crc32cSse42Short, h.u16, hv, leBytes_leNat_of_length (by rfl), hrest, ← crcSerial_append]
    rfl

theorem crc32cSse42Tail_eq (c : UInt32) (bs : Bytes) :
    crc32cSse42Tail hw c bs = crcSerial castagnoli c bs := by
  induction c, bs using crc32cSse42Tail.induct hw with
  | case1 c b0 b1 b2 b3 rest ih =>
    have hv : (UInt32.ofNat (leNat [b0, b1, b2, b3])).toNat = leNat [b0, b1, b2, b3] := by
      have hlt : leNat [b0, b1, b2, b3] < 256 ^ 4 := leNat_lt _
      exact UInt32.toNat_ofNat_of_lt' (by simpa using hlt)
    rw [crc32cSse42Tail, ih, h.u32, hv, leBytes_leNat_of_length (by rfl), ← crcSerial_append]
    rfl
  | case2 c bs hno =>
    have hlen : bs.length < 4 := by
      rcases bs with _ | ⟨b0, _ | ⟨b1, _ | ⟨b2, _ | ⟨b3, rest⟩⟩⟩⟩
      · simp
      · simp
      · simp
      · simp
      · exact absurd rfl (hno b0 b1 b2 b3 rest)
    rw [crc32cSse42Tail, crc32cSse42Short_eq h c hlen]
    exact hno

theorem crc32cSse42Wide_eq (c : UInt64) (bs : Bytes) :
    crc32cSse42Wide hw c bs = crcSerial castagnoli c.toUInt32 bs := by
  induction c, bs using crc32cSse42Wide.induct hw with
  | case1 c b0 b1 b2 b3 b4 b5 b6 b7 rest ih =>
    have hv : (UInt64.ofNat (leNat [b0, b1, b2, b3, b4, b5, b6, b7])).toNat =
        leNat [b0, b1, b2, b3, b4, b5, b6, b7] := by
      have hlt : leNat [b0, b1, b2, b3, b4, b5, b6, b7] < 256 ^ 8 := leNat_lt _
      exact UInt64.toNat_ofNat_of_lt' (by simpa using hlt)
    have hnarrow : ∀ x : UInt32, x.toUInt64.toUInt32 = x := fun x => by simp
    rw [crc32cSse42Wide, ih, h.u64, hv, leBytes_leNat_of_length (by rfl), hnarrow, ← crcSerial_append]
    rfl
  | case2 c bs hno =>
    rw [crc32cSse42Wide, crc32cSse42Tail_eq h]
    exact hno

theorem CrcPath.crc32c_eq (path : CrcPath) (data : Bytes) (seed : UInt32) :
    path.crc32c hw data seed = crcSerial castagnoli seed data := by
  cases path with
  | portable => exact crcRun_eq_serial castagnoli seed data
  | sse42x64 =>
    have hnarrow : seed.toUInt64.toUInt32 = seed := by simp
    exact (crc32cSse42Wide_eq h _ data).trans (by rw [hnarrow])
  | sse42x86 => exact crc32cSse42Tail_eq h seed data

end Agree

/--
**どの経路の CRC も、1 bit ずつ計算した値である。**
したがって途中で経路を替えても、列をどう区切っても、値は変わらない。
-/
theorem crc_paths_agree (hw : CrcInstructions) (h : hw.Documented) :
    (∀ data seed, crc32Ieee data seed = crcSerial ieee seed data) ∧
    (∀ path data seed, CrcPath.crc32c hw path data seed = crcSerial castagnoli seed data) ∧
    (∀ a b seed, crc32Ieee (a ++ b) seed = crc32Ieee b (crc32Ieee a seed)) ∧
    (∀ (p q r : CrcPath) (a b : Bytes) (seed : UInt32),
      p.crc32c hw (a ++ b) seed = q.crc32c hw b (r.crc32c hw a seed)) ∧
    (∀ (chunks : List Bytes) (seed : UInt32),
      crc32Ieee chunks.flatten seed = chunks.foldl (fun c a => crc32Ieee a c) seed) ∧
    ∀ (p : CrcPath) (paths : Bytes → CrcPath) (chunks : List Bytes) (seed : UInt32),
      p.crc32c hw chunks.flatten seed = chunks.foldl (fun c a => (paths a).crc32c hw a c) seed := by
  have hi : ∀ data seed, crc32Ieee data seed = crcSerial ieee seed data := fun data seed =>
    crcRun_eq_serial ieee seed data
  refine ⟨hi, fun path => path.crc32c_eq h, fun a b seed => ?_, fun p q r a b seed => ?_,
    fun chunks seed => ?_, fun p paths chunks seed => ?_⟩
  · rw [hi, hi, hi, crcSerial_append]
  · rw [p.crc32c_eq h, q.crc32c_eq h, r.crc32c_eq h, crcSerial_append]
  · rw [hi, crcSerial_flatten]
    exact congrArg (fun f => chunks.foldl f seed) (funext fun c => funext fun a => (hi a c).symm)
  · rw [p.crc32c_eq h, crcSerial_flatten]
    exact congrArg (fun f => chunks.foldl f seed)
      (funext fun c => funext fun a => ((paths a).crc32c_eq h a c).symm)

/-- 説明のとおりに動く命令。 -/
def CrcInstructions.reference : CrcInstructions where
  crc32U8 c v := crcSerial castagnoli c [v]
  crc32U16 c v := crcSerial castagnoli c (leBytes 2 v.toNat)
  crc32U32 c v := crcSerial castagnoli c (leBytes 4 v.toNat)
  crc32U64 c v := (crcSerial castagnoli c.toUInt32 (leBytes 8 v.toNat)).toUInt64

theorem CrcInstructions.documented_reference : reference.Documented :=
  ⟨fun _ _ => rfl, fun _ _ => rfl, fun _ _ => rfl, fun _ _ => rfl⟩

/-- 16 byte を、64 bit の build で区切って計算する。 -/
theorem crc_paths_agree_reference :
    CrcPath.sse42x64.crc32c .reference (zeros 7 ++ zeros 9) crcInit =
      CrcPath.portable.crc32c .reference (zeros 9)
        (CrcPath.sse42x86.crc32c .reference (zeros 7) crcInit) :=
  (crc_paths_agree .reference CrcInstructions.documented_reference).2.2.2.1 _ _ _ _ _ _

end Fsx
