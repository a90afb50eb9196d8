import Fsx.Ext4.Refusal
import Fsx.Ext4.RepairRun

/-!
# 末尾の group の書き換えと、その戻し

縮小は末尾の group の bitmap に印を付け、descriptor の空きの数を減らし、checksum を合わせる。
拡大は印を消し、空きの数を増やし、checksum を合わせる。同じ範囲についてなら、二つは互いに逆である。

ここでは bitmap・descriptor・superblock の byte 列についてそれを示し、書き込みが互いに重ならない
置き場所（`Separate`）の上で、書き換えの後に何が読めるかを言い切る。
-/

namespace Fsx.Ext4

/-! ## bitmap -/

/-- bit がすべて等しい byte 列は等しい。 -/
theorem eq_of_bitSet_eq {a b : Bytes} (hlen : a.length = b.length)
    (h : ∀ i, bitSet a i = bitSet b i) : a = b := by
  refine List.ext_getElem hlen fun k h1 h2 => UInt8.toNat_inj.mp (Nat.eq_of_testBit_eq fun j => ?_)
  rcases Nat.lt_or_ge j 8 with hj | hj
  · have hbit := h (8 * k + j)
    unfold bitSet at hbit
    rw [show (8 * k + j) / 8 = k by omega, show (8 * k + j) % 8 = j by omega, decide_eq_true h1,
      decide_eq_true h2, Bool.true_and, Bool.true_and, List.getD_eq_getElem?_getD,
      List.getD_eq_getElem?_getD, List.getElem?_eq_getElem h1, List.getElem?_eq_getElem h2] at hbit
    exact hbit
  · have hbig : 2 ^ 8 ≤ 2 ^ j := Nat.pow_le_pow_right (by decide) hj
    rw [Nat.testBit_lt_two_pow (Nat.lt_of_lt_of_le a[k].toNat_lt hbig),
      Nat.testBit_lt_two_pow (Nat.lt_of_lt_of_le b[k].toNat_lt hbig)]

/-- 印を付けるループは、空いていた範囲の bit だけを立てる。 -/
theorem markTailBits_spec {gs : Nat} : ∀ {n b : Nat} {bm bm' : Bytes}, gs ≤ b →
    b + n ≤ gs + bm.length * 8 → markTailBits gs n b bm = .ok bm' →
    (∀ i, b - gs ≤ i → i < b - gs + n → bitSet bm i = false) ∧
      ∀ i, bitSet bm' i = if b - gs ≤ i ∧ i < b - gs + n then true else bitSet bm i
  | 0, b, bm, bm', _, _, h => by
    cases h
    refine ⟨fun i h1 h2 => absurd h2 (by omega), fun i => ?_⟩
    rw [if_neg (by omega)]
  | n + 1, b, bm, bm', hgs, hlen, h => by
    unfold markTailBits at h
    rw [if_neg (by omega)] at h
    split at h
    · cases h
    · next hbit =>
      obtain ⟨hfree, hset⟩ := @markTailBits_spec gs n (b + 1) _ bm' (by omega)
        (by rw [length_setBitmapBit]; omega) h
      have hone : ∀ i, bitSet (setBitmapBit bm (b - gs) true) i =
          if i = b - gs then true else bitSet bm i := bitSet_setBitmapBit (by omega) true
      refine ⟨fun i h1 h2 => ?_, fun i => ?_⟩
      · rcases Nat.eq_or_lt_of_le h1 with rfl | hlt
        · simpa using hbit
        · have := hfree i (by omega) (by omega)
          rwa [hone, if_neg (by omega)] at this
      · rw [hset, hone]
        by_cases h1 : i = b - gs
        · rw [if_pos h1, ite_self, if_pos (by omega)]
        · rw [if_neg h1]
          by_cases h2 : b - gs ≤ i ∧ i < b - gs + (n + 1)
          · rw [if_pos h2, if_pos (by omega)]
          · rw [if_neg h2, if_neg (by omega)]

/-- **付けた印を消せば、bitmap はもとに戻る。** -/
theorem setBitmapRange_markTailBits {gs n b : Nat} {bm bm' : Bytes} (hgs : gs ≤ b)
    (hlen : b + n ≤ gs + bm.length * 8) (h : markTailBits gs n b bm = .ok bm') :
    setBitmapRange bm' (b - gs) n false = bm := by
  obtain ⟨hfree, hset⟩ := markTailBits_spec hgs hlen h
  have hlen' := length_markTailBits h
  refine eq_of_bitSet_eq (by rw [length_setBitmapRange, hlen']) fun i => ?_
  rw [bitSet_setBitmapRange (by rw [hlen']; omega), hset]
  by_cases hi : b - gs ≤ i ∧ i < b - gs + n
  · rw [if_pos hi, hfree i hi.1 hi.2]
  · rw [if_neg hi, if_neg hi]

/-! ## descriptor -/

/-- 上位と下位に分けた値の、それぞれ。 -/
theorem halves_of_or {lo hi : Nat} (hlo : lo < 256 ^ 2) (hhi : hi < 256 ^ 2) :
    (lo ||| hi <<< 16) % 256 ^ 2 = lo ∧ ((lo ||| hi <<< 16) >>> 16) % 256 ^ 2 = hi := by
  rw [Nat.or_comm, ← Nat.shiftLeft_add_eq_or_of_lt (show lo < 2 ^ 16 by omega), Nat.shiftLeft_eq,
    Nat.shiftRight_eq_div_pow]
  omega

section Halves

variable {raw : Bytes} {lo hi v : Nat}

theorem setHalves_setHalves (v' : Nat) (h : lo + 2 ≤ hi) :
    setHalves (setHalves raw lo hi v) lo hi v' = setHalves raw lo hi v' := by
  by_cases hlen : raw.length ≥ hi + 2
  · have hboth : ∀ (b : Bytes) (w : Nat), b.length = raw.length →
        setHalves b lo hi w = writeLe 2 (writeLe 2 b lo w) hi (w >>> 16) :=
      fun b w hb => if_pos (by omega)
    rw [hboth _ _ (length_setHalves _ _ _ _), hboth raw v rfl, hboth raw v' rfl,
      writeLe_comm (Or.inr h), writeLe_writeLe, writeLe_writeLe]
  · have hone : ∀ (b : Bytes) (w : Nat), b.length = raw.length →
        setHalves b lo hi w = writeLe 2 b lo w := fun b w hb => if_neg (by omega)
    rw [hone _ _ (length_setHalves _ _ _ _), hone raw v rfl, hone raw v' rfl, writeLe_writeLe]

/-- 離れた欄への書き込みとは交換できる。 -/
theorem writeLe_setHalves_comm {n o w : Nat} (h1 : lo + 2 ≤ o ∨ o + n ≤ lo)
    (h2 : hi + 2 ≤ o ∨ o + n ≤ hi) :
    writeLe n (setHalves raw lo hi v) o w = setHalves (writeLe n raw o w) lo hi v := by
  unfold setHalves
  rw [length_writeLe]
  split
  · rw [writeLe_comm h2, writeLe_comm h1]
  · rw [writeLe_comm h1]

theorem setHalves_comm {lo' hi' v' : Nat} (h1 : lo + 2 ≤ lo' ∨ lo' + 2 ≤ lo)
    (h2 : lo + 2 ≤ hi' ∨ hi' + 2 ≤ lo) (h3 : hi + 2 ≤ lo' ∨ lo' + 2 ≤ hi)
    (h4 : hi + 2 ≤ hi' ∨ hi' + 2 ≤ hi) :
    setHalves (setHalves raw lo hi v) lo' hi' v' = setHalves (setHalves raw lo' hi' v') lo hi v := by
  rw [setHalves]
  simp only [length_setHalves]
  rw [writeLe_setHalves_comm h1 h3, writeLe_setHalves_comm h2 h4]
  conv_rhs => rw [setHalves.eq_1 raw lo' hi' v']
  split <;> rfl

end Halves

theorem setDescFreeBlocks_eq (raw : Bytes) (v : Nat) :
    setDescFreeBlocks raw v = setHalves raw 12 44 v := rfl

theorem updateBlockBitmapChecksum_eq (ctx : MetadataContext) (raw bm : Bytes) :
    updateBlockBitmapChecksum ctx raw bm = if ctx.metadataCsum = false then raw
      else setHalves raw 0x18 0x38 (bitmapChecksum ctx bm ((ctx.sb.blocksPerGroup + 7) / 8)) := rfl

/-- 空きの数と block bitmap を入れ替え、checksum を合わせた descriptor。 -/
def resizedDesc (ctx : MetadataContext) (g : Nat) (raw : Bytes) (free : Nat) (bm : Bytes) : Bytes :=
  sealedDesc ctx g (updateBlockBitmapChecksum ctx (setDescFreeBlocks raw free) bm)

/-- 読んだままの空きの数を書いても変わらない。 -/
theorem setDescFreeBlocks_descFree {raw : Bytes} (hlen : 14 ≤ raw.length) :
    setDescFreeBlocks raw (descFree raw) = raw := by
  rw [setDescFreeBlocks_eq]
  have hlo := readLe_lt 2 raw 12
  have hhi := readLe_lt 2 raw 44
  refine setHalves_eq_self (by omega) ?_ fun h => ?_
  · unfold descFree
    split
    · exact (halves_of_or hlo hhi).1.symm
    · rw [Nat.or_zero, Nat.mod_eq_of_lt hlo]
  · unfold descFree
    rw [if_pos h]
    exact (halves_of_or hlo hhi).2.symm

theorem descFree_lt (raw : Bytes) : descFree raw < 2 ^ 32 := by
  have hlo := readLe_lt 2 raw 12
  have hhi := readLe_lt 2 raw 44
  unfold descFree
  split
  · rw [Nat.or_comm, ← Nat.shiftLeft_add_eq_or_of_lt (show readLe 2 raw 12 < 2 ^ 16 by omega),
      Nat.shiftLeft_eq]
    omega
  · rw [Nat.or_zero]
    omega

/-- 検査に通る checksum は、書き直しても変わらない。 -/
theorem updateBlockBitmapChecksum_eq_self {ctx : MetadataContext} {raw bm : Bytes}
    (hlen : 32 ≤ raw.length) (h : verifyBlockBitmapChecksum ctx raw bm = true) :
    updateBlockBitmapChecksum ctx raw bm = raw := by
  rw [updateBlockBitmapChecksum_eq]
  unfold verifyBlockBitmapChecksum verifyBitmapChecksum descriptorBitmapChecksum at h
  dsimp only at h
  split at h
  · next hm => rw [if_pos hm]
  · next hm =>
    rw [if_neg hm]
    have hlo := readLe_lt 2 raw 0x18
    have hhi := readLe_lt 2 raw 0x38
    refine setHalves_eq_self (by omega) ?_ fun hl => ?_
    · split at h
      · rw [← of_decide_eq_true h]
        exact (halves_of_or hlo hhi).1.symm
      · have := of_decide_eq_true h
        rw [Nat.or_zero, Nat.mod_eq_of_lt (by omega)] at this
        exact this
    · rw [if_pos hl, if_pos hl] at h
      rw [← of_decide_eq_true h]
      exact (halves_of_or hlo hhi).2.symm

/-- checksum は、その欄を零にした descriptor だけで決まる。 -/
theorem groupDescriptorSum_congr {ctx : MetadataContext} {g : Nat} {a b : Bytes}
    (h : writeLe 2 a 0x1e 0 = writeLe 2 b 0x1e 0) :
    groupDescriptorSum ctx g a = groupDescriptorSum ctx g b := by
  unfold groupDescriptorSum
  rw [h]

theorem sealedDesc_congr {ctx : MetadataContext} {g : Nat} {a b : Bytes} (hg : ctx.gdtCsum = true)
    (h : writeLe 2 a 0x1e 0 = writeLe 2 b 0x1e 0) : sealedDesc ctx g a = sealedDesc ctx g b := by
  unfold sealedDesc
  rw [if_neg (by rw [hg]; decide), if_neg (by rw [hg]; decide), groupDescriptorSum_congr h, h]

section Desc

variable {ctx : MetadataContext} {g free : Nat} {raw bm bm' : Bytes}

@[simp] theorem length_resizedDesc : (resizedDesc ctx g raw free bm).length = raw.length := by
  unfold resizedDesc
  rw [length_sealedDesc, length_updateBlockBitmapChecksum, length_setDescFreeBlocks]

/-- 空きの数・block bitmap の checksum・descriptor の checksum のほかは変わらない。 -/
theorem readLe_resizedDesc {n off : Nat} (h1 : off + n ≤ 12 ∨ 14 ≤ off)
    (h2 : off + n ≤ 0x18 ∨ 0x1a ≤ off) (h3 : off + n ≤ 0x1e ∨ 0x20 ≤ off)
    (h4 : off + n ≤ 44 ∨ 46 ≤ off) (h5 : off + n ≤ 0x38 ∨ 0x3a ≤ off) :
    readLe n (resizedDesc ctx g raw free bm) off = readLe n raw off := by
  unfold resizedDesc
  rw [readLe_sealedDesc_of_disjoint h3, updateBlockBitmapChecksum_eq, setDescFreeBlocks_eq]
  split
  · rw [readLe_setHalves_of_disjoint (by omega) (by omega)]
  · rw [readLe_setHalves_of_disjoint (by omega) (by omega),
      readLe_setHalves_of_disjoint (by omega) (by omega)]

/-- 書いた空きの数は、上位の欄があればそのまま、なければ 16 bit に切り詰めて残る。 -/
theorem descFree_resizedDesc_eq (hlen : 32 ≤ raw.length) (hlt : free < 2 ^ 32) :
    descFree (resizedDesc ctx g raw free bm) =
      if raw.length ≥ 46 then free else free % 2 ^ 16 := by
  have hread : ∀ off, off = 12 ∨ off = 44 → readLe 2 (resizedDesc ctx g raw free bm) off =
      readLe 2 (setHalves raw 12 44 free) off := by
    intro off hoff
    unfold resizedDesc
    rw [readLe_sealedDesc_of_disjoint (by omega), updateBlockBitmapChecksum_eq, setDescFreeBlocks_eq]
    split
    · rfl
    · rw [readLe_setHalves_of_disjoint (by omega) (by omega)]
  unfold descFree
  rw [hread 12 (Or.inl rfl), hread 44 (Or.inr rfl), length_resizedDesc,
    readLe_setHalves_lo (by omega) (by omega)]
  by_cases h : raw.length ≥ 46
  · rw [if_pos h, if_pos h, readLe_setHalves_hi h, or_halves hlt]
  · rw [if_neg h, if_neg h, Nat.or_zero]
    rfl

/-- もとの数を超えない空きの数は、そのまま読み戻せる。 -/
theorem descFree_resizedDesc (hlen : 32 ≤ raw.length) (hfree : free ≤ descFree raw) :
    descFree (resizedDesc ctx g raw free bm) = free := by
  have hlt := descFree_lt raw
  rw [descFree_resizedDesc_eq hlen (by omega)]
  split
  · rfl
  · next h =>
    -- 上位の欄がなければ、もとの数も 16 bit に収まっている
    have hsmall : descFree raw < 256 ^ 2 := by
      unfold descFree
      rw [if_neg h, Nat.or_zero]
      exact readLe_lt 2 raw 12
    exact Nat.mod_eq_of_lt (by omega)

/-- 書いた descriptor は、checksum の検査に通る。 -/
theorem verifyGroupDescriptorChecksum_resizedDesc (hlen : 32 ≤ raw.length) :
    verifyGroupDescriptorChecksum ctx g (resizedDesc ctx g raw free bm) = .ok true := by
  unfold verifyGroupDescriptorChecksum
  by_cases hg : ctx.gdtCsum = false
  · rw [if_pos hg]
  · rw [if_neg hg, length_resizedDesc, if_neg (by omega)]
    unfold resizedDesc
    rw [readLe_sealedDesc_sum
      (by rw [length_updateBlockBitmapChecksum, length_setDescFreeBlocks]; exact hlen)
      (by simpa using hg)]
    exact congrArg Except.ok (decide_eq_true rfl)

/-- 書いた descriptor の、bitmap の checksum も合う。 -/
theorem verifyBlockBitmapChecksum_resizedDesc (hlen : 32 ≤ raw.length) :
    verifyBlockBitmapChecksum ctx (resizedDesc ctx g raw free bm) bm = true := by
  have hread : ∀ off, off + 2 ≤ 0x1e ∨ 0x20 ≤ off → ctx.metadataCsum = true →
      readLe 2 (resizedDesc ctx g raw free bm) off = readLe 2 (setHalves (setDescFreeBlocks raw free)
        0x18 0x38 (bitmapChecksum ctx bm ((ctx.sb.blocksPerGroup + 7) / 8))) off := by
    intro off hoff hm
    unfold resizedDesc
    rw [readLe_sealedDesc_of_disjoint hoff, updateBlockBitmapChecksum_eq, if_neg (by simp [hm])]
  refine verifyBitmapChecksum_of_halves (fun hm => ?_) fun hm hl => ?_
  · rw [hread 0x18 (by omega) hm, readLe_setHalves_lo
      (by rw [length_setDescFreeBlocks]; omega) (by omega)]
  · rw [length_resizedDesc] at hl
    rw [hread 0x38 (by omega) hm, readLe_setHalves_hi (by rw [length_setDescFreeBlocks]; exact hl)]

/-- 指す先の block は変わらない。 -/
theorem decodeGroupDesc_resizedDesc {sb : Superblock} :
    (decodeGroupDesc sb (resizedDesc ctx g raw free bm)).blockBitmap =
        (decodeGroupDesc sb raw).blockBitmap ∧
      (decodeGroupDesc sb (resizedDesc ctx g raw free bm)).inodeBitmap =
        (decodeGroupDesc sb raw).inodeBitmap ∧
      (decodeGroupDesc sb (resizedDesc ctx g raw free bm)).inodeTable =
        (decodeGroupDesc sb raw).inodeTable := by
  unfold decodeGroupDesc
  dsimp only
  simp (disch := omega) only [readLe_resizedDesc, and_self]

/--
**空きの数と bitmap を戻せば、descriptor はもとの byte 列に戻る。**
もとの checksum が合っていたことを使う。
-/
theorem resizedDesc_resizedDesc (hlen : 32 ≤ raw.length) (hseal : ctx.metadataCsum = true →
    ctx.gdtCsum = true) (hbm : verifyBlockBitmapChecksum ctx raw bm = true)
    (hsum : verifyGroupDescriptorChecksum ctx g raw = .ok true) :
    resizedDesc ctx g (resizedDesc ctx g raw free bm') (descFree raw) bm = raw := by
  have hown := setDescFreeBlocks_descFree (show 14 ≤ raw.length by omega)
  have hsum' := updateBlockBitmapChecksum_eq_self hlen hbm
  cases hg : ctx.gdtCsum with
  | false =>
    have hm : ctx.metadataCsum = false := by
      cases hm : ctx.metadataCsum with
      | false => rfl
      | true => rw [hseal hm] at hg; cases hg
    unfold resizedDesc sealedDesc
    rw [if_pos hg, if_pos hg, updateBlockBitmapChecksum_eq, if_pos hm, updateBlockBitmapChecksum_eq,
      if_pos hm]
    rw [setDescFreeBlocks_eq, setDescFreeBlocks_eq, setHalves_setHalves _ (by omega)]
    exact hown
  | true =>
    have hself : sealedDesc ctx g raw = raw := by
      refine sealedDesc_eq_self hlen fun _ => ?_
      unfold verifyGroupDescriptorChecksum at hsum
      rw [if_neg (by rw [hg]; decide), if_neg (by omega)] at hsum
      exact of_decide_eq_true (Except.ok.inj hsum)
    conv_rhs => rw [← hself]
    refine sealedDesc_congr hg ?_
    -- checksum の欄を零にしてしまえば、残りの欄は順に上書きで戻る
    have hzero : ∀ x, writeLe 2 (sealedDesc ctx g x) 0x1e 0 = writeLe 2 x 0x1e 0 := by
      intro x
      unfold sealedDesc
      rw [if_neg (by rw [hg]; decide), writeLe_writeLe, writeLe_writeLe]
    unfold resizedDesc
    rw [setDescFreeBlocks_eq] at hown ⊢
    rw [setDescFreeBlocks_eq]
    rw [updateBlockBitmapChecksum_eq] at hsum' ⊢
    rw [updateBlockBitmapChecksum_eq]
    by_cases hm : ctx.metadataCsum = false
    · rw [if_pos hm, if_pos hm, writeLe_setHalves_comm (by omega) (by omega), hzero,
        ← writeLe_setHalves_comm (by omega) (by omega), setHalves_setHalves _ (by omega), hown]
    · rw [if_neg hm] at hsum'
      rw [if_neg hm, if_neg hm, writeLe_setHalves_comm (by omega) (by omega),
        writeLe_setHalves_comm (by omega) (by omega), hzero,
        ← writeLe_setHalves_comm (by omega) (by omega), ← writeLe_setHalves_comm (by omega) (by omega),
        setHalves_comm (by omega) (by omega) (by omega) (by omega), setHalves_setHalves _ (by omega),
        setHalves_comm (by omega) (by omega) (by omega) (by omega), setHalves_setHalves _ (by omega),
        hown, hsum']

end Desc

/-! ## superblock -/

/-- 大きさと空きと予約の数、状態、checksum の欄のほかは等しい superblock。 -/
structure SameBase (b b' : Bytes) : Prop where
  length : b'.length = b.length
  slices : ∀ n off, off + n ≤ 0x3fc → (off + n ≤ 0x04 ∨ 0x10 ≤ off) →
    (off + n ≤ 0x3a ∨ 0x3c ≤ off) → (off + n ≤ 0x150 ∨ 0x15c ≤ off) → slice b' off n = slice b off n

theorem SameBase.trans {a b c : Bytes} (h : SameBase a b) (h' : SameBase b c) : SameBase a c where
  length := h'.length.trans h.length
  slices n off h1 h2 h3 h4 := (h'.slices n off h1 h2 h3 h4).trans (h.slices n off h1 h2 h3 h4)

theorem SameBase.readLe {b b' : Bytes} (h : SameBase b b') {n off : Nat} (h1 : off + n ≤ 0x3fc)
    (h2 : off + n ≤ 0x04 ∨ 0x10 ≤ off) (h3 : off + n ≤ 0x3a ∨ 0x3c ≤ off)
    (h4 : off + n ≤ 0x150 ∨ 0x15c ≤ off) : readLe n b' off = Fsx.readLe n b off :=
  congrArg leNat (h.slices n off h1 h2 h3 h4)

theorem sameBase_state (b : Bytes) (v : Nat) : SameBase b (writeLe 2 b 0x3a v) :=
  ⟨length_writeLe _ _ _ _, fun _ _ _ _ h3 _ => slice_writeLe_of_disjoint h3⟩

theorem sameBase_checksum {b b' : Bytes} (h : updateSuperblockChecksum b = .ok b') :
    SameBase b b' := by
  unfold updateSuperblockChecksum at h
  split at h
  · cases h
  · split at h
    · cases h
      exact ⟨rfl, fun _ _ _ _ _ _ => rfl⟩
    · cases h
      exact ⟨length_writeLe _ _ _ _, fun _ _ h1 _ _ _ => slice_writeLe_of_disjoint (Or.inl h1)⟩

theorem sameBase_setLoHi {b : Bytes} {lo hi v : Nat} (hlo : 0x04 ≤ lo ∧ lo + 4 ≤ 0x10)
    (hhi : 0x150 ≤ hi ∧ hi + 4 ≤ 0x15c) : SameBase b (setLoHi b lo hi v) := by
  refine ⟨length_setLoHi _ _ _ _, fun n off _ h2 _ h4 => ?_⟩
  unfold setLoHi
  rw [slice_writeLe_of_disjoint (by omega), slice_writeLe_of_disjoint (by omega)]

/-- 大きさ・空き・予約の数と状態を入れ替えた superblock。 -/
def Superblock.sized (sb : Superblock) (blocks free reserved state : Nat) : Superblock :=
  { sb with blocksCount := blocks, freeBlocks := free, reservedBlocks := reserved, state := state }

theorem Superblock.sized_sized (sb : Superblock) (a b c d a' b' c' d' : Nat) :
    (sb.sized a b c d).sized a' b' c' d' = sb.sized a' b' c' d' := rfl

theorem SameBase.decode {b b' : Bytes} (h : SameBase b b') : decodeSuperblock b' =
    (decodeSuperblock b).sized (decodeSuperblock b').blocksCount (decodeSuperblock b').freeBlocks
      (decodeSuperblock b').reservedBlocks (decodeSuperblock b').state := by
  unfold decodeSuperblock Superblock.sized
  dsimp only
  simp (disch := omega) only [h.readLe]
  rw [h.slices 16 0x68 (by omega) (by omega) (by omega) (by omega)]

/-- 64 bit の feature。 -/
def wideSuper (b : Bytes) : Bool := decide (Fsx.readLe 4 b 0x60 &&& incompat64bit ≠ 0)

theorem SameBase.wide {b b' : Bytes} (h : SameBase b b') : wideSuper b' = wideSuper b := by
  unfold wideSuper
  rw [h.readLe (by omega) (by omega) (by omega) (by omega)]

theorem blocksCount_eq (b : Bytes) :
    (decodeSuperblock b).blocksCount = readLoHi b (wideSuper b) 0x04 0x150 := rfl
theorem freeBlocks_eq (b : Bytes) :
    (decodeSuperblock b).freeBlocks = readLoHi b (wideSuper b) 0x0c 0x158 := rfl
theorem reservedBlocks_eq (b : Bytes) :
    (decodeSuperblock b).reservedBlocks = readLoHi b (wideSuper b) 0x08 0x154 := rfl

theorem readLoHi_lt {b : Bytes} {lo hi : Nat} (wide : Bool) (h : wide = false) :
    readLoHi b wide lo hi < 2 ^ 32 := by
  unfold readLoHi
  rw [h, if_neg Bool.false_ne_true, Nat.or_zero]
  exact readLe_lt 4 b lo

/-- 別の欄を書いても、下位と上位に分けた値は変わらない。 -/
theorem readLoHi_setLoHi_of_disjoint {b : Bytes} {wide : Bool} {lo hi lo' hi' v : Nat}
    (h1 : lo + 4 ≤ lo' ∨ lo' + 4 ≤ lo) (h2 : lo + 4 ≤ hi' ∨ hi' + 4 ≤ lo)
    (h3 : hi + 4 ≤ lo' ∨ lo' + 4 ≤ hi) (h4 : hi + 4 ≤ hi' ∨ hi' + 4 ≤ hi) :
    readLoHi (setLoHi b lo' hi' v) wide lo hi = readLoHi b wide lo hi := by
  unfold readLoHi
  rw [readLe_setLoHi h1 h2, readLe_setLoHi h3 h4]

theorem readLoHi_writeState {b : Bytes} {wide : Bool} {lo hi v : Nat} (h1 : lo + 4 ≤ 0x3a)
    (h2 : 0x3c ≤ hi) : readLoHi (writeLe 2 b 0x3a v) wide lo hi = readLoHi b wide lo hi := by
  unfold readLoHi
  rw [readLe_writeLe_of_disjoint (Or.inl h1), readLe_writeLe_of_disjoint (Or.inr h2)]

theorem readLoHi_checksum {b b' : Bytes} (h : updateSuperblockChecksum b = .ok b') {wide : Bool}
    {lo hi : Nat} (h1 : lo + 4 ≤ 0x3fc) (h2 : hi + 4 ≤ 0x3fc) :
    readLoHi b' wide lo hi = readLoHi b wide lo hi := by
  unfold readLoHi
  rw [(updateSuperblockChecksum_ok h).2 4 lo h1, (updateSuperblockChecksum_ok h).2 4 hi h2]

/-- 状態の欄を書き換え、checksum を合わせた superblock は、状態だけが違う。 -/
theorem decode_state {b b' : Bytes} {v : Nat} (hlen : b.length = 1024)
    (h : updateSuperblockChecksum (writeLe 2 b 0x3a v) = .ok b') :
    SameBase b b' ∧ decodeSuperblock b' = (decodeSuperblock b).sized (decodeSuperblock b).blocksCount
      (decodeSuperblock b).freeBlocks (decodeSuperblock b).reservedBlocks (v % 256 ^ 2) := by
  have hbase := (sameBase_state b v).trans (sameBase_checksum h)
  refine ⟨hbase, ?_⟩
  rw [hbase.decode, blocksCount_eq b', freeBlocks_eq b', reservedBlocks_eq b', hbase.wide]
  rw [readLoHi_checksum h (by omega) (by omega), readLoHi_checksum h (by omega) (by omega),
    readLoHi_checksum h (by omega) (by omega), readLoHi_writeState (by omega) (by omega),
    readLoHi_writeState (by omega) (by omega), readLoHi_writeState (by omega) (by omega)]
  have hstate : (decodeSuperblock b').state = v % 256 ^ 2 := by
    show Fsx.readLe 2 b' 0x3a = _
    rw [(updateSuperblockChecksum_ok h).2 2 0x3a (by decide), readLe_writeLe_self (by omega)]
  rw [hstate, blocksCount_eq b, freeBlocks_eq b, reservedBlocks_eq b]

/-- checksum を合わせた superblock は、検査に通る。 -/
theorem verifies_of_update {b b' : Bytes} (hlen : b.length = 1024)
    (h : updateSuperblockChecksum b = .ok b') : verifySuperblockChecksum b' = true := by
  rw [updateSuperblockChecksum_eq hlen] at h
  cases h
  exact verifySuperblockChecksum_sealedSuper hlen

/-- 縮めた superblock。 -/
theorem decode_shrunk {ctx : MetadataContext} {raw shrunk : Bytes} {state target : Nat}
    (hlen : raw.length = 1024) (hctx : ctx.sb.blocksCount = (decodeSuperblock raw).blocksCount)
    (hres : ctx.sb.reservedBlocks = (decodeSuperblock raw).reservedBlocks)
    (hbound : ctx.sb.blocksCount < 2 ^ 64) (hfb : ctx.sb.freeBlocks ≤ ctx.sb.blocksCount)
    (ht : target ≤ ctx.sb.blocksCount) (h : shrunkSuper ctx raw state target = .ok shrunk) :
    SameBase raw shrunk ∧ ctx.sb.blocksCount - target ≤ ctx.sb.freeBlocks ∧
      decodeSuperblock shrunk = (decodeSuperblock raw).sized target
        (ctx.sb.freeBlocks - (ctx.sb.blocksCount - target))
        (if ctx.sb.reservedBlocks > target then target / 20 else ctx.sb.reservedBlocks)
        ((state &&& 0xfffe) % 256 ^ 2) := by
  unfold shrunkSuper at h
  rw [Result.guard_bind_eq_ok_iff] at h
  obtain ⟨hroom, h⟩ := h
  dsimp only at h
  generalize hr : (if ctx.sb.reservedBlocks > target then target / 20 else ctx.sb.reservedBlocks) = r at h
  have hrle : r ≤ max target ctx.sb.reservedBlocks := by
    rw [← hr]
    split <;> omega
  obtain ⟨hs, hd⟩ := decode_state (by simp only [length_setLoHi]; exact hlen) h
  have h1 : SameBase raw (setLoHi raw 0x04 0x150 target) := sameBase_setLoHi (by omega) (by omega)
  have h2 := @sameBase_setLoHi (setLoHi raw 0x04 0x150 target) 0x0c 0x158
    (ctx.sb.freeBlocks - (ctx.sb.blocksCount - target)) (by omega) (by omega)
  have h3 := @sameBase_setLoHi (setLoHi (setLoHi raw 0x04 0x150 target) 0x0c 0x158
    (ctx.sb.freeBlocks - (ctx.sb.blocksCount - target))) 0x08 0x154 r (by omega) (by omega)
  have hbase := (h1.trans h2).trans h3
  refine ⟨hbase.trans hs, Nat.not_lt.mp hroom, ?_⟩
  -- `64bit` でなければ、どの数も 32 bit に収まっている
  have hnarrow : wideSuper raw = false → ctx.sb.blocksCount < 2 ^ 32 ∧ ctx.sb.reservedBlocks < 2 ^ 32 := by
    intro hw
    rw [hctx, hres, blocksCount_eq, reservedBlocks_eq]
    exact ⟨readLoHi_lt _ hw, readLoHi_lt _ hw⟩
  have hres64 : ctx.sb.reservedBlocks < 2 ^ 64 := by
    rw [hres, reservedBlocks_eq]
    unfold readLoHi
    have hlo := readLe_lt 4 raw 0x08
    have hhi := readLe_lt 4 raw 0x154
    split
    · rw [Nat.or_comm, ← Nat.shiftLeft_add_eq_or_of_lt (show Fsx.readLe 4 raw 0x08 < 2 ^ 32 by omega),
        Nat.shiftLeft_eq]
      omega
    · rw [Nat.or_zero]
      omega
  have hb : (decodeSuperblock (setLoHi (setLoHi (setLoHi raw 0x04 0x150 target) 0x0c 0x158
      (ctx.sb.freeBlocks - (ctx.sb.blocksCount - target))) 0x08 0x154 r)).blocksCount = target := by
    rw [blocksCount_eq, hbase.wide, readLoHi_setLoHi_of_disjoint (by omega) (by omega) (by omega)
      (by omega), readLoHi_setLoHi_of_disjoint (by omega) (by omega) (by omega) (by omega),
      readLoHi_setLoHi (by omega) (by omega) (by omega) fun hw => by have := hnarrow hw; omega]
  have hf : (decodeSuperblock (setLoHi (setLoHi (setLoHi raw 0x04 0x150 target) 0x0c 0x158
      (ctx.sb.freeBlocks - (ctx.sb.blocksCount - target))) 0x08 0x154 r)).freeBlocks =
      ctx.sb.freeBlocks - (ctx.sb.blocksCount - target) := by
    rw [freeBlocks_eq, hbase.wide, readLoHi_setLoHi_of_disjoint (by omega) (by omega) (by omega)
      (by omega), readLoHi_setLoHi (by omega) (by rw [length_setLoHi]; omega) (by omega)
        fun hw => by have := hnarrow hw; omega]
  have hv : (decodeSuperblock (setLoHi (setLoHi (setLoHi raw 0x04 0x150 target) 0x0c 0x158
      (ctx.sb.freeBlocks - (ctx.sb.blocksCount - target))) 0x08 0x154 r)).reservedBlocks = r := by
    rw [reservedBlocks_eq, hbase.wide, readLoHi_setLoHi (by omega)
      (by simp only [length_setLoHi]; omega) (by omega) fun hw => by have := hnarrow hw; omega]
  rw [hd, hb, hf, hv, hbase.decode, Superblock.sized_sized]

/-- 広げた superblock。予約の数は変わらない。 -/
theorem decode_grown {ctx : MetadataContext} {raw grown : Bytes} {state target : Nat}
    (hlen : raw.length = 1024) (hbound : target < 2 ^ 64)
    (hnarrow : wideSuper raw = false → target < 2 ^ 32)
    (hfree : ctx.sb.freeBlocks + (target - ctx.sb.blocksCount) ≤ target)
    (h : grownSuper ctx raw state target = .ok grown) :
    SameBase raw grown ∧ decodeSuperblock grown = (decodeSuperblock raw).sized target
      (ctx.sb.freeBlocks + (target - ctx.sb.blocksCount)) (decodeSuperblock raw).reservedBlocks
      ((state &&& 0xfffe) % 256 ^ 2) := by
  unfold grownSuper at h
  rw [Result.guard_bind_eq_ok_iff] at h
  obtain ⟨-, h⟩ := h
  dsimp only at h
  obtain ⟨hs, hd⟩ := decode_state (by simp only [length_setLoHi]; exact hlen) h
  have h1 : SameBase raw (setLoHi raw 0x04 0x150 target) := sameBase_setLoHi (by omega) (by omega)
  have h2 := @sameBase_setLoHi (setLoHi raw 0x04 0x150 target) 0x0c 0x158
    (ctx.sb.freeBlocks + (target - ctx.sb.blocksCount)) (by omega) (by omega)
  have hbase := h1.trans h2
  refine ⟨hbase.trans hs, ?_⟩
  have hb : (decodeSuperblock (setLoHi (setLoHi raw 0x04 0x150 target) 0x0c 0x158
      (ctx.sb.freeBlocks + (target - ctx.sb.blocksCount)))).blocksCount = target := by
    rw [blocksCount_eq, hbase.wide, readLoHi_setLoHi_of_disjoint (by omega) (by omega) (by omega)
      (by omega), readLoHi_setLoHi (by omega) (by omega) (by omega) hnarrow]
  have hf : (decodeSuperblock (setLoHi (setLoHi raw 0x04 0x150 target) 0x0c 0x158
      (ctx.sb.freeBlocks + (target - ctx.sb.blocksCount)))).freeBlocks =
      ctx.sb.freeBlocks + (target - ctx.sb.blocksCount) := by
    rw [freeBlocks_eq, hbase.wide, readLoHi_setLoHi (by omega) (by rw [length_setLoHi]; omega)
      (by omega) fun hw => by have := hnarrow hw; omega]
  have hv : (decodeSuperblock (setLoHi (setLoHi raw 0x04 0x150 target) 0x0c 0x158
      (ctx.sb.freeBlocks + (target - ctx.sb.blocksCount)))).reservedBlocks =
      (decodeSuperblock raw).reservedBlocks := by
    rw [reservedBlocks_eq, hbase.wide, readLoHi_setLoHi_of_disjoint (by omega) (by omega) (by omega)
      (by omega), readLoHi_setLoHi_of_disjoint (by omega) (by omega) (by omega) (by omega),
      reservedBlocks_eq]
  rw [hd, hb, hf, hv, hbase.decode, Superblock.sized_sized]

/-! ## 置き場所 -/

/-- 大きさの変更が書き換えるか読む場所。inode table は入らない。 -/
def Place.Fixed : Place → Prop
  | .inodeTable _ => False
  | _ => True

/-- superblock と descriptor table とその写し、bitmap は、互いに異なる block を占める。 -/
def Separate (d : Disk) (sb : Superblock) : Prop :=
  ∀ p q : Place, p.Present sb (rawSuper d) → q.Present sb (rawSuper d) → p.Fixed → q.Fixed → p ≠ q →
    p.start d sb + p.blocks sb ≤ q.start d sb ∨ q.start d sb + q.blocks sb ≤ p.start d sb

theorem Layout.separate {d : Disk} {sb : Superblock} (h : Layout d sb) : Separate d sb :=
  fun p q hp hq _ _ hne => h.apart p q hp hq hne

section View

variable {d : Disk} {sb : Superblock}

theorem Separate.disjoint (h : Separate d sb) {p q : Place} {o1 n1 o2 n2 : Nat}
    (hp : p.Present sb (rawSuper d)) (hq : q.Present sb (rawSuper d)) (hfp : p.Fixed) (hfq : q.Fixed)
    (hne : p ≠ q) (h1 : p.Holds d sb o1 n1) (h2 : q.Holds d sb o2 n2) :
    o1 + n1 ≤ o2 ∨ o2 + n2 ≤ o1 := by
  obtain ⟨l1, u1⟩ := h1
  obtain ⟨l2, u2⟩ := h2
  rcases h p q hp hq hfp hfq hne with hle | hle
  · have := Nat.mul_le_mul_right sb.blockSize hle
    omega
  · have := Nat.mul_le_mul_right sb.blockSize hle
    omega

/--
像 `img` を、device `d` の置き場所から見たもの。superblock と末尾の group の descriptor と bitmap が
`super`・`desc`・`bm` で、ほかの group の descriptor と bitmap は `d` のままである。
-/
structure TailView (d : Disk) (sb : Superblock) (img : Image) (super desc bm : Bytes) : Prop where
  super : img.read 1024 1024 = super
  desc : img.read (sb.descOffset (sb.groupsCount - 1)) sb.descBytes = desc
  bitmap : img.read ((descAt d sb (sb.groupsCount - 1)).blockBitmap * sb.blockSize) sb.blockSize = bm
  descs : ∀ g < sb.groupsCount - 1, img.read (sb.descOffset g) sb.descBytes = rawDesc d sb g
  blockBitmaps : ∀ g < sb.groupsCount - 1,
    img.read ((descAt d sb g).blockBitmap * sb.blockSize) sb.blockSize = blockBitmapAt d sb g
  inodeBitmaps : ∀ g < sb.groupsCount,
    img.read ((descAt d sb g).inodeBitmap * sb.blockSize) sb.blockSize = inodeBitmapAt d sb g

theorem tailView_self : TailView d sb d.data (rawSuper d) (rawDesc d sb (sb.groupsCount - 1))
    (blockBitmapAt d sb (sb.groupsCount - 1)) :=
  ⟨rfl, rfl, rfl, fun _ _ => rfl, fun _ _ => rfl, fun _ _ => rfl⟩

variable (ha : sb.Accepted d.sizeBytes) (hs : Separate d sb)
include ha hs

/-- 末尾の group の descriptor の欄と、ほかの欄は重ならない。 -/
theorem Separate.slot_apart {j k : Nat} (hj : j < sb.groupsCount)
    (hk : k ∈ copyGroups sb (rawSuper d)) (hne : k ≠ 0 ∨ j ≠ sb.groupsCount - 1) :
    sb.descOffset j + sb.descBytes ≤ sb.tableBase k + (sb.groupsCount - 1) * sb.descBytes ∨
      sb.tableBase k + (sb.groupsCount - 1) * sb.descBytes + sb.descBytes ≤ sb.descOffset j := by
  by_cases h0 : k = 0
  · subst h0
    have hlt : j + 1 ≤ sb.groupsCount - 1 := by omega
    have := Nat.mul_le_mul_right sb.descBytes hlt
    rw [Nat.succ_mul] at this
    left
    show sb.tableOffset + _ + _ ≤ sb.tableOffset + _
    omega
  · have hpos := Nat.pos_of_ne_zero ha.groups_pos
    have hzero : (Place.table 0).Present sb (rawSuper d) := mem_copyGroups.mp (by
      rw [copyGroups_eq hpos]
      exact List.mem_cons_self)
    exact hs.disjoint (p := .table 0) (q := .table k) hzero (mem_copyGroups.mp hk) trivial trivial
      (fun heq => h0 (Place.table.inj heq).symm) (holds_slot ha hj) (holds_slot ha (by omega))

/-- 見えるところと重ならない書き込みは、見え方を変えない。 -/
theorem TailView.write_outside {img : Image} {super desc bm : Bytes} (hv : TailView d sb img super desc bm)
    {p : Place} (hp : p.Present sb (rawSuper d)) (hf : p.Fixed) {w : Write}
    (hh : p.Holds d sb w.off w.bytes.length) (hsup : p ≠ .super 0) (htab : ∀ k, p ≠ .table k)
    (hbit : ∀ g, p ≠ .blockBitmap g) (hino : ∀ g, p ≠ .inodeBitmap g) :
    TailView d sb (img.apply w) super desc bm := by
  have hpos := Nat.pos_of_ne_zero ha.groups_pos
  have hzero := mem_copyGroups.mp (show 0 ∈ copyGroups sb (rawSuper d) by
    rw [copyGroups_eq hpos]
    exact List.mem_cons_self)
  have hkeep : ∀ {q : Place} {o n : Nat}, q.Present sb (rawSuper d) → q.Fixed → q ≠ p →
      q.Holds d sb o n → (img.apply w).read o n = img.read o n := fun hq hfq hne hhq =>
    Image.read_write_of_disjoint (hs.disjoint hq hp hfq hf hne hhq hh)
  exact ⟨(hkeep (q := .super 0) hzero trivial (Ne.symm hsup) (holds_super ha 0)).trans hv.super,
    (hkeep (q := .table 0) hzero trivial (Ne.symm (htab 0)) (holds_slot ha (by omega))).trans hv.desc,
    (hkeep (q := .blockBitmap _) (Nat.sub_lt hpos Nat.one_pos) trivial (Ne.symm (hbit _))
      (holds_block rfl)).trans hv.bitmap,
    fun g hg => (hkeep (q := .table 0) hzero trivial (Ne.symm (htab 0))
      (holds_slot ha (by omega))).trans (hv.descs g hg),
    fun g hg => (hkeep (q := .blockBitmap g) (show g < sb.groupsCount by omega) trivial
      (Ne.symm (hbit g)) (holds_block rfl)).trans (hv.blockBitmaps g hg),
    fun g hg => (hkeep (q := .inodeBitmap g) hg trivial (Ne.symm (hino g)) (holds_block rfl)).trans
      (hv.inodeBitmaps g hg)⟩

/-- superblock とその写しを書く。 -/
theorem TailView.write_supers {img : Image} {super desc bm : Bytes} (hv : TailView d sb img super desc bm)
    {primary : Bytes} (hlen : primary.length = 1024) {ws : List Write}
    (hws : ∀ x ∈ ws, ∃ k ∈ copyGroups sb (rawSuper d), k ≠ 0 ∧ x.off = sb.superBase k ∧
      x.bytes.length = 1024) :
    TailView d sb (img.applyAll (⟨1024, primary⟩ :: ws)) primary desc bm := by
  have hpos := Nat.pos_of_ne_zero ha.groups_pos
  have hzero := mem_copyGroups.mp (show 0 ∈ copyGroups sb (rawSuper d) by
    rw [copyGroups_eq hpos]
    exact List.mem_cons_self)
  have hkeep : ∀ {q : Place} {o n : Nat}, q.Present sb (rawSuper d) → q.Fixed → q ≠ .super 0 →
      q.Holds d sb o n → (img.apply ⟨1024, primary⟩).read o n = img.read o n := fun hq hfq hne hhq =>
    Image.read_write_of_disjoint (hs.disjoint (q := .super 0) hq hzero hfq trivial hne hhq
      (by rw [hlen]; exact holds_super ha 0))
  have hfirst : TailView d sb (img.apply ⟨1024, primary⟩) primary desc bm :=
    ⟨Image.read_write_self _ _ _ hlen,
      (hkeep (q := .table 0) hzero trivial (by simp) (holds_slot ha (by omega))).trans hv.desc,
      (hkeep (q := .blockBitmap _) (Nat.sub_lt hpos Nat.one_pos) trivial (by simp)
        (holds_block rfl)).trans hv.bitmap,
      fun g hg => (hkeep (q := .table 0) hzero trivial (by simp)
        (holds_slot ha (by omega))).trans (hv.descs g hg),
      fun g hg => (hkeep (q := .blockBitmap g) (show g < sb.groupsCount by omega) trivial (by simp)
        (holds_block rfl)).trans (hv.blockBitmaps g hg),
      fun g hg => (hkeep (q := .inodeBitmap g) hg trivial (by simp) (holds_block rfl)).trans
        (hv.inodeBitmaps g hg)⟩
  rw [Image.applyAll_cons]
  generalize img.apply ⟨1024, primary⟩ = img' at hfirst
  -- 写しは、見えるところの外にある
  refine Image.applyAll_preserves (P := fun i => TailView d sb i primary desc bm) hfirst
    fun x hx i hi => ?_
  obtain ⟨k, hk, h0, hoff, hxlen⟩ := hws x hx
  exact hi.write_outside ha hs (p := .super k) (mem_copyGroups.mp hk) trivial
    (by rw [hoff, hxlen]; exact holds_super ha k) (fun heq => h0 (Place.super.inj heq)) (by simp)
    (by simp) (by simp)

/-- 末尾の group の bitmap と、descriptor とその写しを書く。 -/
theorem TailView.write_tail {img : Image} {super desc bm : Bytes} (hv : TailView d sb img super desc bm)
    {desc' bm' : Bytes} (hbm : bm'.length = sb.blockSize) (hdesc : desc'.length = sb.descBytes)
    {ws : List Write} (hws : ∀ x ∈ ws, ∃ k ∈ copyGroups sb (rawSuper d), k ≠ 0 ∧
      x.off = sb.tableBase k + (sb.groupsCount - 1) * sb.descBytes ∧ x.bytes.length = sb.descBytes) :
    TailView d sb (img.applyAll (
      ⟨(descAt d sb (sb.groupsCount - 1)).blockBitmap * sb.blockSize, bm'⟩ ::
      ⟨sb.descOffset (sb.groupsCount - 1), desc'⟩ :: ws)) super desc' bm' := by
  have hpos := Nat.pos_of_ne_zero ha.groups_pos
  have hlast : sb.groupsCount - 1 < sb.groupsCount := Nat.sub_lt hpos Nat.one_pos
  have hzero := mem_copyGroups.mp (show 0 ∈ copyGroups sb (rawSuper d) by
    rw [copyGroups_eq hpos]
    exact List.mem_cons_self)
  -- bitmap を書く
  have hkeep : ∀ {q : Place} {o n : Nat}, q.Present sb (rawSuper d) → q.Fixed →
      q ≠ .blockBitmap (sb.groupsCount - 1) → q.Holds d sb o n →
      (img.apply ⟨(descAt d sb (sb.groupsCount - 1)).blockBitmap * sb.blockSize, bm'⟩).read o n =
        img.read o n := fun hq hfq hne hhq =>
    Image.read_write_of_disjoint (hs.disjoint (q := .blockBitmap _) hq hlast hfq trivial hne hhq
      (by rw [hbm]; exact holds_block rfl))
  have hfirst : TailView d sb
      (img.apply ⟨(descAt d sb (sb.groupsCount - 1)).blockBitmap * sb.blockSize, bm'⟩) super desc bm' :=
    ⟨(hkeep (q := .super 0) hzero trivial (by simp) (holds_super ha 0)).trans hv.super,
      (hkeep (q := .table 0) hzero trivial (by simp) (holds_slot ha hlast)).trans hv.desc,
      Image.read_write_self _ _ _ hbm,
      fun g hg => (hkeep (q := .table 0) hzero trivial (by simp)
        (holds_slot ha (by omega))).trans (hv.descs g hg),
      fun g hg => (hkeep (q := .blockBitmap g) (show g < sb.groupsCount by omega) trivial
        (fun heq => Nat.ne_of_lt hg (Place.blockBitmap.inj heq)) (holds_block rfl)).trans
        (hv.blockBitmaps g hg),
      fun g hg => (hkeep (q := .inodeBitmap g) hg trivial (by simp) (holds_block rfl)).trans
        (hv.inodeBitmaps g hg)⟩
  rw [Image.applyAll_cons]
  generalize img.apply ⟨_, bm'⟩ = img₁ at hfirst
  -- table の欄を書く。`k = 0` のときだけ見えるところが変わる
  have hslot : ∀ {i : Image} {x : Write} {k : Nat} {q : Place} {o n : Nat},
      k ∈ copyGroups sb (rawSuper d) → x.off = sb.tableBase k + (sb.groupsCount - 1) * sb.descBytes →
      x.bytes.length = sb.descBytes → q.Present sb (rawSuper d) → q.Fixed → q ≠ .table k →
      q.Holds d sb o n → (i.apply x).read o n = i.read o n :=
    fun {_ x k _ _ _} hk hoff hlen hq hfq hne hhq =>
      Image.read_write_of_disjoint (hs.disjoint (q := .table k) hq (mem_copyGroups.mp hk) hfq trivial
        hne hhq (by rw [hoff, hlen]; exact holds_slot ha hlast))
  have hother : ∀ {i : Image} {x : Write} {k : Nat}, k ∈ copyGroups sb (rawSuper d) →
      x.off = sb.tableBase k + (sb.groupsCount - 1) * sb.descBytes → x.bytes.length = sb.descBytes →
      ∀ g < sb.groupsCount, (k ≠ 0 ∨ g ≠ sb.groupsCount - 1) →
      (i.apply x).read (sb.descOffset g) sb.descBytes = i.read (sb.descOffset g) sb.descBytes :=
    fun {_ x _} hk hoff hlen g hg hne =>
      Image.read_write_of_disjoint (by rw [hoff, hlen]; exact hs.slot_apart ha hg hk hne)
  have hsecond : TailView d sb (img₁.apply ⟨sb.descOffset (sb.groupsCount - 1), desc'⟩) super desc'
      bm' := by
    have hk : 0 ∈ copyGroups sb (rawSuper d) := mem_copyGroups.mpr hzero
    exact ⟨(hslot (q := .super 0) hk rfl hdesc hzero trivial (by simp)
        (holds_super ha 0)).trans hfirst.super, Image.read_write_self _ _ _ hdesc,
      (hslot (q := .blockBitmap _) hk rfl hdesc hlast trivial (by simp)
        (holds_block rfl)).trans hfirst.bitmap,
      fun g hg => (hother hk rfl hdesc g (by omega) (Or.inr (by omega))).trans (hfirst.descs g hg),
      fun g hg => (hslot (q := .blockBitmap g) hk rfl hdesc (show g < sb.groupsCount by omega) trivial
        (by simp) (holds_block rfl)).trans (hfirst.blockBitmaps g hg),
      fun g hg => (hslot (q := .inodeBitmap g) hk rfl hdesc hg trivial (by simp)
        (holds_block rfl)).trans (hfirst.inodeBitmaps g hg)⟩
  rw [Image.applyAll_cons]
  generalize img₁.apply ⟨_, desc'⟩ = img₂ at hsecond
  refine Image.applyAll_preserves (P := fun i => TailView d sb i super desc' bm') hsecond
    fun x hx i hi => ?_
  obtain ⟨k, hk, h0, hoff, hlen⟩ := hws x hx
  exact ⟨(hslot (q := .super 0) hk hoff hlen hzero trivial (by simp) (holds_super ha 0)).trans hi.super,
    (hother hk hoff hlen _ hlast (Or.inl h0)).trans hi.desc,
    (hslot (q := .blockBitmap _) hk hoff hlen hlast trivial (by simp) (holds_block rfl)).trans hi.bitmap,
    fun g hg => (hother hk hoff hlen g (by omega) (Or.inl h0)).trans (hi.descs g hg),
    fun g hg => (hslot (q := .blockBitmap g) hk hoff hlen (show g < sb.groupsCount by omega) trivial
      (by simp) (holds_block rfl)).trans (hi.blockBitmaps g hg),
    fun g hg => (hslot (q := .inodeBitmap g) hk hoff hlen hg trivial (by simp)
      (holds_block rfl)).trans (hi.inodeBitmaps g hg)⟩

end View

end Fsx.Ext4
