import Fsx.Core.CrcDetect
import Fsx.ImageFile.RoundTrip

/-!
# 壊れた image の検出

`create` の作った file の 1 byte を変えたもの、途中で切ったもの、後ろに byte を足したものを、
`verify` はすべて断る。

1 byte の変化は、その byte の入る場所の checksum が見つける。
header・record・footer は自分の中に checksum の欄を持つ（`Sealed`）ので、欄の中の変化は記録された値を、
欄の外の変化は計算した値を変える。payload の checksum は record にある。
切ったものと足したものは、読める chunk の列が一通りであることから、footer の終わりの位置が合わない。
-/

namespace Fsx.ImageFile

/-! ## 1 byte だけ違う列 -/

theorem slice_set_of_outside {b : Bytes} {k off n : Nat} {v : UInt8} (h : k < off ∨ off + n ≤ k) :
    slice (b.set k v) off n = slice b off n := by
  apply List.ext_getElem?
  intro i
  rw [getElem?_slice, getElem?_slice]
  split
  · rw [List.getElem?_set_ne (by omega)]
  · rfl

theorem slice_set_of_inside {b : Bytes} {k off n : Nat} {v : UInt8} (h : off ≤ k) :
    slice (b.set k v) off n = (slice b off n).set (k - off) v := by
  unfold slice
  rw [List.drop_set, if_neg (by omega), List.take_set]

theorem getD_slice {b : Bytes} {k off n : Nat} (h : off ≤ k) (hk : k < off + n) :
    (slice b off n).getD (k - off) 0 = b.getD k 0 := by
  rw [List.getD_eq_getElem?_getD, List.getD_eq_getElem?_getD, getElem?_slice, if_pos (by omega),
    Nat.add_sub_cancel' h]

theorem writeLe_set_of_inside {b : Bytes} {k off n x : Nat} {v : UInt8} (h : off ≤ k)
    (hk : k < off + n) : writeLe n (b.set k v) off x = writeLe n b off x := by
  apply List.ext_getElem?
  intro i
  unfold writeLe
  rw [getElem?_patch, getElem?_patch, List.length_set, length_leBytes]
  split
  · rfl
  · rw [List.getElem?_set_ne (by omega)]

theorem writeLe_set_of_outside {b : Bytes} {k off n x : Nat} {v : UInt8}
    (h : k < off ∨ off + n ≤ k) : writeLe n (b.set k v) off x = (writeLe n b off x).set k v := by
  apply List.ext_getElem?
  intro i
  unfold writeLe
  rw [getElem?_patch, List.getElem?_set, List.getElem?_set, getElem?_patch, List.length_set,
    length_patch, length_leBytes]
  by_cases hi : k = i
  · subst hi
    rw [if_neg (by omega), if_pos rfl, if_pos rfl]
  · rw [if_neg hi, if_neg hi]

/-! ## 自分の checksum を持つ区画 -/

/-- `off` の欄に、欄を零にした全体の checksum が入っている。 -/
def Sealed (b : Bytes) (off : Nat) : Prop := checksum (writeLe 4 b off 0) = readLe 4 b off

/-- **`Sealed` な区画の 1 byte を変えると、`Sealed` でなくなる。** -/
theorem Sealed.set_ne {b : Bytes} {off k : Nat} {v : UInt8} (h : Sealed b off)
    (hoff : off + 4 ≤ b.length) (hk : k < b.length) (hv : b.getD k 0 ≠ v) :
    ¬ Sealed (b.set k v) off := by
  intro h'
  unfold Sealed at h h'
  by_cases hin : off ≤ k ∧ k < off + 4
  · -- 欄の中なら、計算した値は同じで記録された値が違う
    rw [writeLe_set_of_inside hin.1 hin.2, h] at h'
    unfold readLe at h'
    rw [slice_set_of_inside hin.1] at h'
    have hlen := length_slice hoff
    have hsame : slice b off 4 = (slice b off 4).set (k - off) v := by
      have hset := leBytes_leNat ((slice b off 4).set (k - off) v)
      rw [List.length_set, ← h', leBytes_leNat] at hset
      exact hset
    have hget := congrArg (fun l : Bytes => l.getD (k - off) 0) hsame
    rw [getD_slice hin.1 hin.2] at hget
    refine hv (hget.trans ?_)
    rw [List.getD_eq_getElem?_getD, List.getElem?_set_self (by omega)]
    rfl
  · -- 欄の外なら、記録された値は同じで計算した値が違う
    have hout : k < off ∨ off + 4 ≤ k := by omega
    have hget : (writeLe 4 b off 0).getD k 0 = b.getD k 0 := by
      rw [List.getD_eq_getElem?_getD, List.getD_eq_getElem?_getD, writeLe, getElem?_patch,
        length_leBytes, if_neg hin]
    rw [writeLe_set_of_outside hout] at h'
    unfold readLe at h h'
    rw [slice_set_of_outside hout, ← h] at h'
    exact crc32cFinal_set_ne (writeLe 4 b off 0) (by rwa [length_writeLe]) (by rwa [hget])
      (UInt32.toNat_inj.mp h')

theorem sealed_of_parseHeader {b : Bytes} {info : ImageInfo} (h : parseHeader b = .ok info) :
    Sealed b 44 ∧ b.length = headerSize := by
  unfold parseHeader at h
  simp only [Result.guard_bind_eq_ok_iff] at h
  obtain ⟨hlen, -, hsum, -⟩ := h
  rw [not_or] at hlen
  exact ⟨not_not.mp hsum, not_not.mp hlen.1⟩

theorem sealed_of_parseRecord {b : Bytes} {info : ImageInfo} {i : Nat} {p : ParsedRecord}
    (h : parseRecord b info i = .ok p) : Sealed b 40 ∧ b.length = recordSize := by
  unfold parseRecord at h
  simp only [Result.guard_bind_eq_ok_iff] at h
  obtain ⟨hlen, hsum, -⟩ := h
  rw [not_or] at hlen
  exact ⟨not_not.mp hsum, not_not.mp hlen.1⟩

theorem sealed_of_parseFooter {b : Bytes} {info checked : ImageInfo}
    (h : parseFooter b info = .ok checked) : Sealed b 40 ∧ b.length = footerSize := by
  unfold parseFooter at h
  simp only [Result.guard_bind_eq_ok_iff] at h
  obtain ⟨hlen, hsum, -⟩ := h
  rw [not_or] at hlen
  exact ⟨not_not.mp hsum, not_not.mp hlen.1⟩

/-- 変える前も後も `Sealed` な区画には、変えた byte は入っていない。 -/
theorem outside_of_sealed {file : Bytes} {k pos n off : Nat} {v : UInt8} (hv : file.getD k 0 ≠ v)
    (h : Sealed (slice file pos n) off) (h' : Sealed (slice (file.set k v) pos n) off)
    (hlen : (slice file pos n).length = n) (hoff : off + 4 ≤ n) : k < pos ∨ pos + n ≤ k := by
  by_contra hc
  have hin : pos ≤ k ∧ k < pos + n := by omega
  rw [slice_set_of_inside hin.1] at h'
  exact h.set_ne (by omega) (by omega) (by rwa [getD_slice hin.1 hin.2]) h'

/-! ## 変えた byte の場所 -/

section Changed

variable {file : Bytes} {k : Nat} {v : UInt8} (hv : file.getD k 0 ≠ v)
include hv

theorem readHeader_of_changed {info' : ImageInfo} (h : Sealed (slice file 0 headerSize) 44)
    (hlen : headerSize ≤ file.length) (h' : readHeader (file.set k v) = .ok info') :
    readHeader file = .ok info' ∧ headerSize ≤ k := by
  unfold readHeader at h' ⊢
  obtain ⟨b, hb, h'⟩ := Result.bind_eq_ok h'
  obtain ⟨-, rfl⟩ := (readAt_eq_ok_iff (by decide)).mp hb
  have hout := outside_of_sealed hv h (sealed_of_parseHeader h').1 (length_slice (by omega)) (by decide)
  rw [slice_set_of_outside hout] at h'
  rw [readAt_ok (by omega), Result.ok_bind]
  exact ⟨h', by omega⟩

/-- 両方で chunk の列が読めるなら、変えた byte はその範囲になく、同じ位置で終わる。 -/
theorem Scans.outside_of_changed {info : ImageInfo} {i pos e : Nat} {cs : List Chunk}
    (h : Scans file info i pos cs e) : ∀ {e' : Nat} {cs' : List Chunk},
    Scans (file.set k v) info i pos cs' e' → cs'.length = cs.length →
      e' = e ∧ (k < pos ∨ e ≤ k) := by
  induction h with
  | nil i pos =>
    intro e' cs' h' hlen
    rw [List.length_nil, List.length_eq_zero_iff] at hlen
    subst hlen
    cases h'
    exact ⟨rfl, by omega⟩
  | @cons i pos e p cs hp hin hsum hs ih =>
    intro e' cs' h' hlen
    cases h' with
    | nil => cases hlen
    | @cons _ _ _ p' cs' hp' hin' hsum' hs' =>
      -- record は自分の checksum を持つ
      obtain ⟨hseal, hrlen⟩ := sealed_of_parseRecord hp
      have hrec := outside_of_sealed hv hseal (sealed_of_parseRecord hp').1 hrlen (by decide)
      rw [slice_set_of_outside hrec, hp] at hp'
      cases hp'
      -- payload の checksum は、いま同じと分かった record にある
      have hpay : k < pos + recordSize ∨ pos + recordSize + p.storedLen ≤ k := by
        by_contra hc
        have hz : p.isZero = false := by
          cases hz : p.isZero with
          | false => rfl
          | true =>
            have := ((recordOk_of_parseRecord hp).zeroed hz).1
            omega
        have hle : pos + recordSize ≤ k := by omega
        have hplen := length_slice hin
        have hcrc := hsum' hz
        rw [slice_set_of_inside hle, ← hsum hz] at hcrc
        exact crc32cFinal_set_ne _ (by omega) (by rwa [getD_slice hle (by omega)])
          (UInt32.toNat_inj.mp hcrc)
      obtain ⟨rfl, hrest⟩ := ih hs' (by simpa using hlen)
      exact ⟨rfl, by omega⟩

end Changed

/-! ## 中断されない検証 -/

theorem walkChunks_of_cancelled {cancelled : Nat → Bool} {file : Bytes} {info : ImageInfo} :
    ∀ {n i pos : Nat} {t : Totals} {r : Nat × Totals},
    walkChunks cancelled true file info n i pos t = .ok r →
      walkChunks (fun _ => false) true file info n i pos t = .ok r
  | 0, _, _, _, _, h => h
  | n + 1, i, pos, t, r, h => by
    rw [walkChunks, Result.guard_bind_eq_ok_iff] at h
    rw [walkChunks, if_neg (by decide)]
    obtain ⟨-, h⟩ := h
    obtain ⟨raw, hraw, h⟩ := Result.bind_eq_ok h
    obtain ⟨p, hp, h⟩ := Result.bind_eq_ok h
    rw [hraw, Result.ok_bind, hp, Result.ok_bind]
    by_cases hz : p.flags &&& chunkZero ≠ 0
    · rw [if_pos hz] at h ⊢
      exact walkChunks_of_cancelled h
    · rw [if_neg hz] at h ⊢
      rw [Result.guard_bind_eq_ok_iff] at h ⊢
      obtain ⟨hacc, h⟩ := h
      obtain ⟨payload, hpay, h⟩ := Result.bind_eq_ok h
      rw [Result.guard_bind_eq_ok_iff] at h
      obtain ⟨hsum, h⟩ := h
      refine ⟨hacc, ?_⟩
      rw [hpay, Result.ok_bind, Result.guard_bind_eq_ok_iff]
      exact ⟨hsum, walkChunks_of_cancelled h⟩

/-- 途中で断られなかった検証は、中断を尋ねない検証と同じ答えを返す。 -/
theorem verify_of_cancelled {openRead : Result Unit} {cancelled : Nat → Bool} {file : Bytes}
    {checked : ImageInfo} (h : verify openRead cancelled file = .ok checked) :
    verify (.ok ()) (fun _ => false) file = .ok checked := by
  unfold verify at h ⊢
  obtain ⟨-, -, h⟩ := Result.bind_eq_ok h
  rw [Result.ok_bind]
  unfold walkImage at h ⊢
  obtain ⟨info, hinfo, h⟩ := Result.bind_eq_ok h
  rw [Result.guard_bind_eq_ok_iff] at h
  obtain ⟨hcomp, h⟩ := h
  obtain ⟨r, hwalk, h⟩ := Result.bind_eq_ok h
  rw [hinfo, Result.ok_bind, Result.guard_bind_eq_ok_iff]
  refine ⟨hcomp, ?_⟩
  rw [walkChunks_of_cancelled hwalk, Result.ok_bind]
  exact h

/-! ## 作った file の header -/

theorem sealed_makeHeader (info : ImageInfo) (c : Bool) : Sealed (makeHeader info c) 44 :=
  sealed_checksum (by rw [length_headerBody]; decide) (writeLe_writeLe _ _ _ _ _)

theorem validGeometry_of_parseHeader {b : Bytes} {info : ImageInfo} (h : parseHeader b = .ok info) :
    validGeometry info = true ∧ info.sourceBytes = readLe 8 b 16 ∧
      info.logicalSector = readLe 4 b 24 ∧ info.chunkBytes = readLe 4 b 28 := by
  unfold parseHeader at h
  simp only [Result.guard_bind_eq_ok_iff, Result.pure_eq_ok_iff] at h
  obtain ⟨-, -, -, -, hvalid, -, rfl⟩ := h
  exact ⟨Bool.not_eq_false _ ▸ hvalid, rfl, rfl, rfl⟩

/-- header を読めたのなら、source の幾何は検査を通る。 -/
theorem validGeometry_of_makeHeader {source : Disk} {opts : CreateOptions} (hc : Creatable source opts)
    {info parsed : ImageInfo} (hg : SameGeometry info (startInfo source opts))
    (h : parseHeader (makeHeader info true) = .ok parsed) :
    validGeometry (startInfo source opts) = true := by
  obtain ⟨g1, g2, g3, g4⟩ := hg
  have hsize := source.size_lt
  have hsector := hc.sector_lt
  have hle := hc.chunk_le
  obtain ⟨-, -, -, f4, f5, f6, -, -⟩ := makeHeader_fields info true
    (by rw [g1]; exact hsize.trans_le (by decide)) (by rw [g2]; exact hsector)
    (by rw [g3]; show opts.chunkBytes < _; omega) (by rw [g4]; exact hc.chunks_lt)
  obtain ⟨hvalid, e1, e2, e3⟩ := validGeometry_of_parseHeader h
  unfold validGeometry at hvalid ⊢
  rw [e1, e2, e3, f4, f5, f6, g1, g2, g3] at hvalid
  exact hvalid

/-- `create` の作った file の header は `Sealed` で、読めるなら全体も読める。 -/
theorem created_header {host : CreateHost} {source : Disk} {opts : CreateOptions} {info : ImageInfo}
    {file : Bytes} (h : create host source opts = .ok (info, file)) :
    Sealed (slice file 0 headerSize) 44 ∧ headerSize ≤ file.length ∧
      ∀ parsed, readHeader file = .ok parsed →
        ∃ cs e, Decodes file parsed cs e info ∧ file.length = e + footerSize := by
  obtain ⟨hc, info1, out, body, cs, hw, hinfo, hfile⟩ := create_eq_ok h
  have hg : SameGeometry info (startInfo source opts) := by
    obtain ⟨g1, g2, g3, g4⟩ := hw.geometry
    rw [hinfo]
    exact ⟨g1, g2, g3, g4⟩
  have hhead : slice file 0 headerSize = makeHeader info true := by
    have hmid := slice_append_middle (a := []) (b := makeHeader info true)
      (c := body ++ makeFooter info1) (k := 0) List.length_nil (length_makeHeader _ _)
    rwa [List.nil_append, ← List.append_assoc, ← hfile] at hmid
  have hlen : headerSize ≤ file.length := by
    rw [hfile]
    simp only [List.length_append, length_makeHeader]
    omega
  refine ⟨by rw [hhead]; exact sealed_makeHeader info true, hlen, fun parsed hparsed => ?_⟩
  have hparse := hparsed
  unfold readHeader at hparse
  rw [readAt_ok (by omega), Result.ok_bind, hhead] at hparse
  obtain ⟨head, cs, e, hdec, -, hend, -⟩ :=
    decodes_of_validGeometry (validGeometry_of_makeHeader hc hg hparse) h
  obtain rfl : head = parsed := by
    have := hdec.header
    rw [hparsed] at this
    cases this
    rfl
  exact ⟨cs, e, hdec, hend⟩

/-! ## 検出 -/

/-- 壊れた file。 -/
inductive Damaged (file : Bytes) : Bytes → Prop
  /-- 1 byte を別の値にした -/
  | changed {k : Nat} {v : UInt8} : k < file.length → file.getD k 0 ≠ v → Damaged file (file.set k v)
  /-- 途中で切れた -/
  | truncated {k : Nat} : k < file.length → Damaged file (file.take k)
  /-- 後ろに byte が付いた -/
  | extended {extra : Bytes} : extra ≠ [] → Damaged file (file ++ extra)

/--
**image は損傷を見つける。** `create` の作った file の 1 byte を変えても、途中で切っても、後ろに byte を足しても、
`verify` は必ず誤りを返す。
-/
theorem damage_detected {host : CreateHost} {source : Disk} {opts : CreateOptions} {info : ImageInfo}
    {file file' : Bytes} (h : create host source opts = .ok (info, file)) (hd : Damaged file file')
    (openRead : Result Unit) (cancelled : Nat → Bool) :
    ∃ e, verify openRead cancelled file' = .error e := by
  cases hr : verify openRead cancelled file' with
  | error e => exact ⟨e, rfl⟩
  | ok checked =>
    exfalso
    obtain ⟨info', cs', e', hdec', -, hend'⟩ := verify_eq_ok_iff.mp (verify_of_cancelled hr)
    obtain ⟨hseal, hlen, hall⟩ := created_header h
    cases hd with
    | @changed k v hk hv =>
      obtain ⟨hread, hkh⟩ := readHeader_of_changed hv hseal hlen hdec'.header
      obtain ⟨cs, e, hdec, hend⟩ := hall info' hread
      obtain ⟨rfl, hout⟩ := hdec.scans.outside_of_changed hv hdec'.scans
        (by rw [hdec.length, hdec'.length])
      -- header にも chunk にもなければ footer にある
      have hfoot := outside_of_sealed hv (sealed_of_parseFooter hdec.footer).1
        (sealed_of_parseFooter hdec'.footer).1 (length_slice hdec.room) (by decide)
      omega
    | @truncated k hk =>
      have hsplit : file.take k ++ file.drop k = file := List.take_append_drop k file
      have hdec := @Decodes.append _ (file.drop k) _ _ _ _ hdec'
      rw [hsplit] at hdec
      obtain ⟨cs, e, hdec0, hend⟩ := hall info' hdec.header
      obtain ⟨-, rfl, -⟩ := hdec0.unique hdec
      rw [List.length_take] at hend'
      omega
    | @extended extra hx =>
      have hread : readHeader file = .ok info' := by
        have hh := hdec'.header
        unfold readHeader at hh ⊢
        rw [readAt_ok (by rw [List.length_append]; omega), slice_append_left (by omega),
          Result.ok_bind] at hh
        rw [readAt_ok (by omega), Result.ok_bind]
        exact hh
      obtain ⟨cs, e, hdec, hend⟩ := hall info' hread
      obtain ⟨-, rfl, -⟩ := (@Decodes.append _ extra _ _ _ _ hdec).unique hdec'
      have hpos := List.length_pos_iff.mpr hx
      rw [List.length_append] at hend'
      omega

/-- 三つの chunk の image の、はじめの record の byte を変え、途中で切り、後ろに継ぐ。 -/
theorem damage_detected_small : ∃ info file,
    create Small.createHost Small.source Small.options = .ok (info, file) ∧ info.chunks = 3 ∧
    (∃ e, verify (.ok ()) (fun _ => false) (file.set 4100 (file.getD 4100 0 + 1)) = .error e) ∧
    (∃ e, verify (.ok ()) (fun _ => false) (file.take 6000) = .error e) ∧
    ∃ e, verify (.ok ()) (fun _ => false) (file ++ [0, 0]) = .error e := by
  obtain ⟨info, file, h⟩ := Small.created
  obtain ⟨-, _, _, body, _, hw, hinfo, hfile⟩ := create_eq_ok h
  have hlen : 8192 ≤ file.length := by
    rw [hfile]
    simp only [List.length_append, length_makeHeader, length_makeFooter, headerSize, footerSize]
    omega
  have hchanged : Damaged file (file.set 4100 (file.getD 4100 0 + 1)) :=
    .changed (by omega) (by simp)
  have hcut : Damaged file (file.take 6000) := .truncated (by omega)
  have hlonger : Damaged file (file ++ [0, 0]) := .extended (by decide)
  refine ⟨info, file, h, ?_, damage_detected h hchanged (.ok ()) fun _ => false,
    damage_detected h hcut (.ok ()) fun _ => false, damage_detected h hlonger (.ok ()) fun _ => false⟩
  rw [hinfo]
  exact hw.geometry.chunks

end Fsx.ImageFile
