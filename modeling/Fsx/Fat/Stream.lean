import Fsx.Core.Packed
import Fsx.Fat.Model

/-!
# 割り当て表の窓の正しさ

受け入れた boot sector では、すべての cluster の entry が表の中にある（`Sound.entry_le`）。
窓は、表のどの区切りに移っていても表の一部をそのまま写している（`Open`）。
したがって `get` の結果は、それまでにどの entry を読んだかによらない（`get_spec`）。

entry の値は、表の全体を一つの数とみなした切り出しで定める（`plainEntry`）。
-/

namespace Fsx.Fat

/-! ## 受け入れた boot sector -/

/-- 受け入れた boot sector の寸法が満たすこと。 -/
structure Sound (d : Disk) (v : Volume) : Prop where
  kind : v.kind = kindOf v.clusterCount
  limit : v.kind = .fat32 → v.clusterCount ≤ 0x0ffffff5
  copies : 0 < v.fatCount
  region : v.fatBase + v.fatCount * v.fatBytes ≤ d.sizeBytes
  capacity : v.clusterCount + 2 ≤ v.fatBytes * 8 / v.kind.entryBits

theorem sound_of_readVolume {d : Disk} {v : Volume} (h : readVolume d = .ok v) : Sound d v := by
  obtain ⟨b, -, h⟩ := Result.bind_eq_ok h
  simp only [parseVolume, Result.guard_bind_eq_ok_iff] at h
  obtain ⟨-, -, -, hfat, -, hfirst, hlimit, h⟩ := h
  obtain ⟨tail, -, h⟩ := Result.bind_eq_ok h
  obtain ⟨root, serial, label⟩ := tail
  simp only [Result.guard_bind_eq_ok_iff] at h
  obtain ⟨hsize, hcap, h⟩ := h
  cases h
  refine ⟨rfl, fun hk => ?_, ?_, ?_, ?_⟩
  · exact Nat.le_of_not_lt fun hc => hlimit ⟨hk, hc⟩
  · exact Nat.pos_of_ne_zero fun hc => hfat (Or.inr (Or.inl hc))
  · refine le_trans ?_ (Nat.le_of_not_lt hsize)
    unfold Volume.fatBase Volume.fatBytes
    rw [← Nat.mul_assoc, ← Nat.add_mul]
    exact Nat.mul_le_mul_right _ (le_trans (Nat.le_add_right _ _) (Nat.le_of_not_le hfirst))
  · exact Nat.le_of_not_lt hcap

section Sound

variable {d : Disk} {v : Volume}

/-- **すべての cluster の entry は表の中にある。** -/
theorem Sound.entry_le (h : Sound d v) {c : Nat} (hc : c < v.clusterCount + 2) :
    v.kind.entryOff c + v.kind.need ≤ v.fatBytes := by
  have hcap := h.capacity
  cases hk : v.kind with
  | fat12 =>
    rw [hk] at hcap
    dsimp only [Kind.entryBits] at hcap
    show c + c / 2 + 2 ≤ v.fatBytes
    omega
  | fat16 =>
    rw [hk] at hcap
    dsimp only [Kind.entryBits] at hcap
    show c * 2 + 2 ≤ v.fatBytes
    omega
  | fat32 =>
    rw [hk] at hcap
    dsimp only [Kind.entryBits] at hcap
    show c * 4 + 4 ≤ v.fatBytes
    omega

/-- **cluster の番号は、どの印とも異なる。** -/
theorem Sound.lt_bad (h : Sound d v) {c : Nat} (hc : c < v.clusterCount + 2) :
    c < v.kind.bad ∧ c < v.kind.eoc := by
  have hkind := h.kind
  unfold kindOf at hkind
  split at hkind
  · rw [hkind]
    dsimp only [Kind.bad, Kind.eoc]
    omega
  · split at hkind
    · rw [hkind]
      dsimp only [Kind.bad, Kind.eoc]
      omega
    · have hlimit := h.limit hkind
      rw [hkind]
      dsimp only [Kind.bad, Kind.eoc]
      omega

theorem Sound.first_le (h : Sound d v) : v.fatBase + v.fatBytes ≤ d.sizeBytes := by
  have hone : 1 * v.fatBytes ≤ v.fatCount * v.fatBytes := Nat.mul_le_mul_right _ h.copies
  have hregion := h.region
  omega

end Sound

/-! ## entry の値 -/

/-- 割り当て表の `i` 番の写し。 -/
def fatCopy (d : Disk) (v : Volume) (i : Nat) : Bytes :=
  d.data.read (v.fatBase + i * v.fatBytes) v.fatBytes

/-- 表の全体から読んだ entry の値。 -/
def plainEntry (kind : Kind) (fat : Bytes) (c : Nat) : Nat :=
  packed kind.entryBits fat c &&& kind.mask

/-- entry の値の bit 数。FAT32 の上の 4 bit は値ではない。 -/
def Kind.valueBits : Kind → Nat
  | .fat12 => 12
  | .fat16 => 16
  | .fat32 => 28

theorem and_mask (n : Nat) (kind : Kind) : n &&& kind.mask = n % 2 ^ kind.valueBits := by
  cases kind with
  | fat12 => exact Nat.and_two_pow_sub_one_eq_mod n 12
  | fat16 => exact Nat.and_two_pow_sub_one_eq_mod n 16
  | fat32 => exact Nat.and_two_pow_sub_one_eq_mod n 28

theorem plainEntry_and_mask (kind : Kind) (fat : Bytes) (c : Nat) :
    plainEntry kind fat c &&& kind.mask = plainEntry kind fat c := by
  unfold plainEntry
  rw [Nat.and_assoc, Nat.and_self]

/-- byte の境界に揃った切り出し。 -/
theorem shiftRight_byte (x i r : Nat) : x >>> (8 * i + r) = x / 256 ^ i / 2 ^ r := by
  rw [Nat.shiftRight_eq_div_pow, Nat.pow_add, Nat.pow_mul, Nat.div_div_eq_div_mul]

/-- FAT12 の entry は、続いた二つの byte の 12 bit である。 -/
theorem packed_fat12 (fat : Bytes) (c : Nat) :
    packed 12 fat c = if c &&& 1 ≠ 0 then (leNat fat / 256 ^ (c + c / 2) % 2 ^ 16) >>> 4
      else leNat fat / 256 ^ (c + c / 2) % 2 ^ 16 &&& 0x0fff := by
  unfold packed
  rw [Nat.and_one_is_mod]
  by_cases hodd : c % 2 = 0
  · -- 偶数番は下の 12 bit である
    rw [if_neg (by omega), show 12 * c = 8 * (c + c / 2) + 0 by omega, shiftRight_byte,
      Nat.pow_zero, Nat.div_one]
    exact (Nat.mod_mod_of_dvd _ ⟨2 ^ 4, by norm_num⟩).symm.trans
      (Nat.and_two_pow_sub_one_eq_mod _ 12).symm
  · -- 奇数番は上の 12 bit である
    rw [if_pos (by omega), show 12 * c = 8 * (c + c / 2) + 4 by omega, shiftRight_byte,
      Nat.shiftRight_eq_div_pow]
    omega

theorem packed_fat16 (fat : Bytes) (c : Nat) :
    packed 16 fat c = leNat fat / 256 ^ (c * 2) % 2 ^ 16 := by
  unfold packed
  rw [show 16 * c = 8 * (c * 2) + 0 by omega, shiftRight_byte, Nat.pow_zero, Nat.div_one]

theorem packed_fat32 (fat : Bytes) (c : Nat) :
    packed 32 fat c = leNat fat / 256 ^ (c * 4) % 2 ^ 32 := by
  unfold packed
  rw [show 32 * c = 8 * (c * 4) + 0 by omega, shiftRight_byte, Nat.pow_zero, Nat.div_one]

/-! ## 窓 -/

/-- 触れてよい範囲。device ははじめの表の中、buffer は窓の中に限る。 -/
def Permits (v : Volume) : Touch → Prop
  | .device off len => v.fatBase ≤ off ∧ off + len ≤ v.fatBase + v.fatBytes
  | .buffer i len => i + len ≤ windowBytes

/-- 窓が表の一部を写している。 -/
structure Open (d : Disk) (v : Volume) (s : FatStream) : Prop where
  base : s.base = v.fatBase
  bytes : s.bytes = v.fatBytes
  kind : s.kind = v.kind
  length : s.buffer.length = windowBytes
  valid_le : s.windowValid ≤ windowBytes
  within : 0 < s.windowValid → s.windowOff + s.windowValid ≤ v.fatBytes
  holds : ∀ k < s.windowValid, s.buffer.getD k 0 = d.data (v.fatBase + (s.windowOff + k))
  touched : ∀ t ∈ s.touched, Permits v t

section Open

variable {d : Disk} {v : Volume} {s : FatStream}

theorem Open.create (d : Disk) (v : Volume) :
    Open d v (.create v.fatBase v.fatBytes v.kind) where
  base := rfl
  bytes := rfl
  kind := rfl
  length := length_zeros _
  valid_le := Nat.zero_le _
  within h := absurd h (Nat.lt_irrefl 0)
  holds k hk := absurd hk (Nat.not_lt_zero k)
  touched t ht := by cases ht

theorem Open.touch (h : Open d v s) {ts : List Touch} (hts : ∀ t ∈ ts, Permits v t) :
    Open d v (s.touch ts) :=
  { h with
    touched := fun t ht => by
      rcases List.mem_append.mp ht with ht | ht
      · exact h.touched t ht
      · exact hts t ht }

/-- 移した窓は、求める entry を含む。 -/
theorem Open.moved_covers (h : Open d v s) {off need : Nat} (hneed : need ≤ 4)
    (hoff : off + need ≤ v.fatBytes) : (s.moved off).windowOff ≤ off ∧
      off + need ≤ (s.moved off).windowOff + (s.moved off).windowValid ∧
      (s.moved off).windowValid ≤ windowBytes ∧
      (s.moved off).windowOff + (s.moved off).windowValid ≤ v.fatBytes := by
  have hlow : off / windowChunk * windowChunk ≤ off := Nat.div_mul_le_self off windowChunk
  have hhigh : off < off / windowChunk * windowChunk + windowChunk :=
    Nat.lt_div_mul_add (by decide)
  dsimp only [FatStream.moved]
  rw [h.length, h.bytes]
  generalize off / windowChunk * windowChunk = w at hlow hhigh ⊢
  unfold windowBytes
  omega

/-- 窓を移すと、求める entry を含む。 -/
theorem Open.slide (h : Open d v s) (hv : Sound d v) {off need : Nat} (hneed : need ≤ 4)
    (hoff : off + need ≤ v.fatBytes) :
    ∃ s', Proc.run (FatStream.slide d off) s = (.ok (), s') ∧ Open d v s' ∧
      s'.windowOff ≤ off ∧ off + need ≤ s'.windowOff + s'.windowValid := by
  obtain ⟨hlow, hhigh, hle, hin⟩ := h.moved_covers hneed hoff
  have hfirst := hv.first_le
  unfold FatStream.slide
  rw [Proc.run_bind_ok (Proc.run_modify _ _), Proc.run_bind_ok (Proc.run_modify _ _)]
  have hbase : (s.moved off).base = v.fatBase := h.base
  have hbytes : (s.moved off).bytes = v.fatBytes := h.bytes
  have hkind : (s.moved off).kind = v.kind := h.kind
  have hlength : (s.moved off).buffer.length = windowBytes := h.length
  have htouched : (s.moved off).touched = s.touched := rfl
  generalize s.moved off = m at *
  have hread : d.readExact (m.base + m.windowOff) m.windowValid =
      .ok (d.data.read (m.base + m.windowOff) m.windowValid) :=
    Disk.readExact_ok (by rw [hbase]; omega)
  rw [@Proc.run_bind_ok _ _ _ _ _ _ (m.touch _) _ (by rw [Proc.run_reading]; exact congrArg (·, _) hread),
    Proc.run_modify]
  refine ⟨_, rfl, ⟨hbase, hbytes, hkind, ?_, hle, fun _ => hin, fun k hk => ?_, ?_⟩, hlow, hhigh⟩
  · exact (length_patch _ _ _).trans hlength
  · have hk' : k < m.windowValid := hk
    show (patch m.buffer 0 _).getD k 0 = d.data (v.fatBase + (m.windowOff + k))
    rw [List.getD_eq_getElem?_getD, getElem?_patch, Image.length_read, if_pos (by omega),
      if_pos (by rw [hlength]; omega), Image.getElem?_read, if_pos (by omega), Option.getD_some,
      hbase, Nat.sub_zero, Nat.add_assoc]
  · intro t ht
    rcases List.mem_append.mp ht with ht | ht
    · rw [htouched] at ht
      exact h.touched t ht
    · rcases List.mem_cons.mp ht with rfl | ht
      · show 0 + m.windowValid ≤ windowBytes
        omega
      · rw [List.mem_singleton.mp ht, hbase]
        show _ ≤ _ ∧ _ ≤ _
        omega

/-- 窓の中の byte は、表の byte である。 -/
theorem Open.byte (h : Open d v s) {i : Nat} (hi : i < s.windowValid) :
    (s.buffer.getD i 0).toNat = leNat (fatCopy d v 0) / 256 ^ (s.windowOff + i) % 256 := by
  have hin := h.within (by omega)
  rw [h.holds i hi, ← toNat_getD]
  unfold fatCopy
  rw [List.getD_eq_getElem?_getD, Image.getElem?_read, if_pos (by omega), Option.getD_some,
    Nat.zero_mul, Nat.add_zero]

end Open

/-! ## entry の取り出し -/

section Entry

variable {s : FatStream}

theorem run_byteAt (i : Nat) (s : FatStream) :
    Proc.run (FatStream.byteAt i) s = (.ok (s.buffer.getD i 0).toNat, s.touch [.buffer i 1]) := rfl

/-- 窓が表の byte を持っていれば、取り出した値は表の全体から読んだ値に等しい。 -/
theorem run_entryAt {kind : Kind} {fat : Bytes} {cluster i : Nat}
    (hbyte : ∀ k < kind.need, (s.buffer.getD (i + k) 0).toNat =
      leNat fat / 256 ^ (kind.entryOff cluster + k) % 256) :
    ∃ ts, Proc.run (FatStream.entryAt kind cluster i) s =
        (.ok (plainEntry kind fat cluster), s.touch ts) ∧
      ∀ t ∈ ts, ∃ k < kind.need, t = .buffer (i + k) 1 := by
  have htouch : ∀ ts us : List Touch, (s.touch ts).touch us = s.touch (ts ++ us) := fun ts us => by
    unfold FatStream.touch
    rw [List.append_assoc]
  have hb0 := hbyte 0 (by cases kind <;> decide)
  have hb1 := hbyte 1 (by cases kind <;> decide)
  rw [Nat.add_zero, Nat.add_zero] at hb0
  cases kind with
  | fat12 =>
    refine ⟨[.buffer i 1, .buffer (i + 1) 1], ?_, fun t ht => ?_⟩
    · unfold FatStream.entryAt
      dsimp only
      rw [Proc.run_bind_ok (run_byteAt i s), Proc.run_bind_ok (run_byteAt (i + 1) _), Proc.run_pure,
        htouch]
      refine congrArg (fun e => (Except.ok e, _)) ?_
      dsimp only [FatStream.touch]
      rw [hb0, hb1, assemble_two, Nat.mod_mod]
      unfold plainEntry
      dsimp only [Kind.entryBits, Kind.entryOff]
      rw [← packed_fat12, and_mask]
      exact (Nat.mod_eq_of_lt (Nat.mod_lt _ (by decide))).symm
    · rcases List.mem_cons.mp ht with rfl | ht
      · exact ⟨0, by decide, rfl⟩
      · exact ⟨1, by decide, List.mem_singleton.mp ht⟩
  | fat16 =>
    refine ⟨[.buffer i 1, .buffer (i + 1) 1], ?_, fun t ht => ?_⟩
    · unfold FatStream.entryAt
      dsimp only
      rw [Proc.run_bind_ok (run_byteAt i s), Proc.run_bind_ok (run_byteAt (i + 1) _), Proc.run_pure,
        htouch]
      refine congrArg (fun e => (Except.ok e, _)) ?_
      dsimp only [FatStream.touch]
      rw [hb0, hb1, assemble_two]
      unfold plainEntry
      dsimp only [Kind.entryBits, Kind.entryOff]
      rw [← packed_fat16, and_mask]
      exact (Nat.mod_eq_of_lt (Nat.mod_lt _ (by decide))).symm
    · rcases List.mem_cons.mp ht with rfl | ht
      · exact ⟨0, by decide, rfl⟩
      · exact ⟨1, by decide, List.mem_singleton.mp ht⟩
  | fat32 =>
    have hb2 := hbyte 2 (by decide)
    have hb3 := hbyte 3 (by decide)
    refine ⟨[.buffer i 1, .buffer (i + 1) 1, .buffer (i + 2) 1, .buffer (i + 3) 1], ?_,
      fun t ht => ?_⟩
    · unfold FatStream.entryAt
      dsimp only
      rw [Proc.run_bind_ok (run_byteAt i s), Proc.run_bind_ok (run_byteAt (i + 1) _),
        Proc.run_bind_ok (run_byteAt (i + 2) _), Proc.run_bind_ok (run_byteAt (i + 3) _),
        Proc.run_pure, htouch, htouch, htouch]
      refine congrArg (fun e => (Except.ok e, _)) ?_
      dsimp only [FatStream.touch]
      rw [hb0, hb1, hb2, hb3, assemble_four]
      unfold plainEntry
      dsimp only [Kind.entryBits, Kind.entryOff]
      rw [packed_fat32]
      rfl
    · simp only [List.mem_cons, List.not_mem_nil, or_false] at ht
      rcases ht with rfl | rfl | rfl | rfl
      · exact ⟨0, by decide, rfl⟩
      · exact ⟨1, by decide, rfl⟩
      · exact ⟨2, by decide, rfl⟩
      · exact ⟨3, by decide, rfl⟩

end Entry

/-! ## `get` -/

section Get

variable {d : Disk} {v : Volume} {s : FatStream}

theorem need_le (kind : Kind) : 0 < kind.need ∧ kind.need ≤ 4 := by
  cases kind <;> decide

/-- 表の外の entry は、窓を動かさずに断られる。 -/
theorem run_get_ended (h : Open d v s) {c : Nat}
    (hc : v.fatBytes < v.kind.entryOff c + v.kind.need) :
    ∃ e, Proc.run (FatStream.get d c) s = (.error e, s) := by
  unfold FatStream.get
  rw [Proc.run_bind_ok (Proc.run_get s)]
  dsimp only
  rw [h.kind, h.bytes, if_pos (by omega)]
  exact ⟨_, rfl⟩

/-- **`get` の結果は、窓がどこにあっても、表の全体から読んだ値に等しい。** -/
theorem get_spec (h : Open d v s) (hv : Sound d v) {c : Nat}
    (hc : v.kind.entryOff c + v.kind.need ≤ v.fatBytes) :
    ∃ s', Proc.run (FatStream.get d c) s = (.ok (plainEntry v.kind (fatCopy d v 0) c), s') ∧
      Open d v s' := by
  obtain ⟨hpos, hneed⟩ := need_le v.kind
  -- 窓に求める entry が入った後
  have hread : ∀ m : FatStream, Open d v m → m.windowOff ≤ v.kind.entryOff c →
      v.kind.entryOff c + v.kind.need ≤ m.windowOff + m.windowValid →
      ∃ s', Proc.run (FatStream.entryAt m.kind c (v.kind.entryOff c - m.windowOff)) m =
        (.ok (plainEntry v.kind (fatCopy d v 0) c), s') ∧ Open d v s' := by
    intro m hm hlow hhigh
    rw [hm.kind]
    obtain ⟨ts, hrun, hts⟩ := @run_entryAt m v.kind (fatCopy d v 0) c
      (v.kind.entryOff c - m.windowOff) fun k hk => by
        rw [hm.byte (by omega)]
        congr 3
        omega
    refine ⟨_, hrun, hm.touch fun t ht => ?_⟩
    obtain ⟨k, hk, rfl⟩ := hts t ht
    have hle := hm.valid_le
    show _ + 1 ≤ windowBytes
    omega
  unfold FatStream.get
  rw [Proc.run_bind_ok (Proc.run_get s)]
  dsimp only
  rw [h.kind, h.bytes, if_neg (by omega)]
  by_cases hin : v.kind.entryOff c ≥ s.windowOff ∧
      v.kind.entryOff c + v.kind.need ≤ s.windowOff + s.windowValid
  · rw [if_neg (not_not_intro hin), Proc.run_bind_ok (Proc.run_get s)]
    exact hread s h hin.1 hin.2
  · obtain ⟨m, hslide, hm, hlow, hhigh⟩ := h.slide hv hneed hc
    rw [if_pos hin, Proc.run_bind_ok hslide, Proc.run_bind_ok (Proc.run_get m)]
    exact hread m hm hlow hhigh

/-- どの `get` の後も、窓は表の一部を写している。 -/
theorem Open.get (h : Open d v s) (hv : Sound d v) (c : Nat) :
    Open d v (Proc.run (FatStream.get d c) s).2 := by
  by_cases hc : v.kind.entryOff c + v.kind.need ≤ v.fatBytes
  · obtain ⟨s', hrun, hs'⟩ := get_spec h hv hc
    rw [hrun]
    exact hs'
  · obtain ⟨e, hrun⟩ := run_get_ended h (Nat.lt_of_not_le hc)
    rw [hrun]
    exact h

/-- `earlier` の順に `get` を呼んだ後の窓。 -/
def FatStream.after (d : Disk) (earlier : List Nat) (s : FatStream) : FatStream :=
  earlier.foldl (fun s c => (Proc.run (FatStream.get d c) s).2) s

theorem Open.after (hv : Sound d v) (earlier : List Nat) (h : Open d v s) :
    Open d v (s.after d earlier) := by
  induction earlier generalizing s with
  | nil => exact h
  | cons c rest ih => exact ih (h.get hv c)

end Get

end Fsx.Fat
