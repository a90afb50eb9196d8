import Fsx.Gpt.Entries

/-!
# 更新が書く sector

`resize_partition` と `repair_redundancy` は、元にする写しを選んで `write_pair` を呼ぶ。
`write_pair` は array の置き場所を disk の大きさと entry の個数から計算し直し、
その場所が使える範囲の外にあるかどうかは調べない。

`validate_side_geometry` が調べるのは、読めた側の array と header の位置だけである。
標準の置き場所が使える範囲に掛かっていると、partition の data が上書きされる
（`sparesUsable_iff`）。
-/

namespace Fsx

namespace Gpt

/-- 元にする写しを選び、その写しで両側を書き直す。 -/
def mutateFrom (source : Disk → Result RawSide) (host : WriteHost) (options : MutationOptions) :
    DevM MutationReport := do
  let c ← Proc.reading source
  writePair host c c.entries options

theorem resizePartition_eq (host : WriteHost) (index newFirst newLast : Nat)
    (options : MutationOptions) : resizePartition host index newFirst newLast options =
      mutateFrom (fun d => resizedSide d index newFirst newLast) host options := rfl

theorem repairRedundancy_eq (host : WriteHost) (options : MutationOptions) :
    repairRedundancy host options = mutateFrom repairSource host options := rfl

/-- 元になりうる写し。primary が有効なら primary、そうでなければ backup である。 -/
def canonical (d : Disk) : Option RawSide :=
  match readSide d 1, readSide d (totalSectors d - 1) with
  | .ok p, .ok b => if p.valid then some p else if b.valid then some b else none
  | _, _ => none

/-- 手続きが disk に残す event。失敗したときも、それまでの分が残る。 -/
def newEvents {α : Type} (p : DevM α) (d : Disk) : List Event :=
  (Proc.run p d).2.events.drop d.events.length

/-- 書き込みが sector `x` に掛かる。 -/
def Touches (w : Write) (ss x : Nat) : Prop :=
  w.off < (x + 1) * ss ∧ x * ss < w.off + w.bytes.length

/-- 元になる写しの使える範囲の sector を、一つも書かない。 -/
def SparesUsable {α : Type} (p : DevM α) (d : Disk) : Prop :=
  ∀ c, canonical d = some c → ∀ w, Event.write w ∈ newEvents p d →
    ∀ x, c.firstUsable ≤ x → x ≤ c.lastUsable → ¬ Touches w (sectorSize d) x

/-- `write_pair` が最初の書き込みに進む。 -/
structure WriteReady (host : WriteHost) (options : MutationOptions) (d : Disk) : Prop where
  gate : GateOpen host options
  writable : d.writable = true
  total : 100 ≤ totalSectors d

/-- 書き込みに進むなら、標準の置き場所は使える範囲の外にある。 -/
def PlacesOutside (source : Disk → Result RawSide) (host : WriteHost) (options : MutationOptions)
    (d : Disk) : Prop :=
  ∀ c, source d = .ok c → WriteReady host options d →
    StandardOutside c (totalSectors d) (sectorSize d)

/-! ## 元にする写し -/

theorem fieldsOk_of_valid {d : Disk} {lba : Nat} {s : RawSide} (hlba : lba < totalSectors d)
    (hs : readSide d lba = .ok s) (hv : s.valid = true) :
    s = sideAt d lba ∧ FieldsOk s (totalSectors d) (sectorSize d) := by
  by_cases hsig : Signed d lba
  · obtain ⟨hf, rfl⟩ := (readSide_eq_ok_iff hlba hsig).mp hs
    exact ⟨rfl, hf⟩
  · rw [readSide_of_unsigned hlba hsig] at hs
    cases hs
    cases hv

theorem lt_totalSectors_of_readSide {d : Disk} {lba : Nat} {s : RawSide}
    (h : readSide d lba = .ok s) : lba < totalSectors d := by
  unfold readSide at h
  by_cases hlba : lba ≥ totalSectors d
  · rw [if_pos hlba] at h
    cases h
  · omega

/-- 元になる写しは検査を通っていて、array の大きさは entry の個数のとおりである。 -/
theorem canonical_ok {d : Disk} {c : RawSide} (h : canonical d = some c) :
    FieldsOk c (totalSectors d) (sectorSize d) ∧ Bounded c := by
  unfold canonical at h
  cases hp : readSide d 1 with
  | error e => rw [hp] at h; cases h
  | ok p =>
    cases hb : readSide d (totalSectors d - 1) with
    | error e => rw [hp, hb] at h; cases h
    | ok b =>
      rw [hp, hb] at h
      dsimp only at h
      obtain ⟨lba, hlba, hread, hvalid⟩ :
          ∃ lba, lba < totalSectors d ∧ readSide d lba = .ok c ∧ c.valid = true := by
        by_cases hpv : p.valid = true
        · rw [if_pos hpv] at h
          cases h
          exact ⟨1, lt_totalSectors_of_readSide hp, hp, hpv⟩
        · rw [if_neg hpv] at h
          by_cases hbv : b.valid = true
          · rw [if_pos hbv] at h
            cases h
            exact ⟨_, lt_totalSectors_of_readSide hb, hb, hbv⟩
          · rw [if_neg hbv] at h
            cases h
      obtain ⟨rfl, hf⟩ := fieldsOk_of_valid hlba hread hvalid
      exact ⟨hf, bounded_sideAt (le_trans hf.headerSize.1 hf.headerSize.2)⟩

theorem canonical_of_mutationSource {d : Disk} {c : RawSide} (h : mutationSource d = .ok c) :
    canonical d = some c := by
  unfold mutationSource at h
  simp only [Result.bind_eq_ok_iff, Result.guard_bind_eq_ok_iff] at h
  obtain ⟨p, hp, b, hb, _, h⟩ := h
  unfold canonical
  rw [hp, hb]
  dsimp only
  by_cases hpv : p.valid = true
  · rw [if_pos hpv] at h ⊢
    cases h
    rfl
  · rw [if_neg hpv] at h ⊢
    by_cases hbv : b.valid = true
    · rw [if_pos hbv] at h ⊢
      cases h
      rfl
    · rw [if_neg hbv] at h
      cases h

theorem canonical_of_repairSource {d : Disk} {c : RawSide} (h : repairSource d = .ok c) :
    canonical d = some c := by
  unfold repairSource at h
  simp only [Result.bind_eq_ok_iff, Result.guard_bind_eq_ok_iff, Result.pure_eq_ok_iff] at h
  obtain ⟨p, hp, b, hb, hsome, _, _, _, rfl⟩ := h
  unfold canonical
  rw [hp, hb]
  dsimp only
  by_cases hpv : p.valid = true
  · rw [if_pos hpv, if_pos hpv]
  · have hbv : b.valid = true := by
      by_contra hbv
      exact hsome ⟨hpv, hbv⟩
    rw [if_neg hpv, if_neg hpv, if_pos hbv]

/-- `resize_partition` の書き換えは、entry の中身のほかを変えない。 -/
theorem resizedSide_eq_ok {d : Disk} {index newFirst newLast : Nat} {c' : RawSide}
    (h : resizedSide d index newFirst newLast = .ok c') :
    ∃ c, mutationSource d = .ok c ∧ (1 ≤ index ∧ index ≤ c.entryCount) ∧
      (c.firstUsable ≤ newFirst ∧ newFirst ≤ newLast ∧ newLast ≤ c.lastUsable) ∧
      zeroGuid (slice (c.entry (index - 1)) 0 16) = false ∧
      c' = c.resizeEntry index newFirst newLast ∧ validateEntries c' = .ok () := by
  unfold resizedSide at h
  simp only [Result.bind_eq_ok_iff, Result.guard_bind_eq_ok_iff, Result.pure_eq_ok_iff] at h
  obtain ⟨c, hc, hidx, hrange, hused, _, hv, rfl⟩ := h
  exact ⟨c, hc, by omega, by omega, by simpa using hused, rfl, hv⟩

/-! ## `write_pair` が残す event -/

theorem gateOpen_of_writeGate {host : WriteHost} {options : MutationOptions} {refusal : String}
    (h : writeGate host options refusal = .ok ()) : GateOpen host options := by
  unfold writeGate at h
  simp only [Result.bind_eq_ok_iff, Result.guard_eq_ok_iff] at h
  obtain ⟨_, hoff, block, hblock, hallow, _⟩ := h
  refine ⟨hoff, ?_⟩
  cases block with
  | false => exact Or.inl hblock
  | true => exact Or.inr ⟨hblock, by simpa using hallow⟩

theorem snd_run_reading_bind {α β : Type} (f : Disk → Result α) (k : α → DevM β) (d : Disk)
    (hk : ∀ a, (Proc.run (k a) d).2 = d) : (Proc.run (Proc.reading f >>= k) d).2 = d := by
  rw [Proc.run_bind, Proc.run_reading]
  cases f d with
  | error e => rfl
  | ok a => exact hk a

/-- 書き込みに進めないときは、disk は変わらない。 -/
theorem writePair_not_ready {host : WriteHost} {options : MutationOptions} {c : RawSide} {d : Disk}
    {entries : Bytes} (h : ¬ WriteReady host options d) :
    (Proc.run (writePair host c entries options) d).2 = d := by
  unfold writePair
  cases hg : writeGate host options "GPT mutation on a block device requires --allow-block-device" with
  | error e =>
    rw [Proc.run_bind_error (Proc.run_reading (fun _ => .error e) d)]
  | ok u =>
    rw [Proc.run_bind_ok (Proc.run_reading (fun _ => .ok u) d), Proc.run_bind_ok (Proc.run_get d)]
    by_cases htotal : totalSectors d < 100
    · rw [if_pos htotal]
      rfl
    · rw [if_neg htotal]
      have hw : d.writable = false := by
        by_contra hw
        exact h ⟨gateOpen_of_writeGate hg, by simpa using hw, by omega⟩
      have hfail : ∀ off bytes, Proc.run (DevM.write off bytes) d
          = (.error { code := .permission, message := "device is read-only" }, d) := by
        intro off bytes
        refine Proc.run_stepping_error ?_
        unfold Disk.writeExact
        rw [if_pos hw]
      rw [Proc.run_bind_error (hfail _ _)]

/-- primary の array が disk に収まらないときは、backup の側だけが書かれる。 -/
def halfEvents (c : RawSide) (entries : Bytes) (total ss : Nat) : List Event :=
  (backupWrites c entries total ss).map .write ++ [.flush]

/--
**`write_pair` が残す event。** 読み直しの結果によらない。primary の array が disk に収まらなければ、
そこで失敗する。
-/
theorem writePair_events {host : WriteHost} {options : MutationOptions} {c : RawSide} {d : Disk}
    {entries : Bytes} (h : WriteReady host options d)
    (hs : c.arraySectors (sectorSize d) ≤ totalSectors d - 1)
    (hpe : primaryEntries c (sectorSize d) ≤ totalSectors d)
    (hlen : entries.length = c.arrayBytes) :
    (Proc.run (writePair host c entries options) d).2 =
        d.emit (pairEvents c entries (totalSectors d) (sectorSize d)) ∨
      (Proc.run (writePair host c entries options) d).2 =
          d.emit (halfEvents c entries (totalSectors d) (sectorSize d)) ∧
        (∃ e, (Proc.run (writePair host c entries options) d).1 = .error e) ∧
        totalSectors d < primaryEntries c (sectorSize d) + c.arraySectors (sectorSize d) := by
  obtain ⟨hg, hw, htotal⟩ := h
  have hss := sectorSize_pos d
  have hlt := totalSectors_lt d
  have hsize := totalSectors_mul_le d
  have hdlt := d.size_lt
  have hbytes := arrayBytes_le (s := c) hss
  have hbe := backupEntries_eq hlt hs
  -- 書く範囲は、sector の番号が収まれば device に収まる
  have hfit : ∀ k, k + c.arraySectors (sectorSize d) ≤ totalSectors d →
      k * sectorSize d + entries.length ≤ d.sizeBytes := by
    intro k hk
    have hmul : (k + c.arraySectors (sectorSize d)) * sectorSize d
        ≤ totalSectors d * sectorSize d := Nat.mul_le_mul_right _ hk
    rw [Nat.add_mul] at hmul
    omega
  have hwide : ∀ k, k ≤ totalSectors d → u64 (k * sectorSize d) = k * sectorSize d := by
    intro k hk
    have hmul : k * sectorSize d ≤ totalSectors d * sectorSize d := Nat.mul_le_mul_right _ hk
    exact u64_of_lt (by omega)
  have hwbe := hfit (totalSectors d - 1 - c.arraySectors (sectorSize d)) (by omega)
  have hwbh : (totalSectors d - 1) * sectorSize d + sectorSize d ≤ d.sizeBytes := by
    have hmul : (totalSectors d - 1 + 1) * sectorSize d ≤ totalSectors d * sectorSize d :=
      Nat.mul_le_mul_right _ (by omega)
    rw [Nat.add_mul, Nat.one_mul] at hmul
    omega
  have hwph : sectorSize d + sectorSize d ≤ d.sizeBytes := by
    have hmul : 2 * sectorSize d ≤ totalSectors d * sectorSize d :=
      Nat.mul_le_mul_right _ (by omega)
    omega
  unfold writePair
  rw [Proc.run_bind_ok (Proc.run_reading _ d |>.trans (by rw [hg.writeGate_ok])),
    Proc.run_bind_ok (Proc.run_get d), if_neg (by omega)]
  dsimp only
  rw [hbe, hwide _ (by omega), hwide _ hpe,
    Proc.run_bind_ok (DevM.run_write_ok hw hwbe),
    Proc.run_bind_ok (DevM.run_write_ok (by exact hw) (by rw [length_makeHeader]; exact hwbh)),
    Proc.run_bind_ok (DevM.run_flush _)]
  by_cases hroom : primaryEntries c (sectorSize d) * sectorSize d + entries.length ≤ d.sizeBytes
  · left
    rw [Proc.run_bind_ok (DevM.run_write_ok (by exact hw) (by exact hroom)),
      Proc.run_bind_ok (DevM.run_write_ok (by exact hw) (by rw [length_makeHeader]; exact hwph)),
      Proc.run_bind_ok (DevM.run_flush _), snd_run_reading_bind _ _ _ fun _ => rfl]
    simp only [Disk.emit_emit, List.cons_append, List.nil_append]
    rfl
  · right
    have hfail : Proc.run (DevM.write (primaryEntries c (sectorSize d) * sectorSize d) entries)
        (d.emit (halfEvents c entries (totalSectors d) (sectorSize d))) = (.error
          { code := .shortIo, message := "write range exceeds device geometry" },
        d.emit (halfEvents c entries (totalSectors d) (sectorSize d))) := by
      refine Proc.run_stepping_error ?_
      unfold Disk.writeExact
      rw [if_neg (by rw [Disk.emit_writable, hw]; decide),
        if_pos (by rw [Disk.emit_sizeBytes]; omega)]
    simp only [Disk.emit_emit, List.cons_append, List.nil_append]
    refine ⟨congrArg Prod.snd (Proc.run_bind_error hfail),
      ⟨_, congrArg Prod.fst (Proc.run_bind_error hfail)⟩, ?_⟩
    by_contra hle
    exact hroom (hfit _ (by omega))

/-! ## 書き込みが掛かる sector -/

/-- array の書き込みは、占める sector のすべてに、それだけに掛かる。 -/
theorem touches_array_iff {c : RawSide} {entries : Bytes} {ss k x : Nat} (hss : 0 < ss)
    (hlen : entries.length = c.arrayBytes) (hpos : 0 < c.arrayBytes) :
    Touches ⟨k * ss, entries⟩ ss x ↔ k ≤ x ∧ x < k + c.arraySectors ss := by
  unfold Touches
  rw [hlen, Nat.mul_lt_mul_right hss, Nat.lt_succ_iff]
  refine and_congr_right fun hk => ?_
  obtain ⟨y, rfl⟩ := Nat.exists_eq_add_of_le hk
  have hdiv : y < c.arraySectors ss ↔ (y + 1) * ss ≤ c.arrayBytes + ss - 1 := by
    rw [RawSide.arraySectors, Nat.lt_iff_add_one_le, Nat.le_div_iff_mul_le hss]
  have hmul : (y + 1) * ss = y * ss + ss := Nat.succ_mul y ss
  rw [Nat.add_mul, Nat.add_lt_add_iff_left, Nat.add_lt_add_iff_left, hdiv]
  omega

/-- header の書き込みは、その sector だけに掛かる。 -/
theorem touches_header_iff {bytes : Bytes} {ss k x : Nat} (hss : 0 < ss) (hlen : bytes.length = ss) :
    Touches ⟨k * ss, bytes⟩ ss x ↔ x = k := by
  unfold Touches
  have hmul : k * ss + ss = (k + 1) * ss := (Nat.succ_mul k ss).symm
  rw [hlen, hmul, Nat.mul_lt_mul_right hss, Nat.mul_lt_mul_right hss]
  omega

/-- 検査を通った側の array は、disk より少なくとも 1 sector 小さい。 -/
theorem FieldsOk.arraySectors_le {c : RawSide} {total ss : Nat} (h : FieldsOk c total ss) :
    c.arraySectors ss ≤ total - 1 := by
  have h1 := h.array
  have h2 := h.usable
  rcases h.arrayOutside with h3 | h3
  · omega
  · omega

theorem FieldsOk.primaryEntries_le {c : RawSide} {total ss : Nat} (h : FieldsOk c total ss)
    (htotal : 100 ≤ total) : primaryEntries c ss ≤ total := by
  have h2 := h.usable
  unfold primaryEntries
  dsimp only
  split <;> omega

/-- 標準の置き場所は、`write_pair` が実際に使う置き場所で言い換えられる。 -/
theorem standardOutside_iff {c : RawSide} {total ss : Nat} :
    StandardOutside c total ss ↔ ∀ x, c.firstUsable ≤ x → x ≤ c.lastUsable → x ≠ 1 ∧ x ≠ total - 1 ∧
      ¬ (primaryEntries c ss ≤ x ∧ x < primaryEntries c ss + c.arraySectors ss) ∧
      ¬ (total - 1 - c.arraySectors ss ≤ x ∧ x < total - 1) := by
  unfold StandardOutside primaryEntries
  refine forall_congr' fun x => ?_
  by_cases hfu : c.firstUsable > c.arraySectors ss ∧ c.firstUsable - c.arraySectors ss ≥ 2
  · -- array は使える範囲のすぐ手前に置かれ、どちらの言い方でも外にある
    dsimp only
    rw [if_pos hfu]
    constructor
    · intro h h1 h2
      have := h h1 h2
      omega
    · intro h h1 h2
      have := h h1 h2
      omega
  · dsimp only
    rw [if_neg hfu]

/-- event の列のどれかの書き込みが sector `x` に掛かる。 -/
def Touched (es : List Event) (ss x : Nat) : Prop := ∃ w, Event.write w ∈ es ∧ Touches w ss x

section Touched

variable {c : RawSide} {entries : Bytes} {total ss x : Nat}

theorem touched_append {es fs : List Event} :
    Touched (es ++ fs) ss x ↔ Touched es ss x ∨ Touched fs ss x := by
  unfold Touched
  simp only [List.mem_append, or_and_right, exists_or]

theorem touched_writes_flush {w v : Write} :
    Touched ([w, v].map .write ++ [.flush]) ss x ↔ Touches w ss x ∨ Touches v ss x := by
  unfold Touched
  simp only [List.map_cons, List.map_nil, List.cons_append, List.nil_append, List.mem_cons,
    Event.write.injEq, reduceCtorEq, List.not_mem_nil, or_false, or_and_right, exists_or,
    exists_eq_left]

/-- backup の側の書き込みが掛かる sector。 -/
theorem touched_halfEvents (hss : 0 < ss) (hlen : entries.length = c.arrayBytes)
    (hpos : 0 < c.arrayBytes) (hs : c.arraySectors ss ≤ total - 1) :
    Touched (halfEvents c entries total ss) ss x ↔
      (total - 1 - c.arraySectors ss ≤ x ∧ x < total - 1) ∨ x = total - 1 := by
  unfold halfEvents backupWrites
  rw [touched_writes_flush, touches_array_iff hss hlen hpos, touches_header_iff hss length_makeHeader]
  omega

/-- `write_pair` の書き込みが掛かる sector。 -/
theorem touched_pairEvents (hss : 0 < ss) (hlen : entries.length = c.arrayBytes)
    (hpos : 0 < c.arrayBytes) (hs : c.arraySectors ss ≤ total - 1) :
    Touched (pairEvents c entries total ss) ss x ↔
      ((total - 1 - c.arraySectors ss ≤ x ∧ x < total - 1) ∨ x = total - 1) ∨
        (primaryEntries c ss ≤ x ∧ x < primaryEntries c ss + c.arraySectors ss) ∨ x = 1 := by
  unfold pairEvents primaryWrites
  have hone : ∀ b : Bytes, (⟨ss, b⟩ : Write) = ⟨1 * ss, b⟩ := fun b => by rw [Nat.one_mul]
  rw [touched_append, ← touched_halfEvents hss hlen hpos hs, touched_writes_flush,
    touches_array_iff hss hlen hpos, hone, touches_header_iff hss length_makeHeader]
  rfl

end Touched

/-- 書き込みに進んだときに掛かる sector が使える範囲を避けるのは、置き場所が外にあるときである。 -/
theorem avoids_iff_outside {host : WriteHost} {options : MutationOptions} {c : RawSide} {d : Disk}
    (hready : WriteReady host options d) (hf : FieldsOk c (totalSectors d) (sectorSize d))
    (hlen : c.entries.length = c.arrayBytes) :
    (∀ x, c.firstUsable ≤ x → x ≤ c.lastUsable →
      ¬ Touched (newEvents (writePair host c c.entries options) d) (sectorSize d) x) ↔
    StandardOutside c (totalSectors d) (sectorSize d) := by
  have hss := sectorSize_pos d
  have hpos : 0 < c.arrayBytes := Nat.mul_pos hf.entryCount.1 (by have := hf.entrySize; omega)
  have hs := hf.arraySectors_le
  have hus := hf.usable
  have hemit : ∀ es, (d.emit es).events.drop d.events.length = es := fun es => List.drop_left
  rw [standardOutside_iff]
  unfold newEvents
  rcases writePair_events hready hs (hf.primaryEntries_le hready.total) hlen with hev | ⟨hev, -, hroom⟩
  · rw [hev, hemit]
    refine forall_congr' fun x => forall_congr' fun _ => forall_congr' fun _ => ?_
    rw [touched_pairEvents hss hlen hpos hs]
    omega
  · -- primary の array が収まらないのは、array が disk とほぼ同じ大きさのときだけで、
    -- そのときは backup の側だけで disk の全体に掛かる
    rw [hev, hemit]
    have hwhole : totalSectors d - 1 - c.arraySectors (sectorSize d) = 0 := by
      unfold primaryEntries at hroom
      dsimp only at hroom
      split at hroom <;> omega
    constructor
    · intro hno
      refine absurd ?_ (hno c.firstUsable (le_refl _) hus.1)
      rw [touched_halfEvents hss hlen hpos hs]
      omega
    · intro hout
      have := hout c.firstUsable (le_refl _) hus.1
      omega

/-- 元にする写しが正規の写しから来る更新では、使える範囲を書かないことと、置き場所が外にあることは同じ。 -/
theorem spares_iff_of_source {source : Disk → Result RawSide} {host : WriteHost}
    {options : MutationOptions} {d : Disk} (hsrc : ∀ c', source d = .ok c' → ∃ c,
      canonical d = some c ∧ c'.firstUsable = c.firstUsable ∧ c'.lastUsable = c.lastUsable ∧
        FieldsOk c' (totalSectors d) (sectorSize d) ∧ c'.entries.length = c'.arrayBytes) :
    SparesUsable (mutateFrom source host options) d ↔ PlacesOutside source host options d := by
  cases hc : source d with
  | error e =>
    have hrun : newEvents (mutateFrom source host options) d = [] := by
      unfold newEvents mutateFrom
      rw [Proc.run_bind_error (Proc.run_reading _ d |>.trans (by rw [hc]))]
      exact List.drop_length
    constructor
    · intro _ c' hc'
      rw [hc] at hc'
      cases hc'
    · intro _ c _ w hw
      rw [hrun] at hw
      cases hw
  | ok c' =>
    obtain ⟨c, hcan, hfu, hlu, hf, hlen⟩ := hsrc c' hc
    have hrun : newEvents (mutateFrom source host options) d
        = newEvents (writePair host c' c'.entries options) d := by
      unfold newEvents mutateFrom
      rw [Proc.run_bind_ok (Proc.run_reading _ d |>.trans (by rw [hc]))]
    have hspares : SparesUsable (mutateFrom source host options) d ↔
        ∀ x, c'.firstUsable ≤ x → x ≤ c'.lastUsable →
          ¬ Touched (newEvents (writePair host c' c'.entries options) d) (sectorSize d) x := by
      unfold SparesUsable Touched
      rw [hrun, hfu, hlu]
      constructor
      · rintro h x hx1 hx2 ⟨w, hw, ht⟩
        exact h c hcan w hw x hx1 hx2 ht
      · intro h c2 hc2 w hw x hx1 hx2 ht
        rw [hcan] at hc2
        cases hc2
        exact h x hx1 hx2 ⟨w, hw, ht⟩
    have hplaces : PlacesOutside source host options d ↔ (WriteReady host options d →
        StandardOutside c' (totalSectors d) (sectorSize d)) := by
      constructor
      · intro h
        exact h c' hc
      · intro h c2 hc2
        rw [hc] at hc2
        cases hc2
        exact h
    rw [hspares, hplaces]
    by_cases hready : WriteReady host options d
    · rw [avoids_iff_outside hready hf hlen]
      exact ⟨fun h _ => h, fun h => h hready⟩
    · have hnil : newEvents (writePair host c' c'.entries options) d = [] := by
        unfold newEvents
        rw [writePair_not_ready hready]
        exact List.drop_length
      rw [hnil]
      constructor
      · intro _ hr
        exact absurd hr hready
      · rintro _ x _ _ ⟨w, hw, _⟩
        cases hw

/--
**`resize_partition` と `repair_redundancy` が使える範囲の sector を書かないのは、
書き込みに進まないか、標準の置き場所が使える範囲の外にあるときである。**
-/
theorem sparesUsable_iff (d : Disk) (host : WriteHost) (options : MutationOptions) :
    (∀ index newFirst newLast,
      SparesUsable (resizePartition host index newFirst newLast options) d ↔
        PlacesOutside (fun d => resizedSide d index newFirst newLast) host options d) ∧
    (SparesUsable (repairRedundancy host options) d ↔
      PlacesOutside repairSource host options d) := by
  constructor
  · intro index newFirst newLast
    rw [resizePartition_eq]
    refine spares_iff_of_source fun c' hc' => ?_
    obtain ⟨c, hc, _, _, _, rfl, _⟩ := resizedSide_eq_ok hc'
    have hcan := canonical_of_mutationSource hc
    obtain ⟨hf, hb⟩ := canonical_ok hcan
    refine ⟨c, hcan, rfl, rfl, fieldsOk_resizeEntry hf, ?_⟩
    rw [resizeEntry_entries, length_writeLe, length_writeLe, hb.entries]
    rfl
  · rw [repairRedundancy_eq]
    refine spares_iff_of_source fun c hc => ?_
    have hcan := canonical_of_repairSource hc
    obtain ⟨hf, hb⟩ := canonical_ok hcan
    exact ⟨c, hcan, rfl, rfl, hf, hb.entries⟩

/-! ## 使える範囲が最後まで続く disk -/

/-- 使える範囲が LBA 3 から 98 の table。標準の backup の array は LBA 98 に置かれる。 -/
def wideTable : RawSide := { emptyTable with lastUsable := 98 }

theorem wideDisk_size : 51200 < 2 ^ 63 := by decide

/-- primary だけがあり、partition が LBA 10 から 98 を占める disk。 -/
def wideDisk : Disk where
  sizeBytes := 51200
  logicalSector := 512
  isBlockDevice := false
  writable := true
  data := (Image.write (fun _ => 0) 512 (makeHeader wideTable 1 99 2
    (crc32IeeeFinal (oneEntry 10 98)).toNat 512)).write 1024 (oneEntry 10 98)
  events := []
  size_lt := wideDisk_size

theorem sectorSize_wideDisk : sectorSize wideDisk = 512 := by
  unfold sectorSize
  exact if_pos (show (512 : Nat) ≠ 0 by decide)

theorem totalSectors_wideDisk : totalSectors wideDisk = 100 := by
  rw [totalSectors, sectorSize_wideDisk]
  show 51200 / 512 = 100
  decide

theorem bounded_wideTable : Bounded wideTable := by
  refine ⟨?_, ?_, ?_, ?_, ?_, ?_, length_zeros 16, length_zeros 128⟩ <;> decide

/-- 作った disk の primary の側。 -/
def wideSide : RawSide := pairSide wideTable 1 99 2 512 (oneEntry 10 98)

theorem fieldsOk_wideSide : FieldsOk wideSide 100 512 :=
  ⟨by decide, rfl, by decide, by decide, by decide, by decide, by decide, Or.inl (by decide),
    Or.inl (by decide)⟩

/-- primary は書いたとおりに読め、backup には署名がない。 -/
theorem readSide_wideDisk : readSide wideDisk 1 = .ok wideSide ∧
    ∃ b, readSide wideDisk (totalSectors wideDisk - 1) = .ok b ∧ b.valid = false := by
  have hhdr : ∀ z, (makeHeader wideTable 1 99 2 z 512).length = 512 := fun _ => length_makeHeader
  have hent := length_oneEntry 10 98
  constructor
  · have h := @readSide_pairSide wideDisk wideTable 1 99 2 (oneEntry 10 98)
      (by rw [totalSectors_wideDisk]; decide) bounded_wideTable (by decide)
      (by rw [sectorSize_wideDisk]; decide)
    rw [sectorSize_wideDisk, totalSectors_wideDisk] at h
    refine h ?_ ?_ fieldsOk_wideSide
    · exact (Image.read_write_of_disjoint (Or.inl (by decide))).trans
        (Image.read_write_self _ _ _ (hhdr _))
    · exact Image.read_write_self _ _ _ hent
  · have hunsigned : ¬ Signed wideDisk (totalSectors wideDisk - 1) := by
      have hzero : slice (headerAt wideDisk (totalSectors wideDisk - 1)) 0 8 = zeros 8 := by
        rw [headerAt, Image.slice_read _ _ _ _ _ (by rw [sectorSize_wideDisk]; decide),
          totalSectors_wideDisk, sectorSize_wideDisk]
        refine (Image.read_write_of_disjoint (Or.inr (by rw [hent]; decide))).trans ?_
        refine (Image.read_write_of_disjoint (Or.inr ?_)).trans (Image.read_zero _ _)
        rw [hhdr]
        decide
      rw [Signed, hzero]
      decide
    exact ⟨_, readSide_of_unsigned (by rw [totalSectors_wideDisk]; decide) hunsigned, rfl⟩

theorem validateEntries_wideSide : validateEntries wideSide = .ok () :=
  validateEntries_one rfl (by rfl)

/-- 修復が、partition の最後の sector に backup の array を書く。 -/
theorem repair_overwrites_partition :
    (∃ t p, readRedundantTable wideDisk = .ok t ∧ p ∈ t.partitions ∧ p.firstLba ≤ 98 ∧
      98 ≤ p.lastLba) ∧ ¬ SparesUsable (repairRedundancy quietWriteHost {}) wideDisk := by
  obtain ⟨hp, b, hb, hbv⟩ := readSide_wideDisk
  have hno : ¬ b.valid = true := by rw [hbv]; decide
  have ha : Agree wideSide b := ⟨Or.inl rfl, fun _ => validateEntries_wideSide,
    fun h => absurd h hno, fun _ h => absurd h hno⟩
  constructor
  · obtain ⟨p, hpart, hfirst, hlast⟩ : ∃ p, partitionOf wideSide 0 = some p ∧ p.firstLba = 10 ∧
        p.lastLba = 98 := ⟨_, rfl, by decide, by decide⟩
    have hmem : p ∈ wideSide.partitions := mem_partitions_iff.mpr ⟨0, by decide, hpart⟩
    exact ⟨_, p, readRedundantTable_eq_ok_iff.mpr
      ⟨by rw [totalSectors_wideDisk]; decide, _, _, hp, hb, ha, rfl⟩, hmem, by omega, by omega⟩
  · intro hspares
    have hsrc : repairSource wideDisk = .ok wideSide := repairSource_eq_ok hp hb ha
    have hcan := canonical_of_repairSource hsrc
    have hready : WriteReady quietWriteHost {} wideDisk :=
      ⟨gateOpen_quiet {}, rfl, by rw [totalSectors_wideDisk]⟩
    have hfields : FieldsOk wideSide (totalSectors wideDisk) (sectorSize wideDisk) := by
      rw [totalSectors_wideDisk, sectorSize_wideDisk]
      exact fieldsOk_wideSide
    have hrun : newEvents (repairRedundancy quietWriteHost {}) wideDisk
        = newEvents (writePair quietWriteHost wideSide wideSide.entries {}) wideDisk := by
      unfold newEvents repairRedundancy
      rw [Proc.run_bind_ok (Proc.run_reading _ wideDisk |>.trans (by rw [hsrc]))]
    have hout := (avoids_iff_outside hready hfields (length_oneEntry 10 98)).mp
      fun x hx1 hx2 ⟨w, hw, ht⟩ => hspares wideSide hcan w (by rw [hrun]; exact hw) x hx1 hx2 ht
    have hlast := (hout 98 (by decide) (by decide)).2.2.2
    rw [totalSectors_wideDisk, sectorSize_wideDisk] at hlast
    exact hlast (by decide)

end Gpt

end Fsx
