import Fsx.Ext4.ShrinkCrash
import Fsx.Io.Always

/-!
# clean の印と superblock の写し

superblock の clean の印を付け替える書き込みは、状態の欄と checksum（写しでは group の番号も）の
ほかを変えない。そのような書き込みの任意の部分が残っても、ほかの metadata は前のままである。

dirty の印が耐久になった後は、印に触れない書き込みがどう残っても dirty のままである。
-/

namespace Fsx.Ext4

/-! ## clean の印 -/

/-- primary superblock が clean だと言っている。 -/
def MarkedClean (img : Image) : Prop := readLe 2 (img.read 1024 1024) 0x3a &&& 1 = 1

instance (img : Image) : Decidable (MarkedClean img) :=
  inferInstanceAs (Decidable (readLe 2 (img.read 1024 1024) 0x3a &&& 1 = 1))

/-- 範囲が primary superblock と重ならない。 -/
def Away (off len : Nat) : Prop := off + len ≤ 1024 ∨ 2048 ≤ off

instance (off len : Nat) : Decidable (Away off len) :=
  inferInstanceAs (Decidable (off + len ≤ 1024 ∨ 2048 ≤ off))

/-- dirty の印を消さない書き込み。 -/
def KeepsDirty (w : Write) : Prop :=
  Away w.off w.bytes.length ∨
    (w.off = 1024 ∧ w.bytes.length = 1024 ∧ readLe 2 w.bytes 0x3a &&& 1 = 0)

theorem not_markedClean_of_write {w : Write} (hoff : w.off = 1024) (hlen : w.bytes.length = 1024)
    (hstate : readLe 2 w.bytes 0x3a &&& 1 = 0) (img : Image) : ¬ MarkedClean (img.apply w) := by
  unfold MarkedClean Image.apply
  rw [hoff, Image.read_write_self _ _ _ hlen, hstate]
  decide

theorem KeepsDirty.apply {w : Write} (h : KeepsDirty w) {img : Image} (hd : ¬ MarkedClean img) :
    ¬ MarkedClean (img.apply w) := by
  rcases h with h | ⟨hoff, hlen, hstate⟩
  · unfold MarkedClean Image.apply
    rw [Image.read_write_of_disjoint (by unfold Away at h; omega)]
    exact hd
  · exact not_markedClean_of_write hoff hlen hstate img

/-! ## 印のほかの欄 -/

/-- superblock のうち、印の付け替えで変わる欄（状態、group の番号、checksum）。 -/
def Stamp (i : Nat) : Prop := (0x3a ≤ i ∧ i < 0x3c) ∨ (0x5a ≤ i ∧ i < 0x5c) ∨ 0x3fc ≤ i

instance (i : Nat) : Decidable (Stamp i) :=
  inferInstanceAs (Decidable ((0x3a ≤ i ∧ i < 0x3c) ∨ (0x5a ≤ i ∧ i < 0x5c) ∨ 0x3fc ≤ i))

/-- 二つの superblock の byte 列が、印のほかは同じ。 -/
def SameFields (b b' : Bytes) : Prop :=
  b'.length = b.length ∧ ∀ i, ¬ Stamp i → b'[i]? = b[i]?

theorem SameFields.trans {a b c : Bytes} (h : SameFields a b) (h' : SameFields b c) :
    SameFields a c :=
  ⟨h'.1.trans h.1, fun i hi => (h'.2 i hi).trans (h.2 i hi)⟩

/-- 印の欄への書き込みは、ほかの欄を変えない。 -/
theorem sameFields_writeLe {n off v : Nat} (b : Bytes)
    (h : ∀ i, off ≤ i → i < off + n → Stamp i) : SameFields b (writeLe n b off v) := by
  refine ⟨length_writeLe _ _ _ _, fun i hi => ?_⟩
  unfold writeLe
  rw [getElem?_patch, length_leBytes, if_neg]
  rintro ⟨h1, h2⟩
  exact hi (h i h1 h2)

theorem sameFields_state (b : Bytes) (v : Nat) : SameFields b (writeLe 2 b 0x3a v) :=
  sameFields_writeLe b fun _ h1 h2 => Or.inl ⟨h1, h2⟩

theorem sameFields_checksum {b b' : Bytes} (h : updateSuperblockChecksum b = .ok b') :
    SameFields b b' := by
  unfold updateSuperblockChecksum at h
  split at h
  · cases h
  · split at h
    · cases h
      exact ⟨rfl, fun _ _ => rfl⟩
    · cases h
      exact sameFields_writeLe b fun _ h1 _ => Or.inr (Or.inr h1)

/-- 印にかからない欄の値は変わらない。 -/
theorem SameFields.readLe {b b' : Bytes} (h : SameFields b b') {n off : Nat}
    (hs : ∀ i, off ≤ i → i < off + n → ¬ Stamp i) : readLe n b' off = readLe n b off := by
  unfold Fsx.readLe
  congr 1
  apply List.ext_getElem?
  intro i
  rw [getElem?_slice, getElem?_slice]
  split
  · exact h.2 _ (hs _ (by omega) (by omega))
  · rfl

/-- 写しを持つ group は、印の付け替えで変わらない。 -/
theorem groupHasSuper_congr {b b' : Bytes} (h1 : readLe 4 b' 0x5c = readLe 4 b 0x5c)
    (h2 : readLe 4 b' 0x64 = readLe 4 b 0x64) (h3 : readLe 4 b' 0x24c = readLe 4 b 0x24c)
    (h4 : readLe 4 b' 0x250 = readLe 4 b 0x250) (g : Nat) :
    groupHasSuper b' g = groupHasSuper b g := by
  unfold groupHasSuper
  rw [h1, h2, h3, h4]

theorem SameFields.groupHasSuper {b b' : Bytes} (h : SameFields b b') (g : Nat) :
    groupHasSuper b' g = groupHasSuper b g := by
  refine groupHasSuper_congr ?_ ?_ ?_ ?_ g <;>
    exact h.readLe fun i h1 h2 => by unfold Stamp; omega

/-! ## 印のほかは同じ像 -/

/-- `a` の `o` にある superblock と `b` の `o'` にあるものが、印のほかは同じ。 -/
def SameSuper (a : Image) (o : Nat) (b : Image) (o' : Nat) : Prop :=
  ∀ i < 1024, ¬ Stamp i → a (o + i) = b (o' + i)

/-- 番地 `p` が、`copies` にあるどの superblock にも入らない。 -/
def Outside (copies : List Nat) (p : Nat) : Prop := ∀ o ∈ copies, p < o ∨ o + 1024 ≤ p

/-- superblock の印のほかは同じ像。 -/
structure SameMetadata (copies : List Nat) (ref img : Image) : Prop where
  rest : ∀ p, Outside copies p → img p = ref p
  supers : ∀ o ∈ copies, SameSuper img o ref o

/-- 呼び出しの前のままの像。superblock の写しは、前のままか、前の primary を写したものである。 -/
structure AsBefore (copies : List Nat) (start img : Image) : Prop where
  rest : ∀ p, Outside copies p → img p = start p
  supers : ∀ o ∈ copies, SameSuper img o start o ∨ SameSuper img o start 1024

theorem sameMetadata_refl (copies : List Nat) (img : Image) : SameMetadata copies img img :=
  ⟨fun _ _ => rfl, fun _ _ _ _ _ => rfl⟩

theorem asBefore_refl (copies : List Nat) (img : Image) : AsBefore copies img img :=
  ⟨fun _ _ => rfl, fun _ _ => Or.inl fun _ _ _ => rfl⟩

/-- `copies` にある superblock を、印のほかは `fields` に書き直す。 -/
structure Refresh (copies : List Nat) (fields : Nat → Nat → UInt8) (w : Write) : Prop where
  mem : w.off ∈ copies
  length : w.bytes.length = 1024
  same : ∀ i < 1024, ¬ Stamp i → w.bytes[i]? = some (fields w.off i)

namespace Refresh

variable {copies : List Nat} {fields : Nat → Nat → UInt8} {w : Write}

theorem apply_self (h : Refresh copies fields w) (img : Image) {i : Nat} (hi : i < 1024)
    (hs : ¬ Stamp i) : img.apply w (w.off + i) = fields w.off i := by
  have hlen := h.length
  unfold Image.apply
  rw [Image.write_apply_of_mem (by omega) (by omega), Nat.add_sub_cancel_left,
    List.getD_eq_getElem?_getD, h.same i hi hs]
  rfl

theorem apply_outside (h : Refresh copies fields w) (img : Image) {p : Nat}
    (hp : Outside copies p) : img.apply w p = img p := by
  have hlen := h.length
  have := hp _ h.mem
  exact Image.write_apply_of_not_mem (by omega)

/-- ほかの superblock は変わらない。番地はどれも 1024 の倍数だからである。 -/
theorem apply_other (h : Refresh copies fields w) (hal : ∀ o ∈ copies, 1024 ∣ o) (img : Image)
    {o i : Nat} (ho : o ∈ copies) (hne : w.off ≠ o) (hi : i < 1024) :
    img.apply w (o + i) = img (o + i) := by
  have hlen := h.length
  obtain ⟨a, ha⟩ := hal _ h.mem
  obtain ⟨b, hb⟩ := hal _ ho
  exact Image.write_apply_of_not_mem (by omega)

end Refresh

section Keep

variable {copies : List Nat} (hal : ∀ o ∈ copies, 1024 ∣ o)
include hal

/-- 前の primary を写す書き込みは、前のままの像を前のままに保つ。 -/
theorem AsBefore.apply {start img : Image} (h : AsBefore copies start img) {w : Write}
    (hw : Refresh copies (fun _ i => start (1024 + i)) w) : AsBefore copies start (img.apply w) := by
  refine ⟨fun p hp => (hw.apply_outside img hp).trans (h.rest p hp), fun o ho => ?_⟩
  by_cases hoff : w.off = o
  · subst hoff
    exact Or.inr fun i hi hs => hw.apply_self img hi hs
  · rcases h.supers o ho with hold | hnew
    · exact Or.inl fun i hi hs => (hw.apply_other hal img ho hoff hi).trans (hold i hi hs)
    · exact Or.inr fun i hi hs => (hw.apply_other hal img ho hoff hi).trans (hnew i hi hs)

/-- いまある欄をそのまま書く書き込みは、印のほかを変えない。 -/
theorem SameMetadata.apply {ref img : Image} (h : SameMetadata copies ref img) {w : Write}
    (hw : Refresh copies (fun o i => ref (o + i)) w) : SameMetadata copies ref (img.apply w) := by
  refine ⟨fun p hp => (hw.apply_outside img hp).trans (h.rest p hp), fun o ho i hi hs => ?_⟩
  by_cases hoff : w.off = o
  · subst hoff
    exact hw.apply_self img hi hs
  · exact (hw.apply_other hal img ho hoff hi).trans (h.supers o ho i hi hs)

/-- 列のどれかが書いた superblock は、書き終えたときにその欄を持っている。 -/
theorem applyAll_refresh {fields : Nat → UInt8} : ∀ {ws : List Write} {o i : Nat} (img : Image),
    (∀ w ∈ ws, Refresh copies (fun _ => fields) w) → (∃ w ∈ ws, w.off = o) → o ∈ copies →
    i < 1024 → ¬ Stamp i → img.applyAll ws (o + i) = fields i
  | [], _, _, _, _, hex, _, _, _ => by
    obtain ⟨w, hw, -⟩ := hex
    cases hw
  | w :: ws, o, i, img, hw, hex, ho, hi, hs => by
    rw [Image.applyAll_cons]
    by_cases hrest : ∃ v ∈ ws, v.off = o
    · exact applyAll_refresh _ (fun v hv => hw v (List.mem_cons_of_mem _ hv)) hrest ho hi hs
    · -- 後ろの書き込みは、この superblock に触れない
      have hoff : w.off = o := by
        obtain ⟨v, hv, hvo⟩ := hex
        rcases List.mem_cons.mp hv with rfl | hv
        · exact hvo
        · exact absurd ⟨v, hv, hvo⟩ hrest
      refine Image.applyAll_preserves (P := fun j => j (o + i) = fields i) ?_ fun v hv j hj => ?_
      · subst hoff
        exact (hw w List.mem_cons_self).apply_self img hi hs
      · rw [(hw v (List.mem_cons_of_mem _ hv)).apply_other hal j ho (fun h => hrest ⟨v, hv, h⟩) hi]
        exact hj

end Keep

/-! ## 写しの番地 -/

/-- superblock とその写しの番地。`raw` は primary superblock である。 -/
def superOffsets (sb : Superblock) (raw : Bytes) : List Nat :=
  1024 :: ((List.range sb.groupsCount).filter fun g => decide (0 < g) && groupHasSuper raw g).map
    fun g => sb.groupStartBlock g * sb.blockSize

theorem mem_superOffsets_iff {sb : Superblock} {raw : Bytes} {o : Nat} :
    o ∈ superOffsets sb raw ↔ o = 1024 ∨ ∃ g, 0 < g ∧ g < sb.groupsCount ∧
      groupHasSuper raw g = true ∧ sb.groupStartBlock g * sb.blockSize = o := by
  simp only [superOffsets, List.mem_cons, List.mem_map, List.mem_filter, List.mem_range,
    Bool.and_eq_true, decide_eq_true_eq]
  constructor
  · rintro (h | ⟨g, ⟨hg, h0, hs⟩, ho⟩)
    · exact Or.inl h
    · exact Or.inr ⟨g, h0, hg, hs, ho⟩
  · rintro (h | ⟨g, h0, hg, hs, ho⟩)
    · exact Or.inl h
    · exact Or.inr ⟨g, ⟨hg, h0, hs⟩, ho⟩

theorem superOffsets_congr {sb : Superblock} {raw raw' : Bytes}
    (h : ∀ g, groupHasSuper raw' g = groupHasSuper raw g) :
    superOffsets sb raw' = superOffsets sb raw := by
  unfold superOffsets
  simp only [h]

section Accepted

variable {ctx : MetadataContext} {size : Nat} {primary : Bytes}

theorem Superblock.Accepted.dvd_blockSize {sb : Superblock} (ha : sb.Accepted size) :
    1024 ∣ sb.blockSize := by
  have hge := ha.blockSize_ge
  unfold Superblock.blockSize at hge ⊢
  split
  · rw [Nat.shiftLeft_eq]
    exact Nat.dvd_mul_right _ _
  · next h =>
    rw [if_neg h] at hge
    omega

/-- 写しは superblock より後ろにある。 -/
theorem Superblock.Accepted.backup_ge {sb : Superblock} (ha : sb.Accepted size)
    (hsize : size < 2 ^ 63) {g : Nat} (h0 : 0 < g) (hg : g < sb.groupsCount) :
    sb.blockSize ≤ sb.groupStartBlock g * sb.blockSize := by
  have hpos := ha.perGroup_pos
  have hmul : 1 * 1 ≤ g * sb.blocksPerGroup := Nat.mul_le_mul h0 hpos
  rw [ha.groupStartBlock_eq hsize hg]
  exact Nat.le_mul_of_pos_left _ (by omega)

theorem dvd_of_mem_superOffsets (ha : ctx.sb.Accepted size) {o : Nat}
    (h : o ∈ superOffsets ctx.sb primary) : 1024 ∣ o := by
  rcases mem_superOffsets_iff.mp h with rfl | ⟨g, -, -, -, rfl⟩
  · exact ⟨1, rfl⟩
  · exact Dvd.dvd.mul_left ha.dvd_blockSize _

theorem mem_backupSupers {x : Write} : ∀ {n g : Nat}, x ∈ backupSupers ctx primary n g ↔
    ∃ k, g ≤ k ∧ k < g + n ∧ groupHasSuper primary k = true ∧ backupSuper ctx primary k = .ok x
  | 0, g => by
    constructor
    · intro h
      cases h
    · rintro ⟨k, h1, h2, -⟩
      omega
  | n + 1, g => by
    rw [backupSupers, List.mem_append, mem_backupSupers]
    constructor
    · rintro (h | ⟨k, h1, h2, h3⟩)
      · by_cases hg : groupHasSuper primary g = true
        · rw [if_pos hg] at h
          refine ⟨g, le_refl _, by omega, hg, ?_⟩
          cases hb : backupSuper ctx primary g with
          | ok y =>
            rw [hb] at h
            rw [List.mem_singleton.mp h]
          | error e =>
            rw [hb] at h
            cases h
        · rw [if_neg hg] at h
          cases h
      · exact ⟨k, by omega, by omega, h3⟩
    · rintro ⟨k, h1, h2, h3, h4⟩
      rcases Nat.eq_or_lt_of_le h1 with rfl | hlt
      · left
        rw [if_pos h3, h4]
        exact List.mem_singleton.mpr rfl
      · exact Or.inr ⟨k, hlt, by omega, h3, h4⟩

/-- 写しの一つ。番地は `superOffsets` にあり、印のほかは primary と同じで、状態も同じである。 -/
theorem superCopies_spec {x : Write} (h : x ∈ superCopies ctx primary) : x.off ∈ superOffsets ctx.sb primary ∧
      SameFields primary x.bytes ∧ readLe 2 x.bytes 0x3a = readLe 2 primary 0x3a := by
  rcases List.mem_cons.mp h with rfl | h
  · exact ⟨List.mem_cons_self, ⟨rfl, fun _ _ => rfl⟩, rfl⟩
  · obtain ⟨k, h1, h2, hs, hk⟩ := mem_backupSupers.mp h
    unfold backupSuper at hk
    rw [Result.guard_bind_eq_ok_iff] at hk
    obtain ⟨copy, hcopy, hx⟩ := Result.bind_eq_ok hk.2
    cases hx
    refine ⟨mem_superOffsets_iff.mpr (Or.inr ⟨k, h1, by omega, hs, rfl⟩), ?_, ?_⟩
    · refine (sameFields_writeLe primary fun i h1 h2 => ?_).trans (sameFields_checksum hcopy)
      exact Or.inr (Or.inl ⟨h1, h2⟩)
    · rw [(updateSuperblockChecksum_ok hcopy).2 2 0x3a (by decide),
        readLe_writeLe_of_disjoint (by decide)]

/-- どの番地にも写しが書かれる。 -/
theorem exists_superCopies (ha : ctx.sb.Accepted size) (hsize : size < 2 ^ 63)
    (hlen : primary.length = 1024) {o : Nat} (ho : o ∈ superOffsets ctx.sb primary) :
    ∃ x ∈ superCopies ctx primary, x.off = o := by
  rcases mem_superOffsets_iff.mp ho with rfl | ⟨g, h0, hg, hs, rfl⟩
  · exact ⟨_, List.mem_cons_self, rfl⟩
  · obtain ⟨copy, hcopy, -, -⟩ := backupSuper_ok ha hsize hlen hg
    refine ⟨_, List.mem_cons_of_mem _ (mem_backupSupers.mpr ⟨g, h0, by omega, hs, hcopy⟩), rfl⟩

theorem refresh_superCopies {copies : List Nat} {fields : Nat → UInt8}
    (hlen : primary.length = 1024) (hcopies : superOffsets ctx.sb primary = copies)
    (hfields : ∀ i < 1024, ¬ Stamp i → primary[i]? = some (fields i)) :
    ∀ x ∈ superCopies ctx primary, Refresh copies (fun _ => fields) x := by
  intro x hx
  obtain ⟨hoff, hsame, -⟩ := superCopies_spec hx
  refine ⟨hcopies ▸ hoff, hsame.1.trans hlen, fun i hi hs => ?_⟩
  rw [hsame.2 i hs]
  exact hfields i hi hs

/-- dirty な superblock の写しは、どれも dirty の印を消さない。 -/
theorem keepsDirty_superCopies (ha : ctx.sb.Accepted size) (hsize : size < 2 ^ 63)
    (hlen : primary.length = 1024) (hstate : readLe 2 primary 0x3a &&& 1 = 0) :
    ∀ x ∈ superCopies ctx primary, KeepsDirty x := by
  intro x hx
  obtain ⟨hoff, hsame, hst⟩ := superCopies_spec hx
  rw [← hst] at hstate
  by_cases h : x.off = 1024
  · exact Or.inr ⟨h, hsame.1.trans hlen, hstate⟩
  · obtain ⟨k, hk⟩ := dvd_of_mem_superOffsets ha hoff
    have hge := ha.blockSize_ge
    rcases mem_superOffsets_iff.mp hoff with h1 | ⟨g, h0, hg, -, h1⟩
    · exact absurd h1 h
    · have := ha.backup_ge hsize h0 hg
      exact Or.inl (Or.inr (by omega))

/-- dirty な superblock を書き終えれば、dirty である。 -/
theorem not_markedClean_superCopies (ha : ctx.sb.Accepted size) (hsize : size < 2 ^ 63)
    (hlen : primary.length = 1024) (hstate : readLe 2 primary 0x3a &&& 1 = 0) (img : Image) :
    ¬ MarkedClean (img.applyAll (superCopies ctx primary)) := by
  have hkeep := keepsDirty_superCopies ha hsize hlen hstate
  unfold superCopies at hkeep ⊢
  rw [Image.applyAll_cons]
  refine Image.applyAll_preserves (P := fun i => ¬ MarkedClean i)
    (not_markedClean_of_write rfl hlen hstate img) fun w hw i hi => ?_
  exact (hkeep w (List.mem_cons_of_mem _ hw)).apply hi

end Accepted

end Fsx.Ext4
