import Fsx.Ext4.Grow
import Fsx.Ext4.SuperMark

/-!
# dirty の印の下での書き込み

呼び出しを三つの段に分けて追う。

* 印を付ける前。superblock の印のほかは、呼び出しの前のままである。
* 印が耐久になった後（`Guarded`）。どこで止まっても dirty である。
* 検証の後。superblock の印のほかは、検証したときのままである。

`Guarded` の間の書き込みが primary superblock に触れないことは、その書き込みを決めた device の
状態から言う。呼び出し全体の記録 `fin` の途中の状態について仮定を置くので、主張はどれも
「いまの記録が `fin` の途中なら」の形（`Until`）になる。
-/

namespace Fsx.Ext4

open Proc Engine

theorem devEvents_map_dev (es : List Event) : devEvents (es.map .dev) = es := by
  induction es with
  | nil => rfl
  | cons e es ih => rw [List.map_cons, devEvents, ih]

theorem devEvents_map_journal {α : Type} (f : α → JournalFile) (l : List α) :
    devEvents (l.map fun a => .journal (f a)) = [] := by
  induction l with
  | nil => rfl
  | cons a l ih => rw [List.map_cons, devEvents, ih]

theorem devEvents_prefix {pre trace : List WorldEvent} (h : pre <+: trace) :
    devEvents pre <+: devEvents trace := by
  obtain ⟨rest, rfl⟩ := h
  rw [devEvents_append]
  exact List.prefix_append _ _

/-- 途中で止まった世界の像は、device への操作の途中で止まった像である。 -/
theorem CrashWorld.crashImage {boot w : World} {trace : List WorldEvent}
    (h : CrashWorld boot trace w) :
    CrashImage Atomic boot.disk.data (devEvents trace) w.disk.data := by
  obtain ⟨pre, hpre, img, hset, rfl⟩ := h
  obtain ⟨rest, hrest⟩ := devEvents_prefix hpre
  refine ⟨_, ?_, hset⟩
  rw [← hrest, mem_crashPoints_append]
  exact Or.inl (crashEnd_mem _ _ _)

/-! ## いまの状態 -/

/-- どこで止まっても `A` が成り立ち、いまの耐久な像が `base`、未 flush の書き込みが `pend` である。 -/
structure At (A : Image → Prop) (boot : World) (base : Image) (pend : List Write) (w : World) :
    Prop where
  disk : w.disk = boot.disk.emit (devEvents w.trace)
  reaches : Reaches A boot.disk.data (devEvents w.trace) base pend

namespace At

variable {A B : Image → Prop} {boot w : World} {base : Image} {pend : List Write}

theorem ofBoot (h : boot.trace = []) (hA : A boot.disk.data) : At A boot boot.disk.data [] boot := by
  constructor
  · rw [h]
    exact (Disk.emit_nil _).symm
  · rw [h]
    exact Reaches.nil hA

theorem data (h : At A boot base pend w) : w.disk.data = base.applyAll pend := by
  rw [h.disk, Disk.emit_data]
  have := applyAll_crashEnd (devEvents w.trace) boot.disk.data []
  rw [h.reaches.point] at this
  exact this.symm

theorem sizeBytes (h : At A boot base pend w) : w.disk.sizeBytes = boot.disk.sizeBytes := by
  rw [h.disk]
  rfl

theorem emit {es : List Event} {base' : Image} {pend' : List Write} (h : At A boot base pend w)
    (hr : Reaches A boot.disk.data (devEvents w.trace ++ es) base' pend') :
    At A boot base' pend' (w.emit es) := by
  have htrace : devEvents (w.emit es).trace = devEvents w.trace ++ es := by
    rw [World.emit_trace, devEvents_append, devEvents_map_dev]
  constructor
  · rw [htrace, World.emit_disk, h.disk, Disk.emit_emit]
  · rw [htrace]
    exact hr

/-- journal への操作は device の状態を変えない。 -/
theorem journal (h : At A boot base pend w) {j : Option JournalFile} {es : List WorldEvent}
    (hes : devEvents es = []) : At A boot base pend { w with journal := j, trace := w.trace ++ es } := by
  have htrace : devEvents (w.trace ++ es) = devEvents w.trace := by
    rw [devEvents_append, hes, List.append_nil]
  constructor
  · show w.disk = boot.disk.emit (devEvents (w.trace ++ es))
    rw [htrace]
    exact h.disk
  · show Reaches A boot.disk.data (devEvents (w.trace ++ es)) base pend
    rw [htrace]
    exact h.reaches

end At

/-! ## dirty の印の下 -/

/-- 耐久な像が dirty で、未 flush の書き込みは印を消さない。 -/
def Guarded (A : Image → Prop) (boot w : World) : Prop :=
  ∃ base pend, At A boot base pend w ∧ ¬ MarkedClean base ∧ ∀ x ∈ pend, KeepsDirty x

/-- さらに、未 flush の書き込みがない。 -/
def Settled (A : Image → Prop) (boot w : World) : Prop :=
  ∃ base, At A boot base [] w ∧ ¬ MarkedClean base

section Guarded

variable {A : Image → Prop} {boot w : World}

theorem Settled.guarded (h : Settled A boot w) : Guarded A boot w := by
  obtain ⟨base, hat, hd⟩ := h
  exact ⟨base, [], hat, hd, fun x hx => by cases hx⟩

theorem Guarded.disk (h : Guarded A boot w) : w.disk = boot.disk.emit (devEvents w.trace) := by
  obtain ⟨base, pend, hat, -⟩ := h
  exact hat.disk

/-- dirty の印を消さない書き込みは、`Guarded` を保つ。 -/
theorem Guarded.write (hA : ∀ img, ¬ MarkedClean img → A img) (h : Guarded A boot w) {x : Write}
    (hx : KeepsDirty x) : Guarded A boot (w.emit [.write x]) := by
  obtain ⟨base, pend, hat, hd, hpend⟩ := h
  have hpend' : ∀ y ∈ pend ++ [x], KeepsDirty y := by
    intro y hy
    rcases List.mem_append.mp hy with hy | hy
    · exact hpend y hy
    · rw [List.mem_singleton.mp hy]
      exact hx
  refine ⟨base, pend ++ [x], hat.emit (hat.reaches.write fun img' hset => hA _ ?_), hd, hpend'⟩
  exact hset.preserves (P := fun i => ¬ MarkedClean i) hd fun y hy i hi => (hpend' y hy).apply hi

theorem Guarded.flush (h : Guarded A boot w) : Settled A boot (w.emit [.flush]) := by
  obtain ⟨base, pend, hat, hd, hpend⟩ := h
  refine ⟨base.applyAll pend, hat.emit hat.reaches.flush, ?_⟩
  exact Image.applyAll_preserves (P := fun i => ¬ MarkedClean i) hd
    fun y hy i hi => (hpend y hy).apply hi

end Guarded

/-! ## 記録の途中 -/

/-- いまの記録が `fin` の途中なら `P`。 -/
def Until (fin : List WorldEvent) (P : World → Prop) (w : World) : Prop := w.trace <+: fin → P w

section Until

variable {A : Image → Prop} {boot : World} {fin : List WorldEvent} {α : Type}

theorem Until.mono {P Q : World → Prop} {w : World} (h : Until fin P w) (hPQ : ∀ w, P w → Q w) :
    Until fin Q w := fun hpre => hPQ w (h hpre)

/-- device を読む計算。読んだ値については、記録の途中の状態から言えることを持ち越す。 -/
theorem until_device {I : World → Prop} {f : Disk → Result α} {p : α → Prop}
    (hI : ∀ w, I w → Guarded A boot w)
    (hf : ∀ pre, pre <+: fin → ∀ a, f (boot.disk.emit (devEvents pre)) = .ok a → p a) :
    Triple (Until fin I) (device f) (fun a => Until fin fun w => I w ∧ p a)
      (Until fin (Guarded A boot)) := by
  refine Triple.reading (fun w a h ha hpre => ⟨h hpre, ?_⟩) fun w h => h.mono hI
  refine hf _ hpre a ?_
  rw [← (hI w (h hpre)).disk]
  exact ha

/-- 読んだ値を問わないとき。 -/
theorem until_read {I : World → Prop} {f : Disk → Result α} (hI : ∀ w, I w → Guarded A boot w) :
    Triple (Until fin I) (device f) (fun _ => Until fin I) (Until fin (Guarded A boot)) :=
  Triple.reading (fun _ _ h _ => h) fun _ h => h.mono hI

theorem until_write (hA : ∀ img, ¬ MarkedClean img → A img) {off : Nat} {bytes : Bytes} {p : Prop} :
    Triple (Until fin fun w => Guarded A boot w ∧ KeepsDirty ⟨off, bytes⟩ ∧ p) (write off bytes)
      (fun _ => Until fin fun w => Guarded A boot w ∧ p) (Until fin (Guarded A boot)) := by
  refine Triple.stepping (fun w w' h hw => ?_) fun w h => h.mono fun _ hw => hw.1
  obtain ⟨d, hd, hw'⟩ := Result.bind_eq_ok hw
  obtain ⟨-, -, rfl⟩ := Disk.writeExact_eq_ok_iff.mp hd
  cases hw'
  intro hpre
  obtain ⟨hg, hk, hp⟩ := h ((List.prefix_append _ _).trans hpre)
  exact ⟨hg.write hA hk, hp⟩

theorem until_flush : Triple (Until fin (Guarded A boot)) flush
    (fun _ => Until fin (Settled A boot)) (Until fin (Guarded A boot)) := by
  refine Triple.stepping (fun w w' h hw => ?_) fun w h => h
  obtain ⟨d, hd, hw'⟩ := Result.bind_eq_ok hw
  cases hd
  cases hw'
  exact fun hpre => (h ((List.prefix_append _ _).trans hpre)).flush

theorem until_journalOp {op : JournalOp} : Triple (Until fin (Settled A boot)) (journalOp op)
    (fun _ => Until fin (Settled A boot)) (Until fin (Guarded A boot)) := by
  refine Triple.stepping (fun w w' h hw => ?_) fun w h => h.mono fun _ => Settled.guarded
  cases hj : w.journal with
  | none =>
    rw [hj] at hw
    cases hw
  | some j =>
    rw [hj] at hw
    obtain ⟨j', -, hw'⟩ := Result.bind_eq_ok hw
    cases hw'
    intro hpre
    obtain ⟨base, hat, hd⟩ := h ((List.prefix_append _ _).trans hpre)
    exact ⟨base, hat.journal (devEvents_map_journal _ _), hd⟩

end Until

/-- 記録の伸びる手続きの前後条件は、記録の途中でも成り立つ。 -/
theorem Until.lift {fin : List WorldEvent} {α : Type} {p : EngineM α} {P E : World → Prop}
    {Q : α → World → Prop} (hgrow : ∀ t, Keeps (StartsWith t) p) (h : Triple P p Q E) :
    Triple (Until fin P) p (fun a => Until fin (Q a)) (Until fin E) := by
  intro w hw
  constructor
  · intro a w' hr hpre
    have := (hgrow w.trace).ok List.prefix_rfl hr
    exact h.ok (hw (this.trans hpre)) hr
  · intro e w' hr hpre
    have := (hgrow w.trace).error List.prefix_rfl hr
    exact h.error (hw (this.trans hpre)) hr

/-! ## superblock とその写し -/

section SuperCopies

variable {A : Image → Prop} {boot : World} {base : Image} {ctx : MetadataContext} {primary : Bytes}
  (ha : ctx.sb.Accepted boot.disk.sizeBytes) (hroom : 2048 ≤ boot.disk.sizeBytes)
  (hlen : primary.length = 1024)
include ha hroom hlen

/-- 写しのどの部分が残っても `A` が成り立つなら、`write_super_copies` は `A` を破らない。 -/
theorem triple_superCopies (hA : ∀ us img', (∀ u ∈ us, u ∈ superCopies ctx primary) →
    Settle (Atomic base) base us img' → A img') :
    Triple (At A boot base []) (writeSuperCopies ctx primary)
      (fun _ => At A boot (base.applyAll (superCopies ctx primary)) []) (At A boot base []) := by
  intro w hw
  have hsize := hw.sizeBytes
  cases hwr : w.disk.writable with
  | false =>
    obtain ⟨e, he⟩ := @run_writeSuperCopies_readonly ctx primary _ hwr
    rw [he]
    constructor
    · intro a w' h
      cases h
    · intro e' w' h
      cases h
      exact hw
  | true =>
    rw [run_writeSuperCopies (by rw [hsize]; exact ha) (by rw [hsize]; exact hroom) hlen hwr]
    constructor
    · intro a w' h
      cases h
      have hr := (@Reaches.writes _ _ _ (superCopies ctx primary) _ _ hw.reaches hA).flush
      rw [List.append_assoc, List.nil_append] at hr
      exact hw.emit hr
    · intro e w' h
      cases h

/-- はじめの印。印のほかは呼び出しの前のままで、書き終えれば dirty である。 -/
theorem triple_beginMark {copies : List Nat} (hcopies : superOffsets ctx.sb primary = copies)
    (hA : ∀ img, AsBefore copies boot.disk.data img → A img)
    (hfields : ∀ i < 1024, ¬ Stamp i → primary[i]? = some (boot.disk.data (1024 + i)))
    (hstate : readLe 2 primary 0x3a &&& 1 = 0) :
    Triple (At A boot boot.disk.data []) (writeSuperCopies ctx primary) (fun _ => Settled A boot)
      (At A boot boot.disk.data []) := by
  have hal : ∀ o ∈ copies, 1024 ∣ o := fun o ho => dvd_of_mem_superOffsets ha (hcopies ▸ ho)
  have hrefresh := @refresh_superCopies ctx _ _ (fun i => boot.disk.data (1024 + i)) hlen
    hcopies hfields
  refine (triple_superCopies ha hroom hlen fun us img' hus hset => hA img' ?_).mono (fun _ h => h)
    (fun _ w hw => ⟨_, hw, ?_⟩) fun _ h => h
  · exact hset.preserves (asBefore_refl copies _) fun u hu i hi =>
      hi.apply hal (hrefresh u (hus u hu))
  · exact not_markedClean_superCopies ha boot.disk.size_lt hlen hstate _

/-- dirty のままの書き直し。書き終えれば、どの写しも `primary` の欄を持つ。 -/
theorem triple_rewriteMark (hA : ∀ img, ¬ MarkedClean img → A img)
    (hstate : readLe 2 primary 0x3a &&& 1 = 0) :
    Triple (Settled A boot) (writeSuperCopies ctx primary)
      (fun _ w => Settled A boot w ∧ ∀ o ∈ superOffsets ctx.sb primary, ∀ i < 1024, ¬ Stamp i →
        primary[i]? = some (w.disk.data (o + i))) (Guarded A boot) := by
  have hsize := boot.disk.size_lt
  have hkeep := keepsDirty_superCopies ha hsize hlen hstate
  rintro w ⟨base, hat, hd⟩
  have htriple := @triple_superCopies A _ base _ _ ha hroom hlen fun us img' hus hset =>
    hA img' (hset.preserves (P := fun i => ¬ MarkedClean i) hd
      fun u hu i hi => (hkeep u (hus u hu)).apply hi)
  refine (htriple.mono (fun _ h => h) (fun _ w' hw' => ⟨⟨_, hw', ?_⟩, ?_⟩)
    fun _ hw' => Settled.guarded ⟨base, hw', hd⟩) w hat
  · exact not_markedClean_superCopies ha hsize hlen hstate _
  · intro o ho i hi hs
    obtain ⟨b, hb⟩ : ∃ b, primary[i]? = some b := ⟨_, List.getElem?_eq_getElem (by omega)⟩
    have hrefresh := @refresh_superCopies ctx _ _ (fun i => primary.getD i 0) hlen rfl
      fun i hi _ => by
        rw [List.getD_eq_getElem?_getD, List.getElem?_eq_getElem (by omega)]
        rfl
    rw [hw'.data, Image.applyAll_nil, applyAll_refresh (fun o ho => dvd_of_mem_superOffsets ha ho)
      base hrefresh (exists_superCopies ha hsize hlen ho) ho hi hs, List.getD_eq_getElem?_getD, hb]
    rfl

/-- 検証の後の印。印のほかは検証したときのままである。 -/
theorem triple_endMark {copies : List Nat} {v : Image}
    (hcopies : superOffsets ctx.sb primary = copies)
    (hA : ∀ img, SameMetadata copies v img → A img)
    (hfields : ∀ o ∈ copies, ∀ i < 1024, ¬ Stamp i → primary[i]? = some (v (o + i))) :
    Triple (At A boot v []) (writeSuperCopies ctx primary) (fun _ w => ∃ v', At A boot v' [] w)
      (fun w => ∃ v', At A boot v' [] w) := by
  have hal : ∀ o ∈ copies, 1024 ∣ o := fun o ho => dvd_of_mem_superOffsets ha (hcopies ▸ ho)
  refine (triple_superCopies ha hroom hlen fun us img' hus hset => hA img' ?_).mono (fun _ h => h)
    (fun _ w hw => ⟨_, hw⟩) fun _ hw => ⟨_, hw⟩
  refine hset.preserves (sameMetadata_refl copies v) fun u hu i hi => hi.apply hal ?_
  obtain ⟨hoff, hsame, -⟩ := superCopies_spec (hus u hu)
  rw [hcopies] at hoff
  refine ⟨hoff, hsame.1.trans hlen, fun k hk hs => ?_⟩
  rw [hsame.2 k hs]
  exact hfields _ hoff k hk hs

end SuperCopies

/-! ## 末尾の group -/

/-- descriptor table は superblock より後ろにある。 -/
theorem Superblock.Accepted.tableOffset_ge {size : Nat} {sb : Superblock} (ha : sb.Accepted size) :
    2048 ≤ sb.tableOffset := by
  have hge := ha.blockSize_ge
  obtain ⟨k, hk⟩ := ha.dvd_blockSize
  unfold Superblock.tableOffset
  split <;> omega

section Tail

variable {A : Image → Prop} {boot : World} {fin : List WorldEvent} {ctx : MetadataContext}
  (hA : ∀ img, ¬ MarkedClean img → A img) (ha : ctx.sb.Accepted boot.disk.sizeBytes)

include ha in
theorem backupDescAddress_ge {descGroup g addr : Nat} (h0 : 0 < g) (hg : g < ctx.sb.groupsCount)
    (h : backupDescAddress ctx descGroup g = .ok addr) : 2048 ≤ addr := by
  have hback := ha.backup_ge boot.disk.size_lt h0 hg
  have hge := ha.blockSize_ge
  unfold backupDescAddress at h
  simp only [Result.guard_bind_eq_ok_iff, Result.pure_eq_ok_iff] at h
  obtain ⟨-, -, rfl⟩ := h
  rw [Nat.succ_mul]
  omega

include hA ha

theorem until_writeBackupDescs {super desc : Bytes} {descGroup : Nat} : ∀ n g, 0 < g →
    g + n ≤ ctx.sb.groupsCount →
    Triple (Until fin (Guarded A boot)) (writeBackupDescs ctx super descGroup desc n g)
      (fun _ => Until fin (Guarded A boot)) (Until fin (Guarded A boot))
  | 0, _, _, _ => Triple.pure fun _ h => h
  | n + 1, g, h0, hg => by
    have hrest := @until_writeBackupDescs super desc descGroup
      n (g + 1) (by omega) (by omega)
    refine Triple.ite (fun _ => ?_) fun _ => hrest
    refine Triple.bind (until_device (p := fun addr => KeepsDirty ⟨addr, desc⟩) (fun _ h => h)
      fun _ _ addr haddr => ?_) fun addr => ?_
    · exact Or.inl (Or.inr (backupDescAddress_ge ha h0 (by omega) haddr))
    · refine Triple.bind ((until_write (p := True) hA).mono (fun w h => ?_) (fun _ w h => ?_)
        fun _ h => h) fun _ => hrest
      · exact h.mono fun _ hw => ⟨hw.1, hw.2, trivial⟩
      · exact h.mono fun _ hw => hw.1

/-- 末尾の group の bitmap と descriptor、その写しを書いて flush するところ。 -/
theorem until_writeTail {raw : Bytes} {u : Write × Write} :
    Triple (Until fin fun w => Guarded A boot w ∧ KeepsDirty u.1 ∧ KeepsDirty u.2)
      (do
        write u.1.off u.1.bytes
        write u.2.off u.2.bytes
        writeGroupDescBackups ctx raw (ctx.sb.groupsCount - 1) u.2.bytes
        flush)
      (fun _ => Until fin (Settled A boot)) (Until fin (Guarded A boot)) := by
  have hpos := Nat.pos_of_ne_zero ha.groups_pos
  refine Triple.bind (until_write (p := KeepsDirty u.2) hA) fun _ => ?_
  refine Triple.bind (R := fun _ => Until fin (Guarded A boot)) ?_ fun _ => ?_
  · refine (until_write (p := True) hA).mono (fun w h => ?_) (fun _ w h => ?_) fun _ h => h
    · exact h.mono fun _ hw => ⟨hw.1, hw.2, trivial⟩
    · exact h.mono fun _ hw => hw.1
  · refine Triple.bind ?_ fun _ => until_flush
    refine Triple.guard (fun _ h => h) fun _ => Triple.guard (fun _ h => h) fun _ => ?_
    exact until_writeBackupDescs hA ha _ _ (by omega) (by omega)

end Tail

end Fsx.Ext4
