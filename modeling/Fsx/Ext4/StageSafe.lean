import Mathlib.Data.List.TakeWhile
import Fsx.Ext4.CleanImage
import Fsx.Ext4.Jobs

/-!
# 写しの段が書く場所

どの予定で走らせても、`stage_relocation` は計画の行き先にしか書かず、
終わったときに写した行き先は元と等しい。

行き先どうし、元と行き先は重ならない（`Owners.lean`）ので、仕事の不変条件
「行き先の前半は元の前半と等しい」はほかの仕事の一歩で壊れない。鍵は要らない。
-/

namespace Fsx.Ext4

open Engine Proc

/-! ## 行き先の範囲 -/

/-- 書き込みが移動の行き先に収まる。 -/
def OwnerMove.Within (bs : Nat) (m : OwnerMove) (x : Write) : Prop :=
  m.destinationBlock * bs ≤ x.off ∧
    x.off + x.bytes.length ≤ m.destinationBlock * bs + m.blockCount * bs

/-- byte 番地が、移動の行き先の外にある。 -/
def OwnerMove.Outside (bs : Nat) (m : OwnerMove) (i : Nat) : Prop :=
  i < m.destinationBlock * bs ∨ m.destinationBlock * bs + m.blockCount * bs ≤ i

/-- 行き先の内容が、像 `base` の元の内容と等しい。unwritten の移動は問わない。 -/
def Copied (base img : Image) (bs : Nat) (m : OwnerMove) : Prop :=
  m.unwritten = false → img.read (m.destinationBlock * bs) (m.blockCount * bs) =
    base.read (m.sourceBlock * bs) (m.blockCount * bs)

/-- 重ならない block の区間は、byte の区間としても重ならない。 -/
theorem Apart.bytes {a n b m : Nat} (h : Apart a n b m) (bs : Nat) :
    Apart (a * bs) (n * bs) (b * bs) (m * bs) := by
  unfold Apart at h ⊢
  rw [← Nat.add_mul, ← Nat.add_mul]
  rcases h with h | h
  · exact Or.inl (Nat.mul_le_mul_right bs h)
  · exact Or.inr (Nat.mul_le_mul_right bs h)

/-- 行き先の外の書き込みは、行き先の内容を変えない。 -/
theorem read_apply_of_apart {bs : Nat} {m n : OwnerMove} {x : Write} (h : m.ApartDst n)
    (hx : m.Within bs x) (img : Image) {len : Nat} (hlen : len ≤ n.blockCount * bs) :
    (img.apply x).read (n.destinationBlock * bs) len = img.read (n.destinationBlock * bs) len := by
  have hb := Apart.bytes h bs
  unfold Apart at hb
  obtain ⟨h1, h2⟩ := hx
  exact Image.read_write_of_disjoint (by omega)

/-! ## 仕事の不変条件 -/

section Job

variable (base : Image) (bs : Nat) (m : OwnerMove)

/-- 仕事の範囲は移動のものである。 -/
structure JobRange (j : CopyJob) : Prop where
  written : m.unwritten = false
  src : j.src = m.sourceBlock * bs
  dst : j.dst = m.destinationBlock * bs
  total : j.total = m.blockCount * bs

/-- 先頭の `pos` byte を写し終えていて、その CRC が `crc` である。 -/
structure CopiedTo (img : Image) (pos : Nat) (crc : UInt32) : Prop where
  same : img.read (m.destinationBlock * bs) pos = base.read (m.sourceBlock * bs) pos
  crc_eq : crc = crc32c (base.read (m.sourceBlock * bs) pos) crcInit

/-- 仕事の不変条件。 -/
def JobInv (img : Image) (j : CopyJob) : Prop :=
  match j.state with
  | .ended (.error _) => True
  | .ended (.ok (crc, n)) => Copied base img bs m ∧ crc = stagedCrc img bs m ∧
      n = if m.unwritten then 0 else m.blockCount * bs
  | .ready left crc => JobRange bs m j ∧ ∃ pos, Tiles left pos (m.blockCount * bs) ∧
      CopiedTo base bs m img pos crc
  | .holding pos span left crc => JobRange bs m j ∧ Tiles left (pos + span.length) (m.blockCount * bs) ∧
      span = base.read (m.sourceBlock * bs + pos) span.length ∧
      img.read (m.destinationBlock * bs) pos = base.read (m.sourceBlock * bs) pos ∧
      crc = crc32c (base.read (m.sourceBlock * bs) (pos + span.length)) crcInit

end Job

section Steps

variable {base : Image} {bs : Nat} {m : OwnerMove} {j : CopyJob}

/-- 仕事の不変条件は、行き先の内容だけを見る。 -/
theorem JobInv.congr {img img' : Image} (h : JobInv base bs m img j)
    (hsame : ∀ len ≤ m.blockCount * bs, img'.read (m.destinationBlock * bs) len =
      img.read (m.destinationBlock * bs) len) : JobInv base bs m img' j := by
  obtain ⟨src, dst, total, state⟩ := j
  cases state with
  | ended r =>
    cases r with
    | error e => trivial
    | ok c =>
      obtain ⟨h1, h2, h3⟩ := h
      refine ⟨fun hw => ?_, ?_, h3⟩
      · rw [hsame _ (le_refl _)]
        exact h1 hw
      · rw [h2]
        unfold stagedCrc
        rw [hsame _ (le_refl _)]
  | ready left crc =>
    obtain ⟨hr, pos, htiles, hcopied⟩ := h
    refine ⟨hr, pos, htiles, ?_, hcopied.crc_eq⟩
    rw [hsame _ htiles.le]
    exact hcopied.same
  | holding pos span left crc =>
    obtain ⟨hr, htiles, hspan, hdst, hcrc⟩ := h
    refine ⟨hr, htiles, hspan, ?_, hcrc⟩
    rw [hsame _ ((Nat.le_add_right _ _).trans htiles.le)]
    exact hdst

/-- 始めたばかりの仕事。 -/
theorem JobInv.start {d : Disk} {chunk : Nat} (hs : RangeIn d bs m.sourceBlock m.blockCount)
    (hd : RangeIn d bs m.destinationBlock m.blockCount) (img : Image) :
    JobInv base bs m img (CopyJob.start d bs chunk m) := by
  unfold CopyJob.start
  cases hu : m.unwritten with
  | true =>
    rw [if_pos rfl]
    refine ⟨fun hw => (by rw [hu] at hw; cases hw), ?_, by rw [hu, if_pos rfl]⟩
    unfold stagedCrc
    rw [hu, if_pos rfl]
  | false =>
    rw [if_neg Bool.false_ne_true, byteRange_eq hs, byteRange_eq hd]
    have hpos := hs.bs_pos
    have htiles := @tiles_chunks (max bs chunk) (by omega) (m.blockCount * bs) 0 (m.blockCount * bs)
      (le_refl _)
    rw [Nat.zero_add] at htiles
    exact ⟨⟨hu, rfl, rfl, rfl⟩, 0, htiles, rfl, rfl⟩

/-- 写し終えた範囲を、続く chunk の分だけ伸ばす。 -/
theorem CopiedTo.extend {img : Image} {pos : Nat} {span : Bytes}
    (hdst : img.read (m.destinationBlock * bs) pos = base.read (m.sourceBlock * bs) pos)
    (hspan : span = base.read (m.sourceBlock * bs + pos) span.length) :
    (img.apply ⟨m.destinationBlock * bs + pos, span⟩).read (m.destinationBlock * bs)
      (pos + span.length) = base.read (m.sourceBlock * bs) (pos + span.length) := by
  rw [Image.read_append, Image.read_append]
  have hleft : (img.apply ⟨m.destinationBlock * bs + pos, span⟩).read (m.destinationBlock * bs) pos =
      img.read (m.destinationBlock * bs) pos := Image.read_write_of_disjoint (Or.inl (le_refl _))
  have hright : (img.apply ⟨m.destinationBlock * bs + pos, span⟩).read
      (m.destinationBlock * bs + pos) span.length = span := Image.read_write_self _ _ _ rfl
  rw [hleft, hright, hdst, ← hspan]

/--
一歩は仕事の不変条件を保ち、書くとすれば移動の行き先の中である。
元の内容は、写し始めたときの像 `base` のままとする。
-/
theorem JobInv.advance {w : World} (h : JobInv base bs m w.disk.data j)
    (hsrc : ∀ o n, o + n ≤ m.blockCount * bs →
      w.disk.data.read (m.sourceBlock * bs + o) n = base.read (m.sourceBlock * bs + o) n) (f : Fate) :
    JobInv base bs m (j.advance f w).2.disk.data (j.advance f w).1 ∧
      ((j.advance f w).2 = w ∨ ∃ x, m.Within bs x ∧ (j.advance f w).2 = w.emit [.write x]) := by
  obtain ⟨src, dst, total, state⟩ := j
  unfold CopyJob.advance
  cases state with
  | ended r => exact ⟨h, Or.inl rfl⟩
  | ready left crc =>
    obtain ⟨hr, pos, htiles, hcopied⟩ := h
    cases left with
    | nil =>
      -- 写し終えた
      have hpos : pos = m.blockCount * bs := htiles
      refine ⟨⟨fun _ => hpos ▸ hcopied.same, ?_, ?_⟩, Or.inl rfl⟩
      · unfold stagedCrc crc32cFinal
        rw [hr.written, if_neg Bool.false_ne_true, ← hpos, hcopied.same, hcopied.crc_eq]
      · rw [hr.written, if_neg Bool.false_ne_true]
        exact hr.total
    | cons c left =>
      obtain ⟨p, n⟩ := c
      obtain ⟨rfl, hrest⟩ := htiles
      dsimp only
      split
      · exact ⟨trivial, Or.inl rfl⟩
      · split
        · exact ⟨trivial, Or.inl rfl⟩
        · cases hread : w.disk.readExact (src + p) n with
          | error e => exact ⟨trivial, Or.inl rfl⟩
          | ok span =>
            have hspan : span = base.read (m.sourceBlock * bs + p) n := by
              rw [(Disk.readExact_eq_ok_iff.mp hread).2, ← hsrc p n hrest.le, ← hr.src]
            have hlen : span.length = n := by rw [hspan, Image.length_read]
            refine ⟨⟨⟨hr.written, hr.src, hr.dst, hr.total⟩, ?_, ?_, hcopied.same, ?_⟩, Or.inl rfl⟩
            · rw [hlen]
              exact hrest
            · rw [hlen]
              exact hspan
            · rw [hlen, Image.read_append, crc32c_append, ← hcopied.crc_eq, ← hspan]
  | holding pos span left crc =>
    obtain ⟨hr, htiles, hspan, hdst, hcrc⟩ := h
    have hdst' : dst = m.destinationBlock * bs := hr.dst
    have hle := htiles.le
    dsimp only
    split
    · next k e hk =>
      -- 失敗するまでに書けた分も、chunk の中にある
      refine ⟨trivial, ?_⟩
      rcases run_write_cases w (dst + pos) (span.take k) with ⟨e', he⟩ | ⟨-, hok⟩
      · exact Or.inl (by rw [he])
      · refine Or.inr ⟨_, ⟨?_, ?_⟩, by rw [hok]⟩
        · dsimp only
          omega
        · have := List.length_take_le' k span
          dsimp only
          omega
    · rcases run_write_cases w (dst + pos) span with ⟨e, he⟩ | ⟨-, hok⟩
      · rw [he]
        exact ⟨trivial, Or.inl rfl⟩
      · rw [hok]
        refine ⟨⟨⟨hr.written, hr.src, hr.dst, hr.total⟩, pos + span.length, htiles, ?_, hcrc⟩,
          Or.inr ⟨_, ⟨?_, ?_⟩, rfl⟩⟩
        · rw [hdst']
          exact CopiedTo.extend hdst hspan
        · dsimp only
          omega
        · dsimp only
          omega

end Steps

/-! ## 世界の不変条件 -/

/-- 行き先の外は、もとの像のままである。書き込みはどれも行き先に収まる。 -/
structure Confined (V : Volume) (plan : OwnerRelocationPlan) (w : World) : Prop where
  size : w.disk.sizeBytes = V.disk.sizeBytes
  outside : ∀ i, (∀ m ∈ plan.moves, m.Outside V.bs i) → w.disk.data i = V.data i
  writes : ∀ x, WorldEvent.dev (.write x) ∈ w.trace → ∃ m ∈ plan.moves, m.Within V.bs x

section Confined

variable {V : Volume} {plan : OwnerRelocationPlan} {w : World}

/-- 行き先の中への書き込みは、行き先の外を変えない。 -/
theorem OwnerMove.Within.apply_outside {bs : Nat} {m : OwnerMove} {x : Write} (hx : m.Within bs x)
    {i : Nat} (hi : m.Outside bs i) (img : Image) : img.apply x i = img i := by
  unfold OwnerMove.Outside at hi
  obtain ⟨h1, h2⟩ := hx
  exact Image.write_apply_of_not_mem (by omega)

theorem Confined.write (h : Confined V plan w) {m : OwnerMove} (hm : m ∈ plan.moves) {x : Write}
    (hx : m.Within V.bs x) : Confined V plan (w.emit [.write x]) := by
  refine ⟨h.size, fun i hi => ?_, fun y hy => ?_⟩
  · have hdata : (w.emit [.write x]).disk.data i = w.disk.data.apply x i := rfl
    rw [hdata, hx.apply_outside (hi m hm)]
    exact h.outside i hi
  · rw [World.emit_trace, List.mem_append] at hy
    rcases hy with hy | hy
    · exact h.writes y hy
    · simp only [List.map_cons, List.map_nil, List.mem_singleton, WorldEvent.dev.injEq,
        Event.write.injEq] at hy
      rw [hy]
      exact ⟨m, hm, hx⟩

theorem Confined.flush (h : Confined V plan w) : Confined V plan (w.emit [.flush]) := by
  refine ⟨h.size, h.outside, fun y hy => ?_⟩
  rw [World.emit_trace, List.mem_append] at hy
  rcases hy with hy | hy
  · exact h.writes y hy
  · simp at hy

/-- journal への操作は device に触れない。 -/
theorem Confined.journal (h : Confined V plan w) {j : Option JournalFile} {es : List JournalFile} :
    Confined V plan { w with journal := j, trace := w.trace ++ es.map .journal } := by
  refine ⟨h.size, h.outside, fun y hy => ?_⟩
  rcases List.mem_append.mp hy with hy | hy
  · exact h.writes y hy
  · simp at hy

/-- 移動の範囲は device に収まる。 -/
theorem Confined.ranges (h : Confined V plan w) (hp : V.Plans plan) {m : OwnerMove} (hm : m ∈ plan.moves)
    (hsource : m.sourceBlock + m.blockCount ≤ V.sb.blocksCount) :
    RangeIn w.disk V.bs m.sourceBlock m.blockCount ∧
      RangeIn w.disk V.bs m.destinationBlock m.blockCount := by
  have hbs : 0 < V.bs := by have := V.accepted.blockSize_ge; show 0 < V.sb.blockSize; omega
  have hcount := (hp.shape.moves m hm).count_pos
  have hfit : ∀ {n}, n ≤ V.sb.blocksCount → n * V.bs ≤ w.disk.sizeBytes := fun {n} hn => by
    rw [h.size]
    exact (Nat.mul_le_mul_right _ hn).trans V.accepted.fits
  obtain ⟨hlast, -⟩ := hp.placed.free m hm (m.destinationBlock + m.blockCount - 1) (by omega) (by omega)
  have := hlast.2.1
  exact ⟨⟨hbs, hcount, hfit hsource⟩, ⟨hbs, hcount, hfit (by omega)⟩⟩

end Confined

/-! ## 元の範囲 -/

namespace Volume

variable {V : Volume} {plan : OwnerRelocationPlan}

/-- 移動の元は filesystem に収まる。 -/
theorem Consistent.source_fits (hc : V.Consistent) {m : OwnerMove} (hm : V.SourceOf m) :
    m.sourceBlock + m.blockCount ≤ V.sb.blocksCount := by
  rcases hm with ⟨-, ino, e, hlive, he, hs, hn, -⟩ | ⟨-, ino, t, hlive, ht, hs, hn, -⟩
  · have hb := (extent_bounds (hc.trees ino hlive).1 he).2.2.2
    rw [hs, hn]
    exact hb
  · have hb := (tree_bounds (hc.trees ino hlive).1 ht).2.2
    rw [hs, hn]
    exact hb

/-- 移動の元の byte は、どの行き先の外にもある。 -/
theorem Consistent.source_outside (hc : V.Consistent) (hp : V.Plans plan) {m n : OwnerMove}
    (hm : m ∈ plan.moves) (hn : n ∈ plan.moves) {i : Nat} (h1 : m.sourceBlock * V.bs ≤ i)
    (h2 : i < m.sourceBlock * V.bs + m.blockCount * V.bs) : n.Outside V.bs i := by
  have hb := (hc.source_apart hp hm hn).bytes V.bs
  unfold Apart at hb
  unfold OwnerMove.Outside
  omega

/-- 行き先の外が変わらなければ、元の内容も変わらない。 -/
theorem Consistent.read_source (hc : V.Consistent) (hp : V.Plans plan) {w : World}
    (hs : Confined V plan w) {m : OwnerMove} (hm : m ∈ plan.moves) {o n : Nat}
    (hle : o + n ≤ m.blockCount * V.bs) :
    w.disk.data.read (m.sourceBlock * V.bs + o) n = V.data.read (m.sourceBlock * V.bs + o) n :=
  Image.read_congr fun i h1 h2 => hs.outside i fun _ hn =>
    hc.source_outside hp hm hn (by omega) (by omega)

end Volume

/-! ## batch -/

/-- すべての仕事が成功して終わったときに限り、値の列が得られる。 -/
theorem gather_eq_ok : ∀ {jobs : List CopyJob} {cs : List (UInt32 × Nat)}, gather jobs = .ok cs →
    jobs.map CopyJob.state = cs.map fun c => .ended (.ok c)
  | [], cs, h => by
    cases h
    rfl
  | j :: rest, cs, h => by
    unfold gather at h
    split at h
    · next r hr =>
      obtain ⟨c, hc, h⟩ := Result.bind_eq_ok h
      obtain ⟨cs', hcs, h⟩ := Result.bind_eq_ok h
      cases h
      rw [List.map_cons, List.map_cons, hr, hc, gather_eq_ok hcs]
    · cases h

/-- 移動が写す byte 数。 -/
def OwnerMove.copyBytes (bs : Nat) (m : OwnerMove) : Nat := if m.unwritten then 0 else m.blockCount * bs

/-- batch の写し方が満たすべきこと。 -/
structure CopySpec (V : Volume) (plan : OwnerRelocationPlan)
    (copy : List OwnerMove → EngineM (List (UInt32 × Nat))) (batch : List OwnerMove) (w : World) :
    Prop where
  safe : Confined V plan (run (copy batch) w).2
  journal : (run (copy batch) w).2.journal = w.journal
  frame : ∀ i, (∀ m ∈ batch, m.Outside V.bs i) → (run (copy batch) w).2.disk.data i = w.disk.data i
  copied : ∀ cs, (run (copy batch) w).1 = .ok cs → ∀ m ∈ batch,
    Copied V.data (run (copy batch) w).2.disk.data V.bs m
  result : ∀ cs, (run (copy batch) w).1 = .ok cs → cs = batch.map fun m =>
    (stagedCrc (run (copy batch) w).2.disk.data V.bs m, m.copyBytes V.bs)

/-- **どの予定でも、batch の写しは行き先にだけ書き、成功すれば行き先は元と等しい。** -/
theorem copySpec_copyParallel {V : Volume} {plan : OwnerRelocationPlan} (hc : V.Consistent)
    (hp : V.Plans plan) (sched : List (Nat × Fate)) (chunk : Nat) {batch : List OwnerMove}
    (hsub : batch.Sublist plan.moves) {w : World} (hw : Confined V plan w) :
    CopySpec V plan (copyParallel sched V.bs chunk) batch w := by
  have hmem : ∀ {i m}, batch[i]? = some m → m ∈ batch := fun h => List.mem_of_getElem? h
  have hapart : ∀ {i k : Nat} {m n : OwnerMove}, batch[i]? = some m → batch[k]? = some n → k ≠ i →
      m.ApartDst n := by
    intro i k m n hi hk hne
    have hpair := List.pairwise_iff_getElem.mp (hp.placed.apart.sublist hsub)
    obtain ⟨hi', rfl⟩ := List.getElem?_eq_some_iff.mp hi
    obtain ⟨hk', rfl⟩ := List.getElem?_eq_some_iff.mp hk
    rcases Nat.lt_or_gt_of_ne hne with h | h
    · exact Apart.symm (hpair k i hk' hi' h)
    · exact hpair i k hi' hk' h
  -- 共有の不変条件と、仕事ごとの不変条件
  have hinv := @interleave_inv _ _ _ CopyJob.advance
    (fun s => Confined V plan s ∧ s.journal = w.journal ∧
      ∀ i, (∀ m ∈ batch, m.Outside V.bs i) → s.disk.data i = w.disk.data i)
    (fun i j s => ∃ m, batch[i]? = some m ∧ JobInv V.data V.bs m s.disk.data j)
    (fun f i j s hG hI => ?_) (sched ++ drain (batch.map (CopyJob.start w.disk V.bs chunk)))
    (batch.map (CopyJob.start w.disk V.bs chunk)) w ⟨hw, rfl, fun _ _ => rfl⟩
    fun i j hj => ?_
  · obtain ⟨⟨hsafe, hjournal, hframe⟩, hlen, hjobs⟩ := hinv
    rw [List.length_map] at hlen
    -- 成功して終わった仕事の不変条件を読む
    have hdone : ∀ cs, (run (copyParallel sched V.bs chunk batch) w).1 = .ok cs →
        cs.length = batch.length ∧ ∀ (i : Nat) (m : OwnerMove), batch[i]? = some m →
          Copied V.data (run (copyParallel sched V.bs chunk batch) w).2.disk.data V.bs m ∧
          cs[i]? = some (stagedCrc (run (copyParallel sched V.bs chunk batch) w).2.disk.data V.bs m,
            m.copyBytes V.bs) := by
      intro cs hcs
      have hstates := gather_eq_ok hcs
      have hlens := congrArg List.length hstates
      rw [List.length_map, List.length_map, hlen] at hlens
      refine ⟨hlens.symm, fun i m hm => ?_⟩
      have hi : i < batch.length := (List.getElem?_eq_some_iff.mp hm).1
      obtain ⟨j, hj⟩ : ∃ j, (interleave CopyJob.advance
          (sched ++ drain (batch.map (CopyJob.start w.disk V.bs chunk)))
          (batch.map (CopyJob.start w.disk V.bs chunk)) w).1[i]? = some j :=
        ⟨_, List.getElem?_eq_getElem (by rw [hlen]; exact hi)⟩
      obtain ⟨c, hc'⟩ : ∃ c, cs[i]? = some c := ⟨_, List.getElem?_eq_getElem (by omega)⟩
      have hstate : j.state = .ended (.ok c) := by
        have := congrArg (fun l => l[i]?) hstates
        simp only [List.getElem?_map] at this
        rw [hj, hc'] at this
        exact Option.some.inj this
      obtain ⟨n, hn, hinv⟩ := hjobs i j hj
      cases hm.symm.trans hn
      unfold JobInv at hinv
      rw [hstate] at hinv
      obtain ⟨h1, h2, h3⟩ := hinv
      exact ⟨h1, hc'.trans (congrArg some (Prod.ext h2 h3))⟩
    refine ⟨hsafe, hjournal, hframe, fun cs hcs m hm => ?_, fun cs hcs => List.ext_getElem? fun i => ?_⟩
    · obtain ⟨i, hi⟩ := List.getElem?_of_mem hm
      exact ((hdone cs hcs).2 i m hi).1
    · rw [List.getElem?_map]
      cases hi : batch[i]? with
      | some m => exact ((hdone cs hcs).2 i m hi).2
      | none =>
        rw [List.getElem?_eq_none_iff] at hi
        exact List.getElem?_eq_none_iff.mpr ((hdone cs hcs).1 ▸ hi)
  · obtain ⟨hsafe, hjournal, hframe⟩ := hG
    obtain ⟨m, hm, hjob⟩ := hI
    have hplan := hsub.subset (hmem hm)
    obtain ⟨hown, hstep⟩ := hjob.advance
      (fun o n hle => hc.read_source hp hsafe hplan hle) f
    rcases hstep with hsame | ⟨x, hx, hemit⟩
    · rw [hsame] at hown ⊢
      exact ⟨⟨hsafe, hjournal, hframe⟩, ⟨m, hm, hown⟩, fun k j' _ hk => hk⟩
    · rw [hemit] at hown ⊢
      refine ⟨⟨hsafe.write hplan hx, hjournal, fun b hb => ?_⟩, ⟨m, hm, hown⟩, ?_⟩
      · have hdata : (s.emit [.write x]).disk.data b = s.disk.data.apply x b := rfl
        rw [hdata, hx.apply_outside (hb m (hmem hm))]
        exact hframe b hb
      · rintro k j' hne ⟨n, hn, hk⟩
        exact ⟨n, hn, hk.congr fun len hlen => read_apply_of_apart (hapart hm hn hne) hx _ hlen⟩
  · rw [List.getElem?_map] at hj
    obtain ⟨m, hm, rfl⟩ := Option.map_eq_some_iff.mp hj
    have hplan := hsub.subset (hmem hm)
    obtain ⟨h1, h2⟩ := hw.ranges hp hplan (hc.source_fits (hp.sources m hplan))
    exact ⟨m, hm, JobInv.start h1 h2 _⟩

/-! ## batch のループ -/

section Loop

variable {V : Volume} {plan : OwnerRelocationPlan}

theorem keeps_confined_journalOp {op : JournalOp} : Keeps (Confined V plan) (journalOp op) := by
  refine Triple.stepping (fun w w' h hw => ?_) fun _ h => h
  cases hj : w.journal with
  | none =>
    rw [hj] at hw
    cases hw
  | some j =>
    rw [hj] at hw
    obtain ⟨j', -, hw'⟩ := Result.bind_eq_ok hw
    cases hw'
    have := @Confined.journal V plan w h (some j') ((op.states j.view).map fun v => { j with view := v })
    rwa [List.map_map] at this

/--
ループの途中。`skipped` は journal の記録を信じて写さないことにした transaction である。
-/
structure LoopInv (V : Volume) (plan : OwnerRelocationPlan) (skipped verified : List Nat)
    (w : World) : Prop where
  safe : Confined V plan w
  kept : ∀ m ∈ plan.moves, m.transactionId ∈ skipped → ∀ i, ¬ m.Outside V.bs i →
    w.disk.data i = V.data i
  settled : ∀ m ∈ plan.moves, m.transactionId ∈ verified → m.transactionId ∈ skipped ∨
    Copied V.data w.disk.data V.bs m
  trusted : ∀ t ∈ skipped, t ∈ verified

/-- device の像が変わらなければ、ループの不変条件は変わらない。 -/
theorem LoopInv.congr {skipped verified : List Nat} {w w' : World}
    (h : LoopInv V plan skipped verified w) (hs : Confined V plan w')
    (hdata : w'.disk.data = w.disk.data) : LoopInv V plan skipped verified w' :=
  ⟨hs, fun m hm ht i hi => by rw [hdata]; exact h.kept m hm ht i hi,
    fun m hm ht => by rw [hdata]; exact h.settled m hm ht, h.trusted⟩

theorem keeps_loopInv_journalOp {skipped verified : List Nat} {op : JournalOp} :
    Triple (LoopInv V plan skipped verified) (journalOp op)
      (fun _ => LoopInv V plan skipped verified) (Confined V plan) := by
  refine Triple.stepping (fun w w' h hw => ?_) fun _ h => h.safe
  have hs : Confined V plan w' := keeps_confined_journalOp.ok h.safe (run_stepping_ok hw)
  refine h.congr hs ?_
  cases hj : w.journal with
  | none =>
    rw [hj] at hw
    cases hw
  | some j =>
    rw [hj] at hw
    obtain ⟨j', -, hw'⟩ := Result.bind_eq_ok hw
    cases hw'
    rfl

/-- 別の移動の行き先は外にある。 -/
theorem outside_of_ne (hp : V.Plans plan) {m n : OwnerMove} (hm : m ∈ plan.moves)
    (hn : n ∈ plan.moves) (hne : m ≠ n) {i : Nat} (hi : ¬ m.Outside V.bs i) : n.Outside V.bs i := by
  have hb := Apart.bytes (hp.placed.apart.forall hm hn hne) V.bs
  unfold Apart at hb
  unfold OwnerMove.Outside at hi ⊢
  omega

/-- batch を写した後のループの不変条件。 -/
theorem LoopInv.copy (hp : V.Plans plan) {skipped verified : List Nat} {w : World}
    (h : LoopInv V plan skipped verified w) {copy : List OwnerMove → EngineM (List (UInt32 × Nat))}
    {batch : List OwnerMove} (hsub : batch.Sublist plan.moves)
    (hfresh : ∀ m ∈ batch, m.transactionId ∉ verified) (hspec : CopySpec V plan copy batch w)
    {cs : List (UInt32 × Nat)} {w' : World} (hrun : run (copy batch) w = (.ok cs, w')) :
    LoopInv V plan skipped (batch.map OwnerMove.transactionId ++ verified) w' := by
  have hout : (run (copy batch) w).2 = w' := by rw [hrun]
  obtain ⟨hsafe, -, hframe, hcopied, -⟩ := hspec
  rw [hout] at hsafe hframe
  have hsame : ∀ m ∈ plan.moves, m.transactionId ∈ verified → ∀ i, ¬ m.Outside V.bs i →
      w'.disk.data i = w.disk.data i := by
    intro m hm ht i hi
    refine hframe i fun n hn => outside_of_ne hp hm (hsub.subset hn) ?_ hi
    rintro rfl
    exact hfresh _ hn ht
  refine ⟨hsafe, fun m hm ht i hi => ?_, fun m hm ht => ?_,
    fun t ht => List.mem_append_right _ (h.trusted t ht)⟩
  · rw [hsame m hm (h.trusted _ ht) i hi]
    exact h.kept m hm ht i hi
  · rcases List.mem_append.mp ht with ht | ht
    · -- この batch で写した移動。番号の等しい移動は同じ移動である
      obtain ⟨n, hn, hid⟩ := List.mem_map.mp ht
      have hmn : n = m := by
        obtain ⟨i, hi⟩ := List.getElem?_of_mem (hsub.subset hn)
        obtain ⟨k, hk⟩ := List.getElem?_of_mem hm
        have h1 := hp.shape.numbered i n hi
        have h2 := hp.shape.numbered k m hk
        have : i = k := by omega
        subst this
        exact Option.some.inj (hi.symm.trans hk)
      have hc := hcopied cs (by rw [hrun]) n hn
      rw [hout, hmn] at hc
      exact Or.inr hc
    · refine (h.settled m hm ht).imp_right fun hc hw => ?_
      rw [← hc hw]
      refine Image.read_congr fun i h1 h2 => hsame m hm ht i ?_
      unfold OwnerMove.Outside
      omega

/-- ループを終えたとき。止められていなければ、どの移動も片付いている。 -/
def LoopDone (V : Volume) (plan : OwnerRelocationPlan) (skipped : List Nat) (r : StageReport)
    (w : World) : Prop :=
  r.complete = false ∧ ∃ verified, LoopInv V plan skipped verified w ∧
    (r.paused = false → ∀ m ∈ plan.moves, m.transactionId ∈ verified)

/-- batch のループ。 -/
theorem triple_stageLoopWith (hp : V.Plans plan)
    {copy : Nat → List OwnerMove → EngineM (List (UInt32 × Nat))}
    (hcopy : ∀ n batch w, batch.Sublist plan.moves → Confined V plan w →
      CopySpec V plan (copy n) batch w) {host : Host} {opts : StageOptions} {workers chunk : Nat}
    (hw : 0 < workers) {skipped : List Nat} : ∀ (fuel : Nat) (verified : List Nat)
    (ms : List OwnerMove) (report : StageReport), ms.Sublist plan.moves → ms.length ≤ fuel →
    (∀ m ∈ plan.moves, m ∈ ms ∨ m.transactionId ∈ verified) → report.complete = false →
    Triple (LoopInv V plan skipped verified)
      (stageLoopWith copy host opts plan workers chunk fuel verified ms report)
      (LoopDone V plan skipped) (Confined V plan)
  | 0, verified, ms, report, _, hlen, hcover, hcomp => by
    refine Triple.pure fun w h => ⟨hcomp, verified, h, fun _ m hm => ?_⟩
    rw [List.length_eq_zero_iff.mp (Nat.le_zero.mp hlen)] at hcover
    exact (hcover m hm).resolve_left List.not_mem_nil
  | fuel + 1, verified, ms, report, hsub, hlen, hcover, hcomp => by
    rw [stageLoopWith]
    -- 検証済みの先頭を飛ばした残り
    have hdrop : ∀ m ∈ plan.moves,
        m ∈ ms.dropWhile (fun m => decide (m.transactionId ∈ verified)) ∨
          m.transactionId ∈ verified := by
      intro m hm
      rcases hcover m hm with h | h
      · rw [← List.takeWhile_append_dropWhile (p := fun m => decide (m.transactionId ∈ verified))
          (l := ms)] at h
        rcases List.mem_append.mp h with h | h
        · have ht := List.mem_takeWhile_imp h
          exact Or.inr (of_decide_eq_true ht)
        · exact Or.inl h
      · exact Or.inr h
    have hrest : (ms.dropWhile fun m => decide (m.transactionId ∈ verified)).Sublist plan.moves :=
      (List.dropWhile_sublist _).trans hsub
    have hle : (ms.dropWhile fun m => decide (m.transactionId ∈ verified)).length ≤ fuel + 1 :=
      (List.dropWhile_sublist _).length_le.trans hlen
    have hhead : ∀ m rest, ms.dropWhile (fun m => decide (m.transactionId ∈ verified)) = m :: rest →
        m.transactionId ∉ verified := by
      intro m rest he ht
      have := List.head?_dropWhile_not (fun m : OwnerMove => decide (m.transactionId ∈ verified)) ms
      rw [he, List.head?_cons] at this
      exact of_decide_eq_false this ht
    generalize ms.dropWhile (fun m => decide (m.transactionId ∈ verified)) = rest at *
    dsimp only
    refine Triple.ite (fun h0 => Triple.pure fun w h => ?_) fun h0 => Triple.ite (fun _ => ?_) fun _ => ?_
    · refine ⟨hcomp, verified, h, fun _ m hm => ?_⟩
      rw [h0] at hdrop
      exact (hdrop m hm).resolve_left List.not_mem_nil
    · refine Triple.bind keeps_loopInv_journalOp fun _ => Triple.pure fun w h => ?_
      exact ⟨hcomp, verified, h, fun hpaused => (by cases hpaused)⟩
    · have htake := takeBatch_spec verified workers rest
      have hbatch := htake.batch.trans hrest
      refine Triple.bind (R := fun _ => LoopInv V plan skipped
        ((takeBatch verified workers rest).1.map OwnerMove.transactionId ++ verified)) ?_ fun copied => ?_
      · refine @triple_onError _ _ _ _ _ _ (Confined V plan) ?_ keeps_confined_journalOp
        intro w h
        refine ⟨fun cs w' hrun => h.copy hp hbatch htake.fresh (hcopy _ _ w hbatch h.safe) hrun,
          fun e w' hrun => ?_⟩
        have := (hcopy rest.length _ w hbatch h.safe).safe
        rwa [hrun] at this
      · refine Triple.bind (R := fun _ => LoopInv V plan skipped
          ((takeBatch verified workers rest).1.map OwnerMove.transactionId ++ verified)) ?_ fun _ =>
          Triple.bind (R := fun _ => LoopInv V plan skipped
            ((takeBatch verified workers rest).1.map OwnerMove.transactionId ++ verified)) ?_
            fun records => Triple.bind keeps_loopInv_journalOp fun _ => ?_
        · refine Triple.stepping (fun w w' h hr => ?_) fun _ h => h.safe
          cases hr
          exact h.congr h.safe.flush rfl
        · exact Triple.reading (fun _ _ h _ => h) fun _ h => h.safe
        · refine triple_stageLoopWith hp hcopy hw fuel _ _ _ (htake.rest.trans hrest) ?_ ?_ hcomp
          · obtain ⟨m, tl, rfl⟩ := List.exists_cons_of_ne_nil h0
            have := @length_takeBatch_lt verified workers m tl hw (hhead m tl rfl)
            omega
          · intro m hm
            rcases hdrop m hm with h | h
            · rcases htake.covers m h with h | h | h
              · exact Or.inr (List.mem_append_left _ (List.mem_map_of_mem h))
              · exact Or.inl h
              · exact Or.inr (List.mem_append_right _ h)
            · exact Or.inr (List.mem_append_right _ h)

end Loop

/-! ## journal を開く -/

/-- 検証の記録があり、行き先の CRC がその値のままなら、写さずに済ませる。 -/
def trusted (img : Image) (records : List JournalRecord) (bs : Nat) (m : OwnerMove) : Bool :=
  (lastRecord records .copyVerified m.transactionId).any fun r =>
    decide (stagedCrc img bs m = r.dataCrc32c)

/-- 移動一つ分の検査。 -/
theorem resumeMoves_cons_iff {d : Disk} {records : List JournalRecord} {bs chunk : Nat}
    {m : OwnerMove} {ms : List OwnerMove} {vs : List Nat}
    (hin : RangeIn d bs m.destinationBlock m.blockCount) :
    resumeMoves d records bs chunk (m :: ms) = .ok vs ↔
      (∃ r, lastRecord records .relocationIntent m.transactionId = some r ∧ sameGeometry r m = true) ∧
      ∃ others, resumeMoves d records bs chunk ms = .ok others ∧
        vs = (if trusted d.data records bs m = true then [m.transactionId] else []) ++ others := by
  have htail : ∀ here : List Nat, (do
      let others ← resumeMoves d records bs chunk ms
      return here ++ others) = .ok vs ↔
      ∃ others, resumeMoves d records bs chunk ms = .ok others ∧ vs = here ++ others := by
    intro here
    simp only [Result.bind_eq_ok_iff, Result.pure_eq_ok_iff]
  rw [resumeMoves]
  cases hi : lastRecord records .relocationIntent m.transactionId with
  | none =>
    constructor
    · intro h
      cases h
    · rintro ⟨⟨r, hr, -⟩, -⟩
      cases hr
  | some r =>
    dsimp only
    rw [Result.guard_bind_eq_ok_iff]
    have hgeo : (∃ x, some r = some x ∧ sameGeometry x m = true) ↔ ¬ sameGeometry r m = false := by
      simp only [Option.some.injEq, exists_eq_left', Bool.not_eq_false]
    rw [hgeo]
    refine and_congr_right fun _ => ?_
    unfold trusted
    cases hv : lastRecord records .copyVerified m.transactionId with
    | none =>
      dsimp only
      rw [pure_bind, htail]
      simp
    | some v =>
      dsimp only
      rw [verifyOne_eq hin, Result.ok_bind, pure_bind, htail]
      simp

/-- 再開のときに写さずに済ませるのは、記録を信じる移動である。 -/
theorem resumeMoves_eq {d : Disk} {records : List JournalRecord} {bs chunk : Nat} :
    ∀ {ms : List OwnerMove} {vs : List Nat},
      (∀ m ∈ ms, RangeIn d bs m.destinationBlock m.blockCount) →
      resumeMoves d records bs chunk ms = .ok vs →
      vs = (ms.filter (trusted d.data records bs)).map OwnerMove.transactionId
  | [], vs, _, h => by
    cases h
    rfl
  | m :: ms, vs, hin, h => by
    obtain ⟨-, others, hothers, rfl⟩ := (resumeMoves_cons_iff (hin m List.mem_cons_self)).mp h
    rw [resumeMoves_eq (fun x hx => hin x (List.mem_cons_of_mem _ hx)) hothers]
    cases ht : trusted d.data records bs m with
    | true =>
      rw [List.filter_cons_of_pos ht, if_pos rfl]
      rfl
    | false =>
      rw [List.filter_cons_of_neg (by rw [ht]; exact Bool.false_ne_true), if_neg Bool.false_ne_true]
      rfl

section Open

variable {V : Volume} {plan : OwnerRelocationPlan} {jhost : JournalHost} {fu : Uuid}

/-- まだ device に触れていない。 -/
def Untouched (V : Volume) (w : World) : Prop :=
  w.disk = V.disk ∧ ∀ x, WorldEvent.dev (.write x) ∉ w.trace

theorem Untouched.confined {w : World} (h : Untouched V w) : Confined V plan w :=
  ⟨by rw [h.1], fun _ _ => by rw [h.1], fun x hx => absurd hx (h.2 x)⟩

theorem Untouched.journal {w : World} (h : Untouched V w) {j : Option JournalFile}
    {es : List JournalFile} :
    Untouched V { w with journal := j, trace := w.trace ++ es.map .journal } := by
  refine ⟨h.1, fun x hx => ?_⟩
  rcases List.mem_append.mp hx with hx | hx
  · exact h.2 x hx
  · simp at hx

theorem keeps_untouched_journalOp {op : JournalOp} : Keeps (Untouched V) (journalOp op) := by
  refine Triple.stepping (fun w w' h hw => ?_) fun _ h => h
  cases hj : w.journal with
  | none =>
    rw [hj] at hw
    cases hw
  | some j =>
    rw [hj] at hw
    obtain ⟨j', -, hw'⟩ := Result.bind_eq_ok hw
    cases hw'
    have := @Untouched.journal V w h (some j') ((op.states j.view).map fun v => { j with view := v })
    rwa [List.map_map] at this

/-- 新しい journal を作って意図を残すまで、device には触れない。 -/
theorem keeps_untouched_startStage : Keeps (Untouched V) (startStage jhost fu plan) := by
  have hread : ∀ {α : Type} {f : Disk → Result α}, Keeps (Untouched V) (device f) :=
    Triple.reading (fun _ _ h _ => h) fun _ h => h
  unfold startStage
  refine Triple.bind hread fun _ => Triple.bind hread fun _ => Triple.bind ?_ fun _ =>
    Triple.bind hread fun _ => Triple.bind keeps_untouched_journalOp fun _ => keeps_untouched_journalOp
  refine Triple.stepping (fun w w' h hw => ?_) fun _ h => h
  simp only [Result.guard_bind_eq_ok_iff] at hw
  obtain ⟨_, -, hw⟩ := Result.bind_eq_ok hw.2
  cases hw
  exact @Untouched.journal V w h _ [_]

/-- 世界 `w` で journal を信じて写さずに済ませる transaction。 -/
def skippedIn (w : World) (plan : OwnerRelocationPlan) : List Nat :=
  match w.journal with
  | none => []
  | some j => (plan.moves.filter (trusted w.disk.data j.view.records plan.blockSize)).map
      OwnerMove.transactionId

/-- journal を開くまで、device には触れない。 -/
theorem keeps_untouched_openStage {chunk : Nat} :
    Keeps (Untouched V) (openStage jhost fu plan chunk) := by
  unfold openStage
  refine Triple.bind (R := fun _ => Untouched V) (Triple.get fun _ h => h) fun w => ?_
  cases w.journal with
  | none => exact Triple.bind keeps_untouched_startStage fun _ => Triple.pure fun _ h => h
  | some j =>
    exact Triple.bind (Triple.reading (fun _ _ h _ => h) fun _ h => h) fun _ =>
      Triple.reading (fun _ _ h _ => h) fun _ h => h

/-- 開いたときに写さずに済ませるもの。 -/
theorem openStage_skips (hp : V.Plans plan) {chunk : Nat} {vs : List Nat} {w w' : World}
    (hin : ∀ m ∈ plan.moves, RangeIn w.disk V.bs m.destinationBlock m.blockCount)
    (h : run (openStage jhost fu plan chunk) w = (.ok vs, w')) : vs = skippedIn w plan := by
  unfold openStage at h
  unfold skippedIn
  rw [run_bind_ok (run_get _)] at h
  cases hj : w.journal with
  | none =>
    rw [hj] at h
    obtain ⟨_, _, -, h⟩ := run_bind_eq_ok h
    cases h
    rfl
  | some j =>
    rw [hj] at h
    obtain ⟨_, w₁, hs, h⟩ := run_bind_eq_ok h
    obtain ⟨-, rfl⟩ := Prod.mk.inj hs
    obtain ⟨hr, -⟩ := Prod.mk.inj h
    unfold resumeStage at hr
    simp only [Result.guard_bind_eq_ok_iff] at hr
    refine resumeMoves_eq (fun m hm => ?_) hr.2.2
    rw [hp.blockSize]
    exact hin m hm

end Open

/-! ## 主な結果 -/

/-- journal を信じて写さずに済ませる移動は、どれも写しが元と等しい。 -/
def SkipsFaithful (w : World) (plan : OwnerRelocationPlan) : Prop :=
  ∀ m ∈ plan.moves, m.transactionId ∈ skippedIn w plan →
    Copied w.disk.data w.disk.data plan.blockSize m

/-- 写しの段を終えた世界。 -/
structure Staged (V : Volume) (plan : OwnerRelocationPlan) (skipped : List Nat) (r : StageReport)
    (w : World) : Prop where
  confined : Confined V plan w
  kept : r.complete = true → ∀ m ∈ plan.moves, m.transactionId ∈ skipped →
    ∀ i, ¬ m.Outside V.bs i → w.disk.data i = V.data i
  copied : r.complete = true → ∀ m ∈ plan.moves, m.transactionId ∈ skipped ∨
    Copied V.data w.disk.data V.bs m

/-- 並行に走る写しの段。 -/
theorem triple_stageRelocationIn {V : Volume} (hc : V.Consistent) {plan : OwnerRelocationPlan}
    (hp : V.Plans plan) (sched : Nat → List (Nat × Fate)) (host : Host) (jhost : JournalHost)
    (opts : StageOptions) (j : Option JournalFile) :
    Triple (fun w => w = ⟨V.disk, j, []⟩) (stageRelocationIn sched host jhost plan opts)
      (Staged V plan (skippedIn ⟨V.disk, j, []⟩ plan)) (Confined V plan) := by
  have hstart : Untouched V ⟨V.disk, j, []⟩ := ⟨rfl, fun x hx => (by cases hx)⟩
  have hfail : ∀ w : World, w = ⟨V.disk, j, []⟩ → Confined V plan w := by
    rintro w rfl
    exact hstart.confined
  have hread : ∀ {α : Type} {f : Disk → Result α}, Triple (fun w => w = ⟨V.disk, j, []⟩) (device f)
      (fun _ w => w = ⟨V.disk, j, []⟩) (Confined V plan) :=
    Triple.reading (fun _ _ h _ => h) hfail
  unfold stageRelocationIn stageRelocationWith
  refine Triple.guard hfail fun _ => Triple.bind hread fun _ => Triple.ite (fun h0 => ?_) fun _ =>
    Triple.bind hread fun _ => Triple.bind hread fun _ => Triple.bind hread fun prof => ?_
  · refine Triple.pure fun w hw => ⟨hfail w hw, fun _ m hm => ?_, fun _ m hm => ?_⟩
    · rw [h0] at hm
      cases hm
    · rw [h0] at hm
      cases hm
  · refine Triple.bind (R := fun vs w => Untouched V w ∧ vs = skippedIn ⟨V.disk, j, []⟩ plan)
      ?_ fun vs => ?_
    · rintro w rfl
      refine ⟨fun vs w' hr => ⟨keeps_untouched_openStage.ok hstart hr, openStage_skips hp ?_ hr⟩,
        fun e w' hr => (keeps_untouched_openStage.error hstart hr).confined⟩
      exact fun m hm => (hstart.confined.ranges hp hm (hc.source_fits (hp.sources m hm))).2
    · rintro w ⟨hw, rfl⟩
      -- 写さずに済ませるものだけが検証済みである
      have hloop : LoopInv V plan (skippedIn ⟨V.disk, j, []⟩ plan)
          (skippedIn ⟨V.disk, j, []⟩ plan) w :=
        ⟨hw.confined, fun m _ _ i _ => by rw [hw.1], fun m _ ht => Or.inl ht, fun t ht => ht⟩
      refine Triple.bind (triple_stageLoopWith hp (fun n batch w' hsub hw' => ?_)
        (Nat.lt_of_lt_of_le Nat.one_pos (Nat.le_max_left 1 prof.workers)) plan.moves.length _
        plan.moves _ (List.Sublist.refl _) (le_refl _) (fun m hm => Or.inl hm) rfl)
        (fun report => ?_) w hloop
      · rw [hp.blockSize]
        exact copySpec_copyParallel hc hp (sched n) _ hsub hw'
      · refine Triple.ite (fun hpaused => Triple.pure fun w' h => ?_) fun hpaused => ?_
        · obtain ⟨hcomp, verified, hinv, -⟩ := h
          refine ⟨hinv.safe, fun h => ?_, fun h => ?_⟩ <;> rw [hcomp] at h <;> cases h
        · refine Triple.bind (R := fun _ => LoopDone V plan (skippedIn ⟨V.disk, j, []⟩ plan) report)
            ?_ fun _ => Triple.pure fun w' h => ?_
          · intro w' h
            obtain ⟨hcomp, verified, hinv, hall⟩ := h
            exact ⟨fun _ w'' hr => ⟨hcomp, verified, keeps_loopInv_journalOp.ok hinv hr, hall⟩,
              fun e w'' hr => keeps_loopInv_journalOp.error hinv hr⟩
          · obtain ⟨-, verified, hinv, hall⟩ := h
            refine ⟨hinv.safe, fun _ => hinv.kept, fun _ m hm => hinv.settled m hm ?_⟩
            exact hall (by simpa using hpaused) m hm

/--
**どの予定で走らせても、写しの段は計画の行き先にしか書かない。**
行き先は bitmap が空きとする、target より下の block である。
終わったと報告したとき、すべての行き先が元と等しいのは、journal を信じて写さなかった移動について
はじめからそうであるとき、そのときに限る。
-/
theorem staging_confined (V : Volume) (hc : V.Consistent) {planHost : Host} {target : Nat}
    {plan : OwnerRelocationPlan} (hplan : buildOwnerRelocationPlan planHost V.disk target = .ok plan)
    (sched : Nat → List (Nat × Fate)) (host : Host) (jhost : JournalHost) (opts : StageOptions)
    (j : Option JournalFile) {result : Result StageReport} {w : World}
    (hrun : run (stageRelocationIn sched host jhost plan opts) ⟨V.disk, j, []⟩ = (result, w)) :
    (∀ x, WorldEvent.dev (.write x) ∈ w.trace → ∃ m ∈ plan.moves, m.Within plan.blockSize x) ∧
    (∀ m ∈ plan.moves, ∀ b, m.destinationBlock ≤ b → b < m.destinationBlock + m.blockCount →
      V.Vacant b ∧ b < plan.targetBlocks) ∧
    ∀ report, result = .ok report → report.complete = true →
      ((∀ m ∈ plan.moves, Copied w.disk.data w.disk.data plan.blockSize m) ↔
        SkipsFaithful ⟨V.disk, j, []⟩ plan) := by
  have hp := Volume.plans_of_build hc.inodes hplan
  have htriple := triple_stageRelocationIn hc hp sched host jhost opts j
  have hconf : Confined V plan w := by
    cases result with
    | ok report => exact (htriple.ok rfl hrun).confined
    | error e => exact htriple.error rfl hrun
  refine ⟨?_, hp.placed.free, fun report hok hcomp => ?_⟩
  · rw [hp.blockSize]
    exact hconf.writes
  · subst hok
    have hstaged := htriple.ok rfl hrun
    -- 元はどれも変わっていない
    have hsame : ∀ m ∈ plan.moves, (Copied w.disk.data w.disk.data V.bs m ↔
        Copied V.data w.disk.data V.bs m) := by
      intro m hm
      have hsrc := hc.read_source hp hconf hm (o := 0) (n := m.blockCount * V.bs) (by omega)
      rw [Nat.add_zero] at hsrc
      unfold Copied
      rw [hsrc]
    unfold SkipsFaithful
    rw [hp.blockSize]
    constructor
    · intro hall m hm ht hw
      rw [← (hsame m hm).mp (hall m hm) hw]
      refine Image.read_congr fun i h1 h2 => (hstaged.kept hcomp m hm ht i ?_).symm
      unfold OwnerMove.Outside
      omega
    · intro hskip m hm
      refine (hsame m hm).mpr ?_
      rcases hstaged.copied hcomp m hm with ht | hcopied
      · intro hw
        rw [← hskip m hm ht hw]
        refine Image.read_congr fun i h1 h2 => hstaged.kept hcomp m hm ht i ?_
        unfold OwnerMove.Outside
        omega
      · exact hcopied

namespace Tiny

/-! ## 小さな filesystem -/

/-- block 12 の先頭だけが 1 の像。 -/
def filled : Image := image 1 [1]

theorem exists_filled : ∃ V : Volume, V.disk = disk filled ∧ V.bs = 2048 ∧ V.Consistent :=
  exists_consistent (by decide +kernel)

theorem build_filled : buildOwnerRelocationPlan host (disk filled) 20480 = .ok (plan false) := by
  decide +kernel

/-- 行き先の読み戻しを省いて写す。 -/
def fastOptions : StageOptions := { stageOptions with verifyAfterWrite := false }

/-- 写した後に file の先頭の byte が書き換えられた世界。 -/
def staleWorld : World := ⟨disk filled, some stagedJournal, []⟩

/-- 検証の記録は、移動に一つずつある。 -/
theorem lastRecord_staged (crc : UInt32) :
    lastRecord ((plan false).moves.map (moveRecord .relocationIntent) ++
      (plan false).moves.map fun m => verifiedRecord m crc) .copyVerified 1 =
      some (verifiedRecord ((plan false).moves.headD .blank) crc) := rfl

/-- 行き先には零の block が残っている。 -/
theorem stagedCrc_filled :
    stagedCrc filled 2048 ((plan false).moves.headD .blank) = crc32cFinal (zeros 2048) := by
  have hread : filled.read (((plan false).moves.headD .blank).destinationBlock * 2048)
      (((plan false).moves.headD .blank).blockCount * 2048) = zeros 2048 :=
    read_image_blank (by decide) (by decide)
  unfold stagedCrc
  rw [if_neg (by decide), hread]

theorem trusted_of_stagedCrc {crc : UInt32}
    (h : stagedCrc filled 2048 ((plan false).moves.headD .blank) = crc) :
    trusted filled ((plan false).moves.map (moveRecord .relocationIntent) ++
      (plan false).moves.map fun m => verifiedRecord m crc) 2048
      ((plan false).moves.headD .blank) = true := by
  unfold trusted
  rw [show ((plan false).moves.headD .blank).transactionId = 1 from rfl, lastRecord_staged, h]
  simp only [Option.any_some, verifiedRecord, decide_true]

theorem trusted_stale :
    trusted filled stagedJournal.view.records 2048 ((plan false).moves.headD .blank) = true :=
  trusted_of_stagedCrc stagedCrc_filled

/-- 検査を通って journal を開くまで。 -/
theorem stale_checks : (do
    let sb ← checkStageFilesystem host staleWorld.disk
    let fu ← parseUuid sb.uuid
    checkIdentity stagedJournal.view.identity fu staleWorld.disk.sizeBytes (plan false)
      "journal target size does not match plan"
    return () : Result Unit) = .ok () := by decide +kernel

/-- 書き換えられた file の移動も、写し終えたものとして飛ばす。 -/
theorem run_resume_stale (fu : Uuid) (hid : checkIdentity stagedJournal.view.identity fu
    staleWorld.disk.sizeBytes (plan false) "journal target size does not match plan" = .ok ()) :
    run (openStage journalHost fu (plan false) 65536) staleWorld = (.ok [1], staleWorld) := by
  have hin : RangeIn staleWorld.disk 2048 5 1 := ⟨by decide, by decide, by decide⟩
  have hmoves : resumeMoves staleWorld.disk stagedJournal.view.records 2048 65536
      (plan false).moves = .ok [1] := by
    refine (resumeMoves_cons_iff hin).mpr ⟨⟨_, rfl, by decide⟩, [], rfl, ?_⟩
    rw [if_pos (by exact trusted_stale)]
    rfl
  unfold openStage
  rw [run_bind_ok (run_get _)]
  have hj : staleWorld.journal = some stagedJournal := rfl
  rw [hj]
  dsimp only
  rw [run_device_bind hid]
  have hresume : resumeStage staleWorld.disk stagedJournal.view (plan false) 65536 = .ok [1] := by
    unfold resumeStage
    rw [if_neg (by decide), if_neg (by decide)]
    exact hmoves
  exact (run_reading _ _).trans (Prod.ext hresume rfl)

end Tiny

/-- 二つずつ写す host。 -/
def Tiny.twoWorkers : Host := { Tiny.host with profile := .ok ⟨2, 65536⟩ }

/-- 二つの file の五つの移動を、二つの仕事を交互に進めて写すと、写しは元と等しい。 -/
theorem staging_confined_spread : ∃ plan report w,
    buildOwnerRelocationPlan Tiny.host Tiny.spread 22528 = .ok plan ∧ plan.moves.length = 5 ∧
      run (stageRelocationIn (fun _ => [(0, {}), (1, {}), (1, {}), (0, {})]) Tiny.twoWorkers
        Tiny.journalHost plan Tiny.fastOptions) ⟨Tiny.spread, none, []⟩ = (.ok report, w) ∧
      report.complete = true ∧ ∀ m ∈ plan.moves, Copied w.disk.data w.disk.data plan.blockSize m := by
  obtain ⟨V, hV, -, hc⟩ := Tiny.exists_spread
  have hall : (buildOwnerRelocationPlan Tiny.host Tiny.spread 22528).bind (fun plan =>
      (run (stageRelocationIn (fun _ => [(0, {}), (1, {}), (1, {}), (0, {})]) Tiny.twoWorkers
        Tiny.journalHost plan Tiny.fastOptions) ⟨Tiny.spread, none, []⟩).1.map fun report =>
          (plan.moves.length, report.complete)) = .ok (5, true) := by decide +kernel
  obtain ⟨plan, hplan, hrun⟩ := Result.bind_eq_ok hall
  cases hres : run (stageRelocationIn (fun _ => [(0, {}), (1, {}), (1, {}), (0, {})])
      Tiny.twoWorkers Tiny.journalHost plan Tiny.fastOptions) ⟨Tiny.spread, none, []⟩ with
  | mk result w =>
    rw [hres] at hrun
    cases result with
    | error e => cases hrun
    | ok report =>
      obtain ⟨hlen, hdone⟩ := Prod.mk.inj (Except.ok.inj hrun)
      rw [← hV] at hplan hres
      have hmain := staging_confined V hc hplan _ _ _ _ none hres
      refine ⟨plan, report, w, hV ▸ hplan, hlen, hV ▸ hres, hdone,
        (hmain.2.2 report rfl hdone).mpr fun m _ ht => ?_⟩
      cases ht

/--
写した後に書き換えられた file の写しを再開すると、journal の CRC が行き先と合うので写し直さず、
古い写しのまま終わったと報告する。
-/
theorem resumed_copy_stale : ¬ ∀ (V : Volume), V.Consistent → ∀ (planHost : Host) (target : Nat)
    (plan : OwnerRelocationPlan), buildOwnerRelocationPlan planHost V.disk target = .ok plan →
    ∀ (sched : Nat → List (Nat × Fate)) (host : Host) (jhost : JournalHost) (opts : StageOptions)
      (j : Option JournalFile) (report : StageReport) (w : World),
      run (stageRelocationIn sched host jhost plan opts) ⟨V.disk, j, []⟩ = (.ok report, w) →
      report.complete = true →
      ∀ m ∈ plan.moves, Copied w.disk.data w.disk.data plan.blockSize m := by
  intro h
  obtain ⟨V, hV, -, hc⟩ := Tiny.exists_filled
  obtain ⟨sb, hsb, hrest⟩ := Result.bind_eq_ok Tiny.stale_checks
  obtain ⟨fu, hfu, hrest⟩ := Result.bind_eq_ok hrest
  obtain ⟨_, hid, -⟩ := Result.bind_eq_ok hrest
  have hrun : run (stageRelocationIn (fun _ => []) Tiny.host Tiny.journalHost (Tiny.plan false)
      Tiny.stageOptions) Tiny.staleWorld = _ :=
    run_stageRelocationWith (by decide) (by decide) (by decide) hsb hfu rfl
      (Tiny.run_resume_stale fu hid)
  have hend : ((run (stageRest (fun chunk _ => copyParallel [] (Tiny.plan false).blockSize chunk)
      Tiny.host (Tiny.plan false) Tiny.stageOptions ⟨1, 65536⟩ [1]) Tiny.staleWorld).1.map
        StageReport.complete, (run (stageRest
      (fun chunk _ => copyParallel [] (Tiny.plan false).blockSize chunk) Tiny.host (Tiny.plan false)
      Tiny.stageOptions ⟨1, 65536⟩ [1]) Tiny.staleWorld).2.disk.data 10240, (run (stageRest
      (fun chunk _ => copyParallel [] (Tiny.plan false).blockSize chunk) Tiny.host (Tiny.plan false)
      Tiny.stageOptions ⟨1, 65536⟩ [1]) Tiny.staleWorld).2.disk.data 24576) =
      (.ok true, 0, 1) := by decide +kernel
  rw [← hrun] at hend
  have hworld : Tiny.staleWorld = ⟨V.disk, some Tiny.stagedJournal, []⟩ := by rw [hV]; rfl
  cases hres : run (stageRelocationIn (fun _ => []) Tiny.host Tiny.journalHost (Tiny.plan false)
      Tiny.stageOptions) Tiny.staleWorld with
  | mk result w =>
    rw [hres] at hend
    obtain ⟨hcomp, hdst, hsrc⟩ : _ ∧ _ ∧ _ := by simpa only [Prod.mk.injEq] using hend
    cases result with
    | error e => cases hcomp
    | ok report =>
      rw [hworld] at hres
      have hsame := h V hc Tiny.host 20480 (Tiny.plan false)
        (by rw [hV]; exact Tiny.build_filled) _ _ _ _ _ report w hres
        (Except.ok.inj hcomp) _ List.mem_cons_self rfl
      have hbyte := congrArg (fun l => l[0]?) hsame
      simp only [Image.getElem?_read] at hbyte
      rw [if_pos (by decide)] at hbyte
      have heq : w.disk.data 10240 = w.disk.data 24576 := Option.some.inj hbyte
      rw [hdst, hsrc] at heq
      exact absurd heq (by decide)

end Fsx.Ext4
