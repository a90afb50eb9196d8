import Fsx.Core.Count
import Fsx.Ops.Clone

/-!
# 複写の正しさ

どの予定でも、成功した複写は複写元をちょうど一度ずつ書く。

1. batch の途中では、書き終えた chunk の書き込みが、何かの順に並んで複写先に残っている
   （`Progress`）。仕事が一歩進んでもこれは保たれる。
2. 成功した batch では、すべての chunk が書き終わっている（`copyBatch_writes`）。
3. batch のループは、残りの chunk をもれなく、重ならずに渡す（`copyLoop_writes`）。
4. chunk は複写元をちょうど覆うので、複写先のはじめは複写元に等しい（`cloneDevice_exact`）。

worker の pool の run は、どれも batch の予定の一つである（`runBatch_of_pool`）。
失敗も中断もなければ、複写はどの予定でも成功する（`run_cloneDevice`）。
-/

namespace Fsx.Clone

/-! ## 仕事の一歩 -/

section Step

variable {f : Fault} {j : ChunkJob} {w : CloneWorld}

/-- 失敗して終わった仕事。 -/
def ChunkJob.Failed (j : ChunkJob) : Prop := ∃ e, j.state = .ended (.error e)

/-- `copy_chunk` の一歩の後。 -/
theorem ChunkJob.copy_cases (f : Fault) (j : ChunkJob) (w : CloneWorld) :
    (j.copy f w = (j, w) ∧ ∃ r, j.state = .ended r) ∨
    ((j.copy f w).1.Failed ∧ (j.copy f w).1.off = j.off ∧ (j.copy f w).1.len = j.len ∧
      (j.copy f w).2.source = w.source) ∨
    (j.state = .ready ∧ ∃ b, w.source.readExact j.off j.len = .ok b ∧
      j.copy f w = ({ j with state := .holding b }, w)) ∨
    ∃ b t, j.state = .holding b ∧ w.target.writeExact j.off b = .ok t ∧
      j.copy f w = (j.finish (.ok ()), { w with target := t }) := by
  obtain ⟨off, len, state⟩ := j
  cases state with
  | ended r => exact Or.inl ⟨rfl, r, rfl⟩
  | ready =>
    cases f with
    | some x => exact Or.inr (Or.inl ⟨⟨_, rfl⟩, rfl, rfl, rfl⟩)
    | none =>
      cases hr : w.source.readExact off len with
      | error e =>
        refine Or.inr (Or.inl ?_)
        simp only [copy, hr]
        exact ⟨⟨e, rfl⟩, rfl, rfl, trivial⟩
      | ok b =>
        refine Or.inr (Or.inr (Or.inl ⟨rfl, b, rfl, ?_⟩))
        simp only [copy, hr]
  | holding b =>
    cases f with
    | some x =>
      obtain ⟨k, e⟩ := x
      refine Or.inr (Or.inl ?_)
      cases hw : w.target.writeExact off (b.take k) with
      | error e' =>
        simp only [copy, hw]
        exact ⟨⟨e, rfl⟩, rfl, rfl, trivial⟩
      | ok t =>
        simp only [copy, hw]
        exact ⟨⟨e, rfl⟩, rfl, rfl, trivial⟩
    | none =>
      cases hw : w.target.writeExact off b with
      | error e =>
        refine Or.inr (Or.inl ?_)
        simp only [copy, hw]
        exact ⟨⟨e, rfl⟩, rfl, rfl, trivial⟩
      | ok t =>
        refine Or.inr (Or.inr (Or.inr ⟨b, t, rfl, hw, ?_⟩))
        simp only [copy, hw]

theorem ChunkJob.remaining_copy (f : Fault) (j : ChunkJob) (w : CloneWorld) :
    (j.copy f w).1.remaining ≤ j.remaining - 1 := by
  rcases j.copy_cases f w with ⟨h, r, hr⟩ | ⟨⟨e, he⟩, -⟩ | ⟨hr, b, -, h⟩ | ⟨b, t, hr, -, h⟩
  · simp [h, remaining, hr]
  · simp [remaining, he]
  · simp [h, remaining, hr]
  · simp [h, remaining, finish]

theorem ChunkJob.remaining_verify (f : Fault) (j : ChunkJob) (w : CloneWorld) :
    (j.verify f w).1.remaining ≤ j.remaining - 1 := by
  obtain ⟨off, len, state⟩ := j
  cases state with
  | ended r => exact Nat.zero_le _
  | ready =>
    cases f with
    | some x => exact Nat.zero_le _
    | none =>
      unfold verify
      dsimp only
      split
      · exact Nat.zero_le _
      · exact Nat.le_refl _
  | holding b =>
    cases f with
    | some x => exact Nat.zero_le _
    | none =>
      unfold verify
      dsimp only
      split
      · exact Nat.zero_le _
      · split <;> exact Nat.zero_le _

/-- 検証の一歩は、何も変えない。 -/
theorem ChunkJob.verify_world (f : Fault) (j : ChunkJob) (w : CloneWorld) :
    (j.verify f w).2 = w := by
  unfold verify
  split
  · rfl
  · rfl
  · split <;> rfl
  · rfl
  · split
    · rfl
    · split <;> rfl

end Step

/-! ## batch -/

/-- `idx` 番の chunk の書き込み。 -/
def chunkWrite (src : Disk) (j : ChunkJob) : Write := ⟨j.off, src.data.read j.off j.len⟩

/-- 書き終えた仕事の書き込み。 -/
def ChunkJob.written (src : Disk) (j : ChunkJob) : Option Write :=
  match j.state with
  | .ended (.ok _) => some (chunkWrite src j)
  | _ => none

/-- batch の途中。`t` は batch の前の複写先である。 -/
structure Progress (src t : Disk) (spans : List (Nat × Nat)) (jobs : List ChunkJob)
    (w : CloneWorld) : Prop where
  source : w.source = src
  spans : (jobs.map fun j => (j.off, j.len)) = spans
  held : ∀ j ∈ jobs, ∀ b, j.state = .holding b → b = src.data.read j.off j.len
  target : (∀ j ∈ jobs, ¬ j.Failed) → ∃ ws : List Write,
    w.target = t.emit (ws.map .write) ∧ ws.Perm (jobs.filterMap (ChunkJob.written src))

section Progress

variable {src t : Disk} {spans : List (Nat × Nat)} {jobs : List ChunkJob} {w : CloneWorld}
  {j : ChunkJob} {i : Nat}

theorem spans_set {j' : ChunkJob} (hj : jobs[i]? = some j) (ho : j'.off = j.off)
    (hl : j'.len = j.len) :
    ((jobs.set i j').map fun j => (j.off, j.len)) = jobs.map fun j => (j.off, j.len) := by
  rw [List.map_set, ho, hl]
  refine List.ext_getElem? fun k => ?_
  rw [List.getElem?_set]
  split
  · next h =>
    subst h
    rw [List.getElem?_map, hj]
    simp
    exact (List.getElem?_eq_some_iff.mp hj).1
  · rfl

theorem mem_of_getElem?_set {j' x : ChunkJob} (hx : x ∈ jobs.set i j') : x = j' ∨ x ∈ jobs := by
  rcases List.mem_or_eq_of_mem_set hx with h | h
  · exact Or.inr h
  · exact Or.inl h

/-- 書き終えていない仕事が、書き終えていない仕事に変わったとき。 -/
theorem filterMap_set_none {j' : ChunkJob} (hj : jobs[i]? = some j) (h : j.written src = none)
    (h' : j'.written src = none) :
    ((jobs.set i j').filterMap (ChunkJob.written src)).Perm
      (jobs.filterMap (ChunkJob.written src)) := by
  have := perm_filterMap_set (ChunkJob.written src) hj j'
  rwa [h, h'] at this

/-- 失敗していない仕事を取り替えた後に失敗がなければ、前にも失敗はない。 -/
theorem no_failed_of_set {j' : ChunkJob} (hj : jobs[i]? = some j) (hok : ¬ j.Failed)
    (h : ∀ x ∈ jobs.set i j', ¬ x.Failed) : ∀ x ∈ jobs, ¬ x.Failed := by
  intro x hx
  obtain ⟨k, hk⟩ := List.mem_iff_getElem?.mp hx
  by_cases hki : k = i
  · rw [hki, hj] at hk
    cases hk
    exact hok
  · refine h x (List.mem_iff_getElem?.mpr ⟨k, ?_⟩)
    rw [List.getElem?_set_ne (Ne.symm hki)]
    exact hk

/-- **一歩ごとに `Progress` は保たれる。** -/
theorem Progress.step (h : Progress src t spans jobs w) (f : Fault) (hj : jobs[i]? = some j) :
    Progress src t spans (jobs.set i (j.copy f w).1) (j.copy f w).2 := by
  have hlt := (List.getElem?_eq_some_iff.mp hj).1
  have hmem : j ∈ jobs := List.mem_of_getElem? hj
  rcases j.copy_cases f w with ⟨hc, r, hr⟩ | ⟨hfail, ho, hl, hs⟩ | ⟨hr, b, hread, hc⟩ |
    ⟨b, t', hr, hw, hc⟩
  · -- 終わった仕事は変わらない
    have hself : jobs.set i j = jobs := by
      rw [← (List.getElem?_eq_some_iff.mp hj).2, List.set_getElem_self]
    rw [hc, hself]
    exact h
  · -- 失敗した仕事があれば、複写先については何も言わない
    refine ⟨hs.trans h.source, (spans_set hj ho hl).trans h.spans, fun x hx b hb => ?_, fun hno => ?_⟩
    · rcases mem_of_getElem?_set hx with rfl | hx
      · obtain ⟨e, he⟩ := hfail
        rw [he] at hb
        cases hb
      · exact h.held x hx b hb
    · exact absurd hfail (hno _ (List.mem_set hlt _))
  · -- 読んだ chunk は複写元のものである
    have not_failed : ¬ j.Failed := by
      rintro ⟨e, he⟩
      rw [hr] at he
      cases he
    rw [hc]
    dsimp only
    refine ⟨h.source, .trans (spans_set hj rfl rfl) h.spans, fun x hx b' hb => ?_, fun hno => ?_⟩
    · rcases mem_of_getElem?_set hx with rfl | hx
      · cases hb
        rw [h.source] at hread
        exact (Disk.readExact_eq_ok_iff.mp hread).2
      · exact h.held x hx b' hb
    · obtain ⟨ws, ht, hperm⟩ := h.target (no_failed_of_set hj not_failed hno)
      refine ⟨ws, ht, hperm.trans (filterMap_set_none hj ?_ rfl).symm⟩
      unfold ChunkJob.written
      rw [hr]
  · -- 書いた chunk が一つ増える
    have not_failed : ¬ j.Failed := by
      rintro ⟨e, he⟩
      rw [hr] at he
      cases he
    rw [hc]
    dsimp only
    have hb := h.held j hmem b hr
    refine ⟨h.source, .trans (spans_set hj rfl rfl) h.spans, fun x hx b' hb' => ?_, fun hno => ?_⟩
    · rcases mem_of_getElem?_set hx with rfl | hx
      · cases hb'
      · exact h.held x hx b' hb'
    · obtain ⟨ws, ht, hperm⟩ := h.target (no_failed_of_set hj not_failed hno)
      have hnone : j.written src = none := by
        unfold ChunkJob.written
        rw [hr]
      have hset := perm_filterMap_set (ChunkJob.written src) hj (j.finish (.ok ()))
      rw [hnone] at hset
      refine ⟨ws ++ [chunkWrite src j], ?_, ?_⟩
      · obtain ⟨-, -, rfl⟩ := Disk.writeExact_eq_ok_iff.mp hw
        rw [ht, Disk.emit_emit, List.map_append]
        dsimp only
        rw [hb]
        rfl
      · refine (List.perm_append_singleton _ _).trans ?_
        exact (hperm.cons _).trans hset.symm

end Progress

/-! ## batch の終わり -/

theorem gather_ok {jobs : List ChunkJob} {u : Unit} (h : gather jobs = .ok u) :
    ∀ j ∈ jobs, ∃ v, j.state = .ended (.ok v) := by
  induction jobs with
  | nil =>
    intro j hj
    cases hj
  | cons j rest ih =>
    unfold gather at h
    split at h
    · cases h
    · next v hv =>
      intro x hx
      rcases List.mem_cons.mp hx with rfl | hx
      · exact ⟨v, hv⟩
      · exact ih h x hx
    · cases h

/-- 一歩ごとに残りが減る仕事は、どの予定の batch でもすべて終わる。 -/
theorem ended_of_batch {advance : Fault → ChunkJob → CloneWorld → ChunkJob × CloneWorld}
    (hstep : ∀ f j w, (advance f j w).1.remaining ≤ j.remaining - 1) (sched : List (Nat × Fault))
    {jobs : List ChunkJob} {w : CloneWorld} {j : ChunkJob}
    (h : j ∈ (interleave advance (sched ++ drain jobs.length) jobs w).1) :
    ∃ r, j.state = .ended r := by
  obtain ⟨i, hi⟩ := List.mem_iff_getElem?.mp h
  have hzero : j.remaining = 0 := by
    refine interleave_drained hstep sched (fun _ => 2) none (fun i j _ => ?_) hi
    unfold ChunkJob.remaining
    split <;> omega
  unfold ChunkJob.remaining at hzero
  split at hzero
  · next r hr => exact ⟨r, hr⟩
  · cases hzero
  · cases hzero

namespace Pool

def source : Disk where
  sizeBytes := 11
  logicalSector := 1
  isBlockDevice := false
  writable := false
  data := fun i => UInt8.ofNat (i + 1)
  events := []
  size_lt := by decide

def target : Disk where
  sizeBytes := 13
  logicalSector := 1
  isBlockDevice := false
  writable := true
  data := fun _ => 0
  events := []
  size_lt := by decide

/-- 前の batch の task が一つ残っている、二つの worker の pool。 -/
def pool : TaskPool ChunkJob :=
  { (TaskPool.create 2 0 : TaskPool ChunkJob) with tasks := [(ChunkJob.start 4 4 0).finish (.ok ())] }

end Pool

theorem Progress.start (src : Disk) {jobs : List ChunkJob} {w : CloneWorld} (hs : w.source = src)
    (hready : ∀ j ∈ jobs, j.state = .ready) :
    Progress src w.target (jobs.map fun j => (j.off, j.len)) jobs w where
  source := hs
  spans := rfl
  held j hj b hb := by
    rw [hready j hj] at hb
    cases hb
  target _ := by
    refine ⟨[], (Disk.emit_nil _).symm, ?_⟩
    have hnone : jobs.filterMap (ChunkJob.written src) = [] := by
      refine List.filterMap_eq_nil_iff.mpr fun j hj => ?_
      unfold ChunkJob.written
      rw [hready j hj]
    rw [hnone]

theorem filterMap_written {src : Disk} {jobs : List ChunkJob}
    (h : ∀ j ∈ jobs, ∃ v, j.state = .ended (.ok v)) :
    jobs.filterMap (ChunkJob.written src) = jobs.map (chunkWrite src) := by
  rw [← List.filterMap_eq_map]
  refine List.filterMap_congr fun j hj => ?_
  obtain ⟨v, hv⟩ := h j hj
  unfold ChunkJob.written
  rw [hv]
  rfl

/-- **成功した batch は、渡した chunk をちょうど一度ずつ書く。** -/
theorem copyBatch_writes {host : CloneHost} {sched : List (Nat × Fault)} {jobs : List ChunkJob}
    {w w' : CloneWorld} {u : Unit} (hready : ∀ j ∈ jobs, j.state = .ready)
    (h : Proc.run (runBatch host.copyPhase sched jobs) w = (.ok u, w')) :
    w'.source = w.source ∧ ∃ ws : List Write, w'.target = w.target.emit (ws.map .write) ∧
      ws.Perm (jobs.map (chunkWrite w.source)) := by
  have hprog := @interleave_induct _ _ _ ChunkJob.copy
    (Progress w.source w.target (jobs.map fun j => (j.off, j.len)))
    (fun p i j jobs s hj hP => hP.step p hj) (sched ++ drain jobs.length) _ _
    (Progress.start w.source rfl hready)
  obtain ⟨hg, hw⟩ := Prod.mk.inj h
  have hall := gather_ok hg
  dsimp only [CloneHost.copyPhase] at hall hw
  obtain ⟨ws, ht, hperm⟩ := hprog.target fun j hj => by
    rintro ⟨e, he⟩
    obtain ⟨v, hv⟩ := hall j hj
    rw [hv] at he
    cases he
  rw [hw] at ht hprog
  refine ⟨hprog.source, ws, ht, hperm.trans (List.Perm.of_eq ?_)⟩
  -- すべての chunk が書き終わっている
  have hspan := congrArg
    (List.map fun x : Nat × Nat => (⟨x.1, w.source.data.read x.1 x.2⟩ : Write)) hprog.spans
  rw [List.map_map, List.map_map] at hspan
  exact (filterMap_written hall).trans hspan

/-! ## batch のループ -/

/-- `idx` 番の chunk までに進む byte 数。 -/
theorem start_len (bytes chunk idx : Nat) :
    (ChunkJob.start bytes chunk idx).len + min bytes (idx * chunk) = min bytes ((idx + 1) * chunk) := by
  have hsucc : (idx + 1) * chunk = idx * chunk + chunk := Nat.succ_mul idx chunk
  show min chunk (bytes - idx * chunk) + _ = _
  omega

theorem foldl_len (bytes chunk : Nat) : ∀ n next done,
    (((List.range' next n).map (ChunkJob.start bytes chunk)).map ChunkJob.len).foldl (· + ·) done +
      min bytes (next * chunk) = done + min bytes ((next + n) * chunk)
  | 0, _, _ => rfl
  | n + 1, next, done => by
    have hhead := start_len bytes chunk next
    have hrest := foldl_len bytes chunk n (next + 1)
      (done + (ChunkJob.start bytes chunk next).len)
    rw [List.range'_succ, List.map_cons, List.map_cons, List.foldl_cons]
    rw [show next + 1 + n = next + (n + 1) by omega] at hrest
    omega

/-- **ループは、残りの chunk をもれなく一度ずつ書く。** -/
theorem copyLoop_writes {host : CloneHost} {workers bytes chunk chunks : Nat} (hw : 1 ≤ workers) :
    ∀ {fuel next done : Nat} {w w' : CloneWorld} {total : Nat}, next ≤ chunks →
    chunks - next ≤ fuel →
    Proc.run (batchLoop host.copyPhase workers bytes chunk chunks fuel next done) w =
      (.ok total, w') →
    w'.source = w.source ∧
      total + min bytes (next * chunk) = done + min bytes (chunks * chunk) ∧
      ∃ ws : List Write, w'.target = w.target.emit (ws.map .write) ∧
        ws.Perm ((List.range' next (chunks - next)).map fun i =>
          chunkWrite w.source (.start bytes chunk i)) := by
  intro fuel
  induction fuel with
  | zero =>
    intro next done w w' total hnext hfuel h
    cases h
    obtain rfl : next = chunks := by omega
    refine ⟨rfl, rfl, [], (Disk.emit_nil _).symm, ?_⟩
    rw [Nat.sub_self]
    exact List.Perm.refl []
  | succ fuel ih =>
    intro next done w w' total hnext hfuel h
    unfold batchLoop at h
    by_cases hlt : next < chunks
    · rw [if_pos hlt] at h
      dsimp only at h
      have hc : ¬ host.copyPhase.cancelled next = true := by
        intro hc
        rw [if_pos hc] at h
        cases h
      rw [if_neg hc] at h
      obtain ⟨u, w₂, hb, h⟩ := Proc.run_bind_eq_ok h
      obtain ⟨hs₂, ws, ht₂, hperm⟩ := copyBatch_writes (fun j hj => by
        obtain ⟨i, -, rfl⟩ := List.mem_map.mp hj
        rfl) hb
      obtain ⟨hs, htotal, vs, ht, hperm'⟩ := ih (by omega) (by omega) h
      refine ⟨hs.trans hs₂, ?_, ws ++ vs, ?_, ?_⟩
      · have := foldl_len bytes chunk (min workers (chunks - next)) next done
        omega
      · rw [ht, ht₂, Disk.emit_emit, List.map_append]
      · -- batch の chunk と残りの chunk を合わせる
        rw [hs₂] at hperm'
        rw [List.map_map] at hperm
        have hsplit : List.range' next (chunks - next) =
            List.range' next (min workers (chunks - next)) ++
              List.range' (next + min workers (chunks - next))
                (chunks - (next + min workers (chunks - next))) := by
          rw [List.range'_append_1]
          congr 1
          omega
        rw [hsplit, List.map_append]
        exact hperm.append hperm'
    · rw [if_neg hlt] at h
      cases h
      obtain rfl : next = chunks := by omega
      refine ⟨rfl, rfl, [], (Disk.emit_nil _).symm, ?_⟩
      rw [Nat.sub_self]
      exact List.Perm.refl []

/-- 検証のループは、何も変えない。 -/
theorem verifyLoop_world {host : CloneHost} {workers bytes chunk chunks : Nat} :
    ∀ {fuel next done : Nat} {w w' : CloneWorld} {r : Result Nat},
    Proc.run (batchLoop host.verifyPhase workers bytes chunk chunks fuel next done) w = (r, w') →
    w' = w := by
  intro fuel
  induction fuel with
  | zero =>
    intro next done w w' r h
    cases h
    rfl
  | succ fuel ih =>
    intro next done w w' r h
    have hbatch : ∀ sched jobs, (Proc.run (runBatch host.verifyPhase sched jobs) w).2 = w :=
      fun sched jobs => @interleave_induct _ _ _ ChunkJob.verify (fun _ s => s = w)
        (fun p i j jobs s _ hP => (j.verify_world p s).trans hP) (sched ++ drain jobs.length) _ _ rfl
    unfold batchLoop at h
    by_cases hlt : next < chunks
    · rw [if_pos hlt] at h
      by_cases hc : host.verifyPhase.cancelled next = true
      · rw [if_pos hc] at h
        cases h
        rfl
      · rw [if_neg hc] at h
        dsimp only at h
        rw [Proc.run_bind] at h
        have hw := hbatch (host.verifyPhase.schedule next)
          ((List.range' next (min workers (chunks - next))).map (ChunkJob.start bytes chunk))
        generalize Proc.run (runBatch _ _ _) w = p at h hw
        obtain ⟨x, w₁⟩ := p
        cases x with
        | error e =>
          cases h
          exact hw
        | ok u => exact (ih h).trans hw
    · rw [if_neg hlt] at h
      cases h
      rfl

/-! ## chunk の敷き詰め -/

theorem chunkSize_pos (requested large sourceSector targetSector : Nat) :
    0 < chunkSize requested large sourceSector targetSector := by
  unfold chunkSize
  dsimp only
  generalize max (256 * 1024) _ - _ = chunk
  by_cases h : chunk = 0
  · rw [if_pos h]
    omega
  · rw [if_neg h]
    exact Nat.pos_of_ne_zero h

section Tile

variable {bytes chunk i k x : Nat}

/-- chunk が byte を含む。 -/
def ChunkJob.Covers (j : ChunkJob) (x : Nat) : Prop := j.off ≤ x ∧ x < j.off + j.len

/-- どの chunk も複写元の中から始まる。 -/
theorem chunk_off_lt (hc : 0 < chunk) (h : i < (bytes + chunk - 1) / chunk) : i * chunk < bytes := by
  have hle : (i + 1) * chunk ≤ bytes + chunk - 1 :=
    le_trans (Nat.mul_le_mul_right chunk h) (Nat.div_mul_le_self _ _)
  rw [Nat.succ_mul] at hle
  omega

theorem le_chunks_mul (hc : 0 < chunk) : bytes ≤ (bytes + chunk - 1) / chunk * chunk := by
  have hdiv := Nat.div_add_mod (bytes + chunk - 1) chunk
  have hmod := Nat.mod_lt (bytes + chunk - 1) hc
  rw [Nat.mul_comm] at hdiv
  omega

theorem start_off_add_len_le : (ChunkJob.start bytes chunk i).off +
    (ChunkJob.start bytes chunk i).len ≤ (i + 1) * chunk := by
  rw [Nat.succ_mul]
  show i * chunk + min chunk (bytes - i * chunk) ≤ _
  omega

/-- **複写元のどの byte も、ちょうど一つの chunk に含まれる。** -/
theorem covers_unique (hc : 0 < chunk) (hx : x < bytes) :
    ∃! i, i < (bytes + chunk - 1) / chunk ∧ (ChunkJob.start bytes chunk i).Covers x := by
  have hlow : x / chunk * chunk ≤ x := Nat.div_mul_le_self x chunk
  have hhigh : x < (x / chunk + 1) * chunk := Nat.lt_mul_of_div_lt (Nat.lt_succ_self _) hc
  refine ⟨x / chunk, ⟨?_, hlow, ?_⟩, ?_⟩
  · refine Nat.lt_of_mul_lt_mul_right (a := chunk) ?_
    exact lt_of_lt_of_le (lt_of_le_of_lt hlow hx) (le_chunks_mul hc)
  · rw [Nat.succ_mul] at hhigh
    show x < x / chunk * chunk + min chunk (bytes - x / chunk * chunk)
    omega
  · rintro i ⟨-, hoff, hend⟩
    have hend' := lt_of_lt_of_le hend start_off_add_len_le
    exact (Nat.div_eq_of_lt_le hoff hend').symm

theorem chunkWrite_apart {src : Disk} (h : i ≠ k) :
    Write.Apart (chunkWrite src (.start bytes chunk i)) (chunkWrite src (.start bytes chunk k)) := by
  have hlt : ∀ {a b : Nat}, a < b →
      (ChunkJob.start bytes chunk a).off + (ChunkJob.start bytes chunk a).len ≤
        (ChunkJob.start bytes chunk b).off := fun hab =>
    le_trans start_off_add_len_le (Nat.mul_le_mul_right chunk hab)
  unfold Write.Apart chunkWrite
  rw [Image.length_read, Image.length_read]
  rcases Nat.lt_or_gt_of_ne h with h | h
  · exact Or.inl (hlt h)
  · exact Or.inr (hlt h)

end Tile

/-- 書き込みの列が chunk の書き込みを並べ替えたものなら、像のはじめは複写元に等しく、残りは変わらない。 -/
theorem applyAll_chunks {src : Disk} {img : Image} {chunk : Nat} {ws : List Write} (hc : 0 < chunk)
    (hperm : ws.Perm ((List.range ((src.sizeBytes + chunk - 1) / chunk)).map fun i =>
      chunkWrite src (.start src.sizeBytes chunk i))) (x : Nat) :
    img.applyAll ws x = if x < src.sizeBytes then src.data x else img x := by
  have hmem : ∀ {v : Write}, v ∈ ws ↔ ∃ i < (src.sizeBytes + chunk - 1) / chunk,
      chunkWrite src (.start src.sizeBytes chunk i) = v := by
    intro v
    rw [hperm.mem_iff, List.mem_map]
    simp only [List.mem_range]
  have hapart : ws.Pairwise Write.Apart := by
    refine hperm.symm.pairwise (List.pairwise_map.mpr ?_) fun h => Or.symm h
    exact List.nodup_range.imp fun h => chunkWrite_apart h
  by_cases hx : x < src.sizeBytes
  · rw [if_pos hx]
    obtain ⟨i, ⟨hi, hoff, hend⟩, -⟩ := covers_unique hc hx
    have hread := Image.read_applyAll_of_mem hapart (hmem.mpr ⟨i, hi, rfl⟩) img
    unfold chunkWrite at hread
    rw [Image.length_read] at hread
    exact Image.apply_eq_of_read_eq hread hoff hend
  · rw [if_neg hx]
    refine Image.applyAll_apply_of_misses fun v hv => Or.inr ?_
    obtain ⟨i, hi, rfl⟩ := hmem.mp hv
    have hlt := chunk_off_lt hc hi
    unfold chunkWrite
    rw [Image.length_read]
    show i * chunk + min chunk (src.sizeBytes - i * chunk) ≤ x
    omega

/-! ## 失敗のない複写

読み書きが失敗せず、中断もなければ、複写はどの予定でも成功する。
-/

section Total

variable {src : Disk} {j : ChunkJob} {w : CloneWorld}

/-- 失敗の答えのない予定。 -/
def Faultless (sched : List (Nat × Fault)) : Prop := ∀ x ∈ sched, x.2 = none

theorem Faultless.drained {sched : List (Nat × Fault)} (h : Faultless sched) (n : Nat) :
    Faultless (sched ++ drain n) := by
  intro x hx
  rcases List.mem_append.mp hx with hx | hx
  · exact h x hx
  · obtain ⟨i, -, hx⟩ := List.mem_flatMap.mp hx
    rw [(List.mem_replicate.mp hx).2]

/-- 複写元 `src` の中を写していて、まだ失敗していない仕事。 -/
structure ChunkJob.Going (src : Disk) (j : ChunkJob) : Prop where
  inside : j.off + j.len ≤ src.sizeBytes
  held : ∀ b, j.state = .holding b → b = src.data.read j.off j.len
  going : ¬ j.Failed

/-- `src` を写していて、複写先に書ける。 -/
structure Writable (src : Disk) (w : CloneWorld) : Prop where
  source : w.source = src
  writable : w.target.writable = true
  room : src.sizeBytes ≤ w.target.sizeBytes

theorem ChunkJob.Going.ended (h : j.Going src) : (j.finish (.ok ())).Going src :=
  ⟨h.inside, nofun, fun ⟨_, he⟩ => by cases he⟩

/-- 失敗のない複写の一歩。 -/
theorem ChunkJob.Going.copy (h : j.Going src) (hw : Writable src w) :
    (j.copy none w).1.Going src ∧ Writable src (j.copy none w).2 := by
  obtain ⟨off, len, state⟩ := j
  have hin : off + len ≤ src.sizeBytes := h.inside
  have hroom := hw.room
  cases state with
  | ended r => exact ⟨h, hw⟩
  | ready =>
    have hread : w.source.readExact off len = .ok (src.data.read off len) := by
      rw [hw.source]
      exact Disk.readExact_ok hin
    unfold ChunkJob.copy
    dsimp only
    rw [hread]
    refine ⟨⟨hin, fun b hb => ?_, fun ⟨_, he⟩ => by cases he⟩, hw⟩
    cases hb
    rfl
  | holding b =>
    obtain rfl : b = src.data.read off len := h.held b rfl
    have hwrite := @Disk.writeExact_ok w.target off (src.data.read off len) hw.writable
      (by rw [Image.length_read]; omega)
    unfold ChunkJob.copy
    dsimp only
    rw [hwrite]
    exact ⟨h.ended, hw.source, hw.writable, hroom⟩

/-- 失敗のない検証の一歩。 -/
theorem ChunkJob.Going.verify (h : j.Going src) (hw : Writable src w)
    (hsame : ∀ x < src.sizeBytes, w.target.data x = src.data x) : (j.verify none w).1.Going src := by
  obtain ⟨off, len, state⟩ := j
  have hin : off + len ≤ src.sizeBytes := h.inside
  have hroom := hw.room
  cases state with
  | ended r => exact h
  | ready =>
    have hread : w.source.readExact off len = .ok (src.data.read off len) := by
      rw [hw.source]
      exact Disk.readExact_ok hin
    unfold ChunkJob.verify
    dsimp only
    rw [hread]
    refine ⟨hin, fun b hb => ?_, fun ⟨_, he⟩ => by cases he⟩
    cases hb
    rfl
  | holding b =>
    obtain rfl : b = src.data.read off len := h.held b rfl
    have hread : w.target.readExact off len = .ok (src.data.read off len) := by
      rw [Disk.readExact_ok (by omega)]
      exact congrArg Except.ok (Image.read_congr fun i _ hi => hsame i (by omega))
    unfold ChunkJob.verify
    dsimp only
    rw [hread]
    dsimp only
    rw [if_pos rfl]
    exact h.ended

theorem gather_of_ended {jobs : List ChunkJob} (h : ∀ j ∈ jobs, ∃ r, j.state = .ended r)
    (hok : ∀ j ∈ jobs, ¬ j.Failed) : gather jobs = .ok () := by
  induction jobs with
  | nil => rfl
  | cons j rest ih =>
    obtain ⟨r, hr⟩ := h j List.mem_cons_self
    unfold gather
    cases r with
    | error e => exact absurd ⟨e, hr⟩ (hok j List.mem_cons_self)
    | ok u =>
      rw [hr]
      exact ih (fun x hx => h x (List.mem_cons_of_mem _ hx))
        fun x hx => hok x (List.mem_cons_of_mem _ hx)

/-- 失敗のない一歩を進め続けた batch は成功する。`P` は途中の世界の不変条件である。 -/
theorem run_runBatch {ph : Phase} {P : CloneWorld → Prop}
    (hremaining : ∀ f j w, (ph.advance f j w).1.remaining ≤ j.remaining - 1)
    (hstep : ∀ j w, j.Going src → P w → (ph.advance none j w).1.Going src ∧ P (ph.advance none j w).2)
    {sched : List (Nat × Fault)} (hsched : Faultless sched) {jobs : List ChunkJob}
    (hjobs : ∀ j ∈ jobs, j.Going src) (hw : P w) :
    ∃ w', Proc.run (runBatch ph sched jobs) w = (.ok (), w') ∧ P w' := by
  have hcongr := @interleave_congr _ _ _ ph.advance (fun _ => ph.advance none)
    (sched ++ drain jobs.length) (fun x hx => by rw [hsched.drained _ x hx]) jobs w
  have hinv := @interleave_induct _ _ _ (fun _ : Fault => ph.advance none)
    (fun jobs w => (∀ j ∈ jobs, j.Going src) ∧ P w) (fun _ i j jobs w hj hinv => by
      obtain ⟨hgoing, hP⟩ := hinv
      obtain ⟨hgoing', hP'⟩ := hstep j w (hgoing j (List.mem_of_getElem? hj)) hP
      refine ⟨fun x hx => ?_, hP'⟩
      rcases List.mem_or_eq_of_mem_set hx with hx | rfl
      · exact hgoing x hx
      · exact hgoing') (sched ++ drain jobs.length) jobs w ⟨hjobs, hw⟩
  rw [← hcongr] at hinv
  refine ⟨(interleave ph.advance (sched ++ drain jobs.length) jobs w).2, Prod.ext ?_ rfl, hinv.2⟩
  exact gather_of_ended (fun j hj => ended_of_batch hremaining sched hj)
    fun j hj => (hinv.1 j hj).going

/-- loop の渡す仕事は、複写元の中を写す。 -/
theorem going_of_mem {bytes chunk chunks workers next : Nat} (hbytes : bytes = src.sizeBytes)
    (hchunks : chunks = (bytes + chunk - 1) / chunk) (hchunk : 0 < chunk)
    (hj : j ∈ (List.range' next (min workers (chunks - next))).map (ChunkJob.start bytes chunk)) :
    j.Going src := by
  obtain ⟨i, hi, rfl⟩ := List.mem_map.mp hj
  have hlt := @chunk_off_lt bytes chunk i hchunk (by
    rw [← hchunks]
    have := List.mem_range'_1.mp hi
    omega)
  refine ⟨?_, nofun, fun ⟨_, he⟩ => by cases he⟩
  show i * chunk + min chunk (bytes - i * chunk) ≤ src.sizeBytes
  omega

/-- batch がどれも成功する loop は成功する。 -/
theorem run_batchLoop {ph : Phase} {P : CloneWorld → Prop} {workers bytes chunk chunks : Nat}
    (hcancel : ∀ i, ph.cancelled i = false)
    (hbatch : ∀ next w, P w → ∃ w', Proc.run (runBatch ph (ph.schedule next)
      ((List.range' next (min workers (chunks - next))).map (ChunkJob.start bytes chunk))) w =
        (.ok (), w') ∧ P w') : ∀ (fuel next done : Nat) (w : CloneWorld), P w →
    ∃ total w', Proc.run (batchLoop ph workers bytes chunk chunks fuel next done) w =
      (.ok total, w') ∧ P w'
  | 0, _, done, w, hw => ⟨done, w, rfl, hw⟩
  | fuel + 1, next, done, w, hw => by
    unfold batchLoop
    by_cases hlt : next < chunks
    · obtain ⟨w₁, hrun, hw₁⟩ := hbatch next w hw
      obtain ⟨total, w₂, hrest, hw₂⟩ := run_batchLoop hcancel hbatch fuel
        (next + min workers (chunks - next))
        ((((List.range' next (min workers (chunks - next))).map
          (ChunkJob.start bytes chunk)).map ChunkJob.len).foldl (· + ·) done) w₁ hw₁
      refine ⟨total, w₂, ?_, hw₂⟩
      rw [if_pos hlt]
      dsimp only
      rw [if_neg (by rw [hcancel]; decide), Proc.run_bind_ok hrun]
      exact hrest
    · exact ⟨done, w, by rw [if_neg hlt]; rfl, hw⟩

/-- 検査を通った複写元は、複写先に収まる。 -/
theorem fits_of_checkClone {host : CloneHost} {opts : CloneOptions} {tuning : CloneTuning}
    (h : checkClone host opts w = .ok tuning) : w.source.sizeBytes ≤ w.target.sizeBytes := by
  by_contra hlt
  unfold checkClone at h
  obtain ⟨_, -, h⟩ := Result.bind_eq_ok h
  rw [Result.guard_bind_eq_ok_iff] at h
  obtain ⟨-, h⟩ := h
  dsimp only at h
  rw [if_pos (show w.target.sizeBytes < w.source.sizeBytes by omega)] at h
  split at h
  · obtain ⟨active, -, h⟩ := Result.bind_eq_ok h
    split at h <;> cases h
  · cases h

/-- **失敗も中断もなければ、複写は成功する。** -/
theorem run_cloneDevice {host : CloneHost} {opts : CloneOptions} {tuning : CloneTuning}
    (hcheck : checkClone host opts w = .ok tuning) (hwritable : w.target.writable = true)
    (hcopy : ∀ i, host.copyCancelled i = false ∧ Faultless (host.copySchedule i))
    (hverify : ∀ i, host.verifyCancelled i = false ∧ Faultless (host.verifySchedule i)) :
    ∃ r w', Proc.run (cloneDevice host opts) w = (.ok r, w') ∧ r.verified = opts.verifyAfter ∧
      r.chunks = (w.source.sizeBytes + chunkSize opts.chunkBytes tuning.largeIoBytes
        w.source.logicalSector w.target.logicalSector - 1) / chunkSize opts.chunkBytes
          tuning.largeIoBytes w.source.logicalSector w.target.logicalSector := by
  have hroom := fits_of_checkClone hcheck
  generalize hchunk : chunkSize opts.chunkBytes tuning.largeIoBytes w.source.logicalSector
    w.target.logicalSector = chunk
  have hpos : 0 < chunk := hchunk ▸ chunkSize_pos _ _ _ _
  generalize hchunks : (w.source.sizeBytes + chunk - 1) / chunk = chunks
  -- 複写
  obtain ⟨copied, w₁, hcopied, hw₁⟩ := @run_batchLoop host.copyPhase (Writable w.source)
    (max 1 tuning.workers) w.source.sizeBytes chunk chunks (fun i => (hcopy i).1)
    (fun next w' hw' => run_runBatch ChunkJob.remaining_copy (fun j w h hw => h.copy hw)
      (hcopy next).2 (fun j hj => going_of_mem rfl hchunks.symm hpos hj) hw')
    chunks 0 0 w ⟨rfl, hwritable, hroom⟩
  obtain ⟨hsource, -, ws, htarget, hperm⟩ :=
    copyLoop_writes (Nat.le_max_left 1 tuning.workers) (Nat.zero_le _) (Nat.sub_le _ _) hcopied
  rw [Nat.sub_zero, ← List.range_eq_range', ← hchunks] at hperm
  have hdata : w₁.target.data = w.target.data.applyAll ws := by
    rw [htarget, Disk.emit_data, replay_writes]
  have hsame : ∀ x < w.source.sizeBytes, w₁.target.data x = w.source.data x := by
    intro x hx
    rw [hdata, applyAll_chunks hpos hperm, if_pos hx]
  -- 検証
  have hflushed : Writable w.source { w₁ with target := w₁.target.emit [.flush] } :=
    ⟨hw₁.source, hw₁.writable, hw₁.room⟩
  obtain ⟨checked, w₃, hchecked, -⟩ := @run_batchLoop host.verifyPhase
    (fun w' => w' = { w₁ with target := w₁.target.emit [.flush] })
    (max 1 tuning.workers) w.source.sizeBytes chunk chunks (fun i => (hverify i).1)
    (fun next w' hw' => run_runBatch ChunkJob.remaining_verify (fun j w' h hw' => by
      subst hw'
      exact ⟨h.verify hflushed hsame, ChunkJob.verify_world _ _ _⟩)
      (hverify next).2 (fun j hj => going_of_mem rfl hchunks.symm hpos hj) hw')
    chunks 0 0 _ rfl
  have hflush : Proc.run flushTarget w₁ = (.ok (), { w₁ with target := w₁.target.emit [.flush] }) :=
    Proc.run_stepping_ok rfl
  have hread : Proc.run (Proc.reading (checkClone host opts)) w = (.ok tuning, w) := by
    rw [Proc.run_reading, hcheck]
  unfold cloneDevice
  rw [Proc.run_bind_ok hread, Proc.run_bind_ok (Proc.run_get _)]
  dsimp only
  rw [hchunk, hchunks, Proc.run_bind_ok hcopied, Proc.run_bind_ok hflush]
  cases hv : opts.verifyAfter with
  | true =>
    rw [if_pos rfl, Proc.run_bind_ok hchecked]
    exact ⟨_, _, rfl, rfl, rfl⟩
  | false =>
    rw [if_neg (by decide)]
    exact ⟨_, _, rfl, rfl, rfl⟩

end Total

/-! ## 複写 -/

/--
**成功した複写は、複写元をちょうど一度ずつ書き、ほかには何も書かない。**
予定は batch ごとに任意であり、検証してもしなくてもよい。
-/
theorem cloneDevice_exact {host : CloneHost} {opts : CloneOptions} {w w' : CloneWorld}
    {r : CloneReport} (h : Proc.run (cloneDevice host opts) w = (.ok r, w')) :
    w'.source = w.source ∧
    (∀ x < w.source.sizeBytes, w'.target.data x = w.source.data x) ∧
    (∀ x, w.source.sizeBytes ≤ x → w'.target.data x = w.target.data x) ∧
    r.bytesCopied = w.source.sizeBytes ∧
    ∃ chunk, ∃ ws : List Write,
      w'.target.events = w.target.events ++ ws.map .write ++ [.flush] ∧
      ws.Perm ((List.range r.chunks).map fun i =>
        chunkWrite w.source (.start w.source.sizeBytes chunk i)) ∧
      ∀ x < w.source.sizeBytes, ∃! i, i < r.chunks ∧
        (ChunkJob.start w.source.sizeBytes chunk i).Covers x := by
  unfold cloneDevice at h
  obtain ⟨tuning, w₀, hcheck, h⟩ := Proc.run_bind_eq_ok h
  obtain ⟨-, rfl⟩ := Prod.mk.inj hcheck
  rw [Proc.run_bind_ok (Proc.run_get _)] at h
  dsimp only at h
  generalize hchunk : chunkSize _ _ _ _ = chunk at h
  have hpos : 0 < chunk := hchunk ▸ chunkSize_pos _ _ _ _
  generalize hchunks : (w.source.sizeBytes + chunk - 1) / chunk = chunks at h
  obtain ⟨copied, w₁, hcopy, h⟩ := Proc.run_bind_eq_ok h
  obtain ⟨hs₁, htotal, ws, ht₁, hperm⟩ :=
    copyLoop_writes (le_max_left 1 tuning.workers) (Nat.zero_le _) (Nat.le_refl _) hcopy
  rw [Nat.sub_zero, ← List.range_eq_range'] at hperm
  have hflush : Proc.run flushTarget w₁ =
      (.ok (), { w₁ with target := w₁.target.emit [.flush] }) := Proc.run_stepping_ok rfl
  rw [Proc.run_bind_ok hflush] at h
  generalize hw₂ : ({ w₁ with target := w₁.target.emit [.flush] } : CloneWorld) = w₂ at h
  -- 検証は何も変えない
  have hend : w' = w₂ ∧ r.bytesCopied = copied ∧ r.chunks = chunks := by
    by_cases hv : opts.verifyAfter = true
    · rw [if_pos hv] at h
      obtain ⟨checked, w₃, hverify, h⟩ := Proc.run_bind_eq_ok h
      cases h
      exact ⟨verifyLoop_world hverify, rfl, rfl⟩
    · rw [if_neg hv] at h
      cases h
      exact ⟨rfl, rfl, rfl⟩
  obtain ⟨rfl, hcopied, rfl⟩ := hend
  have htarget : w'.target = w.target.emit (ws.map .write ++ [.flush]) := by
    rw [← hw₂, ht₁]
    exact Disk.emit_emit _ _ _
  have hdata : w'.target.data = w.target.data.applyAll ws := by
    rw [htarget, Disk.emit_data, replay_append, replay_writes]
    rfl
  rw [← hchunks] at hperm
  refine ⟨?_, fun x hx => ?_, fun x hx => ?_, ?_, chunk, ws, ?_, ?_, fun x hx => ?_⟩
  · rw [← hw₂]
    exact hs₁
  · rw [hdata, applyAll_chunks hpos hperm, if_pos hx]
  · rw [hdata, applyAll_chunks hpos hperm, if_neg (by omega)]
  · have hle := @le_chunks_mul w.source.sizeBytes chunk hpos
    rw [hchunks] at hle
    rw [hcopied]
    omega
  · rw [htarget, Disk.emit_events, List.append_assoc]
  · rw [← hchunks]
    exact hperm
  · rw [← hchunks]
    exact covers_unique hpos hx

namespace Pair

/-- 256 KiB の chunk で三つに分かれる複写元。 -/
def source : Disk where
  sizeBytes := 600064
  logicalSector := 512
  isBlockDevice := false
  writable := false
  data := fun i => UInt8.ofNat (i % 251)
  events := []
  size_lt := by decide

def target : Disk where
  sizeBytes := 700416
  logicalSector := 512
  isBlockDevice := false
  writable := true
  data := fun _ => 0
  events := []
  size_lt := by decide

/-- 二つの worker の読み書きは入れ替わる。 -/
def host : CloneHost where
  disjoint := .ok ()
  sourceActive := .ok false
  offline := .ok ()
  profile := .ok { workers := 2, largeIoBytes := 262144 }
  copyCancelled := fun _ => false
  copySchedule := fun _ => [(1, none), (0, none), (0, none), (1, none)]
  verifyCancelled := fun _ => false
  verifySchedule := fun _ => [(1, none), (0, none), (1, none)]

end Pair

/-- 三つの chunk を二つの worker で写し、検証する。 -/
theorem cloneDevice_exact_pair : ∃ r w',
    Proc.run (cloneDevice Pair.host {}) ⟨Pair.source, Pair.target⟩ = (.ok r, w') ∧
    r.verified = true ∧ r.chunks = 3 ∧ r.bytesCopied = 600064 ∧
    (∀ x < 600064, w'.target.data x = Pair.source.data x) ∧
    ∀ x, 600064 ≤ x → w'.target.data x = 0 := by
  have hcheck : checkClone Pair.host {} ⟨Pair.source, Pair.target⟩ =
      .ok { workers := 2, largeIoBytes := 262144 } := rfl
  obtain ⟨r, w', hrun, hverified, hchunks⟩ := run_cloneDevice hcheck rfl
    (fun i => ⟨rfl, fun x hx => by
      simp only [Pair.host, List.mem_cons, List.not_mem_nil, or_false] at hx
      rcases hx with rfl | rfl | rfl | rfl <;> rfl⟩)
    fun i => ⟨rfl, fun x hx => by
      simp only [Pair.host, List.mem_cons, List.not_mem_nil, or_false] at hx
      rcases hx with rfl | rfl | rfl <;> rfl⟩
  obtain ⟨-, hdata, hrest, hcopied, -⟩ := cloneDevice_exact hrun
  exact ⟨r, w', hrun, hverified, hchunks, hcopied, hdata, hrest⟩

end Fsx.Clone
