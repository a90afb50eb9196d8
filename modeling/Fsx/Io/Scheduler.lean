import Fsx.Core.Interleave
import Mathlib.Data.List.Perm.Basic
import Mathlib.Data.List.Nodup

/-!
# I/O scheduler（`src/io/scheduler.cpp`）

`AsyncIoScheduler` の queue・worker・`drain`・`stop`。mutex で守られた区間をそれぞれ一つの step とし、
submitter と worker と `stop` の step を任意に交錯させる。

condition variable は待ちの条件を調べ直すきっかけにすぎない。待ちは、条件が成り立つまで step が
起きないこととして表す。`fn()` は mutex の外で走るので、`fetch` と `finish` の間に当たる。
-/

namespace Fsx

/-- `IoTuning` のうち scheduler の使う欄。 -/
structure IoTuning where
  workers : Nat := 1
  queueDepth : Nat := 8

namespace Scheduler

/-- `enqueue` の呼び出しの通し番号。渡された task はこれで見分ける。 -/
abbrev Call := Nat

/-- worker thread の居場所。 -/
inductive Worker where
  /-- `cv_` で待っている -/
  | waiting
  /-- `fn()` を走らせている -/
  | running (c : Call)
  /-- `worker_loop` から戻った -/
  | exited
  deriving DecidableEq

/-- worker の走らせている task。 -/
def Worker.task? : Worker → Option Call
  | .running c => some c
  | _ => none

/--
scheduler の状態。

`pending` から後は実行の記録で、code の変数ではない。`joined` は `stop` が `join` し終えた
thread の数である。
-/
structure State where
  queue : List Call := []
  active : Nat := 0
  stopping : Bool := false
  workers : List Worker
  joined : Nat := 0
  /-- `stopping_` を立てた `stop` が戻った -/
  stopReturned : Bool := false
  calls : Nat := 0
  /-- `enqueue` に入って、まだ戻っていない呼び出し -/
  pending : List Call := []
  accepted : List Call := []
  rejected : List Call := []
  started : List Call := []
  finished : List Call := []

inductive Action where
  /-- thread が `enqueue` を呼ぶ -/
  | call
  /-- `enqueue` の mutex の区間 -/
  | enqueue (c : Call)
  /-- `worker_loop` の一つ目の区間 -/
  | fetch (i : Nat)
  /-- `fn()` が戻った後の、`worker_loop` の二つ目の区間 -/
  | finish (i : Nat)
  /-- `drain` -/
  | drain
  /-- `stop` の mutex の区間 -/
  | stop
  /-- `stopping_` を立てた `stop` が次の thread を `join` する -/
  | join
  /-- `stopping_` を立てた `stop` が戻る -/
  | stopReturn

/-- `AsyncIoScheduler::AsyncIoScheduler` が整える値。 -/
def tuned (t : IoTuning) : IoTuning :=
  let workers := if t.workers = 0 then 1 else t.workers
  { workers, queueDepth := if t.queueDepth < workers then workers else t.queueDepth }

/-- 作られたばかりの scheduler。 -/
def start (t : IoTuning) : State where
  workers := List.replicate (tuned t).workers .waiting

/-- 走っている task。 -/
def State.running (s : State) : List Call := s.workers.filterMap Worker.task?

/-- 一つの step。起こりえないとき（待っているときも）は `none` とする。 -/
def step (t : IoTuning) (s : State) : Action → Option State
  | .call => some { s with calls := s.calls + 1, pending := s.calls :: s.pending }
  | .enqueue c =>
    if c ∈ s.pending then
      if s.stopping then
        some { s with pending := s.pending.erase c, rejected := c :: s.rejected }
      else if s.queue.length < (tuned t).queueDepth then
        some { s with
          pending := s.pending.erase c
          queue := s.queue ++ [c]
          accepted := s.accepted ++ [c] }
      else none
    else none
  | .fetch i =>
    if s.workers[i]? = some .waiting then
      match s.queue with
      | [] => if s.stopping then some { s with workers := s.workers.set i .exited } else none
      | c :: queue =>
        some { s with
          queue
          active := s.active + 1
          workers := s.workers.set i (.running c)
          started := s.started ++ [c] }
    else none
  | .finish i =>
    match s.workers[i]? with
    | some (.running c) =>
      some { s with
        active := s.active - 1
        workers := s.workers.set i .waiting
        finished := c :: s.finished }
    | _ => none
  | .drain => if s.queue = [] ∧ s.active = 0 then some s else none
  | .stop => if s.stopping then some s else some { s with stopping := true }
  | .join =>
    if s.stopping ∧ s.workers[s.joined]? = some .exited then some { s with joined := s.joined + 1 }
    else none
  | .stopReturn =>
    if s.stopping ∧ s.joined = s.workers.length then some { s with stopReturned := true } else none

/-- 作られてから step を重ねて着く状態。 -/
inductive Reachable (t : IoTuning) : State → Prop
  | start : Reachable t (start t)
  | step {s s' : State} {a : Action} : Reachable t s → step t s a = some s' → Reachable t s'

/-! ## step のすること -/

section Cases

variable {t : IoTuning} {s s' : State} {c : Call} {i : Nat}

theorem tuned_workers_pos (t : IoTuning) : 0 < (tuned t).workers := by
  unfold tuned
  by_cases h : t.workers = 0
  · simp [h]
  · simp only [h, if_false]
    omega

/-- `enqueue` は、`stopping_` を見れば断り、見なければ空きに入れる。 -/
theorem enqueue_cases (h : step t s (.enqueue c) = some s') : c ∈ s.pending ∧
    ((s.stopping = true ∧
      s' = { s with pending := s.pending.erase c, rejected := c :: s.rejected }) ∨
    (s.stopping = false ∧ s.queue.length < (tuned t).queueDepth ∧
      s' = { s with
        pending := s.pending.erase c
        queue := s.queue ++ [c]
        accepted := s.accepted ++ [c] })) := by
  simp only [step] at h
  by_cases hc : c ∈ s.pending
  · rw [if_pos hc] at h
    refine ⟨hc, ?_⟩
    by_cases hs : s.stopping = true
    · rw [if_pos hs] at h
      exact Or.inl ⟨hs, (Option.some.inj h).symm⟩
    · rw [if_neg hs] at h
      by_cases hq : s.queue.length < (tuned t).queueDepth
      · rw [if_pos hq] at h
        exact Or.inr ⟨by simpa using hs, hq, (Option.some.inj h).symm⟩
      · rw [if_neg hq] at h
        cases h
  · rw [if_neg hc] at h
    cases h

/-- worker は queue の先頭を取るか、止まった空の queue を見て戻る。 -/
theorem fetch_cases (h : step t s (.fetch i) = some s') : s.workers[i]? = some .waiting ∧
    ((s.queue = [] ∧ s.stopping = true ∧ s' = { s with workers := s.workers.set i .exited }) ∨
    ∃ c queue, s.queue = c :: queue ∧
      s' = { s with
        queue
        active := s.active + 1
        workers := s.workers.set i (.running c)
        started := s.started ++ [c] }) := by
  simp only [step] at h
  by_cases hw : s.workers[i]? = some .waiting
  · rw [if_pos hw] at h
    refine ⟨hw, ?_⟩
    cases hq : s.queue with
    | nil =>
      rw [hq] at h
      dsimp only at h
      by_cases hs : s.stopping = true
      · rw [if_pos hs] at h
        exact Or.inl ⟨rfl, hs, (Option.some.inj h).symm⟩
      · rw [if_neg hs] at h
        cases h
    | cons c queue =>
      rw [hq] at h
      exact Or.inr ⟨c, queue, rfl, (Option.some.inj h).symm⟩
  · rw [if_neg hw] at h
    cases h

theorem finish_cases (h : step t s (.finish i) = some s') :
    ∃ c, s.workers[i]? = some (.running c) ∧
      s' = { s with
        active := s.active - 1
        workers := s.workers.set i .waiting
        finished := c :: s.finished } := by
  unfold step at h
  dsimp only at h
  split at h
  · next c hw => exact ⟨c, hw, (Option.some.inj h).symm⟩
  · cases h

/-- `drain` が戻るのは、queue が空で、走っている task のないときである。 -/
theorem drain_cases (h : step t s .drain = some s') :
    s.queue = [] ∧ s.active = 0 ∧ s' = s := by
  unfold step at h
  by_cases hc : s.queue = [] ∧ s.active = 0
  · rw [if_pos hc] at h
    exact ⟨hc.1, hc.2, (Option.some.inj h).symm⟩
  · rw [if_neg hc] at h
    cases h

theorem stop_cases (h : step t s .stop = some s') :
    (s.stopping = true ∧ s' = s) ∨ (s.stopping = false ∧ s' = { s with stopping := true }) := by
  unfold step at h
  by_cases hs : s.stopping = true
  · rw [if_pos hs] at h
    exact Or.inl ⟨hs, (Option.some.inj h).symm⟩
  · rw [if_neg hs] at h
    exact Or.inr ⟨by simpa using hs, (Option.some.inj h).symm⟩

theorem join_cases (h : step t s .join = some s') :
    s.workers[s.joined]? = some .exited ∧ s' = { s with joined := s.joined + 1 } := by
  unfold step at h
  by_cases hc : s.stopping = true ∧ s.workers[s.joined]? = some .exited
  · rw [if_pos hc] at h
    exact ⟨hc.2, (Option.some.inj h).symm⟩
  · rw [if_neg hc] at h
    cases h

theorem stopReturn_cases (h : step t s .stopReturn = some s') :
    s.joined = s.workers.length ∧ s' = { s with stopReturned := true } := by
  unfold step at h
  by_cases hc : s.stopping = true ∧ s.joined = s.workers.length
  · rw [if_pos hc] at h
    exact ⟨hc.2, (Option.some.inj h).symm⟩
  · rw [if_neg hc] at h
    cases h

end Cases

/-! ## 走っている task の列 -/

section Workers

variable {ws : List Worker} {i : Nat} {c : Call}

theorem running_start (h : ws[i]? = some .waiting) :
    ((ws.set i (.running c)).filterMap Worker.task?).Perm (c :: ws.filterMap Worker.task?) := by
  simpa [Worker.task?] using perm_filterMap_set Worker.task? h (.running c)

theorem running_finish (h : ws[i]? = some (.running c)) :
    (ws.filterMap Worker.task?).Perm (c :: (ws.set i .waiting).filterMap Worker.task?) := by
  simpa [Worker.task?] using (perm_filterMap_set Worker.task? h .waiting).symm

theorem running_exit (h : ws[i]? = some .waiting) :
    ((ws.set i .exited).filterMap Worker.task?).Perm (ws.filterMap Worker.task?) := by
  simpa [Worker.task?] using perm_filterMap_set Worker.task? h .exited

/-- 作られたばかりの worker はどれも待っている。 -/
theorem running_at_start (t : IoTuning) : (start t).running = [] := by
  rw [State.running, List.filterMap_eq_nil_iff]
  intro w hw
  rw [List.eq_of_mem_replicate hw]
  rfl

end Workers

/-! ## 不変条件 -/

/--
どの状態でも成り立つこと。

`accepted` は受け入れた順で、queue は先入れ先出しだから、取り出した列と残りの列をつなげたものに等しい。
worker が戻るのは止まった空の queue を見たときだけで、その後は何も入らない（`exited`）。
-/
structure Invariant (t : IoTuning) (s : State) : Prop where
  depth : s.queue.length ≤ (tuned t).queueDepth
  workers : s.workers.length = (tuned t).workers
  active : s.active = s.running.length
  accepted : s.accepted = s.started ++ s.queue
  started : s.started.Perm (s.running ++ s.finished)
  calls : (s.pending ++ (s.accepted ++ s.rejected)).Nodup
  fresh : ∀ c ∈ s.pending ++ (s.accepted ++ s.rejected), c < s.calls
  exited : .exited ∈ s.workers → s.stopping = true ∧ s.queue = []
  joined : ∀ i < s.joined, s.workers[i]? = some .exited
  returned : s.stopReturned = true → s.workers.length ≤ s.joined

namespace Invariant

variable {t : IoTuning} {s s' : State} {c : Call} {i : Nat}

theorem start (t : IoTuning) : Invariant t (start t) where
  depth := Nat.zero_le _
  workers := List.length_replicate
  active := by rw [running_at_start]; rfl
  accepted := rfl
  started := by rw [running_at_start]; exact List.Perm.nil
  calls := List.nodup_nil
  fresh := fun c hc => (by cases hc)
  exited := fun h => by
    have := List.eq_of_mem_replicate h
    cases this
  joined := fun i hi => absurd hi (Nat.not_lt_zero i)
  returned := fun h => by cases h

theorem call (hi : Invariant t s) :
    Invariant t { s with calls := s.calls + 1, pending := s.calls :: s.pending } where
  depth := hi.depth
  workers := hi.workers
  active := hi.active
  accepted := hi.accepted
  started := hi.started
  calls := by
    rw [List.cons_append, List.nodup_cons]
    exact ⟨fun hc => Nat.lt_irrefl _ (hi.fresh _ hc), hi.calls⟩
  fresh := by
    intro c hc
    rw [List.cons_append, List.mem_cons] at hc
    rcases hc with rfl | hc
    · exact Nat.lt_succ_self _
    · exact Nat.lt_succ_of_lt (hi.fresh c hc)
  exited := hi.exited
  joined := hi.joined
  returned := hi.returned

/-- 戻った `enqueue` の番号は、列から列へ移るだけである。 -/
theorem perm_move {p a r : List Call} (hc : c ∈ p) :
    (p.erase c ++ (a ++ c :: r)).Perm (p ++ (a ++ r)) := by
  have h1 : (p ++ (a ++ r)).Perm (c :: (p.erase c ++ (a ++ r))) :=
    (List.perm_cons_erase hc).append_right _
  refine List.Perm.trans ?_ h1.symm
  rw [← List.append_assoc, ← List.append_assoc]
  exact List.perm_middle

theorem reject (hi : Invariant t s) (hc : c ∈ s.pending) :
    Invariant t { s with pending := s.pending.erase c, rejected := c :: s.rejected } where
  depth := hi.depth
  workers := hi.workers
  active := hi.active
  accepted := hi.accepted
  started := hi.started
  calls := (perm_move hc).nodup_iff.mpr hi.calls
  fresh := fun d hd => hi.fresh d ((perm_move hc).mem_iff.mp hd)
  exited := hi.exited
  joined := hi.joined
  returned := hi.returned

theorem accept (hi : Invariant t s) (hc : c ∈ s.pending) (hs : s.stopping = false)
    (hq : s.queue.length < (tuned t).queueDepth) :
    Invariant t { s with
      pending := s.pending.erase c
      queue := s.queue ++ [c]
      accepted := s.accepted ++ [c] } where
  depth := by
    rw [List.length_append]
    exact hq
  workers := hi.workers
  active := hi.active
  accepted := by rw [hi.accepted, List.append_assoc]
  started := hi.started
  calls := by
    dsimp only
    rw [List.append_assoc, List.singleton_append]
    exact (perm_move hc).nodup_iff.mpr hi.calls
  fresh := by
    intro d hd
    dsimp only at hd
    rw [List.append_assoc, List.singleton_append] at hd
    exact hi.fresh d ((perm_move hc).mem_iff.mp hd)
  exited := by
    -- 戻った worker があれば `stopping_` は立っているので、ここには来ない。
    intro h
    have := (hi.exited h).1
    rw [hs] at this
    cases this
  joined := hi.joined
  returned := hi.returned

/-- `join` の済んだ thread は、ほかの worker の step で変わらない。 -/
theorem joined_set (hi : Invariant t s) (hw : s.workers[i]? = some w) (hne : w ≠ .exited)
    (v : Worker) : ∀ j < s.joined, (s.workers.set i v)[j]? = some .exited := by
  intro j hj
  have h := hi.joined j hj
  have hij : i ≠ j := by
    rintro rfl
    rw [hw] at h
    exact hne (Option.some.inj h)
  rw [List.getElem?_set_ne hij]
  exact h

theorem exit (hi : Invariant t s) (hw : s.workers[i]? = some .waiting) (hq : s.queue = [])
    (hs : s.stopping = true) : Invariant t { s with workers := s.workers.set i .exited } where
  depth := hi.depth
  workers := (List.length_set ..).trans hi.workers
  active := hi.active.trans (running_exit hw).length_eq.symm
  accepted := hi.accepted
  started := hi.started.trans ((running_exit hw).symm.append_right _)
  calls := hi.calls
  fresh := hi.fresh
  exited := fun _ => ⟨hs, hq⟩
  joined := hi.joined_set hw (by decide) _
  returned := fun h => by
    rw [List.length_set]
    exact hi.returned h

theorem take (hi : Invariant t s) {queue : List Call} (hw : s.workers[i]? = some .waiting)
    (hq : s.queue = c :: queue) :
    Invariant t { s with
      queue
      active := s.active + 1
      workers := s.workers.set i (.running c)
      started := s.started ++ [c] } where
  depth := by
    have h := hi.depth
    rw [hq, List.length_cons] at h
    exact Nat.le_of_succ_le h
  workers := (List.length_set ..).trans hi.workers
  active := by
    refine Eq.trans ?_ (running_start hw).length_eq.symm
    rw [List.length_cons]
    exact congrArg (· + 1) hi.active
  accepted := by
    dsimp only
    rw [hi.accepted, hq, List.append_assoc, List.singleton_append]
  started := by
    have h : (s.started ++ [c]).Perm (c :: (s.running ++ s.finished)) :=
      (List.perm_append_comm).trans (hi.started.cons c)
    exact h.trans ((running_start hw).symm.append_right _)
  calls := hi.calls
  fresh := hi.fresh
  exited := by
    -- 空でない queue の前では、戻った worker はまだない。
    intro h
    have hex : Worker.exited ∈ s.workers := (List.mem_or_eq_of_mem_set h).resolve_right (by simp)
    have := (hi.exited hex).2
    rw [hq] at this
    cases this
  joined := hi.joined_set hw (by decide) _
  returned := fun h => by
    rw [List.length_set]
    exact hi.returned h

theorem finish (hi : Invariant t s) (hw : s.workers[i]? = some (.running c)) :
    Invariant t { s with
      active := s.active - 1
      workers := s.workers.set i .waiting
      finished := c :: s.finished } where
  depth := hi.depth
  workers := (List.length_set ..).trans hi.workers
  active := by
    have h := (running_finish hw).length_eq
    rw [List.length_cons] at h
    have ha : s.active = _ := hi.active
    rw [State.running, h] at ha
    dsimp only
    rw [ha]
    rfl
  accepted := hi.accepted
  started := by
    refine hi.started.trans ?_
    refine ((running_finish hw).append_right _).trans ?_
    exact List.perm_middle.symm
  calls := hi.calls
  fresh := hi.fresh
  exited := fun h => hi.exited ((List.mem_or_eq_of_mem_set h).resolve_right (by decide))
  joined := hi.joined_set hw (by simp) _
  returned := fun h => by
    rw [List.length_set]
    exact hi.returned h

theorem stop (hi : Invariant t s) : Invariant t { s with stopping := true } where
  depth := hi.depth
  workers := hi.workers
  active := hi.active
  accepted := hi.accepted
  started := hi.started
  calls := hi.calls
  fresh := hi.fresh
  exited := fun h => ⟨rfl, (hi.exited h).2⟩
  joined := hi.joined
  returned := hi.returned

theorem join (hi : Invariant t s) (hw : s.workers[s.joined]? = some .exited) :
    Invariant t { s with joined := s.joined + 1 } where
  depth := hi.depth
  workers := hi.workers
  active := hi.active
  accepted := hi.accepted
  started := hi.started
  calls := hi.calls
  fresh := hi.fresh
  exited := hi.exited
  joined := fun j hj => by
    rcases Nat.lt_succ_iff_lt_or_eq.mp hj with hj | rfl
    · exact hi.joined j hj
    · exact hw
  returned := fun h => Nat.le_succ_of_le (hi.returned h)

theorem stopReturn (hi : Invariant t s) (hj : s.joined = s.workers.length) :
    Invariant t { s with stopReturned := true } where
  depth := hi.depth
  workers := hi.workers
  active := hi.active
  accepted := hi.accepted
  started := hi.started
  calls := hi.calls
  fresh := hi.fresh
  exited := hi.exited
  joined := hi.joined
  returned := fun _ => Nat.le_of_eq hj.symm

/-- 一つの step は不変条件を保つ。 -/
theorem step (hi : Invariant t s) {a : Action} (h : step t s a = some s') : Invariant t s' := by
  cases a with
  | call =>
    cases h
    exact hi.call
  | enqueue c =>
    obtain ⟨hc, ⟨-, rfl⟩ | ⟨hs, hq, rfl⟩⟩ := enqueue_cases h
    · exact hi.reject hc
    · exact hi.accept hc hs hq
  | fetch i =>
    obtain ⟨hw, ⟨hq, hs, rfl⟩ | ⟨c, queue, hq, rfl⟩⟩ := fetch_cases h
    · exact hi.exit hw hq hs
    · exact hi.take hw hq
  | finish i =>
    obtain ⟨c, hw, rfl⟩ := finish_cases h
    exact hi.finish hw
  | drain =>
    obtain ⟨-, -, rfl⟩ := drain_cases h
    exact hi
  | stop =>
    rcases stop_cases h with ⟨-, rfl⟩ | ⟨-, rfl⟩
    · exact hi
    · exact hi.stop
  | join =>
    obtain ⟨hw, rfl⟩ := join_cases h
    exact hi.join hw
  | stopReturn =>
    obtain ⟨hj, rfl⟩ := stopReturn_cases h
    exact hi.stopReturn hj

/-- 受け入れた task はそれぞれ一つの呼び出しのものである。 -/
theorem nodup_accepted (hi : Invariant t s) : s.accepted.Nodup :=
  (List.nodup_append.mp (List.nodup_append.mp hi.calls).2.1).1

/-- 走らせた列に、同じ task は二度現れない。 -/
theorem nodup_started (hi : Invariant t s) : s.started.Nodup := by
  have h := hi.nodup_accepted
  rw [hi.accepted] at h
  exact (List.nodup_append.mp h).1

/-- 断った task は受け入れた列にない。 -/
theorem not_mem_accepted_of_rejected (hi : Invariant t s) (hc : c ∈ s.rejected) :
    c ∉ s.accepted := by
  intro ha
  exact (List.nodup_append.mp (List.nodup_append.mp hi.calls).2.1).2.2 c ha c hc rfl

theorem not_mem_started_of_rejected (hi : Invariant t s) (hc : c ∈ s.rejected) :
    c ∉ s.started := by
  intro hs
  refine hi.not_mem_accepted_of_rejected hc ?_
  rw [hi.accepted]
  exact List.mem_append_left _ hs

/-- `stop` が戻ったときには、worker はみな戻っている。 -/
theorem all_exited (hi : Invariant t s) (hr : s.stopReturned = true) :
    ∀ w ∈ s.workers, w = .exited := by
  intro w hw
  obtain ⟨j, hj⟩ := List.mem_iff_getElem?.mp hw
  have hlt : j < s.workers.length := (List.getElem?_eq_some_iff.mp hj).1
  have h := hi.joined j (Nat.lt_of_lt_of_le hlt (hi.returned hr))
  rw [hj] at h
  exact Option.some.inj h

/-- worker は必ず一つはあるので、みな戻ったときには queue は空である。 -/
theorem queue_of_returned (hi : Invariant t s) (hr : s.stopReturned = true) : s.queue = [] := by
  have hpos : 0 < s.workers.length := by
    rw [hi.workers]
    exact tuned_workers_pos t
  have hmem := List.getElem_mem hpos
  rw [hi.all_exited hr _ hmem] at hmem
  exact (hi.exited hmem).2

theorem running_of_returned (hi : Invariant t s) (hr : s.stopReturned = true) : s.running = [] := by
  rw [State.running, List.filterMap_eq_nil_iff]
  intro w hw
  rw [hi.all_exited hr w hw]
  rfl

end Invariant

theorem Reachable.invariant {t : IoTuning} {s : State} (h : Reachable t s) : Invariant t s := by
  induction h with
  | start => exact Invariant.start t
  | step _ hs ih => exact ih.step hs

/-- step の列を走らせる。 -/
def runAll (t : IoTuning) (s : State) : List Action → Option State
  | [] => some s
  | a :: as => (step t s a).bind fun s' => runAll t s' as

theorem Reachable.runAll {t : IoTuning} {s s' : State} {as : List Action} (h : Reachable t s)
    (hr : runAll t s as = some s') : Reachable t s' := by
  induction as generalizing s with
  | nil =>
    cases hr
    exact h
  | cons a as ih =>
    obtain ⟨s₁, hs, hr⟩ := Option.bind_eq_some_iff.mp hr
    exact ih (h.step hs) hr

/-! ## 仕事は失われず、繰り返されない -/

/--
**scheduler は task を失わず、二度走らせない。**

どの状態でも queue は `queue_depth` を超えず、`active_` は走っている task の数で、受け入れた task は
高々一度しか走らない。`stopping_` を立てた `stop` が戻ったときには、どれもちょうど一度走り終えている。
`stopping_` を見た `enqueue` は断られ、その task は走らない。`drain` が戻るのは、queue が空で
走っている task のないときに限る。
-/
theorem reachable_sound {t : IoTuning} {s : State} (h : Reachable t s) :
    s.queue.length ≤ (tuned t).queueDepth ∧ s.active = s.running.length ∧
      (∀ c ∈ s.accepted, s.started.count c ≤ 1) ∧
      (s.stopReturned = true →
        ∀ c ∈ s.accepted, s.started.count c = 1 ∧ s.finished.count c = 1) ∧
      (∀ c s', s.stopping = true → step t s (.enqueue c) = some s' →
        c ∈ s'.rejected ∧ c ∉ s'.accepted) ∧
      (∀ c ∈ s.rejected, c ∉ s.started) ∧
      ∀ s', step t s .drain = some s' → s'.queue = [] ∧ s'.active = 0 ∧ s'.running = [] := by
  have hi := h.invariant
  refine ⟨hi.depth, hi.active, ?_, ?_, ?_, ?_, ?_⟩
  · intro c _
    exact List.nodup_iff_count_le_one.mp hi.nodup_started c
  · intro hr c hc
    have hacc := hi.accepted
    rw [hi.queue_of_returned hr, List.append_nil] at hacc
    have hperm := hi.started
    rw [hi.running_of_returned hr, List.nil_append] at hperm
    have hone : s.started.count c = 1 := List.count_eq_one_of_mem hi.nodup_started (hacc ▸ hc)
    exact ⟨hone, (hperm.count_eq c).symm.trans hone⟩
  · intro c s' hs hstep
    have hmem : c ∈ s'.rejected := by
      obtain ⟨-, ⟨-, rfl⟩ | ⟨hs', -⟩⟩ := enqueue_cases hstep
      · exact List.mem_cons_self
      · rw [hs] at hs'
        cases hs'
    exact ⟨hmem, (hi.step hstep).not_mem_accepted_of_rejected hmem⟩
  · intro c hc
    exact hi.not_mem_started_of_rejected hc
  · intro s' hstep
    obtain ⟨hq, ha, rfl⟩ := drain_cases hstep
    refine ⟨hq, ha, List.eq_nil_of_length_eq_zero ?_⟩
    rw [← hi.active, ha]

/-- 二つの worker が、入れ替わりに届く四つの task を分け合う。五つ目は止まった後に届く。 -/
def twoWorkers : List Action := [
  .call, .call, .call, .call, .call, .enqueue 1, .enqueue 0, .fetch 0, .enqueue 2, .fetch 1,
  .finish 1, .fetch 1, .enqueue 3, .stop, .enqueue 4, .finish 0, .fetch 0, .finish 1, .fetch 1,
  .finish 0, .fetch 0, .join, .join, .stopReturn]

theorem reachable_sound_twoWorkers : ∃ s, runAll { workers := 2, queueDepth := 2 }
      (start { workers := 2, queueDepth := 2 }) twoWorkers = some s ∧
    s.accepted = [1, 0, 2, 3] ∧ s.rejected = [4] ∧ s.stopReturned = true ∧
    (∀ c ∈ s.accepted, s.started.count c = 1 ∧ s.finished.count c = 1) ∧
    ∀ c ∈ s.rejected, c ∉ s.started := by
  obtain ⟨s, hs⟩ := Option.isSome_iff_exists.mp (show (runAll { workers := 2, queueDepth := 2 }
    (start { workers := 2, queueDepth := 2 }) twoWorkers).isSome = true by decide)
  have hfacts : (runAll { workers := 2, queueDepth := 2 } (start { workers := 2, queueDepth := 2 })
      twoWorkers).all fun s =>
        s.accepted == [1, 0, 2, 3] && s.rejected == [4] && s.stopReturned := by decide
  rw [hs] at hfacts
  simp only [Option.all_some, Bool.and_eq_true, beq_iff_eq] at hfacts
  obtain ⟨⟨hacc, hrej⟩, hret⟩ := hfacts
  obtain ⟨-, -, -, hdone, -, hnever, -⟩ := reachable_sound (Reachable.start.runAll hs)
  exact ⟨s, hs, hacc, hrej, hret, hdone hret, hnever⟩

end Scheduler

end Fsx
