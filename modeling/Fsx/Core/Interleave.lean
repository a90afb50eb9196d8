import Mathlib.Data.List.Basic

/-!
# 並行に走る仕事の一般論

仕事の列が状態を共有し、予定（どの仕事を次に進めるかの列）のとおりに一歩ずつ進む。

`interleave_inv` は、仕事ごとの不変条件 `I i` がほかの仕事の一歩で壊れなければ、
どの予定でも最後まで保たれることを言う。`interleave_settles` は、仕事ごとの残りの歩数が
予定の中のその仕事の出番より多くなければ、すべての仕事が終わることを言う。
-/

namespace Fsx

variable {σ J π : Type}

/-- 予定のとおりに仕事を進める。予定の項は、進める仕事の番号と、その一歩への外からの答えである。 -/
def interleave (step : π → J → σ → J × σ) : List (Nat × π) → List J → σ → List J × σ
  | [], jobs, s => (jobs, s)
  | (i, p) :: rest, jobs, s =>
    match jobs[i]? with
    | none => interleave step rest jobs s
    | some j => interleave step rest (jobs.set i (step p j s).1) (step p j s).2

variable {step : π → J → σ → J × σ}

/-- 仕事の番号が範囲の外なら、予定の項は何もしない。 -/
theorem interleave_cons_none {i : Nat} {p : π} {rest : List (Nat × π)} {jobs : List J} {s : σ}
    (h : jobs[i]? = none) : interleave step ((i, p) :: rest) jobs s = interleave step rest jobs s := by
  rw [interleave, h]

theorem interleave_cons_some {i : Nat} {p : π} {rest : List (Nat × π)} {jobs : List J} {s : σ} {j : J}
    (h : jobs[i]? = some j) : interleave step ((i, p) :: rest) jobs s =
      interleave step rest (jobs.set i (step p j s).1) (step p j s).2 := by
  rw [interleave, h]

/-- 予定に並ぶ答えについて同じ一歩は、同じ結果になる。 -/
theorem interleave_congr {step' : π → J → σ → J × σ} {sched : List (Nat × π)}
    (h : ∀ x ∈ sched, step x.2 = step' x.2) (jobs : List J) (s : σ) :
    interleave step sched jobs s = interleave step' sched jobs s := by
  induction sched generalizing jobs s with
  | nil => rfl
  | cons x rest ih =>
    obtain ⟨i, p⟩ := x
    have hrest := ih fun y hy => h y (List.mem_cons_of_mem _ hy)
    cases hj : jobs[i]? with
    | none => rw [interleave_cons_none hj, interleave_cons_none hj, hrest]
    | some j =>
      rw [interleave_cons_some hj, interleave_cons_some hj, hrest, h (i, p) List.mem_cons_self]

/--
**ほかの仕事の一歩で壊れない不変条件は、どの予定でも保たれる。**
`G` は共有の状態の不変条件、`I i` は `i` 番の仕事の不変条件である。
-/
theorem interleave_inv {G : σ → Prop} {I : Nat → J → σ → Prop}
    (hstep : ∀ p i j s, G s → I i j s → G (step p j s).2 ∧ I i (step p j s).1 (step p j s).2 ∧
      ∀ k j', k ≠ i → I k j' s → I k j' (step p j s).2)
    (sched : List (Nat × π)) {jobs : List J} {s : σ} (hG : G s)
    (hI : ∀ i j, jobs[i]? = some j → I i j s) :
    G (interleave step sched jobs s).2 ∧
      (interleave step sched jobs s).1.length = jobs.length ∧
      ∀ i j, (interleave step sched jobs s).1[i]? = some j → I i j (interleave step sched jobs s).2 := by
  induction sched generalizing jobs s with
  | nil => exact ⟨hG, rfl, hI⟩
  | cons x rest ih =>
    obtain ⟨i, p⟩ := x
    cases h : jobs[i]? with
    | none =>
      rw [interleave_cons_none h]
      exact ih hG hI
    | some j =>
      obtain ⟨hG', hown, hother⟩ := hstep p i j s hG (hI i j h)
      have hlt : i < jobs.length := (List.getElem?_eq_some_iff.mp h).1
      have := @ih (jobs.set i (step p j s).1) (step p j s).2 hG' fun k j' hk => ?_
      · rw [interleave_cons_some h]
        rwa [List.length_set] at this
      · by_cases hki : k = i
        · subst hki
          rw [List.getElem?_set_self hlt] at hk
          cases hk
          exact hown
        · rw [List.getElem?_set_ne (Ne.symm hki)] at hk
          exact hother k j' hki (hI k j' hk)

/-- 仕事ごとの残りの歩数 `μ` は、その仕事の出番のたびに減る。 -/
theorem interleave_settles {μ : J → Nat} (hstep : ∀ p j s, μ (step p j s).1 ≤ μ j - 1)
    (sched : List (Nat × π)) {jobs : List J} {s : σ} {i : Nat} {j : J}
    (h : (interleave step sched jobs s).1[i]? = some j) :
    ∃ j₀, jobs[i]? = some j₀ ∧ μ j ≤ μ j₀ - (sched.filter fun x => decide (x.1 = i)).length := by
  induction sched generalizing jobs s with
  | nil => exact ⟨j, h, Nat.le_refl _⟩
  | cons x rest ih =>
    obtain ⟨k, p⟩ := x
    cases hk : jobs[k]? with
    | none =>
      rw [interleave_cons_none hk] at h
      obtain ⟨j₀, hj, hle⟩ := ih h
      have hne : k ≠ i := by
        rintro rfl
        rw [hk] at hj
        cases hj
      rw [List.filter_cons_of_neg (by simpa using hne)]
      exact ⟨j₀, hj, hle⟩
    | some jk =>
      rw [interleave_cons_some hk] at h
      obtain ⟨j₀, hj, hle⟩ := ih h
      have hlt : k < jobs.length := (List.getElem?_eq_some_iff.mp hk).1
      by_cases hne : k = i
      · subst hne
        rw [List.getElem?_set_self hlt] at hj
        cases hj
        have hdec := hstep p jk s
        rw [List.filter_cons_of_pos (by simp), List.length_cons]
        exact ⟨jk, hk, by omega⟩
      · rw [List.getElem?_set_ne hne] at hj
        rw [List.filter_cons_of_neg (by simpa using hne)]
        exact ⟨j₀, hj, hle⟩

/-- 仕事 `i` の出番を `c i` 回ずつ並べた予定では、仕事 `i` の出番は `c i` 回を下らない。 -/
theorem le_turns {c : Nat → Nat} {p : π} {n i : Nat} (h : i < n) :
    c i ≤ (((List.range n).flatMap fun k => List.replicate (c k) (k, p)).filter
      fun x => decide (x.1 = i)).length := by
  have hmem : List.replicate (c i) (i, p) ∈
      (List.range n).map fun k => List.replicate (c k) (k, p) :=
    List.mem_map.mpr ⟨i, List.mem_range.mpr h, rfl⟩
  have hfil := (List.sublist_flatten_of_mem hmem).filter fun x => decide (x.1 = i)
  rw [List.filter_replicate_of_pos (by simp)] at hfil
  have hlen := hfil.length_le
  rwa [List.length_replicate] at hlen

/-- 予定の後に、残りの歩数だけ出番を並べると、どの仕事にも残りがない。 -/
theorem interleave_drained {μ : J → Nat} (hstep : ∀ p j s, μ (step p j s).1 ≤ μ j - 1)
    (sched : List (Nat × π)) (c : Nat → Nat) (p : π) {jobs : List J} {s : σ} {i : Nat} {j : J}
    (hc : ∀ i j, jobs[i]? = some j → μ j ≤ c i)
    (h : (interleave step (sched ++ (List.range jobs.length).flatMap fun k =>
      List.replicate (c k) (k, p)) jobs s).1[i]? = some j) : μ j = 0 := by
  obtain ⟨j₀, hj, hle⟩ := interleave_settles hstep _ h
  have hturns := le_turns (c := c) (p := p) (List.getElem?_eq_some_iff.mp hj).1
  rw [List.filter_append, List.length_append] at hle
  have hcost := hc i j₀ hj
  omega

/-- **一歩ごとに保たれる性質は、どの予定でも最後まで保たれる。** 仕事の列の全体について述べてよい。 -/
theorem interleave_induct {P : List J → σ → Prop}
    (hstep : ∀ p i j jobs s, jobs[i]? = some j → P jobs s →
      P (jobs.set i (step p j s).1) (step p j s).2)
    (sched : List (Nat × π)) {jobs : List J} {s : σ} (h : P jobs s) :
    P (interleave step sched jobs s).1 (interleave step sched jobs s).2 := by
  induction sched generalizing jobs s with
  | nil => exact h
  | cons x rest ih =>
    obtain ⟨i, p⟩ := x
    cases hj : jobs[i]? with
    | none =>
      rw [interleave_cons_none hj]
      exact ih h
    | some j =>
      rw [interleave_cons_some hj]
      exact ih (hstep p i j jobs s hj h)

/-! ## 終わった仕事 -/

/-- 列の一つを取り替えたとき、取り出されるものの増減。 -/
theorem perm_filterMap_set {α β : Type} (f : α → Option β) {xs : List α} {i : Nat} {x : α}
    (h : xs[i]? = some x) (y : α) :
    ((f x).toList ++ (xs.set i y).filterMap f).Perm ((f y).toList ++ xs.filterMap f) := by
  induction xs generalizing i with
  | nil => cases h
  | cons z xs ih =>
    cases i with
    | zero =>
      cases h
      rw [List.set_cons_zero]
      cases hx : f x <;> cases hy : f y <;> simp [hx, hy, List.Perm.swap]
    | succ i =>
      rw [List.getElem?_cons_succ] at h
      have hrec := ih h
      rw [List.set_cons_succ]
      cases hz : f z with
      | none => simpa [hz] using hrec
      | some b =>
        rw [List.filterMap_cons_some hz, List.filterMap_cons_some hz]
        refine List.perm_middle.trans ?_
        exact (hrec.cons b).trans List.perm_middle.symm

end Fsx
