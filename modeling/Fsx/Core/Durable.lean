import Mathlib.Data.List.Basic
import Mathlib.Data.List.Infix

/-!
# 同期されるまで残るとは限らない操作

操作は領域に分かれ、領域ごとに同期できる。同期の済んだ操作はすべて残り、
済んでいない操作は一つずつ、残るか残らないかである。

状態・操作・領域は何でもよい。領域の同期が守るのは、その領域の操作だけで決まる「見え方」である。
-/

namespace Fsx

variable {σ ω δ τ : Type}

/-- 操作か、領域の同期。 -/
inductive DurableEvent (ω δ : Type) where
  | op (o : ω)
  | sync (d : δ)

namespace DurableEvent

/-- 記録の操作だけを並べたもの。 -/
def ops : List (DurableEvent ω δ) → List ω
  | [] => []
  | .op o :: es => o :: ops es
  | .sync _ :: es => ops es

theorem ops_append : ∀ es fs : List (DurableEvent ω δ), ops (es ++ fs) = ops es ++ ops fs
  | [], _ => rfl
  | .op _ :: es, fs => congrArg (List.cons _) (ops_append es fs)
  | .sync _ :: es, fs => ops_append es fs

theorem mem_ops {o : ω} : ∀ {es : List (DurableEvent ω δ)}, o ∈ ops es ↔ .op o ∈ es
  | [] => by simp [ops]
  | .op _ :: es => by simp [ops, @mem_ops o es]
  | .sync _ :: es => by simp [ops, @mem_ops o es]

end DurableEvent

/-- 耐久な状態と、まだ耐久でない操作。 -/
structure Pending (σ ω : Type) where
  base : σ
  ops : List ω

section Durable

variable [DecidableEq δ] (app : σ → ω → σ) (dom : ω → δ)

/-- 一歩。同期は、その領域の操作を耐久にする。 -/
def Pending.step (p : Pending σ ω) : DurableEvent ω δ → Pending σ ω
  | .op o => { p with ops := p.ops ++ [o] }
  | .sync d => {
      base := (p.ops.filter fun o => decide (dom o = d)).foldl app p.base
      ops := p.ops.filter fun o => !decide (dom o = d) }

def Pending.run (p : Pending σ ω) (es : List (DurableEvent ω δ)) : Pending σ ω :=
  es.foldl (Pending.step app dom) p

/-- `p` のところで止まったときに残りうる状態。 -/
def Pending.Left (p : Pending σ ω) (s : σ) : Prop :=
  ∃ sub : List ω, sub.Sublist p.ops ∧ s = sub.foldl app p.base

/-- 記録のどこかで止まったときに残りうる状態。 -/
def Survives (base : σ) (es : List (DurableEvent ω δ)) (s : σ) : Prop :=
  ∃ pre, pre <+: es ∧ ((⟨base, []⟩ : Pending σ ω).run app dom pre).Left app s

variable {app dom} {p : Pending σ ω} {base s : σ} {es fs : List (DurableEvent ω δ)} {d : δ}

theorem foldl_preserves {P : σ → Prop} {os : List ω} (h : P s)
    (ho : ∀ o ∈ os, ∀ s, P s → P (app s o)) : P (os.foldl app s) := by
  induction os generalizing s with
  | nil => exact h
  | cons o os ih =>
    exact ih (ho o List.mem_cons_self s h) fun q hq => ho q (List.mem_cons_of_mem _ hq)

theorem Pending.run_append (p : Pending σ ω) :
    p.run app dom (es ++ fs) = (p.run app dom es).run app dom fs := List.foldl_append

/-- 記録のどの操作も保つ性質は、耐久な状態でも成り立つ。残る操作も、記録のものである。 -/
theorem Pending.run_preserves {P : σ → Prop} : ∀ {es : List (DurableEvent ω δ)} {p : Pending σ ω},
    P p.base → (∀ o, o ∈ p.ops ∨ .op o ∈ es → ∀ s, P s → P (app s o)) →
    P (p.run app dom es).base ∧ ∀ o ∈ (p.run app dom es).ops, ∀ s, P s → P (app s o)
  | [], p, h, ho => ⟨h, fun o hm => ho o (Or.inl hm)⟩
  | e :: es, p, h, ho => by
    show P ((p.step app dom e).run app dom es).base ∧ _
    refine Pending.run_preserves ?_ fun o hm => ?_
    · cases e with
      | op o => exact h
      | sync d =>
        exact foldl_preserves h fun o hm => ho o (Or.inl (List.mem_of_mem_filter hm))
    · rcases hm with hm | hm
      · cases e with
        | op q =>
          rcases List.mem_append.mp hm with hm | hm
          · exact ho o (Or.inl hm)
          · rw [List.mem_singleton.mp hm]
            exact ho q (Or.inr List.mem_cons_self)
        | sync d => exact ho o (Or.inl (List.mem_of_mem_filter hm))
      · exact ho o (Or.inr (List.mem_cons_of_mem _ hm))

/-- 耐久な状態の性質は、以後の操作がどれも保つなら、止まった後にも残る。 -/
theorem Pending.left_preserves {P : σ → Prop} (h : P p.base)
    (ho : ∀ o, o ∈ p.ops ∨ .op o ∈ es → ∀ s, P s → P (app s o)) {pre : List (DurableEvent ω δ)}
    (hpre : pre <+: es) (hs : (p.run app dom pre).Left app s) : P s := by
  obtain ⟨h1, h2⟩ := @Pending.run_preserves _ _ _ _ app dom P pre p h fun o hm =>
    ho o (hm.imp_right fun hm => hpre.subset hm)
  obtain ⟨sub, hsub, rfl⟩ := hs
  exact foldl_preserves h1 fun o hm => h2 o (hsub.subset hm)

/-- **どの操作も保つ性質は、どこで止まっても残る。** -/
theorem Survives.preserves {P : σ → Prop} (hs : Survives app dom base es s) (h : P base)
    (ho : ∀ o, .op o ∈ es → ∀ s, P s → P (app s o)) : P s := by
  obtain ⟨pre, hpre, hleft⟩ := hs
  refine @Pending.left_preserves _ _ _ _ app dom ⟨base, []⟩ s es P h (fun o hm => ?_) pre hpre hleft
  rcases hm with hm | hm
  · cases hm
  · exact ho o hm

/-- 継いだ記録の途中は、前の記録の途中か、前を終えてからの途中である。 -/
theorem Survives.split (hs : Survives app dom base (es ++ fs) s) : Survives app dom base es s ∨
    ∃ pre, pre <+: fs ∧ (((⟨base, []⟩ : Pending σ ω).run app dom es).run app dom pre).Left app s := by
  obtain ⟨pre, hpre, hleft⟩ := hs
  rcases List.prefix_or_prefix_of_prefix hpre (List.prefix_append es fs) with h | h
  · exact Or.inl ⟨pre, h, hleft⟩
  · obtain ⟨t, rfl⟩ := h
    rw [Pending.run_append] at hleft
    exact Or.inr ⟨t, (List.prefix_append_right_inj _).mp hpre, hleft⟩

/-! ## 一つの領域の見え方 -/

/-- 領域 `d` の操作だけで決まる見え方。 -/
structure ViewOf (app : σ → ω → σ) (dom : ω → δ) (d : δ) (v : σ → τ) (g : τ → ω → τ) : Prop where
  inside : ∀ s o, dom o = d → v (app s o) = g (v s) o
  outside : ∀ s o, dom o ≠ d → v (app s o) = v s

variable {v : σ → τ} {g : τ → ω → τ}

theorem ViewOf.foldl (hv : ViewOf app dom d v g) : ∀ (os : List ω) (s : σ),
    v (os.foldl app s) = (os.filter fun o => decide (dom o = d)).foldl g (v s)
  | [], _ => rfl
  | o :: os, s => by
    rw [List.foldl_cons, hv.foldl os]
    by_cases ho : dom o = d
    · rw [List.filter_cons_of_pos (by simpa using ho), List.foldl_cons, hv.inside s o ho]
    · rw [List.filter_cons_of_neg (by simpa using ho), hv.outside s o ho]

/-- 耐久な見え方に、残る操作を施すと、すべての操作を施した見え方になる。 -/
theorem ViewOf.run (hv : ViewOf app dom d v g) :
    ∀ (es : List (DurableEvent ω δ)) (p : Pending σ ω),
      v ((p.run app dom es).ops.foldl app (p.run app dom es).base) =
        v ((p.ops ++ DurableEvent.ops es).foldl app p.base)
  | [], p => by
    rw [DurableEvent.ops, List.append_nil]
    rfl
  | .op o :: es, p => by
    have ih := hv.run es (p.step app dom (.op o))
    refine ih.trans ?_
    show v ((p.ops ++ [o] ++ DurableEvent.ops es).foldl app p.base) = _
    rw [List.append_assoc]
    rfl
  | .sync c :: es, p => by
    refine (hv.run es (p.step app dom (.sync c))).trans ?_
    show v (((p.ops.filter fun o => !decide (dom o = c)) ++ DurableEvent.ops es).foldl app
      ((p.ops.filter fun o => decide (dom o = c)).foldl app p.base)) =
        v ((p.ops ++ DurableEvent.ops es).foldl app p.base)
    rw [← List.foldl_append, hv.foldl, hv.foldl, List.filter_append, List.filter_append,
      List.filter_append, List.filter_filter, List.filter_filter]
    congr 1
    by_cases hcd : c = d
    · -- 同期した領域そのもの
      subst hcd
      have hrest : (p.ops.filter fun o => decide (dom o = c) && !decide (dom o = c)) = [] :=
        List.filter_eq_nil_iff.mpr fun o _ => by simp
      rw [hrest, List.nil_append]
      congr 1
      exact List.filter_congr fun o _ => Bool.and_self _
    · have hnone : (p.ops.filter fun o => decide (dom o = d) && decide (dom o = c)) = [] := by
        refine List.filter_eq_nil_iff.mpr fun o _ => ?_
        simp only [Bool.and_eq_true, decide_eq_true_eq, not_and]
        rintro rfl rfl
        exact hcd rfl
      rw [hnone, List.nil_append]
      congr 1
      refine List.filter_congr fun o _ => ?_
      by_cases ho : dom o = d
      · simp [ho, Ne.symm hcd]
      · simp [ho]

/-- 同期した領域の操作は、残っていない。 -/
theorem ops_run_sync (p : Pending σ ω) :
    ∀ o ∈ (p.run app dom (es ++ [.sync d])).ops, dom o ≠ d := by
  intro o ho
  rw [Pending.run_append] at ho
  have h : o ∈ (p.run app dom es).ops.filter fun o => !decide (dom o = d) := ho
  simpa using (List.mem_filter.mp h).2

/-- **同期が済めば、耐久な見え方は、それまでのすべての操作を施したものである。** -/
theorem ViewOf.synced (hv : ViewOf app dom d v g) :
    v ((⟨base, []⟩ : Pending σ ω).run app dom (es ++ [.sync d])).base =
      v ((DurableEvent.ops es).foldl app base) := by
  have hall := hv.run (es ++ [.sync d]) ⟨base, []⟩
  rw [hv.foldl, List.filter_eq_nil_iff.mpr fun o ho => by simpa using ops_run_sync _ o ho,
    List.foldl_nil, DurableEvent.ops_append, List.nil_append] at hall
  rw [hall]
  show v ((DurableEvent.ops es ++ []).foldl app base) = _
  rw [List.append_nil]

/-- **同期が済んだ性質は、以後の操作がどれも保つなら、どこで止まっても残る。** -/
theorem ViewOf.survives (hv : ViewOf app dom d v g) {P : τ → Prop}
    (h : P (v ((DurableEvent.ops es).foldl app base)))
    (hfs : ∀ o, .op o ∈ fs → ∀ s, P (v s) → P (v (app s o))) {pre : List (DurableEvent ω δ)}
    (hpre : pre <+: fs)
    (hs : (((⟨base, []⟩ : Pending σ ω).run app dom (es ++ [.sync d])).run app dom pre).Left app s) :
    P (v s) := by
  refine @Pending.left_preserves _ _ _ _ app dom _ s fs (fun s => P (v s)) ?_ (fun o hm => ?_) pre
    hpre hs
  · rw [hv.synced]
    exact h
  · rcases hm with hm | hm
    · have hd := ops_run_sync _ o hm
      exact fun s hP => by rw [hv.outside s o hd]; exact hP
    · exact hfs o hm

end Durable

end Fsx
