import Fsx.Core.Error

/-!
# 手続きの前後条件

`Triple P p Q E` は、`P` の状態から走らせた手続き `p` が、成功すれば値と状態について `Q` を、
失敗すれば状態について `E` を満たすことを言う。失敗しても状態は残るので、`E` も状態を見る。

状態を持つ手続きの一般の規則だけを置く。
-/

namespace Fsx.Proc

variable {σ α β : Type}

/-- 前後条件。 -/
def Triple (P : σ → Prop) (p : Proc σ α) (Q : α → σ → Prop) (E : σ → Prop) : Prop :=
  ∀ s, P s → (∀ a s', run p s = (.ok a, s') → Q a s') ∧ ∀ e s', run p s = (.error e, s') → E s'

/-- 不変条件を保つこと。値については何も言わない。 -/
abbrev Keeps (I : σ → Prop) (p : Proc σ α) : Prop := Triple I p (fun _ => I) I

namespace Triple

variable {P P' : σ → Prop} {Q Q' : α → σ → Prop} {R : β → σ → Prop} {E E' : σ → Prop}

theorem ok {p : Proc σ α} (h : Triple P p Q E) {s s' : σ} {a : α} (hs : P s)
    (hr : run p s = (.ok a, s')) : Q a s' := (h s hs).1 a s' hr

theorem error {p : Proc σ α} (h : Triple P p Q E) {s s' : σ} {e : Error} (hs : P s)
    (hr : run p s = (.error e, s')) : E s' := (h s hs).2 e s' hr

theorem mono {p : Proc σ α} (h : Triple P p Q E) (hp : ∀ s, P' s → P s)
    (hq : ∀ a s, Q a s → Q' a s) (he : ∀ s, E s → E' s) : Triple P' p Q' E' := by
  intro s hs
  obtain ⟨h1, h2⟩ := h s (hp s hs)
  exact ⟨fun a s' hr => hq a s' (h1 a s' hr), fun e s' hr => he s' (h2 e s' hr)⟩

theorem pure {a : α} (h : ∀ s, P s → Q a s) : Triple P (Pure.pure a : Proc σ α) Q E := by
  intro s hs
  rw [run_pure]
  constructor
  · intro b s' hr
    cases hr
    exact h s hs
  · intro e s' hr
    cases hr

theorem throw {e : Error} (h : ∀ s, P s → E s) :
    Triple P (MonadExcept.throw e : Proc σ α) Q E := by
  intro s hs
  rw [run_throw]
  constructor
  · intro a s' hr
    cases hr
  · intro e' s' hr
    cases hr
    exact h s hs

theorem reading {f : σ → Result α} (h : ∀ s a, P s → f s = .ok a → Q a s)
    (he : ∀ s, P s → E s) : Triple P (Proc.reading f) Q E := by
  intro s hs
  rw [run_reading]
  constructor
  · intro a s' hr
    obtain ⟨hf, rfl⟩ := Prod.mk.inj hr
    exact h s a hs hf
  · intro e s' hr
    obtain ⟨hf, rfl⟩ := Prod.mk.inj hr
    exact he s hs

theorem stepping {f : σ → Result σ} {Q : Unit → σ → Prop}
    (h : ∀ s s', P s → f s = .ok s' → Q () s') (he : ∀ s, P s → E s) :
    Triple P (Proc.stepping f) Q E := by
  intro s hs
  cases hf : f s with
  | ok t =>
    rw [run_stepping_ok hf]
    constructor
    · intro a s' hr
      cases hr
      exact h s t hs hf
    · intro e s' hr
      cases hr
  | error e =>
    rw [run_stepping_error hf]
    constructor
    · intro a s' hr
      cases hr
    · intro e' s' hr
      cases hr
      exact he s hs

/-- 失敗しない歩みでは、失敗の後の条件は要らない。 -/
theorem stepping_ok {f : σ → Result σ} {Q : Unit → σ → Prop}
    (h : ∀ s, P s → ∃ s', f s = .ok s' ∧ Q () s') : Triple P (Proc.stepping f) Q E := by
  intro s hs
  obtain ⟨t, hf, ht⟩ := h s hs
  rw [run_stepping_ok hf]
  constructor
  · intro a s' hr
    cases hr
    exact ht
  · intro e s' hr
    cases hr

theorem get {Q : σ → σ → Prop} (h : ∀ s, P s → Q s s) :
    Triple P (MonadState.get : Proc σ σ) Q E := by
  intro s hs
  rw [run_get]
  constructor
  · intro a s' hr
    cases hr
    exact h s hs
  · intro e s' hr
    cases hr

theorem bind {p : Proc σ β} {f : β → Proc σ α} (hp : Triple P p R E)
    (hf : ∀ b, Triple (R b) (f b) Q E) : Triple P (p >>= f) Q E := by
  intro s hs
  rw [run_bind]
  cases hr : run p s with
  | mk r s' =>
    cases r with
    | ok b => exact hf b s' (hp.ok hs hr)
    | error e =>
      constructor
      · intro a t ht
        cases ht
      · intro e' t ht
        cases ht
        exact hp.error hs hr

theorem ite {c : Prop} [Decidable c] {p q : Proc σ α} (hp : c → Triple P p Q E)
    (hq : ¬ c → Triple P q Q E) : Triple P (if c then p else q) Q E := by
  by_cases h : c
  · rw [if_pos h]
    exact hp h
  · rw [if_neg h]
    exact hq h

/-- `if c then throw e` の後に続く手続き。 -/
theorem guard {c : Prop} [Decidable c] {e : Error} {f : β → Proc σ α} {q : Proc σ α}
    (he : ∀ s, P s → E s) (hq : ¬ c → Triple P q Q E) :
    Triple P (if c then (MonadExcept.throw e : Proc σ β) >>= f else q) Q E :=
  ite (fun _ => bind (R := fun _ _ => False) (throw he) fun _ _ hs => hs.elim) hq

/-- 状態が `s₀` に決まっているなら、読むだけの計算の後は、読んだ値ごとに調べればよい。 -/
theorem reading_bind {s₀ : σ} {f : σ → Result β} {k : β → Proc σ α} (he : E s₀)
    (hk : ∀ b, f s₀ = .ok b → Triple (fun s => s = s₀) (k b) Q E) :
    Triple (fun s => s = s₀) (Proc.reading f >>= k) Q E := by
  refine bind (R := fun b s => s = s₀ ∧ f s₀ = .ok b) (reading ?_ ?_) fun b s hs => hk b hs.2 s hs.1
  · rintro s b rfl hb
    exact ⟨rfl, hb⟩
  · rintro s rfl
    exact he

/-- 成功しても失敗しても `I` になるなら、結果の状態で `I` が成り立つ。 -/
theorem holds {I : σ → Prop} {p : Proc σ α} (h : Triple P p (fun _ => I) I) {s : σ} (hs : P s) :
    I (run p s).2 := by
  cases hr : run p s with
  | mk r s' =>
    cases r with
    | ok a => exact h.ok hs hr
    | error e => exact h.error hs hr

end Triple

/-! ## 何も変えずに断ること -/

section Declines

variable {γ : Type} {obs : σ → γ} {s : σ}

/-- 失敗して、`obs` で見える状態が変わらない。 -/
def Declines (obs : σ → γ) (p : Proc σ α) (s : σ) : Prop :=
  (∃ e, (run p s).1 = .error e) ∧ obs (run p s).2 = obs s

theorem Declines.of_run {p : Proc σ α} {e : Error} {s' : σ} (h : run p s = (.error e, s'))
    (hobs : obs s' = obs s) : Declines obs p s := by
  unfold Declines
  rw [h]
  exact ⟨⟨e, rfl⟩, hobs⟩

theorem Declines.bind {p : Proc σ β} {k : β → Proc σ α} (h : Declines obs p s) :
    Declines obs (p >>= k) s := by
  obtain ⟨⟨e, he⟩, hobs⟩ := h
  exact Declines.of_run (run_bind_error (Prod.ext he rfl)) hobs

/-- 進んだ先で見える状態が変わっていなければ、残りが断るかだけを調べればよい。 -/
theorem Declines.bind_ok {p : Proc σ β} {k : β → Proc σ α} {b : β} {s' : σ}
    (h : run p s = (.ok b, s')) (hobs : obs s' = obs s) (hk : Declines obs (k b) s') :
    Declines obs (p >>= k) s := by
  unfold Declines
  rw [run_bind_ok h]
  exact ⟨hk.1, hk.2.trans hobs⟩

theorem Declines.reading {f : σ → Result α} (h : ∀ a, f s ≠ .ok a) :
    Declines obs (Proc.reading f) s := by
  cases hf : f s with
  | ok a => exact absurd hf (h a)
  | error e => exact Declines.of_run (run_reading f s |>.trans (by rw [hf])) rfl

/-- 読むだけの計算の後は、それが成功したときだけを調べればよい。 -/
theorem Declines.reading_bind {f : σ → Result β} {k : β → Proc σ α}
    (hk : ∀ b, f s = .ok b → Declines obs (k b) s) : Declines obs (Proc.reading f >>= k) s := by
  cases hf : f s with
  | ok b => exact Declines.bind_ok (run_reading f s |>.trans (by rw [hf])) rfl (hk b hf)
  | error e => exact Declines.of_run (run_bind_error (run_reading f s |>.trans (by rw [hf]))) rfl

theorem Declines.guard {c : Prop} [Decidable c] {e : Error} {f : β → Proc σ α} {q : Proc σ α}
    (hq : ¬ c → Declines obs q s) :
    Declines obs (if c then (MonadExcept.throw e : Proc σ β) >>= f else q) s := by
  by_cases h : c
  · rw [if_pos h]
    exact Declines.of_run (run_bind_error (run_throw e s)) rfl
  · rw [if_neg h]
    exact hq h

theorem Declines.stepping {f : σ → Result σ} (h : ∀ s', f s ≠ .ok s') :
    Declines obs (Proc.stepping f) s := by
  cases hf : f s with
  | ok s' => exact absurd hf (h s')
  | error e => exact Declines.of_run (run_stepping_error hf) rfl

end Declines

/-! ## 失敗の値と、そのときの状態 -/

section FailsIn

variable {E : Error → σ → Prop} {s : σ}

/-- `s` から走らせて失敗すれば、その値と状態は `E` を満たす。 -/
def FailsIn (E : Error → σ → Prop) (p : Proc σ α) (s : σ) : Prop :=
  ∀ e s', run p s = (.error e, s') → E e s'

theorem FailsIn.of_ok {p : Proc σ α} {a : α} {s' : σ} (h : run p s = (.ok a, s')) :
    FailsIn E p s := by
  intro e t ht
  rw [h] at ht
  cases ht

theorem FailsIn.mono {E' : Error → σ → Prop} {p : Proc σ α} (h : FailsIn E p s)
    (himp : ∀ e s', E e s' → E' e s') : FailsIn E' p s :=
  fun e s' hr => himp e s' (h e s' hr)

theorem FailsIn.bind {p : Proc σ β} {k : β → Proc σ α} (hp : FailsIn E p s)
    (hk : ∀ b s', run p s = (.ok b, s') → FailsIn E (k b) s') : FailsIn E (p >>= k) s := by
  intro e t ht
  rw [run_bind] at ht
  cases hr : run p s with
  | mk r s' =>
    rw [hr] at ht
    cases r with
    | ok b => exact hk b s' hr e t ht
    | error e' =>
      cases ht
      exact hp _ _ hr

theorem FailsIn.bind_ok {p : Proc σ β} {k : β → Proc σ α} {b : β} {s' : σ}
    (h : run p s = (.ok b, s')) (hk : FailsIn E (k b) s') : FailsIn E (p >>= k) s := by
  unfold FailsIn
  rw [run_bind_ok h]
  exact hk

theorem FailsIn.reading {f : σ → Result α} (h : ∀ e, f s = .error e → E e s) :
    FailsIn E (Proc.reading f) s := by
  intro e s' hr
  rw [run_reading] at hr
  obtain ⟨hf, rfl⟩ := Prod.mk.inj hr
  exact h e hf

theorem FailsIn.stepping {f : σ → Result σ} (h : ∀ e, f s = .error e → E e s) :
    FailsIn E (Proc.stepping f) s := by
  intro e s' hr
  cases hf : f s with
  | ok t =>
    rw [run_stepping_ok hf] at hr
    cases hr
  | error e' =>
    rw [run_stepping_error hf] at hr
    cases hr
    exact h e hf

/-- 読むだけの計算の後は、それが成功したときだけを調べればよい。 -/
theorem FailsIn.reading_bind {f : σ → Result β} {k : β → Proc σ α} (h : ∀ e, E e s)
    (hk : ∀ b, f s = .ok b → FailsIn E (k b) s) : FailsIn E (Proc.reading f >>= k) s := by
  refine FailsIn.bind (FailsIn.reading fun e _ => h e) fun b s' hr => ?_
  rw [run_reading] at hr
  obtain ⟨hf, rfl⟩ := Prod.mk.inj hr
  exact hk b hf

theorem FailsIn.guard {c : Prop} [Decidable c] {e : Error} {f : β → Proc σ α} {q : Proc σ α}
    (he : c → E e s) (hq : ¬ c → FailsIn E q s) :
    FailsIn E (if c then (MonadExcept.throw e : Proc σ β) >>= f else q) s := by
  by_cases h : c
  · rw [if_pos h]
    intro e' s' hr
    rw [run_bind_error (run_throw e s)] at hr
    cases hr
    exact he h
  · rw [if_neg h]
    exact hq h

end FailsIn

end Fsx.Proc
