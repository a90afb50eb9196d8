import Fsx.Core.Hoare
import Fsx.Io.Disk

/-!
# 記録の残る計算

固定幅の整数の計算と device の読み出しを、その記録とともに行う。

`Touch` は一つの計算または一つの読み出しである。計算は切り詰める前の正確な値を残すので、
「あふれない」ことは記録についての命題になる。読み出しは、何を読むかの区別 `ρ` と範囲を残す。
計算があふれず、読み出しが許された範囲 `inside` にあることを `Touch.Permitted` と言う。

* `Machine.Kept inside p Q` — `p` の残す記録は、失敗するときもすべて許され、成功した結果は `Q` を
  満たす。`Triple` の特別な場合である。
* `Machine.Runs inside p r` — `p` の結果はそれまでの記録によらず `r` であり、新しく残した記録は
  すべて許される。

どちらも `bind` の規則で一歩ずつ進む。
-/

namespace Fsx

/-- 一つの計算または一つの読み出し。 -/
inductive Touch (ρ : Type) where
  | arith (bits : Nat) (exact : Int)
  | read (what : ρ) (off len : Nat)

/-- あふれない計算か、`inside` の許す読み出しである。 -/
def Touch.Permitted {ρ : Type} (inside : ρ → Nat → Nat → Prop) : Touch ρ → Prop
  | .arith bits exact => 0 ≤ exact ∧ exact < 2 ^ bits
  | .read what off len => inside what off len

/-- 記録を残す手続き。 -/
abbrev Machine (ρ : Type) := Proc (List (Touch ρ))

namespace Machine

variable {ρ α β : Type}

/-- 幅 `bits` への切り詰め。 -/
def wrap (bits : Nat) (exact : Int) : Nat := (exact % 2 ^ bits).toNat

/-- 正確な値を記録し、切り詰めた値を返す。 -/
def arith (bits : Nat) (exact : Int) : Machine ρ Nat := fun tr =>
  (.ok (wrap bits exact), tr ++ [.arith bits exact])

def add (bits a b : Nat) : Machine ρ Nat := arith bits (a + b : Nat)

def mul (bits a b : Nat) : Machine ρ Nat := arith bits (a * b : Nat)

def sub (bits a b : Nat) : Machine ρ Nat := arith bits ((a : Int) - b)

/-- `d` の `off` から `len` byte を読む。 -/
def read (d : Disk) (what : ρ) (off len : Nat) : Machine ρ Bytes := fun tr =>
  (d.readExact off len, tr ++ [.read what off len])

/-- 失敗しても続ける。 -/
def attempt (p : Machine ρ α) : Machine ρ (Result α) := fun tr =>
  (.ok (Proc.run p tr).1, (Proc.run p tr).2)

/-! ## あふれない計算の値 -/

theorem wrap_natCast {bits n : Nat} (h : n < 2 ^ bits) : wrap bits (n : Int) = n := by
  unfold wrap
  have hcast : ((n : Int) % 2 ^ bits) = ((n % 2 ^ bits : Nat) : Int) := by push_cast; rfl
  rw [hcast, Nat.mod_eq_of_lt h, Int.toNat_natCast]

variable {inside : ρ → Nat → Nat → Prop}

/-! ## `Kept` -/

/-- 記録がすべて許される。 -/
def AllPermitted (inside : ρ → Nat → Nat → Prop) (tr : List (Touch ρ)) : Prop :=
  ∀ t ∈ tr, t.Permitted inside

theorem AllPermitted.append {tr ts : List (Touch ρ)} (h : AllPermitted inside tr)
    (hts : AllPermitted inside ts) : AllPermitted inside (tr ++ ts) := fun t ht => by
  rcases List.mem_append.mp ht with ht | ht
  · exact h t ht
  · exact hts t ht

theorem AllPermitted.mono {inside' : ρ → Nat → Nat → Prop} {tr : List (Touch ρ)}
    (h : AllPermitted inside tr) (himp : ∀ what off len, inside what off len → inside' what off len) :
    AllPermitted inside' tr := fun t ht => by
  cases t with
  | arith bits exact => exact h _ ht
  | read what off len => exact himp _ _ _ (h _ ht)

/-- 記録は許されたままであり、成功した結果は `Q` を満たす。 -/
def Kept (inside : ρ → Nat → Nat → Prop) (p : Machine ρ α) (Q : α → Prop) : Prop :=
  Proc.Triple (AllPermitted inside) p (fun a tr => AllPermitted inside tr ∧ Q a)
    (AllPermitted inside)

section Kept

variable {p : Machine ρ α} {k : α → Machine ρ β} {Q : α → Prop} {R : β → Prop}

theorem Kept.pure {a : α} (h : Q a) : Kept inside (Pure.pure a) Q :=
  Proc.Triple.pure fun _ hs => ⟨hs, h⟩

theorem Kept.throw (e : Error) : Kept inside (throw e : Machine ρ α) Q :=
  Proc.Triple.throw fun _ hs => hs

theorem Kept.bind (hp : Kept inside p Q) (hk : ∀ a, Q a → Kept inside (k a) R) :
    Kept inside (p >>= k) R :=
  Proc.Triple.bind hp fun a tr ⟨hs, ha⟩ => hk a ha tr hs

theorem Kept.guard {c : Prop} [Decidable c] {e : Error} {f : α → Machine ρ β} {q : Machine ρ β}
    (hq : ¬ c → Kept inside q R) :
    Kept inside (if c then (MonadExcept.throw e : Machine ρ α) >>= f else q) R :=
  Proc.Triple.guard (fun _ hs => hs) hq

/-- 続きのない `if c then throw e`。 -/
theorem Kept.last_guard {c : Prop} [Decidable c] {e : Error} {R : Unit → Prop}
    (hq : ¬ c → R ()) :
    Kept inside (if c then (MonadExcept.throw e : Machine ρ Unit) else Pure.pure ()) R :=
  Proc.Triple.ite (fun _ => Kept.throw e) fun hc => Kept.pure (hq hc)

theorem Kept.mono {Q' : α → Prop} (hp : Kept inside p Q) (h : ∀ a, Q a → Q' a) :
    Kept inside p Q' := by
  intro s hs
  exact ⟨fun a s' hr => ⟨(hp.ok hs hr).1, h a (hp.ok hs hr).2⟩, fun e s' hr => hp.error hs hr⟩

theorem Kept.arith {bits n : Nat} (h : n < 2 ^ bits) :
    Kept inside (arith bits (n : Int)) (· = n) := by
  intro tr htr
  have hall : AllPermitted inside (tr ++ [.arith bits n]) := htr.append fun t ht => by
    rw [List.mem_singleton.mp ht]
    exact ⟨Int.natCast_nonneg n, by exact_mod_cast h⟩
  constructor
  · intro a tr' hr
    cases hr
    exact ⟨hall, wrap_natCast h⟩
  · intro e tr' hr
    cases hr

theorem Kept.add {bits a b : Nat} (h : a + b < 2 ^ bits) :
    Kept inside (add bits a b) (· = a + b) := Kept.arith h

theorem Kept.mul {bits a b : Nat} (h : a * b < 2 ^ bits) :
    Kept inside (mul bits a b) (· = a * b) := Kept.arith h

theorem Kept.read {d : Disk} {what : ρ} {off len : Nat} (hin : inside what off len) :
    Kept inside (read d what off len)
      fun b => off + len ≤ d.sizeBytes ∧ b = d.data.read off len := by
  intro tr htr
  have hall : AllPermitted inside (tr ++ [.read what off len]) := htr.append fun t ht => by
    rw [List.mem_singleton.mp ht]
    exact hin
  constructor
  · intro a tr' hr
    obtain ⟨ha, rfl⟩ := Prod.mk.inj hr
    exact ⟨hall, Disk.readExact_eq_ok_iff.mp ha⟩
  · intro e tr' hr
    obtain ⟨-, rfl⟩ := Prod.mk.inj hr
    exact hall

theorem Kept.attempt (hp : Kept inside p Q) :
    Kept inside (attempt p) fun r => ∀ a, r = .ok a → Q a := by
  intro tr htr
  constructor
  · intro r tr' hr
    obtain ⟨ha, rfl⟩ := Prod.mk.inj hr
    cases ha
    cases hrun : Proc.run p tr with
    | mk x tr' =>
      cases x with
      | ok a =>
        obtain ⟨hall, ha⟩ := hp.ok htr hrun
        refine ⟨hall, fun a' h => ?_⟩
        cases h
        exact ha
      | error e => exact ⟨hp.error htr hrun, fun a h => by cases h⟩
  · intro e tr' hr
    cases hr

end Kept

/-! ## `Runs` -/

/-- 結果が `r` で、新しい記録がすべて許される。 -/
def Runs (inside : ρ → Nat → Nat → Prop) (p : Machine ρ α) (r : Result α) : Prop :=
  ∀ tr, ∃ ts, Proc.run p tr = (r, tr ++ ts) ∧ AllPermitted inside ts

section Runs

variable {p : Machine ρ α} {k : α → Machine ρ β} {a : α} {e : Error}

theorem Runs.pure (a : α) : Runs inside (Pure.pure a) (.ok a) :=
  fun tr => ⟨[], by rw [List.append_nil]; rfl, fun t ht => by cases ht⟩

theorem Runs.throw (e : Error) : Runs inside (throw e : Machine ρ α) (.error e) :=
  fun tr => ⟨[], by rw [List.append_nil]; rfl, fun t ht => by cases ht⟩

theorem Runs.bind {r : Result β} (hp : Runs inside p (.ok a)) (hk : Runs inside (k a) r) :
    Runs inside (p >>= k) r := by
  intro tr
  obtain ⟨ts, hrun, hts⟩ := hp tr
  obtain ⟨us, hrun', hus⟩ := hk (tr ++ ts)
  refine ⟨ts ++ us, ?_, hts.append hus⟩
  rw [Proc.run_bind_ok hrun, hrun', List.append_assoc]

theorem Runs.bind_error (hp : Runs inside p (.error e)) : Runs inside (p >>= k) (.error e) := by
  intro tr
  obtain ⟨ts, hrun, hts⟩ := hp tr
  exact ⟨ts, Proc.run_bind_error hrun, hts⟩

theorem Runs.guard {c : Prop} [Decidable c] {q : Machine ρ β} {r : Result β} (hc : ¬ c)
    (hq : Runs inside q r) :
    Runs inside (if c then (MonadExcept.throw e : Machine ρ α) >>= k else q) r := by
  rw [if_neg hc]
  exact hq

theorem Runs.guard_error {c : Prop} [Decidable c] {q : Machine ρ β} (hc : c) :
    Runs inside (if c then (MonadExcept.throw e : Machine ρ α) >>= k else q) (.error e) := by
  rw [if_pos hc]
  exact Runs.bind_error (Runs.throw e)

/-- 続きのない `if c then throw e`。 -/
theorem Runs.last_guard {c : Prop} [Decidable c] (hc : ¬ c) :
    Runs inside (if c then (MonadExcept.throw e : Machine ρ Unit) else Pure.pure ()) (.ok ()) := by
  rw [if_neg hc]
  exact Runs.pure ()

theorem Runs.last_guard_error {c : Prop} [Decidable c] (hc : c) :
    Runs inside (if c then (MonadExcept.throw e : Machine ρ Unit) else Pure.pure ())
      (.error e) := by
  rw [if_pos hc]
  exact Runs.throw e

/-- あふれない計算は、正確な値を返す。 -/
theorem Runs.arith {bits n : Nat} (h : n < 2 ^ bits) :
    Runs inside (arith bits (n : Int)) (.ok n) := by
  intro tr
  refine ⟨[.arith bits n], ?_, fun t ht => ?_⟩
  · show (Except.ok (wrap bits (n : Int)), _) = _
    rw [wrap_natCast h]
  · rw [List.mem_singleton.mp ht]
    exact ⟨Int.natCast_nonneg n, by exact_mod_cast h⟩

theorem Runs.add {bits a b : Nat} (h : a + b < 2 ^ bits) :
    Runs inside (add bits a b) (.ok (a + b)) := Runs.arith h

theorem Runs.mul {bits a b : Nat} (h : a * b < 2 ^ bits) :
    Runs inside (mul bits a b) (.ok (a * b)) := Runs.arith h

theorem Runs.sub {bits a b : Nat} (hle : b ≤ a) (h : a < 2 ^ bits) :
    Runs inside (sub bits a b) (.ok (a - b)) := by
  unfold Machine.sub
  rw [← Int.ofNat_sub hle]
  exact Runs.arith (lt_of_le_of_lt (Nat.sub_le a b) h)

theorem Runs.read {d : Disk} {what : ρ} {off len : Nat} (h : off + len ≤ d.sizeBytes)
    (hin : inside what off len) : Runs inside (read d what off len) (.ok (d.data.read off len)) := by
  intro tr
  refine ⟨[.read what off len], ?_, fun t ht => ?_⟩
  · show (d.readExact off len, _) = _
    rw [Disk.readExact_ok h]
  · rw [List.mem_singleton.mp ht]
    exact hin

/-- 読み出しの結果は、読める範囲かどうかによらず `readExact` と一致する。 -/
theorem Runs.readExact {d : Disk} {what : ρ} {off len : Nat} (hin : inside what off len) :
    Runs inside (Machine.read d what off len) (d.readExact off len) := by
  intro tr
  refine ⟨[.read what off len], rfl, fun t ht => ?_⟩
  rw [List.mem_singleton.mp ht]
  exact hin

/-- 記録のない計算と並べて一歩進む。 -/
theorem Runs.bind_both {x : Result α} {k' : α → Result β} (hp : Runs inside p x)
    (hk : ∀ a, x = .ok a → Runs inside (k a) (k' a)) : Runs inside (p >>= k) (x >>= k') := by
  cases x with
  | error e => exact hp.bind_error
  | ok a => exact hp.bind (hk a rfl)

/-- 記録のない計算と並べて検査を通る。 -/
theorem Runs.guard_both {c c' : Prop} [Decidable c] [Decidable c'] {γ : Type}
    {k' : γ → Result β} {q : Machine ρ β} {r : Result β} (hcc : c ↔ c')
    (hq : ¬ c' → Runs inside q r) :
    Runs inside (if c then (MonadExcept.throw e : Machine ρ α) >>= k else q)
      (if c' then (MonadExcept.throw e : Result γ) >>= k' else r) := by
  by_cases hc : c'
  · rw [if_pos hc]
    exact Runs.guard_error (hcc.mpr hc)
  · rw [if_neg hc]
    exact Runs.guard (fun h => hc (hcc.mp h)) (hq hc)

/-- 結果の決まった手続きは、記録を許されたままにする。 -/
theorem Runs.kept {r : Result α} (h : Runs inside p r) : Kept inside p fun a => r = .ok a := by
  intro tr htr
  obtain ⟨ts, hrun, hts⟩ := h tr
  constructor
  · intro a tr' hr
    rw [hrun] at hr
    obtain ⟨ha, rfl⟩ := Prod.mk.inj hr
    exact ⟨htr.append hts, ha⟩
  · intro e tr' hr
    rw [hrun] at hr
    obtain ⟨-, rfl⟩ := Prod.mk.inj hr
    exact htr.append hts

end Runs

end Machine

end Fsx
