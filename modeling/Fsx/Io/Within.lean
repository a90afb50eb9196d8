import Fsx.Core.Hoare
import Fsx.Io.Disk

/-!
# 書き込みの記録が満たすこと

`Within C P boot es p` は、`boot` から `es` を行う途中のどの device も `C` を満たすなら、`es` の書き込みが
どれも `P` を満たし、さらに `p` が成り立つことを言う。`p` は、読んだ値について持ち越す事実である。

書き込みを足すには、その書き込みについての `P` を `p` に持っていればよい。
-/

namespace Fsx

open Proc

def Within (C : Disk → Prop) (P : Write → Prop) (boot : Disk) (es : List Event) (p : Prop) : Prop :=
  (∀ pre, pre <+: es → C (boot.emit pre)) → (∀ x, .write x ∈ es → P x) ∧ p

namespace Within

variable {C : Disk → Prop} {P : Write → Prop} {boot : Disk} {es : List Event} {p q : Prop}

theorem nil (hp : p) : Within C P boot [] p := fun _ => ⟨fun x hx => (by cases hx), hp⟩

/-- いまの device についての `C` を使って、持ち越す事実を取り替える。 -/
theorem now (h : Within C P boot es p) (hpq : C (boot.emit es) → p → q) : Within C P boot es q := by
  intro hc
  obtain ⟨hall, hp⟩ := h hc
  exact ⟨hall, hpq (hc es List.prefix_rfl) hp⟩

theorem mono (h : Within C P boot es p) (hpq : p → q) : Within C P boot es q :=
  h.now fun _ => hpq

/-- 書き込みを一つ加える。その書き込みについての `P` を、持ち越した事実から取り出す。 -/
theorem write {x : Write} (h : Within C P boot es (P x ∧ p)) :
    Within C P boot (es ++ [.write x]) p := by
  intro hc
  obtain ⟨hall, hx, hp⟩ := h fun pre hpre => hc pre (hpre.trans (List.prefix_append _ _))
  refine ⟨fun y hy => ?_, hp⟩
  rcases List.mem_append.mp hy with hy | hy
  · exact hall y hy
  · cases List.mem_singleton.mp hy
    exact hx

theorem flush (h : Within C P boot es p) : Within C P boot (es ++ [.flush]) p := by
  intro hc
  obtain ⟨hall, hp⟩ := h fun pre hpre => hc pre (hpre.trans (List.prefix_append _ _))
  refine ⟨fun y hy => ?_, hp⟩
  rcases List.mem_append.mp hy with hy | hy
  · exact hall y hy
  · cases List.mem_singleton.mp hy

end Within

/-! ## device の上の手続き -/

/-- いまの device は `boot` から記録の付いた操作だけで来ていて、その記録が `Within` を満たす。 -/
def Disk.Within (C : Disk → Prop) (P : Write → Prop) (boot : Disk) (p : Prop) (d : Disk) : Prop :=
  ∃ es, d = boot.emit es ∧ Fsx.Within C P boot es p

namespace DevM

variable {C : Disk → Prop} {P : Write → Prop} {boot : Disk} {p : Prop} {α : Type}

theorem within_mono {q : Prop} (hpq : p → q) (d : Disk) (h : Disk.Within C P boot p d) :
    Disk.Within C P boot q d := by
  obtain ⟨es, hd, hw⟩ := h
  exact ⟨es, hd, hw.mono hpq⟩

/-- device を読む計算。 -/
theorem triple_reading {f : Disk → Result α} {q : α → Prop}
    (hf : ∀ d a, C d → d.sizeBytes = boot.sizeBytes → p → f d = .ok a → q a) :
    Triple (Disk.Within C P boot p) (Proc.reading f) (fun a => Disk.Within C P boot (q a))
      (Disk.Within C P boot True) := by
  refine Triple.reading ?_ (within_mono fun _ => trivial)
  rintro d a ⟨es, rfl, hw⟩ ha
  exact ⟨es, rfl, hw.now fun hc hp => hf _ a hc rfl hp ha⟩

/-- 書き込みの手続き。失敗しても、それまでの記録は `P` を満たす。 -/
theorem triple_write {off : Nat} {bytes : Bytes} :
    Triple (Disk.Within C P boot (P ⟨off, bytes⟩ ∧ p)) (write off bytes)
      (fun _ => Disk.Within C P boot p) (Disk.Within C P boot True) := by
  refine Triple.stepping ?_ (within_mono fun _ => trivial)
  rintro d d' ⟨es, rfl, hw⟩ hd
  obtain ⟨-, -, rfl⟩ := Disk.writeExact_eq_ok_iff.mp hd
  exact ⟨es ++ [.write ⟨off, bytes⟩], Disk.emit_emit _ _ _, hw.write⟩

/-- flush は書き込みではないので、何も要らない。 -/
theorem triple_flush : Triple (Disk.Within C P boot p) flush (fun _ => Disk.Within C P boot p)
    (Disk.Within C P boot True) := by
  refine Triple.stepping ?_ (within_mono fun _ => trivial)
  rintro d d' ⟨es, rfl, hw⟩ hd
  cases hd
  exact ⟨es ++ [.flush], Disk.emit_emit _ _ _, hw.flush⟩

end DevM

/-! ## 残った記録 -/

/-- 操作が増えても成り立ち続けること。 -/
def Persists (Q : List Event → Prop) : Prop := ∀ es fs, Q es → Q (es ++ fs)

namespace Persists

variable {Q R : List Event → Prop}

theorem and (hQ : Persists Q) (hR : Persists R) : Persists fun es => Q es ∧ R es :=
  fun es fs h => ⟨hQ es fs h.1, hR es fs h.2⟩

theorem mem (e : Event) : Persists fun es => e ∈ es := fun _ _ h => List.mem_append_left _ h

theorem const (p : Prop) : Persists fun _ => p := fun _ _ h => h

end Persists

/-- いまの device までの記録が `Q` を満たす。 -/
def Disk.Logged (Q : List Event → Prop) (boot d : Disk) : Prop := ∃ es, d = boot.emit es ∧ Q es

namespace DevM

variable {Q : List Event → Prop} {boot : Disk} (hQ : Persists Q)
include hQ

/-- 書き込みは記録に残り、残っている性質 `Q` も失われない。 -/
theorem logged_write {off : Nat} {bytes : Bytes} :
    Triple (Disk.Logged Q boot) (write off bytes)
      (fun _ => Disk.Logged (fun es => Q es ∧ .write ⟨off, bytes⟩ ∈ es) boot) fun _ => True := by
  refine Triple.stepping ?_ fun _ _ => trivial
  rintro d d' ⟨es, rfl, h⟩ hd
  obtain ⟨-, -, rfl⟩ := Disk.writeExact_eq_ok_iff.mp hd
  exact ⟨es ++ [.write ⟨off, bytes⟩], Disk.emit_emit _ _ _, hQ _ _ h,
    List.mem_append_right _ List.mem_cons_self⟩

theorem logged_flush : Triple (Disk.Logged Q boot) flush (fun _ => Disk.Logged Q boot)
    fun _ => True := by
  refine Triple.stepping ?_ fun _ _ => trivial
  rintro d d' ⟨es, rfl, h⟩ hd
  cases hd
  exact ⟨es ++ [.flush], Disk.emit_emit _ _ _, hQ _ _ h⟩

end DevM

/-- `boot` の後に付いた記録。 -/
def Disk.since (boot d : Disk) : List Event := d.events.drop boot.events.length

@[simp] theorem Disk.since_emit (boot : Disk) (es : List Event) : boot.since (boot.emit es) = es := by
  unfold Disk.since
  rw [Disk.emit_events, List.drop_left]

end Fsx
