import Fsx.Io.Crash

/-!
# 途中まで届いた書き込み

壊れた書き込みの範囲に残るものは、媒体による。ここでは、書き込みが byte の単位で届く媒体を考える。
壊れた書き込みの各 byte は、前のものか書こうとしたもののどちらかであり、どの byte が届くかは
分からない（`MixedTear`）。書き込みの先頭だけが届いた場合も、sector の単位で届いた場合も含む。

このとき、止まった後のどの byte も、もとの像のものか、書き込みのどれかのものである
（`CrashImage.blend`）。
-/

namespace Fsx

/-- 壊れた書き込みの byte が、どれも前のものか書こうとしたものである媒体。 -/
def MixedTear : Image → Write → Bytes → Prop := fun img w t =>
  ∀ i : Nat, t[i]? = w.bytes[i]? ∨ t[i]? = (img.read w.off w.bytes.length)[i]?

/-- 先頭の `n` byte だけが届いた書き込み。 -/
theorem mixedTear_prefix (img : Image) (w : Write) (n : Nat) (h : n ≤ w.bytes.length) :
    MixedTear img w (w.bytes.take n ++ (img.read w.off w.bytes.length).drop n) := by
  intro i
  have hlen : (w.bytes.take n).length = n := List.length_take_of_le h
  rcases Nat.lt_or_ge i n with hi | hi
  · left
    rw [List.getElem?_append_left (by omega), List.getElem?_take, if_pos hi]
  · right
    rw [List.getElem?_append_right (by omega), List.getElem?_drop, hlen]
    congr 1
    omega

/-- `img'` の各 byte は、`img` のものか、`ws` の書き込みのどれかのものである。 -/
def Blend (img : Image) (ws : List Write) (img' : Image) : Prop :=
  ∀ o, img' o = img o ∨ ∃ w ∈ ws, w.off ≤ o ∧ w.bytes[o - w.off]? = some (img' o)

section Blend

variable {img base base' img' : Image} {us ws : List Write}

theorem Blend.refl (img : Image) (ws : List Write) : Blend img ws img := fun _ => Or.inl rfl

/-- 混ざった列を書いた像も、もとの像と書き込みを混ぜたものである。 -/
theorem Blend.write {w : Write} {t : Bytes} (h : Blend img ws base)
    (ht : ∀ (i : Nat) x, t[i]? = some x → w.bytes[i]? = some x ∨
      x = img (w.off + i) ∨ ∃ v ∈ ws, v.off ≤ w.off + i ∧ v.bytes[w.off + i - v.off]? = some x)
    (hw : w ∈ ws) : Blend img ws (base.write w.off t) := by
  intro o
  by_cases ho : w.off ≤ o ∧ o < w.off + t.length
  · have hx : t[o - w.off]? = some (base.write w.off t o) := by
      rw [Image.write_apply_of_mem ho.1 ho.2, List.getD_eq_getElem?_getD,
        List.getElem?_eq_getElem (by omega), Option.getD_some]
    have hadd : w.off + (o - w.off) = o := by omega
    rcases ht _ _ hx with h | h | ⟨v, hv, hoff, hb⟩
    · exact Or.inr ⟨w, hw, ho.1, h⟩
    · rw [hadd] at h
      exact Or.inl h
    · rw [hadd] at hoff hb
      exact Or.inr ⟨v, hv, hoff, hb⟩
  · rw [show base.write w.off t o = base o from if_neg ho]
    exact h o

theorem Blend.apply {w : Write} (h : Blend img ws base) (hw : w ∈ ws) :
    Blend img ws (base.apply w) := h.write (fun _ _ hx => Or.inl hx) hw

theorem Blend.applyAll : ∀ {us : List Write} {base : Image}, Blend img ws base →
    (∀ u ∈ us, u ∈ ws) → Blend img ws (base.applyAll us)
  | [], _, h, _ => h
  | u :: _, _, h, hsub => by
    rw [Image.applyAll_cons]
    exact (h.apply (hsub u List.mem_cons_self)).applyAll fun v hv => hsub v (List.mem_cons_of_mem _ hv)

/-- 混ざった書き込みが落ち着いた像も、もとの像と書き込みを混ぜたものである。 -/
theorem Settle.blend {start : Image} (hset : Settle (MixedTear base) start us img')
    (hbase : Blend img ws base) (hstart : Blend img ws start) (hsub : ∀ u ∈ us, u ∈ ws) :
    Blend img ws img' := by
  induction hset with
  | nil _ => exact hstart
  | keep _ ih =>
    exact ih (hstart.apply (hsub _ List.mem_cons_self)) fun v hv => hsub v (List.mem_cons_of_mem _ hv)
  | drop _ ih => exact ih hstart fun v hv => hsub v (List.mem_cons_of_mem _ hv)
  | @tear _ _ w _ t ht _ _ ih =>
    refine ih (Blend.write (w := w) hstart (fun i x hx => ?_) (hsub w List.mem_cons_self))
      fun v hv => hsub v (List.mem_cons_of_mem _ hv)
    rcases ht i with h | h
    · exact Or.inl (h.symm.trans hx)
    · -- 前のものが残った byte は、耐久な像の byte である
      right
      rw [h, Image.getElem?_read] at hx
      by_cases hi : i < w.bytes.length
      · rw [if_pos hi, Option.some.injEq] at hx
        rw [← hx]
        exact hbase _
      · rw [if_neg hi] at hx
        cases hx

/-- **止まった後のどの byte も、もとの像のものか、書き込みのどれかのものである。** -/
theorem CrashImage.blend {vs : List Write} (h : CrashImage MixedTear img (halves ws vs) img') :
    Blend img (ws ++ vs) img' := by
  rcases h.of_halves with ⟨us, hsub, hset⟩ | ⟨us, hsub, hset⟩
  · exact hset.blend (.refl _ _) (.refl _ _) fun u hu => List.mem_append_left _ (hsub u hu)
  · have hbase : Blend img (ws ++ vs) (img.applyAll ws) :=
      (Blend.refl img (ws ++ vs)).applyAll fun w hw => List.mem_append_left _ hw
    exact hset.blend hbase hbase fun u hu => List.mem_append_right _ (hsub u hu)

/-- 書き込みのどれもが、その byte をもとのままにするなら、その byte は変わらない。 -/
theorem Blend.apply_eq {o : Nat} (h : Blend img ws img')
    (hw : ∀ w ∈ ws, w.off ≤ o → ∀ x, w.bytes[o - w.off]? = some x → x = img o) : img' o = img o := by
  rcases h o with h | ⟨w, hmem, hoff, hb⟩
  · exact h
  · exact hw w hmem hoff _ hb

end Blend

/-! ## 後半の途中で壊れる時点 -/

/-- 前の書き込みがすべて残り、最後の一つが壊れる落ち着き方。 -/
theorem Settle.keep_tear {T : Write → Bytes → Prop} {w : Write} {t : Bytes} (ht : T w t)
    (hlen : t.length = w.bytes.length) : ∀ (vs : List Write) (img : Image),
    Settle T img (vs ++ [w]) ((img.applyAll vs).apply ⟨w.off, t⟩)
  | [], _ => .tear t ht hlen (.nil _)
  | _ :: vs, _ => .keep (keep_tear ht hlen vs _)

/-- 後半の書き込み `w` が壊れた時点で止まることがある。 -/
theorem crashImage_second_tear {T : Image → Write → Bytes → Prop} {img : Image}
    {ws vs rest : List Write} {w : Write} {t : Bytes} (ht : T (img.applyAll ws) w t)
    (hlen : t.length = w.bytes.length) : CrashImage T img (halves ws (vs ++ w :: rest))
      (((img.applyAll ws).applyAll vs).apply ⟨w.off, t⟩) := by
  refine ⟨(img.applyAll ws, vs ++ [w]), ?_, Settle.keep_tear ht hlen vs _⟩
  have hend : crashEnd img [] (ws.map .write ++ [.flush]) = (img.applyAll ws, []) := by
    rw [crashEnd_append, crashEnd_writes]
    rfl
  have hsplit : (vs ++ w :: rest).map Event.write ++ [.flush] =
      (vs ++ [w]).map Event.write ++ (rest.map .write ++ [.flush]) := by
    simp only [List.map_append, List.map_cons, List.map_nil, List.append_assoc, List.cons_append,
      List.nil_append]
  have hmem := crashEnd_mem ((vs ++ [w]).map Event.write) (img.applyAll ws) []
  rw [crashEnd_writes, List.nil_append] at hmem
  rw [halves, mem_crashPoints_append, hend, hsplit]
  exact Or.inr (mem_crashPoints_append _ _ _ _ |>.mpr (Or.inl hmem))

/-! ## 媒体の比較 -/

/-- 壊れ方を多く許す媒体ほど、残りうる像が多い。 -/
theorem Settle.mono {T T' : Write → Bytes → Prop} {img img' : Image} {ws : List Write}
    (hT : ∀ w t, T w t → T' w t) (h : Settle T img ws img') : Settle T' img ws img' := by
  induction h with
  | nil img => exact .nil img
  | keep _ ih => exact .keep ih
  | drop _ ih => exact .drop ih
  | tear t ht hlen _ ih => exact .tear t (hT _ _ ht) hlen ih

theorem CrashImage.mono {T T' : Image → Write → Bytes → Prop} {img img' : Image} {es : List Event}
    (hT : ∀ i w t, T i w t → T' i w t) (h : CrashImage T img es img') : CrashImage T' img es img' := by
  obtain ⟨p, hp, hset⟩ := h
  exact ⟨p, hp, hset.mono (hT p.1)⟩

end Fsx
