import Fsx.Io.Crash

/-!
# どこで止まっても成り立つこと

書き込みが一つずつ残るか残らないかの媒体（`Atomic`）で、操作の列のどこで止まっても
成り立つ性質を、列を一つずつ伸ばしながら示すための規則を置く。

`Reaches A img es base pend` は、像 `img` から `es` を行うどの時点で止まっても `A` が成り立ち、
`es` を終えた時点の耐久な像が `base`、未 flush の書き込みが `pend` であることを言う。
-/

namespace Fsx

/-- どの書き込みも保つ性質は、どう落ち着いても保たれる。 -/
theorem Settle.preserves {P : Image → Prop} {b img img' : Image} {ws : List Write}
    (h : Settle (Atomic b) img ws img') (h0 : P img)
    (hw : ∀ w ∈ ws, ∀ i : Image, P i → P (i.apply w)) : P img' := by
  induction h with
  | nil img => exact h0
  | keep _ ih =>
    exact ih (hw _ List.mem_cons_self _ h0) fun w hmem => hw w (List.mem_cons_of_mem _ hmem)
  | drop _ ih => exact ih h0 fun w hmem => hw w (List.mem_cons_of_mem _ hmem)
  | tear t ht _ _ _ => exact ht.elim

theorem Image.applyAll_preserves {P : Image → Prop} : ∀ {ws : List Write} {img : Image}, P img →
    (∀ w ∈ ws, ∀ i : Image, P i → P (i.apply w)) → P (img.applyAll ws)
  | [], _, h0, _ => h0
  | w :: ws, img, h0, hw => by
    rw [Image.applyAll_cons]
    exact Image.applyAll_preserves (hw w List.mem_cons_self img h0)
      fun v hv => hw v (List.mem_cons_of_mem w hv)

/-- `es` のどこで止まっても、残る像は `A` を満たす。 -/
def Always (A : Image → Prop) (img : Image) (es : List Event) : Prop :=
  ∀ img', CrashImage Atomic img es img' → A img'

structure Reaches (A : Image → Prop) (img : Image) (es : List Event) (base : Image)
    (pend : List Write) : Prop where
  always : Always A img es
  point : crashEnd img [] es = (base, pend)

namespace Reaches

variable {A B : Image → Prop} {img base : Image} {es : List Event} {pend : List Write}

theorem nil (h : A img) : Reaches A img [] img [] := by
  refine ⟨?_, rfl⟩
  rintro img' ⟨p, hp, hset⟩
  rw [List.mem_singleton.mp hp] at hset
  rw [settle_nil_iff.mp hset]
  exact h

/-- いま止まっても `A` が成り立つ。 -/
theorem now (h : Reaches A img es base pend) {img' : Image}
    (hset : Settle (Atomic base) base pend img') : A img' := by
  refine h.always img' ⟨(base, pend), ?_, hset⟩
  rw [← h.point]
  exact crashEnd_mem es img []

/-- すべての書き込みが残れば、操作を終えた時点の像になる。 -/
theorem all (h : Reaches A img es base pend) : A (base.applyAll pend) :=
  h.now (Settle.keepAll _ _ _)

/-- 書き込みを一つ足す。 -/
theorem write (h : Reaches A img es base pend) {w : Write}
    (hA : ∀ img', Settle (Atomic base) base (pend ++ [w]) img' → A img') :
    Reaches A img (es ++ [.write w]) base (pend ++ [w]) := by
  constructor
  · rintro img' ⟨p, hp, hset⟩
    rw [mem_crashPoints_append, h.point] at hp
    rcases hp with hp | hp
    · exact h.always img' ⟨p, hp, hset⟩
    · simp only [crashPoints, List.mem_cons, List.not_mem_nil, or_false] at hp
      rcases hp with rfl | rfl
      · exact h.now hset
      · exact hA img' hset
  · rw [crashEnd_append, h.point]
    rfl

/-- flush を足す。新しく残りうる像はない。 -/
theorem flush (h : Reaches A img es base pend) :
    Reaches A img (es ++ [.flush]) (base.applyAll pend) [] := by
  constructor
  · rintro img' ⟨p, hp, hset⟩
    rw [mem_crashPoints_append, h.point] at hp
    rcases hp with hp | hp
    · exact h.always img' ⟨p, hp, hset⟩
    · simp only [crashPoints, List.mem_cons, List.not_mem_nil, or_false] at hp
      rcases hp with rfl | rfl
      · exact h.now hset
      · rw [settle_nil_iff.mp hset]
        exact h.all
  · rw [crashEnd_append, h.point]
    rfl

/-- 書き込みの列を足す。どの部分が残っても `A` が成り立つことを確かめればよい。 -/
theorem writes : ∀ {ws : List Write} {es : List Event} {pend : List Write},
    Reaches A img es base pend →
    (∀ us img', (∀ u ∈ us, u ∈ pend ++ ws) → Settle (Atomic base) base us img' → A img') →
    Reaches A img (es ++ ws.map .write) base (pend ++ ws)
  | [], es, pend, h, _ => by
    rw [List.map_nil, List.append_nil, List.append_nil]
    exact h
  | w :: ws, es, pend, h, hA => by
    have hstep := h.write (w := w) fun img' hset => hA _ img' (fun u hu => ?_) hset
    · have hrest := @writes ws _ _ hstep fun us img' hus hset =>
        hA us img' (fun u hu => ?_) hset
      · rw [List.append_assoc, List.append_assoc] at hrest
        exact hrest
      · have := hus u hu
        rwa [List.append_assoc, List.singleton_append] at this
    · rw [List.mem_append, List.mem_singleton] at hu
      rcases hu with hu | rfl
      · exact List.mem_append_left _ hu
      · exact List.mem_append_right _ List.mem_cons_self

end Reaches

end Fsx
