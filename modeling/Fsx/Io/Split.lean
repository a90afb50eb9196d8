import Fsx.Io.Crash

/-!
# 分けて書いても、壊れた書き込みより悪くはならない

一つの書き込みは、媒体には何回かに分けて届くことがある。分けた書き込みの列で途中に止まって
残る像は、分けない書き込みが壊れて残る像でもある（`Covers.crash`）。

壊れ方に制限のない媒体（`AnyTear`）についての結果である。
-/

namespace Fsx

/-- 書き込みの範囲に何が残ってもよい媒体。 -/
def AnyTear : Image → Write → Bytes → Prop := fun _ _ _ => True

/-- 書き込みの範囲の中に収まる書き込み。 -/
def Write.Inside (p w : Write) : Prop :=
  w.off ≤ p.off ∧ p.off + p.bytes.length ≤ w.off + w.bytes.length

/--
細かい記録 `fs` は、粗い記録 `es` を分けて書いたものである。

`stop` と `cut` は、途中で止めた記録である。
-/
inductive Covers : List Event → List Event → Prop
  | stop (es : List Event) : Covers [] es
  | cut {w : Write} {ps : List Write} (es : List Event) (inside : ∀ p ∈ ps, p.Inside w) :
      Covers (ps.map .write) (.write w :: es)
  | flush {fs es : List Event} : Covers fs es → Covers (.flush :: fs) (.flush :: es)
  | write {w : Write} {ps : List Write} {fs es : List Event} (inside : ∀ p ∈ ps, p.Inside w)
      (whole : ∀ img : Image, img.applyAll ps = img.apply w) :
      Covers fs es → Covers (ps.map .write ++ fs) (.write w :: es)

variable {T : Write → Bytes → Prop} {img img' : Image} {w : Write} {ps ws pend : List Write}
  {fs es : List Event}

/-! ## 落ち着き方 -/

theorem settle_append_iff : ∀ {ws vs : List Write} {img : Image},
    Settle T img (ws ++ vs) img' ↔ ∃ mid, Settle T img ws mid ∧ Settle T mid vs img'
  | [], vs, img => by
    constructor
    · exact fun h => ⟨img, .nil img, h⟩
    · rintro ⟨mid, h1, h2⟩
      rwa [settle_nil_iff.mp h1] at h2
  | w :: ws, vs, img => by
    constructor
    · intro h
      cases h with
      | keep h =>
        obtain ⟨mid, h1, h2⟩ := settle_append_iff.mp h
        exact ⟨mid, .keep h1, h2⟩
      | drop h =>
        obtain ⟨mid, h1, h2⟩ := settle_append_iff.mp h
        exact ⟨mid, .drop h1, h2⟩
      | tear t ht hlen h =>
        obtain ⟨mid, h1, h2⟩ := settle_append_iff.mp h
        exact ⟨mid, .tear t ht hlen h1, h2⟩
    · rintro ⟨mid, h1, h2⟩
      cases h1 with
      | keep h => exact .keep (settle_append_iff.mpr ⟨mid, h, h2⟩)
      | drop h => exact .drop (settle_append_iff.mpr ⟨mid, h, h2⟩)
      | tear t ht hlen h => exact .tear t ht hlen (settle_append_iff.mpr ⟨mid, h, h2⟩)

/-- 範囲の外が変わらない像は、範囲の読み出しを書いた像である。 -/
theorem eq_write_of_outside {off n : Nat}
    (h : ∀ i, i < off ∨ off + n ≤ i → img' i = img i) :
    img' = img.write off (img'.read off n) := by
  funext i
  by_cases hi : i < off ∨ off + n ≤ i
  · rw [Image.write_apply_of_not_mem (by rwa [Image.length_read]), h i hi]
  · rw [Image.write_apply_of_mem (by omega) (by rw [Image.length_read]; omega),
      List.getD_eq_getElem?_getD, Image.getElem?_read, if_pos (by omega), Option.getD_some,
      show off + (i - off) = i by omega]

/-- **`w` の中の書き込みがどう落ち着いても、`w` が壊れて残る像である。** -/
theorem Settle.gather (h : Settle T img ps img') (hin : ∀ p ∈ ps, p.Inside w) :
    Settle (fun _ _ => True) img [w] img' := by
  have hout : ∀ i, i < w.off ∨ w.off + w.bytes.length ≤ i → img' i = img i := by
    intro i hi
    have hread := @Settle.read_of_disjoint T img img' ps h i 1 fun p hp => by
      obtain ⟨h1, h2⟩ := hin p hp
      omega
    have hget : (img'.read i 1)[0]? = (img.read i 1)[0]? := by rw [hread]
    rw [Image.getElem?_read, Image.getElem?_read] at hget
    exact Option.some.inj hget
  exact settle_singleton_iff.mpr (Or.inr (Or.inr
    ⟨img'.read w.off w.bytes.length, trivial, Image.length_read _ _ _, eq_write_of_outside hout⟩))

/-! ## 途中で止まって残る像 -/

/-- 溜まった書き込みの列 `ps` は、`ws` を分けたものである。 -/
structure Gathers (ps ws : List Write) : Prop where
  settle : ∀ img img', Settle (fun _ _ => True) img ps img' → Settle (fun _ _ => True) img ws img'
  whole : ∀ img : Image, img.applyAll ps = img.applyAll ws

theorem Gathers.nil : Gathers [] [] := ⟨fun _ _ h => h, fun _ => rfl⟩

/-- 途中まで書いた `w` を足す。 -/
theorem Gathers.settle_cut {qs : List Write} (h : Gathers qs ws) (hin : ∀ p ∈ ps, p.Inside w)
    (hs : Settle (fun _ _ => True) img (qs ++ ps) img') :
    Settle (fun _ _ => True) img (ws ++ [w]) img' := by
  obtain ⟨mid, h1, h2⟩ := settle_append_iff.mp hs
  exact settle_append_iff.mpr ⟨mid, h.settle _ _ h1, h2.gather hin⟩

theorem Gathers.write {qs : List Write} (h : Gathers qs ws) (hin : ∀ p ∈ ps, p.Inside w)
    (hw : ∀ img : Image, img.applyAll ps = img.apply w) : Gathers (qs ++ ps) (ws ++ [w]) where
  settle := fun _ _ hs => h.settle_cut hin hs
  whole := fun img => by
    rw [Image.applyAll_append, Image.applyAll_append, h.whole, hw]
    rfl

/-- 書き込みだけの列の途中では、先頭の何個かが溜まっている。 -/
theorem mem_crashPoints_writes_prefix {p : Image × List Write} {base : Image} :
    ∀ {ps pend : List Write}, p ∈ crashPoints base pend (ps.map .write) →
      ∃ k, p = (base, pend ++ ps.take k)
  | [], pend, hp => ⟨0, by rw [List.mem_singleton.mp hp, List.take_nil, List.append_nil]⟩
  | q :: ps, pend, hp => by
    rcases List.mem_cons.mp hp with rfl | hp
    · exact ⟨0, by rw [List.take_zero, List.append_nil]⟩
    · obtain ⟨k, rfl⟩ := mem_crashPoints_writes_prefix hp
      exact ⟨k + 1, by rw [List.take_succ_cons, List.append_assoc, List.singleton_append]⟩

/-- 始めの時点も、止まりうる時点である。 -/
theorem start_mem_crashPoints (base : Image) (pend : List Write) : ∀ es : List Event,
    (base, pend) ∈ crashPoints base pend es
  | [] => List.mem_singleton.mpr rfl
  | .write _ :: _ => List.mem_cons_self
  | .flush :: _ => List.mem_cons_self

theorem Covers.crashPoints (h : Covers fs es) : ∀ {base : Image} {qs ws : List Write},
    Gathers qs ws → ∀ {p : Image × List Write}, p ∈ crashPoints base qs fs →
    Settle (fun _ _ => True) p.1 p.2 img' →
    ∃ p' ∈ Fsx.crashPoints base ws es, Settle (fun _ _ => True) p'.1 p'.2 img' := by
  induction h with
  | stop es =>
    intro base qs ws hg p hp hs
    rw [List.mem_singleton.mp hp] at hs
    exact ⟨_, start_mem_crashPoints base ws es, hg.settle _ _ hs⟩
  | @cut w ps es hin =>
    intro base qs ws hg p hp hs
    obtain ⟨k, rfl⟩ := mem_crashPoints_writes_prefix hp
    refine ⟨(base, ws ++ [w]), List.mem_cons_of_mem _ (start_mem_crashPoints _ _ es), ?_⟩
    exact hg.settle_cut (fun p hp => hin p (List.mem_of_mem_take hp)) hs
  | @flush fs es _ ih =>
    intro base qs ws hg p hp hs
    rcases List.mem_cons.mp hp with rfl | hp
    · exact ⟨_, List.mem_cons_self, hg.settle _ _ hs⟩
    · obtain ⟨p', hp', hs'⟩ := ih Gathers.nil hp hs
      rw [hg.whole] at hp'
      exact ⟨p', List.mem_cons_of_mem _ hp', hs'⟩
  | @write w ps fs es hin hw _ ih =>
    intro base qs ws hg p hp hs
    rw [mem_crashPoints_append, crashEnd_writes] at hp
    rcases hp with hp | hp
    · -- 分けた列の途中で止まった
      obtain ⟨k, rfl⟩ := mem_crashPoints_writes_prefix hp
      refine ⟨(base, ws ++ [w]), List.mem_cons_of_mem _ (start_mem_crashPoints _ _ es), ?_⟩
      exact hg.settle_cut (fun p hp => hin p (List.mem_of_mem_take hp)) hs
    · obtain ⟨p', hp', hs'⟩ := ih (hg.write hin hw) hp hs
      exact ⟨p', List.mem_cons_of_mem _ hp', hs'⟩

/-- 前に同じ記録があってもよい。 -/
theorem Covers.prepend (h : Covers fs es) : ∀ gs : List Event, Covers (gs ++ fs) (gs ++ es)
  | [] => h
  | .flush :: gs => .flush (h.prepend gs)
  | .write w :: gs =>
    @Covers.write w [w] _ _ (fun p hp => by rw [List.mem_singleton.mp hp]; exact ⟨le_refl _, le_refl _⟩)
      (fun _ => rfl) (h.prepend gs)

/-- **分けて書く途中で止まって残る像は、分けずに書く途中で止まって残る像である。** -/
theorem Covers.crash (h : Covers fs es) (hc : CrashImage AnyTear img fs img') :
    CrashImage AnyTear img es img' := by
  obtain ⟨p, hp, hs⟩ := hc
  exact h.crashPoints Gathers.nil hp hs

end Fsx
