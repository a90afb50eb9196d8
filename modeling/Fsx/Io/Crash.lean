import Fsx.Io.Image

/-!
# crash の意味論

媒体への操作の記録（event の列）から、途中で止まったときに残りうる像を定める。

* 最後に完了した flush より前の書き込みは、すべて残る。
* それより後の書き込みは、一つずつ、残る・残らない・（許すなら）壊れる、のどれかになる。

どの書き込みがどう壊れうるかは `Torn` で与える。`Torn` を空にすれば、
後ろの書き込みの任意の部分集合が残る意味論になる。
-/

namespace Fsx

/-- 媒体への一つの書き込み。 -/
structure Write where
  off : Nat
  bytes : Bytes
  deriving DecidableEq, Repr

/-- 媒体への操作の記録。 -/
inductive Event where
  | write (w : Write)
  | flush
  deriving DecidableEq, Repr

/-- 二つの書き込みの範囲が重ならない。 -/
def Write.Apart (w v : Write) : Prop :=
  w.off + w.bytes.length ≤ v.off ∨ v.off + v.bytes.length ≤ w.off

namespace Image

/-- 一つの書き込みを施す。 -/
def apply (img : Image) (w : Write) : Image := img.write w.off w.bytes

/-- 書き込みの列を順に施す。 -/
def applyAll (img : Image) (ws : List Write) : Image := ws.foldl apply img

@[simp] theorem applyAll_nil (img : Image) : img.applyAll [] = img := rfl

@[simp] theorem applyAll_cons (img : Image) (w : Write) (ws : List Write) :
    img.applyAll (w :: ws) = (img.apply w).applyAll ws := rfl

theorem applyAll_append (img : Image) (ws vs : List Write) :
    img.applyAll (ws ++ vs) = (img.applyAll ws).applyAll vs := List.foldl_append

/-- どの書き込みとも重ならない範囲は変わらない。 -/
theorem read_applyAll_of_disjoint : ∀ (ws : List Write) (img : Image) (o n : Nat),
    (∀ w ∈ ws, o + n ≤ w.off ∨ w.off + w.bytes.length ≤ o) →
    (img.applyAll ws).read o n = img.read o n
  | [], _, _, _, _ => rfl
  | w :: ws, img, o, n, h => by
    rw [applyAll_cons, read_applyAll_of_disjoint ws _ o n fun v hv => h v (List.mem_cons_of_mem _ hv)]
    exact read_write_of_disjoint (h w List.mem_cons_self)

/-- 書いた列の外の byte は変わらない。 -/
theorem applyAll_apply_of_misses {img : Image} {off : Nat} {ws : List Write}
    (h : ∀ x ∈ ws, off < x.off ∨ x.off + x.bytes.length ≤ off) : img.applyAll ws off = img off := by
  induction ws generalizing img with
  | nil => rfl
  | cons x ws ih =>
    rw [applyAll_cons, ih fun y hy => h y (List.mem_cons_of_mem _ hy)]
    exact write_apply_of_not_mem (h x List.mem_cons_self)

/-- 互いに重ならない書き込みは、どれも最後まで残る。 -/
theorem read_applyAll_of_mem : ∀ {ws : List Write}, ws.Pairwise Write.Apart → ∀ {w : Write},
    w ∈ ws → ∀ img : Image, (img.applyAll ws).read w.off w.bytes.length = w.bytes
  | [], _, _, hmem, _ => by cases hmem
  | v :: ws, h, w, hmem, img => by
    obtain ⟨hv, hws⟩ := List.pairwise_cons.mp h
    rcases List.mem_cons.mp hmem with rfl | hmem
    · rw [applyAll_cons, read_applyAll_of_disjoint ws _ _ _ hv]
      exact read_write_self _ _ _ rfl
    · exact read_applyAll_of_mem hws hmem _

/-- すでに入っている内容だけを書いても、像は変わらない。 -/
theorem applyAll_eq_self {img : Image} : ∀ {ws : List Write},
    (∀ w ∈ ws, img.read w.off w.bytes.length = w.bytes) → img.applyAll ws = img
  | [], _ => rfl
  | w :: ws, h => by
    have hw : img.apply w = img := by
      have hread := h w List.mem_cons_self
      show img.write w.off w.bytes = img
      rw [← hread]
      exact write_read_self img _ _
    rw [applyAll_cons, hw]
    exact applyAll_eq_self fun v hv => h v (List.mem_cons_of_mem _ hv)

end Image

/-! ## 操作の列の途中 -/

/-- 操作を終えた時点の像。 -/
def replay (img : Image) : List Event → Image
  | [] => img
  | .write w :: es => replay (img.apply w) es
  | .flush :: es => replay img es

theorem replay_append : ∀ (es fs : List Event) (img : Image),
    replay img (es ++ fs) = replay (replay img es) fs
  | [], _, _ => rfl
  | .write _ :: es, fs, _ => replay_append es fs _
  | .flush :: es, fs, _ => replay_append es fs _

theorem replay_writes : ∀ (ws : List Write) (img : Image),
    replay img (ws.map .write) = img.applyAll ws
  | [], _ => rfl
  | w :: ws, img => replay_writes ws (img.apply w)

/-- 記録のどの書き込みとも重ならない範囲は変わらない。 -/
theorem read_replay_of_disjoint : ∀ (es : List Event) (img : Image) (o n : Nat),
    (∀ w, .write w ∈ es → o + n ≤ w.off ∨ w.off + w.bytes.length ≤ o) →
    (replay img es).read o n = img.read o n
  | [], _, _, _, _ => rfl
  | .write w :: es, img, o, n, h => by
    rw [replay, read_replay_of_disjoint es _ o n fun v hv => h v (List.mem_cons_of_mem _ hv)]
    exact Image.read_write_of_disjoint (h w List.mem_cons_self)
  | .flush :: es, img, o, n, h => by
    rw [replay, read_replay_of_disjoint es _ o n fun v hv => h v (List.mem_cons_of_mem _ hv)]

/-- 止まりうる時点を、（耐久な像、まだ flush されていない書き込み）の組で並べる。 -/
def crashPoints (base : Image) (pend : List Write) : List Event → List (Image × List Write)
  | [] => [(base, pend)]
  | .write w :: es => (base, pend) :: crashPoints base (pend ++ [w]) es
  | .flush :: es => (base, pend) :: crashPoints (base.applyAll pend) [] es

/-- 操作の列を終えた時点の（耐久な像、未 flush の書き込み）。 -/
def crashEnd (base : Image) (pend : List Write) : List Event → Image × List Write
  | [] => (base, pend)
  | .write w :: es => crashEnd base (pend ++ [w]) es
  | .flush :: es => crashEnd (base.applyAll pend) [] es

theorem crashEnd_mem : ∀ (es : List Event) (base : Image) (pend : List Write),
    crashEnd base pend es ∈ crashPoints base pend es
  | [], _, _ => List.mem_singleton.mpr rfl
  | .write _ :: es, _, _ => List.mem_cons_of_mem _ (crashEnd_mem es _ _)
  | .flush :: es, _, _ => List.mem_cons_of_mem _ (crashEnd_mem es _ _)

/-- 列を繋いだときの途中は、前の列の途中か、前を終えてからの後ろの列の途中である。 -/
theorem mem_crashPoints_append {p : Image × List Write} : ∀ (es fs : List Event)
    (base : Image) (pend : List Write), p ∈ crashPoints base pend (es ++ fs) ↔
      p ∈ crashPoints base pend es ∨
        p ∈ crashPoints (crashEnd base pend es).1 (crashEnd base pend es).2 fs
  | [], fs, base, pend => by
    constructor
    · exact Or.inr
    · rintro (h | h)
      · rw [List.mem_singleton.mp h]
        cases fs with
        | nil => exact List.mem_singleton.mpr rfl
        | cons e _ => cases e <;> exact List.mem_cons_self
      · exact h
  | .write w :: es, fs, base, pend => by
    simp only [List.cons_append, crashPoints, crashEnd, List.mem_cons,
      mem_crashPoints_append es fs, or_assoc]
  | .flush :: es, fs, base, pend => by
    simp only [List.cons_append, crashPoints, crashEnd, List.mem_cons,
      mem_crashPoints_append es fs, or_assoc]

theorem crashEnd_append : ∀ (es fs : List Event) (base : Image) (pend : List Write),
    crashEnd base pend (es ++ fs) =
      crashEnd (crashEnd base pend es).1 (crashEnd base pend es).2 fs
  | [], _, _, _ => rfl
  | .write _ :: es, fs, _, _ => crashEnd_append es fs _ _
  | .flush :: es, fs, _, _ => crashEnd_append es fs _ _

/-- 書き込みだけの列の途中では、像は変わらず、書き込みの先頭の何個かが溜まっている。 -/
theorem mem_crashPoints_writes {p : Image × List Write} {base : Image} :
    ∀ {ws pend : List Write}, p ∈ crashPoints base pend (ws.map .write) →
      p.1 = base ∧ ∀ w ∈ p.2, w ∈ pend ++ ws
  | [], pend, hp => by
    rw [List.mem_singleton.mp hp]
    exact ⟨rfl, fun w hw => by simpa using hw⟩
  | w :: ws, pend, hp => by
    obtain rfl | hp := List.mem_cons.mp hp
    · exact ⟨rfl, fun v hv => List.mem_append_left _ hv⟩
    · obtain ⟨hbase, hmem⟩ := mem_crashPoints_writes hp
      refine ⟨hbase, fun v hv => ?_⟩
      have := hmem v hv
      rwa [List.append_assoc, List.singleton_append] at this

theorem crashEnd_writes (base : Image) : ∀ (ws pend : List Write),
    crashEnd base pend (ws.map .write) = (base, pend ++ ws)
  | [], pend => by rw [List.append_nil]; rfl
  | w :: ws, pend => by
    rw [List.map_cons, crashEnd, crashEnd_writes base ws, List.append_assoc]
    rfl

/-! ## 残る像 -/

/--
未 flush の書き込みの列が、どのような像に落ち着くか。

`Torn w t` は、書き込み `w` の範囲に `t` が残る壊れ方を許すことを言う。
-/
inductive Settle (Torn : Write → Bytes → Prop) : Image → List Write → Image → Prop
  | nil (img : Image) : Settle Torn img [] img
  | keep {img img' : Image} {w : Write} {ws : List Write} :
      Settle Torn (img.apply w) ws img' → Settle Torn img (w :: ws) img'
  | drop {img img' : Image} {w : Write} {ws : List Write} :
      Settle Torn img ws img' → Settle Torn img (w :: ws) img'
  | tear {img img' : Image} {w : Write} {ws : List Write} (t : Bytes) :
      Torn w t → t.length = w.bytes.length →
      Settle Torn (img.apply ⟨w.off, t⟩) ws img' → Settle Torn img (w :: ws) img'

/-- 壊れることのない媒体。未 flush の書き込みは一つずつ、残るか残らないかである。 -/
def Atomic : Image → Write → Bytes → Prop := fun _ _ _ => False

/--
操作の列のどこかで止まったときに残りうる像。

壊れ方は、その時点の耐久な像に依ってよい（`Torn` の最初の引数）。
-/
def CrashImage (Torn : Image → Write → Bytes → Prop) (img : Image) (es : List Event)
    (img' : Image) : Prop :=
  ∃ p ∈ crashPoints img [] es, Settle (Torn p.1) p.1 p.2 img'

/-- 書き込みのどれとも重ならない範囲は、どう落ち着いても変わらない。 -/
theorem Settle.read_of_disjoint {Torn : Write → Bytes → Prop} {img img' : Image}
    {ws : List Write} (h : Settle Torn img ws img') {o n : Nat}
    (hd : ∀ w ∈ ws, o + n ≤ w.off ∨ w.off + w.bytes.length ≤ o) :
    img'.read o n = img.read o n := by
  induction h with
  | nil img => rfl
  | keep _ ih =>
    rw [ih fun w hw => hd w (List.mem_cons_of_mem _ hw)]
    exact Image.read_write_of_disjoint (hd _ List.mem_cons_self)
  | drop _ ih => exact ih fun w hw => hd w (List.mem_cons_of_mem _ hw)
  | tear t _ hlen _ ih =>
    rw [ih fun w hw => hd w (List.mem_cons_of_mem _ hw)]
    exact Image.read_write_of_disjoint (by rw [hlen]; exact hd _ List.mem_cons_self)

/-- すべての書き込みが残る落ち着き方。 -/
theorem Settle.keepAll (Torn : Write → Bytes → Prop) : ∀ (ws : List Write) (img : Image),
    Settle Torn img ws (img.applyAll ws)
  | [], img => .nil img
  | _ :: ws, _ => .keep (Settle.keepAll Torn ws _)

theorem settle_nil_iff {Torn : Write → Bytes → Prop} {img img' : Image} :
    Settle Torn img [] img' ↔ img' = img := by
  constructor
  · intro h; cases h; rfl
  · rintro rfl; exact .nil _

theorem settle_singleton_iff {Torn : Write → Bytes → Prop} {img img' : Image} {w : Write} :
    Settle Torn img [w] img' ↔ img' = img.apply w ∨ img' = img ∨
      ∃ t, Torn w t ∧ t.length = w.bytes.length ∧ img' = img.apply ⟨w.off, t⟩ := by
  constructor
  · intro h
    cases h with
    | keep h => exact Or.inl (settle_nil_iff.mp h)
    | drop h => exact Or.inr (Or.inl (settle_nil_iff.mp h))
    | tear t ht hl h => exact Or.inr (Or.inr ⟨t, ht, hl, settle_nil_iff.mp h⟩)
  · rintro (rfl | rfl | ⟨t, ht, hl, rfl⟩)
    · exact .keep (.nil _)
    · exact .drop (.nil _)
    · exact .tear t ht hl (.nil _)

/-- 前の列を終えたときに未 flush の書き込みがなければ、途中は前か後ろのどちらかである。 -/
theorem CrashImage.of_append {Torn : Image → Write → Bytes → Prop} {img img' : Image}
    {es fs : List Event} (hend : crashEnd img [] es = (replay img es, []))
    (h : CrashImage Torn img (es ++ fs) img') :
    CrashImage Torn img es img' ∨ CrashImage Torn (replay img es) fs img' := by
  obtain ⟨p, hp, hset⟩ := h
  rw [mem_crashPoints_append, hend] at hp
  obtain hp | hp := hp
  · exact Or.inl ⟨p, hp, hset⟩
  · exact Or.inr ⟨p, hp, hset⟩

/-! ## flush で二つに分かれた操作 -/

/-- 前半を書いて flush し、後半を書いて flush する操作。 -/
def halves (ws vs : List Write) : List Event :=
  (ws.map .write ++ [.flush]) ++ (vs.map .write ++ [.flush])

theorem replay_halves (img : Image) (ws vs : List Write) :
    replay img (halves ws vs) = (img.applyAll ws).applyAll vs := by
  unfold halves
  rw [replay_append, replay_append, replay_append, replay_writes, replay_writes]
  rfl

/-- 書き込みと flush の途中では、書き込みの何個かが落ち着くのを待っている。 -/
theorem CrashImage.of_writes_flush {Torn : Image → Write → Bytes → Prop} {img img' : Image}
    {ws : List Write} (h : CrashImage Torn img (ws.map .write ++ [.flush]) img') :
    ∃ vs, (∀ v ∈ vs, v ∈ ws) ∧ Settle (Torn img) img vs img' := by
  obtain ⟨p, hp, hset⟩ := h
  rw [mem_crashPoints_append, crashEnd_writes] at hp
  obtain hp | hp := hp
  · obtain ⟨hbase, hmem⟩ := mem_crashPoints_writes hp
    rw [hbase] at hset
    exact ⟨p.2, hmem, hset⟩
  · simp only [List.nil_append, crashPoints, List.mem_cons, List.not_mem_nil, or_false] at hp
    obtain rfl | rfl := hp
    · exact ⟨ws, fun v hv => hv, hset⟩
    · rw [settle_nil_iff.mp hset]
      exact ⟨ws, fun v hv => hv, Settle.keepAll _ _ _⟩

/-- 二つに分かれた操作の途中は、前半の途中か、前半を終えた像からの後半の途中である。 -/
theorem CrashImage.of_halves {Torn : Image → Write → Bytes → Prop} {img img' : Image}
    {ws vs : List Write} (h : CrashImage Torn img (halves ws vs) img') :
    (∃ us, (∀ u ∈ us, u ∈ ws) ∧ Settle (Torn img) img us img') ∨
      ∃ us, (∀ u ∈ us, u ∈ vs) ∧ Settle (Torn (img.applyAll ws)) (img.applyAll ws) us img' := by
  have hend : crashEnd img [] (ws.map .write ++ [.flush])
      = (replay img (ws.map .write ++ [.flush]), []) := by
    rw [crashEnd_append, crashEnd_writes, replay_append, replay_writes]
    rfl
  have hmid : replay img (ws.map .write ++ [.flush]) = img.applyAll ws := by
    rw [replay_append, replay_writes]
    rfl
  obtain h | h := h.of_append hend
  · exact Or.inl h.of_writes_flush
  · rw [hmid] at h
    exact Or.inr h.of_writes_flush

/-- 前半を flush した直後に止まると、前半だけが残る。 -/
theorem crashImage_first_half (Torn : Image → Write → Bytes → Prop) (img : Image)
    (ws vs : List Write) : CrashImage Torn img (halves ws vs) (img.applyAll ws) := by
  refine ⟨(img.applyAll ws, []), ?_, .nil _⟩
  rw [halves, mem_crashPoints_append]
  left
  rw [mem_crashPoints_append, crashEnd_writes]
  right
  simp only [List.nil_append, crashPoints, List.mem_cons, true_or, or_true]

end Fsx
