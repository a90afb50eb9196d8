import Mathlib.Data.List.Pairwise
import Mathlib.Order.Interval.Finset.Nat
import Mathlib.Order.Lattice
import Mathlib.Order.MinMax
import Mathlib.Tactic.Linarith

/-!
# 半開区間の列

区間 `[lo x, hi x)` の列について、重なりを数える走査、`std::lower_bound` の二分探索、
交わりの有無の判定を、要素の型によらずにまとめる。
-/

namespace Fsx.Interval

section Order

variable {ι α : Type} [LinearOrder α] (lo hi : ι → α)

/-- 後ろの区間は、前の区間の終わりから始まる。 -/
def Ordered (xs : List ι) : Prop := xs.Pairwise fun a b => hi a ≤ lo b

/-! ## 重なりの数 -/

/-- 通った区間の終わりの最大を持ちながら、その手前から始まる区間を数える。 -/
def overlapCount : α → List ι → Nat
  | _, [] => 0
  | top, x :: xs => (if lo x < top then 1 else 0) + overlapCount (max top (hi x)) xs

/-- **一つも数えなければ、区間は順に並んで重ならない。逆も言える。** -/
theorem overlapCount_eq_zero_iff {top : α} {xs : List ι} :
    overlapCount lo hi top xs = 0 ↔ (∀ x ∈ xs, top ≤ lo x) ∧ Ordered lo hi xs := by
  unfold Ordered
  induction xs generalizing top with
  | nil => simp [overlapCount]
  | cons x xs ih =>
    simp only [overlapCount, Nat.add_eq_zero_iff, ih, List.pairwise_cons, List.forall_mem_cons,
      max_le_iff]
    constructor
    · rintro ⟨hx, hall, hpair⟩
      refine ⟨⟨?_, fun y hy => (hall y hy).1⟩, fun y hy => (hall y hy).2, hpair⟩
      by_contra hlt
      rw [if_pos (not_le.mp hlt)] at hx
      cases hx
    · rintro ⟨⟨hx, htop⟩, hhi, hpair⟩
      exact ⟨if_neg (not_lt.mpr hx), fun y hy => ⟨htop y hy, hhi y hy⟩, hpair⟩

end Order

/-! ## 二分探索 -/

section LowerBound

variable {ι : Type} (p : ι → Bool)

/-- `first` から `len` 個の中の探索。幅は一歩ごとに減るので、`fuel` は幅だけあればよい。 -/
def lowerBoundFrom (xs : List ι) : Nat → Nat → Nat → Nat
  | 0, first, _ => first
  | fuel + 1, first, len =>
    if len = 0 then first
    else if xs[first + len / 2]?.any p then
      lowerBoundFrom xs fuel (first + len / 2 + 1) (len - len / 2 - 1)
    else lowerBoundFrom xs fuel first (len / 2)

/-- `std::lower_bound`。`p` は探す値より手前にあることを言う。 -/
def lowerBound (xs : List ι) : Nat := lowerBoundFrom p xs xs.length 0 xs.length

variable {p} {xs : List ι}

/-- 探索は、範囲の手前がすべて `p` を満たし、範囲の後ろがすべて満たさないことを保つ。 -/
theorem lowerBoundFrom_spec (hp : xs.Pairwise fun a b => p b = true → p a = true)
    {fuel first len : Nat} (hfuel : len ≤ fuel) (hle : first + len ≤ xs.length)
    (hbefore : ∀ i x, i < first → xs[i]? = some x → p x = true)
    (hafter : ∀ i x, first + len ≤ i → xs[i]? = some x → p x = false) :
    (∀ i x, i < lowerBoundFrom p xs fuel first len → xs[i]? = some x → p x = true) ∧
    (∀ i x, lowerBoundFrom p xs fuel first len ≤ i → xs[i]? = some x → p x = false) := by
  induction fuel generalizing first len with
  | zero => exact ⟨hbefore, fun i x hi => hafter i x (by simp only [lowerBoundFrom] at hi; omega)⟩
  | succ fuel ih =>
    rw [lowerBoundFrom]
    split
    · next h0 => exact ⟨hbefore, fun i x hi => hafter i x (by omega)⟩
    · next h0 =>
      have hmid : first + len / 2 < xs.length := by omega
      have hpair := List.pairwise_iff_getElem.mp hp
      rw [List.getElem?_eq_getElem hmid, Option.any_some]
      split
      · next hm =>
        refine ih (by omega) (by omega) (fun i x hi hx => ?_) fun i x hi hx =>
          hafter i x (by omega) hx
        obtain ⟨hlt, rfl⟩ := List.getElem?_eq_some_iff.mp hx
        rcases Nat.lt_or_eq_of_le (show i ≤ first + len / 2 by omega) with h | rfl
        · exact hpair i _ hlt hmid h hm
        · exact hm
      · next hm =>
        refine ih (by omega) (by omega) hbefore fun i x hi hx => ?_
        obtain ⟨hlt, rfl⟩ := List.getElem?_eq_some_iff.mp hx
        rw [Bool.not_eq_true] at hm
        rcases Nat.lt_or_eq_of_le hi with h | rfl
        · by_contra hpx
          rw [Bool.not_eq_false] at hpx
          rw [hpair _ i hmid hlt h hpx] at hm
          cases hm
        · exact hm

/-- **`p` で二つに分かれた列では、手前の要素の数が返る。** -/
theorem lowerBound_spec (hp : xs.Pairwise fun a b => p b = true → p a = true) :
    (∀ i x, i < lowerBound p xs → xs[i]? = some x → p x = true) ∧
    (∀ i x, lowerBound p xs ≤ i → xs[i]? = some x → p x = false) := by
  refine lowerBoundFrom_spec hp (Nat.le_refl _) (by omega)
    (fun i x hi => absurd hi (Nat.not_lt_zero i)) fun i x hi hx => ?_
  rw [List.getElem?_eq_none (by omega)] at hx
  cases hx

end LowerBound

/-! ## 交わり -/

section Meet

variable {ι α : Type} [LinearOrder α] (lo hi : ι → α)

/-- 空でない区間が順に並ぶなら、終わりが `start` 以前の区間は列の手前に集まる。 -/
theorem Ordered.pairwise_hi_le {lo hi : ι → α} {xs : List ι} (hxs : Ordered lo hi xs)
    (hne : ∀ x ∈ xs, lo x < hi x) (start : α) :
    xs.Pairwise fun a b => decide (hi b ≤ start) = true → decide (hi a ≤ start) = true := by
  refine List.Pairwise.imp_of_mem ?_ hxs
  intro a b _ hb hab h
  rw [decide_eq_true_eq] at h ⊢
  exact hab.trans ((hne b hb).le.trans h)

/-- 順に並んだ列の区間のどれかが `[start, stop)` と交わるか。二分探索で調べる。 -/
def meetsAny (xs : List ι) (start stop : α) : Bool :=
  if start ≥ stop then false
  else xs[lowerBound (fun x => decide (hi x ≤ start)) xs]?.any fun x => decide (lo x < stop)

variable {lo hi}

/-- **空でない区間が順に並ぶ列で交わりなしと答えたなら、どの区間とも交わらない。** -/
theorem forall_of_meetsAny_eq_false {xs : List ι} {start stop : α} (hxs : Ordered lo hi xs)
    (hne : ∀ x ∈ xs, lo x < hi x) (h : meetsAny lo hi xs start stop = false)
    (hlt : start < stop) : ∀ x ∈ xs, hi x ≤ start ∨ stop ≤ lo x := by
  obtain ⟨hbefore, -⟩ := lowerBound_spec (hxs.pairwise_hi_le hne start)
  unfold meetsAny at h
  rw [if_neg (not_le.mpr hlt)] at h
  intro x hx
  obtain ⟨i, hi', rfl⟩ := List.getElem_of_mem hx
  rcases Nat.lt_or_ge i (lowerBound (fun x => decide (hi x ≤ start)) xs) with hib | hib
  · left
    exact of_decide_eq_true (hbefore i _ hib (List.getElem?_eq_getElem hi'))
  · right
    -- 見つけた区間が `stop` 以後に始まるので、その後ろの区間もそうである。
    have hfound := List.getElem?_eq_getElem (Nat.lt_of_le_of_lt hib hi')
    rw [hfound, Option.any_some, decide_eq_false_iff_not, not_lt] at h
    rcases Nat.lt_or_eq_of_le hib with hlt' | heq
    · have := List.pairwise_iff_getElem.mp hxs _ i (Nat.lt_of_le_of_lt hib hi') hi' hlt'
      exact h.trans ((hne _ (List.getElem_mem _)).le.trans this)
    · simpa only [heq] using h

end Meet

/-! ## 隙間なく覆うか -/

section Reach

variable {ι α : Type} [LinearOrder α] (lo hi : ι → α)

/-- `covered` の手前まで覆えているところから区間を順につないで、`stop` まで覆えるか。 -/
def reaches (stop : α) : List ι → α → Bool
  | [], _ => false
  | x :: xs, covered =>
    if lo x ≤ covered then
      if stop ≤ max covered (hi x) then true else reaches stop xs (max covered (hi x))
    else false

/-- `[start, stop)` を覆うか。終わりが `start` より後ろの最初の区間からつなぐ。 -/
def covers (xs : List ι) (start stop : α) : Bool :=
  reaches lo hi stop (xs.drop (lowerBound (fun x => decide (hi x ≤ start)) xs)) start

variable {lo hi} {stop : α}

/-- 覆えたと答えたなら、どの点も区間の中にある。区間の並びは問わない。 -/
theorem exists_of_reaches {xs : List ι} {covered : α} (h : reaches lo hi stop xs covered = true) :
    ∀ b, covered ≤ b → b < stop → ∃ x ∈ xs, lo x ≤ b ∧ b < hi x := by
  induction xs generalizing covered with
  | nil => cases h
  | cons x xs ih =>
    intro b h1 h2
    rw [reaches] at h
    split at h
    · next hlo =>
      rcases lt_or_ge b (hi x) with hb | hb
      · exact ⟨x, List.mem_cons_self, hlo.trans h1, hb⟩
      · have htop : max covered (hi x) ≤ b := max_le h1 hb
        split at h
        · next hstop => exact absurd (hstop.trans htop) (not_le.mpr h2)
        · obtain ⟨x', hx', hin⟩ := ih h b htop h2
          exact ⟨x', List.mem_cons_of_mem _ hx', hin⟩
    · cases h

/-- 始まりの順に並んだ区間がどの点も覆うなら、覆えたと答える。 -/
theorem reaches_of_forall {xs : List ι} {covered : α} (hxs : xs.Pairwise fun a b => lo a ≤ lo b)
    (hlt : covered < stop) (h : ∀ b, covered ≤ b → b < stop → ∃ x ∈ xs, lo x ≤ b ∧ b < hi x) :
    reaches lo hi stop xs covered = true := by
  induction xs generalizing covered with
  | nil =>
    obtain ⟨x, hx, -⟩ := h covered (le_refl _) hlt
    cases hx
  | cons x xs ih =>
    obtain ⟨hhead, htail⟩ := List.pairwise_cons.mp hxs
    -- `covered` を含む区間があるので、先頭の区間は `covered` までに始まる。
    have hlo : lo x ≤ covered := by
      obtain ⟨y, hy, hle, -⟩ := h covered (le_refl _) hlt
      rcases List.mem_cons.mp hy with rfl | hy
      · exact hle
      · exact (hhead y hy).trans hle
    rw [reaches, if_pos hlo]
    split
    · rfl
    · next hstop =>
      refine ih htail (not_le.mp hstop) fun b h1 h2 => ?_
      obtain ⟨y, hy, hle, hlt'⟩ := h b ((le_max_left _ _).trans h1) h2
      rcases List.mem_cons.mp hy with rfl | hy
      · exact absurd ((le_max_right _ _).trans h1) (not_le.mpr hlt')
      · exact ⟨y, hy, hle, hlt'⟩

/-- **空でない区間が順に並ぶ列で覆うと答えるのは、どの点もどれかの区間にあるときに限る。** -/
theorem covers_iff {xs : List ι} {start : α} (hxs : Ordered lo hi xs)
    (hne : ∀ x ∈ xs, lo x < hi x) (hlt : start < stop) :
    covers lo hi xs start stop = true ↔
      ∀ b, start ≤ b → b < stop → ∃ x ∈ xs, lo x ≤ b ∧ b < hi x := by
  obtain ⟨hbefore, -⟩ := lowerBound_spec (hxs.pairwise_hi_le hne start)
  constructor
  · intro h b h1 h2
    obtain ⟨x, hx, hin⟩ := exists_of_reaches h b h1 h2
    exact ⟨x, List.mem_of_mem_drop hx, hin⟩
  · intro h
    have hsorted : xs.Pairwise fun a b => lo a ≤ lo b := by
      refine List.Pairwise.imp_of_mem ?_ hxs
      intro a b ha _ hab
      exact (hne a ha).le.trans hab
    refine reaches_of_forall (hsorted.sublist (List.drop_sublist _ _)) hlt fun b h1 h2 => ?_
    obtain ⟨x, hx, hle, hb⟩ := h b h1 h2
    refine ⟨x, ?_, hle, hb⟩
    -- 探索が飛ばした区間は `start` までに終わるので、`b` を含まない。
    obtain ⟨i, hi', rfl⟩ := List.getElem_of_mem hx
    rcases Nat.lt_or_ge i (lowerBound (fun x => decide (hi x ≤ start)) xs) with hib | hib
    · have := of_decide_eq_true (hbefore i _ hib (List.getElem?_eq_getElem hi'))
      exact absurd (this.trans h1) (not_le.mpr hb)
    · obtain ⟨k, rfl⟩ := Nat.exists_eq_add_of_le hib
      exact List.mem_drop_iff_getElem.mpr ⟨k, by omega, rfl⟩

end Reach

/-! ## 覆う点の数 -/

section Covered

/-- 範囲の列（先頭と長さの組）が `t` 以上で覆う点。 -/
def covered (t : Nat) (spans : List (Nat × Nat)) : Finset Nat :=
  spans.foldr (fun r s => Finset.Ico (max r.1 t) (r.1 + r.2) ∪ s) ∅

/-- 範囲ごとに数えた、`t` 以上の点の数。 -/
def coveredCount (t : Nat) (spans : List (Nat × Nat)) : Nat :=
  (spans.map fun r => r.1 + r.2 - max r.1 t).sum

variable {t : Nat} {spans : List (Nat × Nat)}

theorem mem_covered {b : Nat} :
    b ∈ covered t spans ↔ t ≤ b ∧ ∃ r ∈ spans, r.1 ≤ b ∧ b < r.1 + r.2 := by
  induction spans with
  | nil => simp [covered]
  | cons r spans ih =>
    have hcons : covered t (r :: spans) =
      Finset.Ico (max r.1 t) (r.1 + r.2) ∪ covered t spans := rfl
    rw [hcons, Finset.mem_union, ih, Finset.mem_Ico, max_le_iff]
    simp only [List.mem_cons, exists_eq_or_imp]
    tauto

/-- 覆う点は、範囲ごとに数えた数を超えない。 -/
theorem card_covered_le : (covered t spans).card ≤ coveredCount t spans := by
  induction spans with
  | nil => exact Nat.le_refl _
  | cons r spans ih =>
    refine (Finset.card_union_le _ _).trans ?_
    rw [Nat.card_Ico]
    exact Nat.add_le_add_left ih _

/-- **範囲が互いに重ならなければ、覆う点はちょうど範囲ごとに数えた数だけある。** -/
theorem card_covered (h : spans.Pairwise fun a b => a.1 + a.2 ≤ b.1 ∨ b.1 + b.2 ≤ a.1) :
    (covered t spans).card = coveredCount t spans := by
  induction spans with
  | nil => rfl
  | cons r spans ih =>
    obtain ⟨hhead, htail⟩ := List.pairwise_cons.mp h
    have hdisj : Disjoint (Finset.Ico (max r.1 t) (r.1 + r.2)) (covered t spans) := by
      rw [Finset.disjoint_left]
      intro b hb hb'
      rw [Finset.mem_Ico, max_le_iff] at hb
      obtain ⟨-, r', hr', h1, h2⟩ := mem_covered.mp hb'
      have := hhead r' hr'
      omega
    have hunion := Finset.card_union_of_disjoint hdisj
    rw [ih htail, Nat.card_Ico] at hunion
    exact hunion

end Covered

end Fsx.Interval
