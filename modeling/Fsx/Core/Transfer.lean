import Mathlib.Data.List.Infix

/-!
# 少しずつ進む転送

`len` 個の要素を運ぶ繰り返し。一回ごとに、頼んだ数より少なく進むことも、何もせずにやり直すことも、
失敗することもある。一回の前には、他の者が状態を進めることがある。

状態も、他の者のすることも、失敗の値も何でもよい。
-/

namespace Fsx

variable {σ ω ε : Type}

/-- 一回の返事。 -/
inductive Reply (ε : Type) where
  | moved (n : Nat)
  | again
  | failed (e : ε)

def Reply.isAgain : Reply ε → Bool
  | .again => true
  | _ => false

/-- 他の者が先にしたことと、返事。 -/
structure Attempt (ω ε : Type) where
  others : ω
  reply : Reply ε

/-- 終わり方。`waiting` は、まだ返事がない。 -/
inductive Ended (ε : Type) where
  | whole
  | waiting
  | empty
  | failed (e : ε)

/-- 終わり方と、運んだ数と、状態。 -/
structure Transferred (σ ε : Type) where
  ended : Ended ε
  done : Nat
  state : σ

section Transfer

variable (cap len : Nat) (enter : ω → σ → σ) (act : Nat → Nat → σ → σ)

/-- 転送の繰り返し。一度に頼むのは `cap` までである。 -/
def transfer : Nat → List (Attempt ω ε) → σ → Transferred σ ε
  | done, [], s => ⟨if len ≤ done then .whole else .waiting, done, s⟩
  | done, t :: ts, s =>
    if len ≤ done then ⟨.whole, done, s⟩
    else
      match t.reply with
      | .again => transfer done ts (enter t.others s)
      | .failed e => ⟨.failed e, done, enter t.others s⟩
      | .moved n =>
        if n = 0 then ⟨.empty, done, enter t.others s⟩
        else
          let m := min n (min (len - done) cap)
          transfer (done + m) ts (act done m (enter t.others s))

variable {cap len enter act} {done : Nat} {ts : List (Attempt ω ε)} {s : σ}

/-- 運び終えた数。 -/
theorem transfer_done (hdone : done ≤ len) :
    done ≤ (transfer cap len enter act done ts s).done ∧
      (transfer cap len enter act done ts s).done ≤ len ∧
      ((transfer cap len enter act done ts s).ended = .whole →
        (transfer cap len enter act done ts s).done = len) := by
  induction ts generalizing done s with
  | nil =>
    refine ⟨le_refl done, hdone, fun h => ?_⟩
    by_cases hle : len ≤ done
    · exact Nat.le_antisymm hdone hle
    · rw [transfer, if_neg hle] at h
      cases h
  | cons t ts ih =>
    rw [transfer]
    by_cases hle : len ≤ done
    · rw [if_pos hle]
      exact ⟨le_refl done, hdone, fun _ => Nat.le_antisymm hdone hle⟩
    rw [if_neg hle]
    cases t.reply with
    | again => exact ih hdone
    | failed e => exact ⟨le_refl done, hdone, nofun⟩
    | moved n =>
      dsimp only
      split
      · exact ⟨le_refl done, hdone, nofun⟩
      · obtain ⟨h1, h2⟩ := @ih (done + min n (min (len - done) cap))
          (act done (min n (min (len - done) cap)) (enter t.others s)) (by omega)
        exact ⟨by omega, h2⟩

/--
**転送の規則。** `P pre k s` は、`pre` の返事を使って `k` 個を運んだ状態である。

他の者の操作が `P` を保ち、一回の動きが `P` を進めるなら、どう終わっても `P` が成り立つ。
-/
theorem transfer_rule {P : List (Attempt ω ε) → Nat → σ → Prop} {pre : List (Attempt ω ε)}
    (henter : ∀ pre' t k s, pre' ++ [t] <+: pre ++ ts → P pre' k s →
      P (pre' ++ [t]) k (enter t.others s))
    (hact : ∀ pre' k m s, k + m ≤ len → P pre' k s → P pre' (k + m) (act k m s))
    (hdone : done ≤ len) (h : P pre done s) :
    ∃ pre', pre' <+: pre ++ ts ∧ P pre' (transfer cap len enter act done ts s).done
      (transfer cap len enter act done ts s).state := by
  induction ts generalizing pre done s with
  | nil => exact ⟨pre, List.prefix_append pre [], h⟩
  | cons t ts ih =>
    rw [transfer]
    by_cases hle : len ≤ done
    · rw [if_pos hle]
      exact ⟨pre, List.prefix_append pre _, h⟩
    rw [if_neg hle]
    have hsplit : pre ++ t :: ts = pre ++ [t] ++ ts := by
      rw [List.append_assoc, List.singleton_append]
    have hin : P (pre ++ [t]) done (enter t.others s) :=
      henter pre t done s (by rw [hsplit]; exact List.prefix_append _ ts) h
    have hnow : pre ++ [t] <+: pre ++ t :: ts := by
      rw [hsplit]
      exact List.prefix_append _ ts
    rw [hsplit] at henter ⊢
    rw [hsplit] at hnow
    cases t.reply with
    | again => exact ih henter hdone hin
    | failed e => exact ⟨_, hnow, hin⟩
    | moved n =>
      dsimp only
      split
      · exact ⟨_, hnow, hin⟩
      · exact ih henter (by omega) (hact _ _ _ _ (by omega) hin)

/-- **やり直しでない返事が十分にあれば、転送は終わる。** -/
theorem transfer_ended (hcap : 0 < cap)
    (h : len - done ≤ (ts.filter fun t => !t.reply.isAgain).length) :
    (transfer cap len enter act done ts s).ended ≠ .waiting := by
  induction ts generalizing done s with
  | nil =>
    rw [List.filter_nil, List.length_nil, Nat.le_zero, Nat.sub_eq_zero_iff_le] at h
    rw [transfer, if_pos h]
    exact nofun
  | cons t ts ih =>
    rw [transfer]
    by_cases hle : len ≤ done
    · rw [if_pos hle]
      exact nofun
    rw [if_neg hle]
    cases hr : t.reply with
    | again =>
      rw [List.filter_cons_of_neg (by simp [hr, Reply.isAgain])] at h
      exact ih h
    | failed e => exact nofun
    | moved n =>
      rw [List.filter_cons_of_pos (by simp [hr, Reply.isAgain]), List.length_cons] at h
      dsimp only
      split
      · exact nofun
      · exact ih (by omega)

/-- 失敗も零もない返事だけなら、運び終えるか、まだ待っている。 -/
theorem transfer_benign (h : ∀ t ∈ ts, t.reply = .again ∨ ∃ n, 0 < n ∧ t.reply = .moved n) :
    (transfer cap len enter act done ts s).ended = .whole ∨
      (transfer cap len enter act done ts s).ended = .waiting := by
  induction ts generalizing done s with
  | nil =>
    rw [transfer]
    by_cases hle : len ≤ done
    · exact Or.inl (if_pos hle)
    · exact Or.inr (if_neg hle)
  | cons t ts ih =>
    rw [transfer]
    by_cases hle : len ≤ done
    · rw [if_pos hle]
      exact Or.inl rfl
    rw [if_neg hle]
    have hts := fun u hu => h u (List.mem_cons_of_mem t hu)
    rcases h t List.mem_cons_self with hr | ⟨n, hn, hr⟩
    · rw [hr]
      exact ih hts
    · rw [hr]
      dsimp only
      rw [if_neg (by omega)]
      exact ih hts

end Transfer

/-! ## 公平な相手 -/

/-- 条件を満たすものが限りなくあれば、いくつでも集められる。 -/
theorem length_filter_range_ge {p : Attempt ω ε → Bool} {turns : Nat → Attempt ω ε}
    (h : ∀ i, ∃ j, i ≤ j ∧ p (turns j) = true) : ∀ n, ∃ k, ∀ m, k ≤ m →
      n ≤ (((List.range m).map turns).filter p).length
  | 0 => ⟨0, fun _ _ => Nat.zero_le _⟩
  | n + 1 => by
    obtain ⟨k, hk⟩ := length_filter_range_ge h n
    obtain ⟨j, hkj, hj⟩ := h k
    refine ⟨j + 1, fun m hm => ?_⟩
    obtain ⟨d, rfl⟩ := Nat.exists_eq_add_of_le hm
    have hlast := hk j hkj
    rw [List.range_add, List.map_append, List.filter_append, List.length_append,
      List.range_succ, List.map_append, List.filter_append, List.length_append,
      List.map_cons, List.map_nil, List.filter_cons_of_pos hj]
    simp only [List.filter_nil, List.length_cons, List.length_nil]
    omega

end Fsx
