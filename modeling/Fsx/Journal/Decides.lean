import Fsx.Journal.Reopen
import Fsx.Journal.Validate

/-!
# journal の検査が決めるもの

`validate_journal_semantics` は record を一度だけ順に読み、transaction ごとの印を持つ。
ここでは、印を使わずに列だけで書いた条件（`WellFormed`）を定め、検査がちょうどそれを決めることを示す。

鍵は、error の出ていない間は印が列を写していることである（`Reflects`）。
-/

namespace Fsx

/-- 移動の record。 -/
def JournalRecordType.relocation : JournalRecordType → Bool
  | .relocationIntent | .copyVerified | .destinationReserved | .ownerSwitched | .sourceReleased
  | .metadataCommitted => true
  | _ => false

/-- 場所の同じ record。 -/
structure JournalRecord.SamePlace (a b : JournalRecord) : Prop where
  source : a.sourceBlock = b.sourceBlock
  destination : a.destinationBlock = b.destinationBlock
  blocks : a.blockCount = b.blockCount
  inode : a.inode = b.inode

/-- transaction `id` の、はじめの移動の record。 -/
def firstOf (rs : List JournalRecord) (id : UInt64) : Option JournalRecord :=
  rs.find? fun r => r.type.relocation && decide (r.transactionId = id)

/-- 最後の dirty か clean の record。 -/
def lastMark (rs : List JournalRecord) : Option JournalRecord :=
  (rs.filter fun r => decide (r.type = .filesystemMarkedDirty) ||
    decide (r.type = .filesystemMarkedClean)).getLast?

/-- `rs` に、transaction `id` の種類 `t` の record がある。 -/
def HasRecord (rs : List JournalRecord) (t : JournalRecordType) (id : UInt64) : Prop :=
  ∃ q ∈ rs, q.type = t ∧ q.transactionId = id

/-- 順序の正しい列。 -/
structure WellFormed (rs : List JournalRecord) : Prop where
  /-- checkpoint の phase は正しい -/
  phases : ∀ r ∈ rs, r.type = .checkpoint → 1 ≤ r.aux.toNat ∧ r.aux.toNat ≤ 11
  /-- 移動の record には番号がある -/
  named : ∀ r ∈ rs, r.type.relocation = true → r.transactionId ≠ 0
  /-- はじめの record は意図で、場所は正しい -/
  first : ∀ id r, firstOf rs id = some r →
    r.type = .relocationIntent ∧ 0 < r.blockCount ∧ r.sourceBlock ≠ r.destinationBlock
  /-- 後の record は場所を変えない -/
  repeated : ∀ r ∈ rs, r.type.relocation = true →
    ∀ q, firstOf rs r.transactionId = some q → q.SamePlace r
  /-- 切り替えと commit の前には、検証された写しがある -/
  verified : ∀ i r, rs[i]? = some r → r.type = .ownerSwitched ∨ r.type = .metadataCommitted →
    HasRecord (rs.take i) .copyVerified r.transactionId
  /-- 解放の前には、切り替えがある -/
  switched : ∀ i r, rs[i]? = some r → r.type = .sourceReleased →
    HasRecord (rs.take i) .ownerSwitched r.transactionId

/-! ## 一つ続ける -/

section Concat

variable {rs : List JournalRecord} {r : JournalRecord}

theorem firstOf_concat (rs : List JournalRecord) (r : JournalRecord) (id : UInt64) :
    firstOf (rs ++ [r]) id = (firstOf rs id).or
      (if r.type.relocation = true ∧ r.transactionId = id then some r else none) := by
  unfold firstOf
  rw [List.find?_append, List.find?_singleton]
  congr 1
  by_cases h : r.type.relocation = true ∧ r.transactionId = id
  · rw [if_pos h, if_pos (by rw [h.1, decide_eq_true h.2]; rfl)]
  · rw [if_neg h, if_neg]
    simpa using h

theorem hasRecord_concat {t : JournalRecordType} {id : UInt64} :
    HasRecord (rs ++ [r]) t id ↔ HasRecord rs t id ∨ r.type = t ∧ r.transactionId = id := by
  unfold HasRecord
  simp only [List.mem_append, List.mem_singleton]
  constructor
  · rintro ⟨q, hq | rfl, h⟩
    · exact Or.inl ⟨q, hq, h⟩
    · exact Or.inr h
  · rintro (⟨q, hq, h⟩ | h)
    · exact ⟨q, Or.inl hq, h⟩
    · exact ⟨r, Or.inr rfl, h⟩

/-- `rs` に続けてよい record。 -/
structure Continues (rs : List JournalRecord) (r : JournalRecord) : Prop where
  phase : r.type = .checkpoint → 1 ≤ r.aux.toNat ∧ r.aux.toNat ≤ 11
  named : r.type.relocation = true → r.transactionId ≠ 0
  first : r.type.relocation = true → firstOf rs r.transactionId = none →
    r.type = .relocationIntent ∧ 0 < r.blockCount ∧ r.sourceBlock ≠ r.destinationBlock
  repeated : r.type.relocation = true → ∀ q, firstOf rs r.transactionId = some q → q.SamePlace r
  verified : r.type = .ownerSwitched ∨ r.type = .metadataCommitted →
    HasRecord rs .copyVerified r.transactionId
  switched : r.type = .sourceReleased → HasRecord rs .ownerSwitched r.transactionId

/-- 列の末尾までの位置の record は、もとの列のものか、続けたものである。 -/
theorem getElem?_concat {i : Nat} {x : JournalRecord} (h : (rs ++ [r])[i]? = some x) :
    rs[i]? = some x ∧ (rs ++ [r]).take i = rs.take i ∨ i = rs.length ∧ x = r := by
  rcases Nat.lt_or_ge i rs.length with hlt | hge
  · rw [List.getElem?_append_left hlt] at h
    exact Or.inl ⟨h, List.take_append_of_le_length (Nat.le_of_lt hlt)⟩
  · rw [List.getElem?_append_right hge] at h
    obtain ⟨hlen, hx⟩ := List.getElem?_eq_some_iff.mp h
    rw [List.length_singleton] at hlen
    refine Or.inr ⟨by omega, ?_⟩
    rw [← hx]
    simp

theorem wellFormed_nil : WellFormed [] := by
  refine ⟨fun r hr => ?_, fun r hr => ?_, fun id r hr => ?_, fun r hr => ?_, fun i r hr => ?_,
    fun i r hr => ?_⟩ <;> cases hr

/-- **続けた列が正しいのは、もとの列が正しく、続けた record がそれに合うときである。** -/
theorem wellFormed_concat_iff : WellFormed (rs ++ [r]) ↔ WellFormed rs ∧ Continues rs r := by
  have hmem : r ∈ rs ++ [r] := by simp
  have hlast : (rs ++ [r])[rs.length]? = some r := by simp
  have htake : (rs ++ [r]).take rs.length = rs := by simp
  constructor
  · intro h
    refine ⟨⟨fun x hx => h.phases x (List.mem_append_left _ hx),
      fun x hx => h.named x (List.mem_append_left _ hx), fun id x hx => h.first id x ?_,
      fun x hx hrel q hq => h.repeated x (List.mem_append_left _ hx) hrel q ?_, fun i x hx ht => ?_,
      fun i x hx ht => ?_⟩, ⟨h.phases r hmem, h.named r hmem, fun hrel hnone => ?_,
      fun hrel q hq => h.repeated r hmem hrel q ?_, fun ht => ?_, fun ht => ?_⟩⟩
    · rw [firstOf_concat, hx, Option.some_or]
    · rw [firstOf_concat, hq, Option.some_or]
    · have hlt := (List.getElem?_eq_some_iff.mp hx).1
      have := h.verified i x (by rwa [List.getElem?_append_left hlt]) ht
      rwa [List.take_append_of_le_length (Nat.le_of_lt hlt)] at this
    · have hlt := (List.getElem?_eq_some_iff.mp hx).1
      have := h.switched i x (by rwa [List.getElem?_append_left hlt]) ht
      rwa [List.take_append_of_le_length (Nat.le_of_lt hlt)] at this
    · exact h.first r.transactionId r (by rw [firstOf_concat, hnone, if_pos ⟨hrel, rfl⟩]; rfl)
    · rw [firstOf_concat, hq, Option.some_or]
    · have := h.verified rs.length r hlast ht
      rwa [htake] at this
    · have := h.switched rs.length r hlast ht
      rwa [htake] at this
  · rintro ⟨h, hc⟩
    refine ⟨fun x hx => ?_, fun x hx => ?_, fun id x hx => ?_, fun x hx hrel q hq => ?_,
      fun i x hx ht => ?_, fun i x hx ht => ?_⟩
    · rcases List.mem_append.mp hx with hx | hx
      · exact h.phases x hx
      · rw [List.mem_singleton.mp hx]
        exact hc.phase
    · rcases List.mem_append.mp hx with hx | hx
      · exact h.named x hx
      · rw [List.mem_singleton.mp hx]
        exact hc.named
    · rw [firstOf_concat] at hx
      cases hf : firstOf rs id with
      | some y =>
        rw [hf, Option.some_or] at hx
        cases hx
        exact h.first id x hf
      | none =>
        rw [hf, Option.none_or] at hx
        split at hx
        · next hr =>
          cases hx
          exact hc.first hr.1 (by rw [hr.2]; exact hf)
        · cases hx
    · rw [firstOf_concat] at hq
      rcases List.mem_append.mp hx with hx | hx
      · cases hf : firstOf rs x.transactionId with
        | some y =>
          rw [hf, Option.some_or] at hq
          cases hq
          exact h.repeated x hx hrel q hf
        | none =>
          exfalso
          unfold firstOf at hf
          have := List.find?_eq_none.mp hf x hx
          simp [hrel] at this
      · rw [List.mem_singleton.mp hx] at hq hrel ⊢
        cases hf : firstOf rs r.transactionId with
        | some y =>
          rw [hf, Option.some_or] at hq
          cases hq
          exact hc.repeated hrel q hf
        | none =>
          rw [hf, Option.none_or, if_pos ⟨hrel, rfl⟩] at hq
          cases hq
          exact ⟨rfl, rfl, rfl, rfl⟩
    · rcases getElem?_concat hx with ⟨hx, ht'⟩ | ⟨rfl, rfl⟩
      · rw [ht']
        exact h.verified i x hx ht
      · rw [htake]
        exact hc.verified ht
    · rcases getElem?_concat hx with ⟨hx, ht'⟩ | ⟨rfl, rfl⟩
      · rw [ht']
        exact h.switched i x hx ht
      · rw [htake]
        exact hc.switched ht

end Concat

/-! ## 印 -/

namespace Validation

/-- 印が、読んだ列を写している。 -/
structure Reflects (rs : List JournalRecord) (v : Validation) : Prop where
  intent : ∀ id, (v.tx id).intent = (firstOf rs id).isSome
  place : ∀ id q, firstOf rs id = some q → ∀ r, (v.tx id).sameGeometry r = true ↔ q.SamePlace r
  verified : ∀ id, (v.tx id).verified = true ↔ HasRecord rs .copyVerified id
  switched : ∀ id, (v.tx id).switched = true ↔ HasRecord rs .ownerSwitched id

theorem sameGeometry_iff (s : TxState) (r : JournalRecord) : s.sameGeometry r = true ↔
    s.src = r.sourceBlock ∧ s.dst = r.destinationBlock ∧ s.blocks = r.blockCount ∧
      s.inode = r.inode := by
  unfold TxState.sameGeometry
  simp only [Bool.and_eq_true, decide_eq_true_eq, and_assoc]

theorem reflects_nil : Reflects [] {} where
  intent _ := rfl
  place _ _ h := by cases h
  verified _ := ⟨fun h => (by cases h), fun ⟨_, h, _⟩ => (by cases h)⟩
  switched _ := ⟨fun h => (by cases h), fun ⟨_, h, _⟩ => (by cases h)⟩

/-! ## 一つの transaction の印

record は、自分の transaction の印だけを進める。種類ごとに、進んだ印が続けた列を写すことを示す。
-/

/-- 印 `s` が、列の中の transaction `id` を写している。 -/
structure ReflectsTx (rs : List JournalRecord) (id : UInt64) (s : TxState) : Prop where
  intent : s.intent = (firstOf rs id).isSome
  place : ∀ q, firstOf rs id = some q → ∀ r, s.sameGeometry r = true ↔ q.SamePlace r
  verified : s.verified = true ↔ HasRecord rs .copyVerified id
  switched : s.switched = true ↔ HasRecord rs .ownerSwitched id

theorem reflects_iff {rs : List JournalRecord} {v : Validation} :
    Reflects rs v ↔ ∀ id, ReflectsTx rs id (v.tx id) :=
  ⟨fun h id => ⟨h.intent id, h.place id, h.verified id, h.switched id⟩,
    fun h => ⟨fun id => (h id).intent, fun id => (h id).place, fun id => (h id).verified,
      fun id => (h id).switched⟩⟩

section ReflectsTx

variable {rs : List JournalRecord} {id : UInt64} {s : TxState} {r : JournalRecord}

/-- 他の transaction の record は、印を変えない。 -/
theorem ReflectsTx.other (h : ReflectsTx rs id s) (hne : r.transactionId ≠ id) :
    ReflectsTx (rs ++ [r]) id s := by
  have hfirst : firstOf (rs ++ [r]) id = firstOf rs id := by
    rw [firstOf_concat, if_neg (fun hc => hne hc.2), Option.or_none]
  have hrec : ∀ t, HasRecord (rs ++ [r]) t id ↔ HasRecord rs t id := by
    intro t
    rw [hasRecord_concat]
    exact ⟨fun hc => hc.resolve_right fun hr => hne hr.2, Or.inl⟩
  refine ⟨by rw [hfirst]; exact h.intent, by rw [hfirst]; exact h.place, ?_, ?_⟩
  · rw [hrec]
    exact h.verified
  · rw [hrec]
    exact h.switched

/-- 移動でない record も、印を変えない。 -/
theorem ReflectsTx.plain (h : ReflectsTx rs id s) (hrel : r.type.relocation = false) :
    ReflectsTx (rs ++ [r]) id s := by
  have hfirst : firstOf (rs ++ [r]) id = firstOf rs id := by
    rw [firstOf_concat, if_neg (by simp [hrel]), Option.or_none]
  have hrec : ∀ t : JournalRecordType, t.relocation = true →
      (HasRecord (rs ++ [r]) t id ↔ HasRecord rs t id) := by
    intro t ht
    rw [hasRecord_concat]
    refine ⟨fun hc => hc.resolve_right fun hr => ?_, Or.inl⟩
    rw [← hr.1, hrel] at ht
    cases ht
  refine ⟨by rw [hfirst]; exact h.intent, by rw [hfirst]; exact h.place, ?_, ?_⟩
  · rw [hrec _ rfl]
    exact h.verified
  · rw [hrec _ rfl]
    exact h.switched

/-- はじめの意図は、場所を印に写す。 -/
theorem ReflectsTx.first (h : ReflectsTx rs r.transactionId s) (hi : s.intent = false)
    (ht : r.type = .relocationIntent) :
    ReflectsTx (rs ++ [r]) r.transactionId { s with
      intent := true, src := r.sourceBlock, dst := r.destinationBlock, blocks := r.blockCount
      inode := r.inode } := by
  have hnone : firstOf rs r.transactionId = none := by
    rw [h.intent] at hi
    exact Option.isNone_iff_eq_none.mp (Option.isSome_eq_false_iff.mp hi)
  have hfirst : firstOf (rs ++ [r]) r.transactionId = some r := by
    rw [firstOf_concat, hnone, Option.none_or, if_pos ⟨by rw [ht]; rfl, rfl⟩]
  refine ⟨by rw [hfirst]; rfl, fun q hq x => ?_, ?_, ?_⟩
  · rw [hfirst] at hq
    cases hq
    rw [sameGeometry_iff]
    exact ⟨fun ⟨a, b, c, d⟩ => ⟨a, b, c, d⟩, fun ⟨a, b, c, d⟩ => ⟨a, b, c, d⟩⟩
  · rw [hasRecord_concat, ht]
    simp [h.verified]
  · rw [hasRecord_concat, ht]
    simp [h.switched]

/--
意図のある transaction の record は、場所を変えない。`verified` と `switched` は、
それぞれの種類の record でだけ立つ。
-/
theorem ReflectsTx.progress (h : ReflectsTx rs r.transactionId s) (hi : s.intent = true)
    {s' : TxState} (hintent : s'.intent = s.intent)
    (hplace : ∀ x, s'.sameGeometry x = s.sameGeometry x)
    (hver : s'.verified = true ↔ s.verified = true ∨ r.type = .copyVerified)
    (hsw : s'.switched = true ↔ s.switched = true ∨ r.type = .ownerSwitched) :
    ReflectsTx (rs ++ [r]) r.transactionId s' := by
  have hfirst : firstOf (rs ++ [r]) r.transactionId = firstOf rs r.transactionId := by
    rw [h.intent] at hi
    obtain ⟨q, hq⟩ := Option.isSome_iff_exists.mp hi
    rw [firstOf_concat, hq, Option.some_or]
  refine ⟨by rw [hfirst, hintent]; exact h.intent, fun q hq x => ?_, ?_, ?_⟩
  · rw [hfirst] at hq
    rw [hplace]
    exact h.place q hq x
  · rw [hasRecord_concat, hver, h.verified]
    simp
  · rw [hasRecord_concat, hsw, h.switched]
    simp

/-- **進めた印は、続けた列を写す。** 意図でない移動の record には、先に意図がある。 -/
theorem ReflectsTx.advance (h : ReflectsTx rs r.transactionId s)
    (hi : r.type.relocation = true → r.type ≠ .relocationIntent → s.intent = true) :
    ReflectsTx (rs ++ [r]) r.transactionId (Validation.advance s r) := by
  unfold Validation.advance
  cases ht : r.type with
  | relocationIntent =>
    dsimp only
    cases hs : s.intent with
    | true =>
      rw [if_pos rfl]
      exact h.progress hs rfl (fun _ => rfl) (by simp [ht]) (by simp [ht])
    | false =>
      rw [if_neg (by decide)]
      exact h.first hs ht
  | copyVerified =>
    exact h.progress (hi (by rw [ht]; rfl) (by simp [ht])) rfl (fun _ => rfl) (by simp [ht])
      (by simp [ht])
  | destinationReserved =>
    exact h.progress (hi (by rw [ht]; rfl) (by simp [ht])) rfl (fun _ => rfl) (by simp [ht])
      (by simp [ht])
  | ownerSwitched =>
    exact h.progress (hi (by rw [ht]; rfl) (by simp [ht])) rfl (fun _ => rfl) (by simp [ht])
      (by simp [ht])
  | sourceReleased =>
    exact h.progress (hi (by rw [ht]; rfl) (by simp [ht])) rfl (fun _ => rfl) (by simp [ht])
      (by simp [ht])
  | metadataCommitted =>
    exact h.progress (hi (by rw [ht]; rfl) (by simp [ht])) rfl (fun _ => rfl) (by simp [ht])
      (by simp [ht])
  | _ => exact h.plain (by rw [ht]; rfl)

end ReflectsTx

/-- 受け入れた移動の record には、意図そのものでなければ、先に意図がある。 -/
theorem Accepts.intent {v : Validation} {r : JournalRecord} (h : v.Accepts r)
    (hrel : r.type.relocation = true) (hne : r.type ≠ .relocationIntent) :
    (v.tx r.transactionId).intent = true := by
  unfold Accepts at h
  cases ht : r.type with
  | relocationIntent => exact absurd ht hne
  | copyVerified =>
    rw [ht] at h
    exact h.2.1
  | destinationReserved =>
    rw [ht] at h
    exact h.2.1
  | ownerSwitched =>
    rw [ht] at h
    exact h.1.2.1
  | sourceReleased =>
    rw [ht] at h
    exact h.1.2.1
  | metadataCommitted =>
    rw [ht] at h
    exact h.1.2.1
  | _ =>
    rw [ht] at hrel
    cases hrel

section Reflects

variable {rs : List JournalRecord} {v : Validation} (h : Reflects rs v) (r : JournalRecord)
include h

theorem Reflects.tx (id : UInt64) : ReflectsTx rs id (v.tx id) :=
  reflects_iff.mp h id

/-- 進みの record が意図に合うとは、はじめの record と場所が同じであることである。 -/
theorem Reflects.follows_iff : v.Follows r ↔ r.transactionId ≠ 0 ∧
    ∃ q, firstOf rs r.transactionId = some q ∧ q.SamePlace r := by
  unfold Follows
  rw [h.intent]
  constructor
  · rintro ⟨h0, hi, hg⟩
    obtain ⟨q, hq⟩ := Option.isSome_iff_exists.mp hi
    exact ⟨h0, q, hq, (h.place _ q hq r).mp hg⟩
  · rintro ⟨h0, q, hq, hp⟩
    exact ⟨h0, by rw [hq]; rfl, (h.place _ q hq r).mpr hp⟩

/-- 意図でない移動の record が続けてよい条件の、はじめの三つ。 -/
theorem Reflects.follows_iff_continues (hrel : r.type.relocation = true)
    (hne : r.type ≠ .relocationIntent) : v.Follows r ↔
      (r.type.relocation = true → r.transactionId ≠ 0) ∧
      (r.type.relocation = true → firstOf rs r.transactionId = none →
        r.type = .relocationIntent ∧ 0 < r.blockCount ∧ r.sourceBlock ≠ r.destinationBlock) ∧
      (r.type.relocation = true → ∀ q, firstOf rs r.transactionId = some q → q.SamePlace r) := by
  rw [h.follows_iff]
  constructor
  · rintro ⟨h0, q, hq, hp⟩
    refine ⟨fun _ => h0, fun _ hnone => ?_, fun _ x hx => ?_⟩
    · rw [hq] at hnone
      cases hnone
    · rw [hq] at hx
      cases hx
      exact hp
  · rintro ⟨h0, hfirst, hrep⟩
    refine ⟨h0 hrel, ?_⟩
    cases hf : firstOf rs r.transactionId with
    | none => exact absurd (hfirst hrel hf).1 hne
    | some q => exact ⟨q, rfl, hrep hrel q hf⟩

/-- **検査が record を受け入れるのは、それが続けてよい record のときである。** -/
theorem Reflects.accepts_iff : v.Accepts r ↔ Continues rs r := by
  have hcont : Continues rs r ↔
      (r.type = .checkpoint → 1 ≤ r.aux.toNat ∧ r.aux.toNat ≤ 11) ∧
      ((r.type.relocation = true → r.transactionId ≠ 0) ∧
      (r.type.relocation = true → firstOf rs r.transactionId = none →
        r.type = .relocationIntent ∧ 0 < r.blockCount ∧ r.sourceBlock ≠ r.destinationBlock) ∧
      (r.type.relocation = true → ∀ q, firstOf rs r.transactionId = some q → q.SamePlace r)) ∧
      (r.type = .ownerSwitched ∨ r.type = .metadataCommitted →
        HasRecord rs .copyVerified r.transactionId) ∧
      (r.type = .sourceReleased → HasRecord rs .ownerSwitched r.transactionId) :=
    ⟨fun ⟨h1, h2, h3, h4, h5, h6⟩ => ⟨h1, ⟨h2, h3, h4⟩, h5, h6⟩,
      fun ⟨h1, ⟨h2, h3, h4⟩, h5, h6⟩ => ⟨h1, h2, h3, h4, h5, h6⟩⟩
  rw [hcont]
  unfold Accepts
  cases ht : r.type with
  | checkpoint => simp [JournalRecordType.relocation, OperationPhase.code]
  | relocationIntent =>
    simp only [JournalRecordType.relocation]
    rw [h.intent]
    cases hf : firstOf rs r.transactionId with
    | none =>
      have hpos : r.blockCount ≠ 0 ↔ 0 < r.blockCount := by
        rw [UInt64.lt_iff_toNat_lt, ← UInt64.toNat_inj.ne]
        exact Nat.pos_iff_ne_zero.symm
      simp [hpos]
    | some q => simp [h.place _ q hf r]
  | copyVerified =>
    have := h.follows_iff_continues r (by rw [ht]; rfl) (by rw [ht]; decide)
    rw [ht] at this
    simp [this]
  | destinationReserved =>
    have := h.follows_iff_continues r (by rw [ht]; rfl) (by rw [ht]; decide)
    rw [ht] at this
    simp [this]
  | ownerSwitched =>
    have := h.follows_iff_continues r (by rw [ht]; rfl) (by rw [ht]; decide)
    rw [ht] at this
    simp [this, h.verified]
  | sourceReleased =>
    have := h.follows_iff_continues r (by rw [ht]; rfl) (by rw [ht]; decide)
    rw [ht] at this
    simp [this, h.switched]
  | metadataCommitted =>
    have := h.follows_iff_continues r (by rw [ht]; rfl) (by rw [ht]; decide)
    rw [ht] at this
    simp [this, h.verified]
  | filesystemMarkedDirty => simp [JournalRecordType.relocation]
  | filesystemMarkedClean => simp [JournalRecordType.relocation]
  | partitionIntent => simp [JournalRecordType.relocation]
  | partitionCommitted => simp [JournalRecordType.relocation]
  | note => simp [JournalRecordType.relocation]

/-- 受け入れた record の後も、印は列を写している。 -/
theorem Reflects.step (ha : v.Accepts r) : Reflects (rs ++ [r]) (v.step r) := by
  refine reflects_iff.mpr fun id => ?_
  rw [step_tx ha]
  by_cases hne : id = r.transactionId
  · rw [hne, Function.update_self]
    exact (h.tx _).advance (fun hrel hty => ha.intent hrel hty)
  · rw [Function.update_of_ne hne]
    exact (h.tx id).other (Ne.symm hne)

end Reflects

/-- **error が出ないのは、列が正しいときである。** そのとき印は列を写している。 -/
theorem scan_errors_iff (rs : List JournalRecord) :
    ((scan rs).report.errors = [] ↔ WellFormed rs) ∧
      ((scan rs).report.errors = [] → Reflects rs (scan rs)) := by
  induction rs using List.reverseRecOn with
  | nil => exact ⟨⟨fun _ => wellFormed_nil, fun _ => rfl⟩, fun _ => reflects_nil⟩
  | append_singleton rs r ih =>
    rw [scan_concat, step_errors_iff, wellFormed_concat_iff]
    refine ⟨⟨fun ⟨he, ha⟩ => ?_, fun ⟨hw, hc⟩ => ?_⟩, fun ⟨he, ha⟩ => (ih.2 he).step r ha⟩
    · exact ⟨ih.1.mp he, ((ih.2 he).accepts_iff r).mp ha⟩
    · have he := ih.1.mpr hw
      exact ⟨he, ((ih.2 he).accepts_iff r).mpr hc⟩

/-! ## dirty の印 -/

section Dirty

variable (v : Validation)

@[simp] theorem addError_dirty (msg : String) :
    (v.addError msg).filesystemDirty = v.filesystemDirty := rfl

@[simp] theorem addWarning_dirty (msg : String) :
    (v.addWarning msg).filesystemDirty = v.filesystemDirty := rfl

@[simp] theorem errorIf_dirty (c : Bool) (msg : String) :
    (v.errorIf c msg).filesystemDirty = v.filesystemDirty := by
  unfold errorIf
  split <;> rfl

@[simp] theorem warnIf_dirty (c : Bool) (msg : String) :
    (v.warnIf c msg).filesystemDirty = v.filesystemDirty := by
  unfold warnIf
  split <;> rfl

@[simp] theorem setTx_dirty (id : UInt64) (s : TxState) :
    (v.setTx id s).filesystemDirty = v.filesystemDirty := rfl

@[simp] theorem touch_dirty (id : UInt64) : (v.touch id).filesystemDirty = v.filesystemDirty := rfl

@[simp] theorem count_dirty (f : JournalValidationReport → JournalValidationReport) :
    (v.count f).filesystemDirty = v.filesystemDirty := rfl

theorem stepRelocation_dirty (r : JournalRecord) :
    (v.stepRelocation r).filesystemDirty = v.filesystemDirty := by
  unfold stepRelocation stepIntent stepProgress
  cases r.type <;> dsimp only <;> split_ifs <;> simp

theorem step_dirty (r : JournalRecord) : (v.step r).filesystemDirty =
    if r.type = .filesystemMarkedDirty then true
    else if r.type = .filesystemMarkedClean then false else v.filesystemDirty := by
  unfold step
  cases ht : r.type with
  | checkpoint =>
    dsimp only
    split <;> rfl
  | filesystemMarkedDirty => rfl
  | filesystemMarkedClean => rfl
  | partitionIntent => rfl
  | partitionCommitted => rfl
  | note => rfl
  | _ =>
    rw [stepRelocation_dirty]
    rfl

end Dirty

/-- 読み終えて dirty なのは、最後の印が dirty のときである。 -/
theorem scan_dirty_iff (rs : List JournalRecord) : (scan rs).filesystemDirty = true ↔
    ∃ r, lastMark rs = some r ∧ r.type = .filesystemMarkedDirty := by
  induction rs using List.reverseRecOn with
  | nil => exact ⟨fun h => (by cases h), fun ⟨r, h, _⟩ => (by cases h)⟩
  | append_singleton rs r ih =>
    rw [scan_concat, step_dirty]
    unfold lastMark at ih ⊢
    rw [List.filter_append, List.getLast?_append]
    by_cases hd : r.type = .filesystemMarkedDirty
    · simp [hd]
    · by_cases hc : r.type = .filesystemMarkedClean
      · simp [hc]
      · simp [hd, hc, ih]

end Validation

/-! ## 検査が決めるもの -/

open TransactionJournal JournalState in
/--
**journal の検査は、列の正しさをちょうど決める。** 開けた journal の record はすべて読めて、
検査が clean を返すのは、列が正しく、phase が complete なら最後の印が dirty でないときである。
-/
theorem validate_decides {d : Disk} {w : Bool} {j : TransactionJournal}
    (h : openFile d w = .ok j) : ∃ v, j.view = .ok v ∧
      ((validateJournalSemantics v).clean = true ↔ WellFormed v.records ∧
        (v.phase = .complete → ∀ r, lastMark v.records = some r → r.type ≠ .filesystemMarkedDirty)) := by
  obtain ⟨recs, -, hrec, -⟩ := shows_of_open h
  refine ⟨⟨j.status.identity, j.status.phase, recs⟩, ?_, ?_⟩
  · unfold TransactionJournal.view
    rw [hrec]
    rfl
  · rw [validate_clean_iff, (Validation.scan_errors_iff recs).1, Validation.scan_dirty_iff]
    refine and_congr_right fun _ => ⟨fun hno hp r hr ht => hno ⟨hp, r, hr, ht⟩, ?_⟩
    rintro hyes ⟨hp, r, hr, ht⟩
    exact hyes hp r hr ht

/-- 移動 `id` の record。長さは 8 block で、場所は番号で決まる。 -/
def moveRecord (id : UInt64) (t : JournalRecordType) : JournalRecord where
  type := t
  transactionId := id
  sourceBlock := 100 * id
  destinationBlock := 1000 * id
  blockCount := 8
  inode := 11 + id

/-- 重なりながら進む二つの移動。どちらも、検証した写しに切り替えてから元を解放する。 -/
def twoMoves : List JournalRecord := [
  { type := .filesystemMarkedDirty },
  moveRecord 1 .relocationIntent, moveRecord 2 .relocationIntent,
  moveRecord 1 .copyVerified, moveRecord 1 .destinationReserved, moveRecord 1 .ownerSwitched,
  moveRecord 2 .copyVerified, moveRecord 2 .destinationReserved,
  moveRecord 1 .sourceReleased, moveRecord 1 .metadataCommitted,
  moveRecord 2 .ownerSwitched, moveRecord 2 .sourceReleased, moveRecord 2 .metadataCommitted,
  { type := .filesystemMarkedClean }]

/-- 二つ目の移動が、一つ目の写しの検証だけで切り替わる列。 -/
def earlySwitch : List JournalRecord := [
  { type := .filesystemMarkedDirty },
  moveRecord 1 .relocationIntent, moveRecord 2 .relocationIntent,
  moveRecord 1 .copyVerified, moveRecord 2 .ownerSwitched, moveRecord 2 .copyVerified]

open TransactionJournal JournalState in
/-- 作りたての journal に `rs` を書いて開き直すと、番号の付いた列が見える。 -/
theorem open_smallJournal_appended {rs : List JournalRecord} (hfit : rs.length ≤ 16) : ∃ j,
    openFile (appended smallJournal rs).device true = .ok j ∧
      j.view = .ok { identity := zeroIdentity, phase := .prepared, records := numbered 0 rs } := by
  have hshows : Shows smallJournal.device smallJournal.status [] :=
    shows_created zeroIdentity smallJournal_lt (by decide)
  have hcap : capacityRecords smallJournal.device.sizeBytes = 16 := by decide
  have happ := @Shows.appended _ _ hshows rs (by rw [hcap, List.length_nil]; omega) (by decide)
  obtain ⟨j, hopen, hsame, hrec, -⟩ := happ.reopen true
  have hhdr : (appended smallJournal rs).status.header =
      appendHeader smallJournal.status.header rs := foldl_account_header rs _
  refine ⟨j, hopen, ?_⟩
  unfold TransactionJournal.view
  rw [hrec, hsame.identity, hsame.phase,
    show (appended smallJournal rs).status.identity = zeroIdentity from congrArg DecodedHeader.id hhdr,
    show (appended smallJournal rs).status.phase = .prepared from congrArg DecodedHeader.phase hhdr]
  rfl

open TransactionJournal JournalState in
/--
二つの移動が重なって進んだ journal は clean で、列は正しい。二つ目が検証の前に切り替わった
journal は clean でなく、列も正しくない。
-/
theorem validate_decides_twoMoves :
    (∃ j v, openFile (appended smallJournal twoMoves).device true = .ok j ∧ j.view = .ok v ∧
      v.records = numbered 0 twoMoves ∧ (validateJournalSemantics v).clean = true ∧
      WellFormed v.records) ∧
    ∃ j v, openFile (appended smallJournal earlySwitch).device true = .ok j ∧ j.view = .ok v ∧
      v.records = numbered 0 earlySwitch ∧ (validateJournalSemantics v).clean = false ∧
      ¬ WellFormed v.records := by
  obtain ⟨j, hopen, hview⟩ := @open_smallJournal_appended twoMoves (by decide)
  obtain ⟨k, hopen', hview'⟩ := @open_smallJournal_appended earlySwitch (by decide)
  refine ⟨⟨j, _, hopen, hview, rfl, by decide, ?_⟩, k, _, hopen', hview', rfl, by decide, ?_⟩
  · obtain ⟨v, hv, hiff⟩ := validate_decides hopen
    rw [hview] at hv
    cases hv
    exact (hiff.mp (by decide)).1
  · obtain ⟨v, hv, hiff⟩ := validate_decides hopen'
    rw [hview'] at hv
    cases hv
    intro hwell
    have hclean := hiff.mpr ⟨hwell, fun hp => by cases hp⟩
    revert hclean
    decide

end Fsx
