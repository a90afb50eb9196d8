import Fsx.Btrfs.Model

/-!
# 検査と選択の一致

`read_best_superblock` は寸法で絞ってから最も新しい写しを取り、`check` は最も新しい写しを取ってから
寸法を検査する。`check` が異常なしと答えたなら、選んだ写しは寸法の検査も通っている。絞った列は
もとの列から要素を除いたものなので、そこでも同じ写しが最も新しく、同じ世代のうちで先頭にある。
-/

namespace Fsx.Btrfs

/-! ## 絞った列の最大 -/

/-- 最大の要素が残るなら、絞った列の最大も同じ要素である。 -/
theorem argmax_filter {α β : Type} [LinearOrder β] {f : α → β} {p : α → Bool} {m : α} {l : List α}
    (h : l.argmax f = some m) (hp : p m = true) : (l.filter p).argmax f = some m := by
  induction l generalizing m with
  | nil => cases h
  | cons a l ih =>
    rw [List.argmax_cons] at h
    cases hl : l.argmax f with
    | none =>
      rw [hl] at h
      cases h
      rw [List.argmax_eq_none.mp hl, List.filter_cons_of_pos hp]
      rfl
    | some c =>
      rw [hl] at h
      dsimp only at h
      split at h
      · next hlt =>
        cases h
        have hrest := ih hl hp
        by_cases ha : p a = true
        · rw [List.filter_cons_of_pos ha, List.argmax_cons, hrest]
          exact if_pos hlt
        · rwa [List.filter_cons_of_neg ha]
      · next hge =>
        cases h
        rw [List.filter_cons_of_pos hp, List.argmax_cons]
        cases hrest : (l.filter p).argmax f with
        | none => rfl
        | some c' =>
          have hle := List.le_of_mem_argmax (List.mem_of_mem_filter (List.argmax_mem hrest)) hl
          exact if_neg fun hlt => hge (lt_of_lt_of_le hlt hle)

/-! ## 二つの loop -/

variable {d : Disk}

theorem valid_add (v : Survey) (off : Nat) (s : Superblock) :
    (v.add off s).valid =
      if s.checksumSupported && s.checksumValid then v.valid ++ [s] else v.valid := by
  unfold Survey.add
  cases s.checksumSupported <;> cases s.checksumValid <;> rfl

/-- 候補は、checksum の正しい写しを寸法で絞ったものである。 -/
theorem collectCandidates_eq {offs : List Nat} {v v' : Survey} (h : survey d offs v = .ok v') :
    collectCandidates d offs (v.valid.filter (saneGeometry d)) =
      .ok (v'.valid.filter (saneGeometry d)) := by
  induction offs generalizing v with
  | nil => cases h; rfl
  | cons off rest ih =>
    rw [survey] at h
    rw [collectCandidates]
    split at h
    · next hout => rw [if_pos hout]; exact ih h
    · next hout =>
      rw [if_neg hout]
      cases hp : parse d off with
      | error e =>
        rw [hp] at h
        dsimp only at h ⊢
        split at h
        · next hskip => rw [if_pos hskip]; exact ih h
        · cases h
      | ok s =>
        rw [hp] at h
        dsimp only at h ⊢
        have hnext := ih h
        rw [valid_add] at hnext
        rw [← hnext]
        congr 1
        cases s.checksumSupported && s.checksumValid with
        | false => rfl
        | true =>
          rw [if_pos rfl, List.filter_append, Bool.true_and]
          cases hs : saneGeometry d s with
          | false => rw [if_neg Bool.false_ne_true, List.filter_singleton, hs]; simp
          | true => rw [if_pos rfl, List.filter_singleton, hs]; rfl

/-! ## 失敗の記録 -/

namespace CheckReport

variable {r : CheckReport} {c : Prop} [Decidable c] {s : String}

theorem errors_failIf : (r.failIf c s).errors = [] ↔ r.errors = [] ∧ ¬ c := by
  unfold failIf fail
  split <;> simp [*]

theorem errors_warnIf : (r.warnIf c s).errors = r.errors := by
  unfold warnIf
  split <;> rfl

@[simp] theorem selectedGeneration_failIf :
    (r.failIf c s).selectedGeneration = r.selectedGeneration := by
  unfold failIf fail
  split <;> rfl

@[simp] theorem selectedGeneration_warnIf :
    (r.warnIf c s).selectedGeneration = r.selectedGeneration := by
  unfold warnIf
  split <;> rfl

end CheckReport

theorem selectedGeneration_foldl {best : Superblock} {ss : List Superblock} {r : CheckReport} :
    (ss.foldl (compareMirror best) r).selectedGeneration = r.selectedGeneration := by
  induction ss generalizing r with
  | nil => rfl
  | cons s ss ih => rw [List.foldl_cons, ih]; simp [compareMirror]

theorem selectedGeneration_checkBest {best : Superblock} {r : CheckReport} :
    (checkBest d best r).selectedGeneration = r.selectedGeneration := by
  simp [checkBest]

theorem errors_of_conclude {r : CheckReport} (h : (conclude r).clean = true) : r.errors = [] := by
  have hnil := List.isEmpty_iff.mp h
  rwa [CheckReport.errors_warnIf] at hnil

theorem errors_of_compareMirror {best : Superblock} {ss : List Superblock} {r : CheckReport}
    (h : (ss.foldl (compareMirror best) r).errors = []) : r.errors = [] := by
  induction ss generalizing r with
  | nil => exact h
  | cons s ss ih =>
    have hstep := ih h
    simp only [compareMirror, CheckReport.errors_warnIf, CheckReport.errors_failIf] at hstep
    exact hstep.1.1.1

/-- 検査の条件は、`sane_geometry` の条件を並べ替えたものである。 -/
theorem sane_of_checkBest {best : Superblock} {r : CheckReport}
    (h : (checkBest d best r).errors = []) : saneGeometry d best = true := by
  simp only [checkBest, CheckReport.errors_failIf] at h
  unfold saneGeometry
  rw [if_neg (by tauto), if_neg (by tauto), if_neg (by tauto), if_neg (by tauto),
    if_neg (by tauto), if_neg (by tauto)]

/-- **異常のない device では、`read_best_superblock` は `check` の選んだ写しを返す。** -/
theorem selection_agrees {r : CheckReport} (h : check d = .ok r) (hclean : r.clean = true) :
    ∃ v best, survey d mirrors {} = .ok v ∧ v.selected = some best ∧
      readBestSuperblock d = .ok best ∧ best.generation = r.selectedGeneration := by
  unfold check at h
  obtain ⟨v, hv, h⟩ := Result.bind_eq_ok h
  rw [Result.guard_bind_eq_ok_iff] at h
  obtain ⟨-, h⟩ := h
  cases hbest : v.selected with
  | none =>
    rw [hbest] at h
    cases h
    cases hclean
  | some best =>
    rw [hbest] at h
    cases h
    have hsane := sane_of_checkBest (errors_of_compareMirror (errors_of_conclude hclean))
    refine ⟨v, best, hv, hbest, ?_, ?_⟩
    · have hcandidates : collectCandidates d mirrors [] = .ok (v.valid.filter (saneGeometry d)) :=
        collectCandidates_eq hv
      rw [readBestSuperblock, hcandidates, Result.ok_bind, argmax_filter hbest hsane]
      rfl
    · rw [conclude, CheckReport.selectedGeneration_warnIf, selectedGeneration_foldl,
        selectedGeneration_checkBest]

/-! ## 写しが一つの device -/

/-- どの欄も、checksum の 32 byte より後から読む。 -/
theorem fields_append {a a' body : Bytes} {off : Nat} (h : a.length = a'.length)
    (hle : a.length ≤ 32) : fields off (a ++ body) = fields off (a' ++ body) := by
  have hslice : ∀ o n, 32 ≤ o → slice (a ++ body) o n = slice (a' ++ body) o n := fun o n ho => by
    rw [slice_append_right (hle.trans ho), slice_append_right (h ▸ hle.trans ho), h]
  simp (disch := decide) only [fields, readLe, labelFrom, hslice]

namespace Single

/-- checksum の後の部分。世代 7 で、1 MiB の device 一つからなる。 -/
def body : Bytes :=
  zeros 18 ++ [1] ++ zeros 13 ++ [0x5f, 0x42, 0x48, 0x52, 0x66, 0x53, 0x5f, 0x4d, 7] ++
    zeros 41 ++ [0x10] ++ zeros 21 ++ [1] ++ zeros 8 ++ [0x10] ++ zeros 3 ++ [0x40] ++ zeros 7 ++
    [0x10] ++ zeros 43 ++ [1] ++ zeros 9 ++ [0x10] ++ zeros 3884

theorem length_body : body.length = 4064 := by decide +kernel

/-- checksum の欄。 -/
def sum : Bytes := patch (zeros 32) 0 (leBytes 4 (crc32cFinal body).toNat)

theorem length_sum : sum.length = 32 := by rw [sum, length_patch, length_zeros]

def disk : Disk where
  sizeBytes := 1048576
  logicalSector := 512
  isBlockDevice := false
  writable := false
  data := Image.write (fun _ => 0) 65536 (sum ++ body)
  events := []
  size_lt := by decide

/-- checksum の照合を終えた写し。 -/
def best : Superblock := { fields 65536 (zeros 32 ++ body) with checksumValid := true }

theorem checksumMatches_sum : checksumMatches (sum ++ body) .crc32c = true := by
  have hsum : calculatedChecksum (sum ++ body) .crc32c = sum := by
    rw [calculatedChecksum, List.drop_left' length_sum]
    rfl
  rw [checksumMatches, hsum, List.take_append_of_le_length (by rw [length_sum]; decide)]
  exact beq_self_eq_true _

theorem parse_disk : parse disk 65536 = .ok best := by
  have hlen : (sum ++ body).length = sbSize := by
    rw [List.length_append, length_sum, length_body]
    rfl
  have hread : disk.readExact 65536 sbSize = .ok (sum ++ body) := by
    rw [Disk.readExact_ok (by decide)]
    exact congrArg _ (Image.read_write_self _ _ _ hlen)
  have hfields : fields 65536 (sum ++ body) = fields 65536 (zeros 32 ++ body) :=
    fields_append (length_sum.trans (length_zeros 32).symm) (Nat.le_of_eq length_sum)
  have hmagic : readLe 8 (sum ++ body) 64 = magic := by
    rw [readLe, slice_append_right (by rw [length_sum]; decide), length_sum]
    decide +kernel
  have hdecode : decode 65536 (sum ++ body) = best := by
    have hsupported : (fields 65536 (zeros 32 ++ body)).checksumSupported = true := by
      decide +kernel
    have htype : (fields 65536 (zeros 32 ++ body)).checksumType = .crc32c := by decide +kernel
    rw [decode, hfields, if_pos hsupported, htype, checksumMatches_sum]
    rfl
  rw [parse, if_neg (by decide), hread, Result.ok_bind, if_neg (not_not.mpr hmagic), hdecode]
  rfl

/-- ほかの二つの写しは device の外にあり、残った写しに異常はない。 -/
theorem check_disk : ∃ r, check disk = .ok r ∧ r.clean = true := by
  have hsurvey : survey disk mirrors {} = .ok (Survey.add {} 65536 best) := by
    rw [mirrors, survey, if_neg (by decide), show 64 * 1024 = 65536 from rfl, parse_disk]
    rfl
  have hselected : (Survey.add {} 65536 best).selected = some best := rfl
  refine ⟨conclude (compareMirror best (checkBest disk best
    { (Survey.add {} 65536 best).report with selectedGeneration := best.generation }) best), ?_,
    by decide +kernel⟩
  rw [check, hsurvey, Result.ok_bind, if_neg (by decide), hselected]
  rfl

end Single

/-- 写しが一つの device では、その写しが選ばれる。 -/
theorem selection_agrees_single : ∃ r v best, check Single.disk = .ok r ∧
    survey Single.disk mirrors {} = .ok v ∧ v.selected = some best ∧
    readBestSuperblock Single.disk = .ok best ∧ best.generation = r.selectedGeneration := by
  obtain ⟨r, h, hclean⟩ := Single.check_disk
  obtain ⟨v, best, h1, h2, h3, h4⟩ := selection_agrees h hclean
  exact ⟨r, v, best, h, h1, h2, h3, h4⟩

end Fsx.Btrfs
