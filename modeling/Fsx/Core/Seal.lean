import Fsx.Core.Error
import Fsx.Core.Bytes

/-!
# 欄に納めた checksum

byte 列のある欄に、その byte 列から計算した値を納める。値がその欄によらず、欄に納めた値が
読み戻せるなら、納めた byte 列は検査に通り、もう一度納めても変わらない。

* `Sealing` — 納め方 `write` と計算 `sum` が byte 列 `b` の上で満たすべきこと
* `Seals` — そこから従う、更新と検査の組の性質
-/

namespace Fsx

/-- 欄 `field` に `sum` の値を納める `write` が、byte 列 `b` の上で満たすべきこと。 -/
structure Sealing (write : Bytes → Nat → Bytes) (sum : Bytes → Nat) (field : Nat → Prop)
    (b : Bytes) : Prop where
  length : ∀ v, (write b v).length = b.length
  frame : ∀ v i, ¬ field i → (write b v)[i]? = b[i]?
  again : ∀ v, write (write b v) v = write b v
  sum_write : ∀ v, sum (write b v) = sum b

/--
`update` は `b` の上で成功し、結果は `verify` に通る。もう一度行っても変わらず、
欄 `field` の外の byte も長さも変えない。
-/
def Seals (update : Bytes → Result Bytes) (verify : Bytes → Result Bool) (field : Nat → Prop)
    (b : Bytes) : Prop :=
  ∃ b', update b = .ok b' ∧ verify b' = .ok true ∧ update b' = .ok b' ∧ b'.length = b.length ∧
    ∀ i, ¬ field i → b'[i]? = b[i]?

section Seals

variable {write : Bytes → Nat → Bytes} {sum : Bytes → Nat} {field : Nat → Prop} {b : Bytes}
  {update : Bytes → Result Bytes} {verify : Bytes → Result Bool}

/-- **値を納める更新は、検査に通る結果を与え、べき等で、欄の外を変えない。** -/
theorem Sealing.seals (h : Sealing write sum field b)
    (hup : update b = .ok (write b (sum b)))
    (hup' : update (write b (sum b)) = .ok (write (write b (sum b)) (sum (write b (sum b)))))
    (hver : verify (write b (sum b)) = .ok true) : Seals update verify field b := by
  refine ⟨write b (sum b), hup, hver, ?_, h.length _, h.frame _⟩
  rw [hup', h.sum_write, h.again]

/-- 更新も検査も行わない byte 列。 -/
theorem Seals.skip (hup : update b = .ok b) (hver : verify b = .ok true) :
    Seals update verify field b :=
  ⟨b, hup, hver, hup, rfl, fun _ _ => rfl⟩

end Seals

/-! ## 一つの欄 -/

section Fields

variable {b : Bytes} {n off v i : Nat}

theorem getElem?_writeLe_of_disjoint (h : ¬ (off ≤ i ∧ i < off + n)) :
    (writeLe n b off v)[i]? = b[i]? := by
  unfold writeLe
  rw [getElem?_patch, length_leBytes, if_neg h]

/-- 計算に欄が入らなければ、`off` からの `n` byte に値を納められる。 -/
theorem sealing_writeLe {sum : Bytes → Nat} (hsum : ∀ v, sum (writeLe n b off v) = sum b) :
    Sealing (fun b v => writeLe n b off v) sum (fun i => off ≤ i ∧ i < off + n) b where
  length v := length_writeLe n b off v
  frame _ _ hi := getElem?_writeLe_of_disjoint hi
  again v := writeLe_writeLe n b off v v
  sum_write := hsum

end Fields

end Fsx
