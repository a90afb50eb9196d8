import Fsx.Core.Bytes

/-!
# 記憶媒体の像

byte 番地から byte への関数を媒体の像とする。読み出しは `Bytes` を返し、
書き込みは範囲だけを差し替える。重ならない書き込みは読み出しに影響しない。
-/

namespace Fsx

abbrev Image := Nat → UInt8

namespace Image

/-- `off` から `n` byte を読む。 -/
def read (img : Image) (off n : Nat) : Bytes := (List.range n).map fun i => img (off + i)

/-- `off` に `bs` を書く。 -/
def write (img : Image) (off : Nat) (bs : Bytes) : Image := fun i =>
  if off ≤ i ∧ i < off + bs.length then bs.getD (i - off) 0 else img i

@[simp] theorem length_read (img : Image) (off n : Nat) : (img.read off n).length = n := by
  simp [read]

theorem getElem?_read (img : Image) (off n i : Nat) :
    (img.read off n)[i]? = if i < n then some (img (off + i)) else none := by
  unfold read
  rw [List.getElem?_map]
  split
  · next h => rw [List.getElem?_range h, Option.map_some]
  · next h => rw [List.getElem?_eq_none (by simpa using h), Option.map_none]

/-- 零の像からは零が読める。 -/
theorem read_zero (off n : Nat) : read (fun _ => 0) off n = zeros n := by
  unfold read zeros
  rw [List.map_const', List.length_range]

theorem write_apply_of_mem {img : Image} {off i : Nat} {bs : Bytes} (h1 : off ≤ i)
    (h2 : i < off + bs.length) : img.write off bs i = bs.getD (i - off) 0 := if_pos ⟨h1, h2⟩

theorem write_apply_of_not_mem {img : Image} {off i : Nat} {bs : Bytes}
    (h : i < off ∨ off + bs.length ≤ i) : img.write off bs i = img i := if_neg (by omega)

/-- 像の読み出しは、範囲の各 byte で決まる。 -/
theorem read_congr {img img' : Image} {off n : Nat}
    (h : ∀ i, off ≤ i → i < off + n → img i = img' i) : img.read off n = img'.read off n := by
  unfold read
  refine List.map_congr_left fun i hi => h _ (by omega) ?_
  have := List.mem_range.mp hi
  omega

/-- 重ならない書き込みは読み出しを変えない。 -/
theorem read_write_of_disjoint {img : Image} {off o n : Nat} {bs : Bytes}
    (h : o + n ≤ off ∨ off + bs.length ≤ o) : (img.write off bs).read o n = img.read o n :=
  read_congr fun i h1 h2 => write_apply_of_not_mem (by omega)

/-- 書いた範囲の中を読むと、書いた列の切り出しになる。 -/
theorem read_write_within {img : Image} {off o n : Nat} {bs : Bytes} (h : o + n ≤ bs.length) :
    (img.write off bs).read (off + o) n = slice bs o n := by
  apply List.ext_getElem?
  intro i
  rw [getElem?_read, getElem?_slice]
  split
  · have hlt : o + i < bs.length := by omega
    rw [write_apply_of_mem (by omega) (by omega), show off + o + i - off = o + i by omega,
      List.getD_eq_getElem?_getD, List.getElem?_eq_getElem hlt, Option.getD_some]
  · rfl

/-- 書いたものはそのまま読み戻せる。 -/
theorem read_write_self (img : Image) (off : Nat) (bs : Bytes) {n : Nat} (h : bs.length = n) :
    (img.write off bs).read off n = bs := by
  subst h
  have hw : (img.write off bs).read (off + 0) bs.length = slice bs 0 bs.length :=
    read_write_within (by omega)
  rw [Nat.add_zero] at hw
  rw [hw]
  simp [slice]

/-- 読んだ列の切り出しは、その範囲の読み出しである。 -/
theorem slice_read (img : Image) (off n o m : Nat) (h : o + m ≤ n) :
    slice (img.read off n) o m = img.read (off + o) m := by
  apply List.ext_getElem?
  intro i
  rw [getElem?_slice, getElem?_read, getElem?_read]
  split
  · rw [if_pos (by omega), Nat.add_assoc]
  · rfl

theorem readLe_read (img : Image) (off n o m : Nat) (h : o + m ≤ n) :
    readLe m (img.read off n) o = leNat (img.read (off + o) m) := by
  unfold readLe
  rw [slice_read img off n o m h]

theorem read_append (img : Image) (off n m : Nat) :
    img.read off (n + m) = img.read off n ++ img.read (off + n) m := by
  apply List.ext_getElem?
  intro i
  rw [getElem?_read]
  rcases Nat.lt_or_ge i n with h | h
  · rw [List.getElem?_append_left (by simpa using h), getElem?_read, if_pos h, if_pos (by omega)]
  · rw [List.getElem?_append_right (by simpa using h), getElem?_read, length_read]
    by_cases hm : i < n + m
    · rw [if_pos hm, if_pos (by omega), show off + n + (i - n) = off + i by omega]
    · rw [if_neg hm, if_neg (by omega)]

/-- 二つの像がある範囲で一致するのは、そこの読み出しが等しいときである。 -/
theorem apply_eq_of_read_eq {img img' : Image} {off n : Nat} (h : img.read off n = img'.read off n)
    {i : Nat} (h1 : off ≤ i) (h2 : i < off + n) : img i = img' i := by
  have hi := congrArg (fun l => l[i - off]?) h
  simp only [getElem?_read] at hi
  rw [if_pos (by omega), if_pos (by omega), Nat.add_sub_cancel' h1] at hi
  exact Option.some.inj hi

/-- 同じ範囲への二度の書き込みは、後のものだけが残る。 -/
theorem write_write_self (img : Image) (off : Nat) {xs ys : Bytes} (h : xs.length = ys.length) :
    (img.write off xs).write off ys = img.write off ys := by
  funext i
  unfold write
  rw [h]
  split <;> rfl

/-- もとの内容の書き戻しは何もしない。 -/
theorem write_read_self (img : Image) (off n : Nat) : img.write off (img.read off n) = img := by
  funext i
  unfold write
  split
  · next h =>
    rw [length_read] at h
    rw [List.getD_eq_getElem?_getD, getElem?_read, if_pos (by omega), Nat.add_sub_cancel' h.1]
    rfl
  · rfl

end Image

end Fsx
