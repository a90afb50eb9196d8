import Mathlib.Data.List.Basic

/-!
# 失敗の値（`include/fsx/error.hpp`・`include/fsx/result.hpp`）

`Result<T>` は `Except Error T` である。`errno` 由来の失敗は、多くの module では host の呼び出しの
結果として外から与える。そこで作る値の `sysErrno` はつねに 0 になる。
system call を一つずつ追う module だけが `fromErrno` を使う。
-/

namespace Fsx

inductive Errc where
  | ok | usage | invalidArgument | openFailed | readFailed | writeFailed | flushFailed
  | shortIo | unsupported | corrupt | unsafeErr | notFound | permission | io | internal
  deriving DecidableEq, Repr

structure Error where
  code : Errc
  message : String
  sysErrno : Int := 0
  deriving DecidableEq, Repr

abbrev Result := Except Error

/-- `errno` と、`strerror` の返す文字列。 -/
structure Errno where
  code : Nat
  text : String

/-- `from_errno`。 -/
def fromErrno (code : Errc) (message : String) (e : Errno) : Error :=
  { code, message := message ++ e.text, sysErrno := e.code }

namespace Result

variable {α β : Type}

@[simp] theorem ok_bind (a : α) (f : α → Result β) : ((.ok a : Result α) >>= f) = f a := rfl

@[simp] theorem error_bind (e : Error) (f : α → Result β) :
    ((.error e : Result α) >>= f) = .error e := rfl

/-- 成功した列は、前半が成功している。 -/
theorem bind_eq_ok {x : Result α} {f : α → Result β} {b : β} (h : (x >>= f) = .ok b) :
    ∃ a, x = .ok a ∧ f a = .ok b := by
  cases x with
  | error e => cases h
  | ok a => exact ⟨a, rfl, h⟩

theorem bind_eq_ok_iff {x : Result α} {f : α → Result β} {b : β} :
    (x >>= f) = .ok b ↔ ∃ a, x = .ok a ∧ f a = .ok b := by
  constructor
  · exact bind_eq_ok
  · rintro ⟨a, rfl, h⟩; exact h

/-- `if c then throw e` の後が成功するのは、`c` が偽で続きが成功するときである。 -/
theorem guard_bind_eq_ok_iff {c : Prop} [Decidable c] {e : Error} {f : α → Result β} {x : Result β}
    {b : β} : (if c then (throw e : Result α) >>= f else x) = .ok b ↔ ¬ c ∧ x = .ok b := by
  by_cases h : c
  · rw [if_pos h]
    exact ⟨fun hc => (by cases hc), fun hc => absurd h hc.1⟩
  · rw [if_neg h]
    exact ⟨fun hx => ⟨h, hx⟩, fun hx => hx.2⟩

/-- 続きのない、または値で分かれる `if c then throw e`。 -/
theorem guard_eq_ok_iff {c : Prop} [Decidable c] {e : Error} {x : Result β} {b : β} :
    (if c then (throw e : Result β) else x) = .ok b ↔ ¬ c ∧ x = .ok b := by
  by_cases h : c
  · rw [if_pos h]
    exact ⟨fun hc => (by cases hc), fun hc => absurd h hc.1⟩
  · rw [if_neg h]
    exact ⟨fun hx => ⟨h, hx⟩, fun hx => hx.2⟩

theorem pure_eq_ok_iff {a b : α} : (pure a : Result α) = .ok b ↔ b = a := by
  constructor
  · intro h; cases h; rfl
  · rintro rfl; rfl

end Result

/--
状態 `σ` を持つ手続き。失敗しても、それまでに進んだ状態は残る。

C++ の側では device への書き込みが失敗の後も残るので、状態は `Except` の外に置く。
-/
abbrev Proc (σ : Type) := ExceptT Error (StateM σ)

namespace Proc

variable {σ α β : Type}

/-- 初期状態を与えて走らせる。 -/
def run (p : Proc σ α) (s : σ) : Result α × σ := StateT.run (ExceptT.run p) s

/-- 状態を読むだけの計算を手続きにする。 -/
def reading (f : σ → Result α) : Proc σ α := fun s => (f s, s)

/-- 状態を進める計算を手続きにする。失敗なら状態は変わらない。 -/
def stepping (f : σ → Result σ) : Proc σ Unit := fun s =>
  match f s with
  | .ok s' => (.ok (), s')
  | .error e => (.error e, s)

@[simp] theorem run_pure (a : α) (s : σ) : run (pure a) s = (.ok a, s) := rfl

@[simp] theorem run_throw (e : Error) (s : σ) :
    run (throw e : Proc σ α) s = (.error e, s) := rfl

@[simp] theorem run_reading (f : σ → Result α) (s : σ) : run (reading f) s = (f s, s) := rfl

@[simp] theorem run_get (s : σ) : run (get : Proc σ σ) s = (.ok s, s) := rfl

@[simp] theorem run_modify (f : σ → σ) (s : σ) : run (modify f : Proc σ Unit) s = (.ok (), f s) :=
  rfl

theorem run_bind (p : Proc σ α) (f : α → Proc σ β) (s : σ) :
    run (p >>= f) s =
      match run p s with
      | (.ok a, s') => run (f a) s'
      | (.error e, s') => (.error e, s') := by
  show StateT.run (ExceptT.run (p >>= f)) s = _
  rw [ExceptT.run_bind, StateT.run_bind]
  unfold run
  cases StateT.run (ExceptT.run p) s with
  | mk r s' => cases r <;> rfl

theorem run_bind_ok {p : Proc σ α} {f : α → Proc σ β} {s s' : σ} {a : α}
    (h : run p s = (.ok a, s')) : run (p >>= f) s = run (f a) s' := by
  rw [run_bind, h]

theorem run_bind_error {p : Proc σ α} {f : α → Proc σ β} {s s' : σ} {e : Error}
    (h : run p s = (.error e, s')) : run (p >>= f) s = (.error e, s') := by
  rw [run_bind, h]

/-- 成功した列は、前半が成功して後半に続いている。 -/
theorem run_bind_eq_ok {p : Proc σ α} {f : α → Proc σ β} {s s'' : σ} {b : β}
    (h : run (p >>= f) s = (.ok b, s'')) :
    ∃ a s', run p s = (.ok a, s') ∧ run (f a) s' = (.ok b, s'') := by
  rw [run_bind] at h
  cases hp : run p s with
  | mk r s' =>
    rw [hp] at h
    cases r with
    | error e => cases h
    | ok a => exact ⟨a, s', rfl, h⟩

theorem run_stepping_ok {f : σ → Result σ} {s s' : σ} (h : f s = .ok s') :
    run (stepping f) s = (.ok (), s') := by
  show (match f s with
    | .ok s' => (Except.ok (), s')
    | .error e => (Except.error e, s)) = _
  rw [h]

theorem run_stepping_error {f : σ → Result σ} {s : σ} {e : Error} (h : f s = .error e) :
    run (stepping f) s = (.error e, s) := by
  show (match f s with
    | .ok s' => (Except.ok (), s')
    | .error e => (Except.error e, s)) = _
  rw [h]

end Proc

end Fsx
