import Fsx.Io.DeviceRuns

/-!
# fault の rule は、手続きを選んだところで切る

`fault::install` した rule のもとで手続きを走らせると、選んだ種類の呼び出しの `hit` 番目の
前（または後）で止まり、そこまでの呼び出しは何も変わらない（`exec_cut`）。
`one_shot` は、この結果に関わらない。

kernel はいつかは頼んだ分を運ぶものとする（`Serves`）。
-/

namespace Fsx

open BlockDevice

/-! ## 頼んだ分を運ぶ kernel -/

/-- 失敗せず、やり直しでない返事が `size` 回以上ある。 -/
structure Serves (size : Nat) (calls : Calls) : Prop where
  alone : Alone calls.turns
  benign : ∀ t ∈ calls.turns, t.reply = .again ∨ ∃ n, 0 < n ∧ t.reply = .moved n
  enough : size ≤ (calls.turns.filter fun t => !t.reply.isAgain).length
  fsync : calls.fsync = none

section Serves

variable {d : Disk} {calls : Calls} {off len : Nat} {bytes b : Bytes} {e : Error}

theorem Serves.whole {σ : Type} {enter : List Write → σ → σ} {act : Nat → Nat → σ → σ} {s : σ}
    {size : Nat} (h : Serves size calls) (hlen : len ≤ size) :
    (transfer ssizeMax len enter act 0 calls.turns s).ended = .whole := by
  have hended := @transfer_ended σ (List Write) Errno ssizeMax len enter act 0 calls.turns s
    (by decide) (by rw [Nat.sub_zero]; exact hlen.trans h.enough)
  rcases @transfer_benign σ (List Write) Errno ssizeMax len enter act 0 calls.turns s h.benign with
    hw | hw
  · exact hw
  · exact absurd hw hended

theorem finish_whole {σ α : Type} {t : Transferred σ Errno} {value : α} {short : Error}
    {failure : Errno → Error} (h : t.ended = .whole) : finish t value short failure = .ok value := by
  unfold finish
  rw [h]

/-- 検査を通る書き込みは、全部を書く。 -/
theorem Serves.write_ok (h : Serves d.sizeBytes calls) {d' : Disk}
    (hw : d.writeExact off bytes = .ok d') :
    (checked (checkWrite off bytes.length) (pwriteAll calls.turns off bytes) d).1 = .ok () ∧
      (checked (checkWrite off bytes.length) (pwriteAll calls.turns off bytes) d).2.Alike
        (d.emit [.write ⟨off, bytes⟩]) := by
  have hle := (Disk.writeExact_eq_ok_iff.mp hw).2.1
  have hbind := checkWrite_bind off bytes d
  unfold checked
  cases hc : checkWrite off bytes.length d with
  | error e =>
    rw [hc, Result.error_bind, hw] at hbind
    cases hbind
  | ok u =>
    have hok : (pwriteAll calls.turns off bytes d).1 = .ok () := finish_whole (h.whole (by omega))
    obtain ⟨ps, -, hemit, hall⟩ := @pwriteAll_alone d off bytes _ h.alone
    refine ⟨hok, ?_⟩
    dsimp only
    rw [hemit]
    refine (Disk.Alike.refl d).emit fun img => ?_
    rw [replay_writes, hall () hok]
    rfl

theorem write_error (hw : d.writeExact off bytes = .error e) :
    checked (checkWrite off bytes.length) (pwriteAll calls.turns off bytes) d =
      (.error (.error e), d) := by
  have hbind := checkWrite_bind off bytes d
  unfold checked
  cases hc : checkWrite off bytes.length d with
  | error e' =>
    rw [hc, Result.error_bind, hw] at hbind
    cases hbind
    rfl
  | ok u =>
    rw [hc, Result.ok_bind, hw] at hbind
    cases hbind

/-- 検査を通る読み出しは、全部を読む。 -/
theorem Serves.read_ok (h : Serves d.sizeBytes calls) (hr : d.readExact off len = .ok b) :
    checked (checkRead off len) (preadAll calls.turns off len) d = (.ok b, d) := by
  obtain ⟨hle, rfl⟩ := Disk.readExact_eq_ok_iff.mp hr
  have hbind := checkRead_bind off len d
  unfold checked
  cases hc : checkRead off len d with
  | error e =>
    rw [hc, Result.error_bind, hr] at hbind
    cases hbind
  | ok u =>
    obtain ⟨b, hb⟩ : ∃ b, (preadAll calls.turns off len d).1 = .ok b :=
      ⟨_, finish_whole (h.whole (by omega))⟩
    obtain ⟨pre, -, -, hread⟩ := @preadAll_spec d off len _ h.alone.outside
    refine Prod.ext ?_ (preadAll_alone h.alone)
    rw [hb, hread b hb]

theorem read_error (hr : d.readExact off len = .error e) :
    checked (checkRead off len) (preadAll calls.turns off len) d = (.error (.error e), d) := by
  have hbind := checkRead_bind off len d
  unfold checked
  cases hc : checkRead off len d with
  | error e' =>
    rw [hc, Result.error_bind, hr] at hbind
    cases hbind
    rfl
  | ok u =>
    rw [hc, Result.ok_bind, hr] at hbind
    cases hbind

end Serves

/-! ## rule を数える -/

namespace Fault

/-- rule に当たるまで、あと `k` 回である。`0` は、rule がないことを言う。 -/
def Armed (rule : Rule) : Nat → State → Prop
  | 0, f => f.active = false
  | k + 1, f => f.active = true ∧ f.rule = rule ∧
    (f.counts rule.operation).toNat + (k + 1) = rule.hit.toNat

/-- rule に当たったときの終わり方。 -/
def Rule.verdict (rule : Rule) : Halt :=
  match rule.action with
  | .returnError => .error (injected rule.operation rule.timing rule.hit)
  | .terminateProcess => .exited 200

/-- 置いた rule は、`hit` 回目を待っている。 -/
theorem armed_install (rule : Rule) :
    ∃ k, 0 < k ∧ k = (install rule).rule.hit.toNat ∧
      Armed (install rule).rule k (install rule) := by
  have hne : (install rule).rule.hit ≠ 0 := by
    unfold install
    dsimp only
    split
    · exact fun h : (1 : UInt64) = 0 => absurd h (by decide)
    · next h => exact h
  have hpos : (install rule).rule.hit.toNat ≠ 0 := fun h => hne (UInt64.toNat_inj.mp h)
  obtain ⟨k, hk⟩ := Nat.exists_eq_succ_of_ne_zero hpos
  refine ⟨k + 1, Nat.succ_pos k, hk.symm, rfl, rfl, ?_⟩
  rw [hk]
  exact Nat.zero_add _

variable {rule : Rule} {k : Nat} {f : State} {d : BlockDevice} {op : Operation} {t : Timing}

/-- 選ばれていない検査点は、何もしない。 -/
theorem Armed.skip (h : Armed rule k d.fault)
    (hne : k = 0 ∨ rule.operation ≠ op ∨ rule.timing ≠ t) :
    BlockDevice.run (checkPoint op t) d = (.ok (), d) := by
  cases k with
  | zero => exact checkPoint_inactive op t h
  | succ k =>
    obtain ⟨hact, hrule, -⟩ := h
    have hne := hne.resolve_left (Nat.succ_ne_zero k)
    have hpoint : d.fault.point op t = (.pass, d.fault) := by
      unfold State.point
      rw [if_neg (by simp [hact]), if_pos (by rwa [hrule])]
    show checkPoint op t d = _
    unfold checkPoint
    rw [if_pos hact, hpoint]

theorem toNat_add_one {n hit : UInt64} {k : Nat} (h : n.toNat + (k + 1) = hit.toNat) :
    (n + 1).toNat = n.toNat + 1 := by
  have hlt := hit.toNat_lt
  rw [UInt64.toNat_add, show (1 : UInt64).toNat = 1 from rfl, Nat.mod_eq_of_lt (by omega)]

/-- 選ばれた検査点は、数える。 -/
theorem Armed.count (h : Armed rule (k + 2) d.fault) :
    ∃ f, Armed rule (k + 1) f ∧
      BlockDevice.run (checkPoint rule.operation rule.timing) d = (.ok (), { d with fault := f }) := by
  obtain ⟨hact, rfl, hcount⟩ := h
  have hnext := toNat_add_one hcount
  have hne : d.fault.counts d.fault.rule.operation + 1 ≠ d.fault.rule.hit := by
    intro heq
    rw [heq] at hnext
    omega
  let counts := Function.update d.fault.counts d.fault.rule.operation
    (d.fault.counts d.fault.rule.operation + 1)
  refine ⟨{ d.fault with counts }, ⟨hact, rfl, ?_⟩, ?_⟩
  · have hself : counts d.fault.rule.operation = d.fault.counts d.fault.rule.operation + 1 :=
      Function.update_self _ _ _
    show (counts d.fault.rule.operation).toNat + (k + 1) = _
    rw [hself, hnext]
    omega
  · show checkPoint _ _ d = _
    unfold checkPoint State.point
    rw [if_pos hact, if_neg (by simp [hact]), if_neg (by simp)]
    dsimp only
    rw [if_pos hne]

/-- 待っていた検査点で、止まる。 -/
theorem Armed.fire (h : Armed rule 1 d.fault) :
    ∃ f, BlockDevice.run (checkPoint rule.operation rule.timing) d =
      (.error rule.verdict, { d with fault := f }) := by
  obtain ⟨hact, rfl, hcount⟩ := h
  have heq : d.fault.counts d.fault.rule.operation + 1 = d.fault.rule.hit :=
    UInt64.toNat_inj.mp ((toNat_add_one hcount).trans hcount)
  cases haction : d.fault.rule.action with
  | terminateProcess =>
    have hpoint : ∃ f, d.fault.point d.fault.rule.operation d.fault.rule.timing =
        (.exits 200, f) := by
      unfold State.point
      rw [if_neg (by simp [hact]), if_neg (by simp)]
      dsimp only
      rw [if_neg (by rw [heq]; simp), haction]
      exact ⟨_, rfl⟩
    obtain ⟨f, hf⟩ := hpoint
    refine ⟨f, ?_⟩
    show checkPoint _ _ d = _
    unfold checkPoint Rule.verdict
    rw [if_pos hact, hf, haction]
  | returnError =>
    have hpoint : ∃ f, d.fault.point d.fault.rule.operation d.fault.rule.timing =
        (.fails (injected d.fault.rule.operation d.fault.rule.timing d.fault.rule.hit), f) := by
      unfold State.point
      rw [if_neg (by simp [hact]), if_neg (by simp)]
      dsimp only
      rw [if_neg (by rw [heq]; simp), haction, heq]
      exact ⟨_, rfl⟩
    obtain ⟨f, hf⟩ := hpoint
    refine ⟨f, ?_⟩
    show checkPoint _ _ d = _
    unfold checkPoint Rule.verdict
    rw [if_pos hact, hf, haction]

end Fault

/-! ## 切った手続き -/

namespace Prog

variable {α β : Type}

/-- 種類 `kind` の呼び出しを、rule の数 `k` に応じて、続けるか、前か後で切る。 -/
def cutCall (rule : Fault.Rule) (kind : Fault.Operation) (k : Nat)
    (now : (β → Prog (Option α)) → Prog (Option α)) (rest : Nat → β → Prog (Option α)) :
    Prog (Option α) :=
  if k = 0 ∨ rule.operation ≠ kind then now (rest k)
  else if k ≠ 1 then now (rest (k - 1))
  else
    match rule.timing with
    | .before => .ret none
    | .after => now fun _ => .ret none

/-- 選んだ種類の呼び出しの `k` 番目の、前か後で切った手続き。切ったところでは `none` を返す。 -/
def cut (rule : Fault.Rule) : Prog α → Nat → Prog (Option α)
  | .ret a, _ => .ret (some a)
  | .fail e, _ => .fail e
  | .read off len next, k => cutCall rule .read k (.read off len) fun k b => cut rule (next b) k
  | .write off bytes next, k =>
    cutCall rule .write k (fun f => .write off bytes (f ())) fun k _ => cut rule next k
  | .flush next, k => cutCall rule .flush k (fun f => .flush (f ())) fun k _ => cut rule next k

/-- `k` が `0` なら、どこも切らない。 -/
theorem run_cut_zero (rule : Fault.Rule) : ∀ (p : Prog α) (d : Disk),
    Proc.run (p.cut rule 0).run d = ((Proc.run p.run d).1.map some, (Proc.run p.run d).2)
  | .ret a, d => rfl
  | .fail e, d => rfl
  | .read off len next, d => by
    rw [cut, cutCall, if_pos (Or.inl rfl)]
    cases hr : d.readExact off len with
    | error e =>
      rw [run_read_error hr, run_read_error hr]
      rfl
    | ok b =>
      rw [run_read_ok hr, run_read_ok hr]
      exact run_cut_zero rule (next b) d
  | .write off bytes next, d => by
    rw [cut, cutCall, if_pos (Or.inl rfl)]
    cases hw : d.writeExact off bytes with
    | error e =>
      rw [run_write_error hw, run_write_error hw]
      rfl
    | ok d' =>
      obtain ⟨hwr, hle, -⟩ := Disk.writeExact_eq_ok_iff.mp hw
      rw [run_write_ok (Disk.writeExact_ok hwr hle), run_write_ok (Disk.writeExact_ok hwr hle)]
      exact run_cut_zero rule next _
  | .flush next, d => by
    rw [cut, cutCall, if_pos (Or.inl rfl), run_flush_ok, run_flush_ok]
    exact run_cut_zero rule next _

/-- 少しずつ進む device での結果 `x` と、切った手続きの結果 `y` が合う。 -/
structure Agrees (rule : Fault.Rule) (x : Except Halt α × BlockDevice)
    (y : Result (Option α) × Disk) : Prop where
  disk : x.2.disk.Alike y.2
  result : x.1 = match y.1 with
    | .ok (some a) => .ok a
    | .ok none => .error rule.verdict
    | .error e => .error (.error e)

/-- 呼び出し `body` の一回で済む意味が `now` である。 -/
structure Means (body : Disk → Except Halt β × Disk)
    (now : (β → Prog (Option α)) → Prog (Option α)) (d D : Disk) : Prop where
  step : (∃ b d' D', body d = (.ok b, d') ∧ (d'.Alike D' ∧ D'.sizeBytes = D.sizeBytes) ∧
      ∀ next, Proc.run (now next).run D = Proc.run (next b).run D') ∨
    ∃ e, body d = (.error (.error e), d) ∧ ∀ next, Proc.run (now next).run D = (.error e, D)

section RunCall

variable {op : Fault.Operation} {body : Disk → Except Halt β × Disk} {d d1 d2 : BlockDevice}
  {d' : Disk} {b : β} {h : Halt}

theorem run_call_ok (hbefore : BlockDevice.run (checkPoint op .before) d = (.ok (), d1))
    (hbody : body d1.disk = (.ok b, d'))
    (hafter : BlockDevice.run (checkPoint op .after) { d1 with disk := d' } = (.ok (), d2)) :
    BlockDevice.run (call op body) d = (.ok b, d2) := by
  have hrun := run_onDisk body d1
  rw [hbody] at hrun
  unfold call
  rw [run_bind_ok hbefore, run_bind_ok hrun, run_bind_ok hafter, BlockDevice.run_pure]

theorem run_call_before (hbefore : BlockDevice.run (checkPoint op .before) d = (.error h, d1)) :
    BlockDevice.run (call op body) d = (.error h, d1) := by
  unfold call
  rw [run_bind_error hbefore]

theorem run_call_body (hbefore : BlockDevice.run (checkPoint op .before) d = (.ok (), d1))
    (hbody : body d1.disk = (.error h, d')) :
    BlockDevice.run (call op body) d = (.error h, { d1 with disk := d' }) := by
  have hrun := run_onDisk body d1
  rw [hbody] at hrun
  unfold call
  rw [run_bind_ok hbefore, run_bind_error hrun]

theorem run_call_after (hbefore : BlockDevice.run (checkPoint op .before) d = (.ok (), d1))
    (hbody : body d1.disk = (.ok b, d'))
    (hafter : BlockDevice.run (checkPoint op .after) { d1 with disk := d' } = (.error h, d2)) :
    BlockDevice.run (call op body) d = (.error h, d2) := by
  have hrun := run_onDisk body d1
  rw [hbody] at hrun
  unfold call
  rw [run_bind_ok hbefore, run_bind_ok hrun, run_bind_error hafter]

end RunCall

/-- **一回の呼び出し。** 切った手続きの続きが合うなら、全体も合う。 -/
theorem agrees_call {rule : Fault.Rule} {kind : Fault.Operation} {k : Nat} {d : BlockDevice}
    {D : Disk} {body : Disk → Except Halt β × Disk} {now : (β → Prog (Option α)) → Prog (Option α)}
    {cont : β → DevIO α} {rest : Nat → β → Prog (Option α)} (hk : Fault.Armed rule k d.fault)
    (hD : d.disk.Alike D) (hm : Means body now d.disk D)
    (hnext : ∀ b k' d' D', D'.sizeBytes = D.sizeBytes → Fault.Armed rule k' d'.fault →
      d'.disk.Alike D' →
      Agrees rule (BlockDevice.run (cont b) d') (Proc.run (rest k' b).run D')) :
    Agrees rule (BlockDevice.run (call kind body >>= cont) d)
      (Proc.run (cutCall rule kind k now rest).run D) := by
  unfold cutCall
  by_cases hskip : k = 0 ∨ rule.operation ≠ kind
  · -- どちらの検査点も選ばれていない
    rw [if_pos hskip]
    have hbefore := @Fault.Armed.skip rule k d kind .before hk (hskip.imp_right Or.inl)
    rcases hm.step with ⟨b, d', D', hb, ⟨halike, hsize⟩, hrun⟩ | ⟨e, hb, hrun⟩
    · have hafter : BlockDevice.run (checkPoint kind .after) { d with disk := d' } = _ :=
        Fault.Armed.skip (by exact hk) (hskip.imp_right Or.inl)
      rw [run_bind_ok (run_call_ok hbefore hb hafter), hrun]
      exact hnext b k _ D' hsize hk halike
    · rw [run_bind_error (run_call_body hbefore hb), hrun]
      exact ⟨hD, rfl⟩
  · rw [if_neg hskip]
    obtain ⟨hk0, hop⟩ := not_or.mp hskip
    obtain rfl := not_not.mp hop
    by_cases hone : k = 1
    · subst hone
      rw [if_neg (by decide)]
      cases htime : rule.timing with
      | before =>
        obtain ⟨f, hfire⟩ := hk.fire
        rw [htime] at hfire
        rw [run_bind_error (run_call_before hfire)]
        exact ⟨hD, rfl⟩
      | after =>
        have hbefore := @Fault.Armed.skip rule _ d rule.operation .before hk
          (Or.inr (Or.inr (by rw [htime]; decide)))
        rcases hm.step with ⟨b, d', D', hb, ⟨halike, hsize⟩, hrun⟩ | ⟨e, hb, hrun⟩
        · obtain ⟨f, hfire⟩ := @Fault.Armed.fire rule { d with disk := d' } hk
          rw [htime] at hfire
          rw [run_bind_error (run_call_after hbefore hb hfire), hrun]
          exact ⟨halike, rfl⟩
        · rw [run_bind_error (run_call_body hbefore hb), hrun]
          exact ⟨hD, rfl⟩
    · rw [if_pos hone]
      obtain ⟨j, rfl⟩ : ∃ j, k = j + 2 := ⟨k - 2, by omega⟩
      cases htime : rule.timing with
      | before =>
        obtain ⟨f, hf, hbefore⟩ := hk.count
        rw [htime] at hbefore
        rcases hm.step with ⟨b, d', D', hb, ⟨halike, hsize⟩, hrun⟩ | ⟨e, hb, hrun⟩
        · have hafter : BlockDevice.run (checkPoint rule.operation .after)
              { disk := d', fault := f } = _ :=
            Fault.Armed.skip (by exact hf) (Or.inr (Or.inr (by rw [htime]; decide)))
          rw [run_bind_ok (run_call_ok hbefore hb hafter), hrun]
          exact hnext b (j + 1) _ D' hsize hf halike
        · rw [run_bind_error (run_call_body hbefore hb), hrun]
          exact ⟨hD, rfl⟩
      | after =>
        have hbefore := @Fault.Armed.skip rule _ d rule.operation .before hk
          (Or.inr (Or.inr (by rw [htime]; decide)))
        rcases hm.step with ⟨b, d', D', hb, ⟨halike, hsize⟩, hrun⟩ | ⟨e, hb, hrun⟩
        · obtain ⟨f, hf, hafter⟩ := @Fault.Armed.count rule j { d with disk := d' } hk
          rw [htime] at hafter
          rw [run_bind_ok (run_call_ok hbefore hb hafter), hrun]
          exact hnext b (j + 1) _ D' hsize hf halike
        · rw [run_bind_error (run_call_body hbefore hb), hrun]
          exact ⟨hD, rfl⟩

theorem means_read {host : Nat → Calls} {n off len : Nat} {d D : Disk} (hD : d.Alike D)
    (hs : Serves D.sizeBytes (host n)) :
    @Means α _ (checked (checkRead off len) (preadAll (host n).turns off len)) (.read off len) d D := by
  rw [← hD.sizeBytes] at hs
  cases hr : d.readExact off len with
  | error e =>
    exact ⟨Or.inr ⟨e, read_error hr, fun f => run_read_error (by rw [← hD.readExact, hr])⟩⟩
  | ok b =>
    exact ⟨Or.inl ⟨b, _, D, hs.read_ok hr, ⟨hD, rfl⟩,
      fun f => run_read_ok (by rw [← hD.readExact, hr])⟩⟩

theorem means_write {host : Nat → Calls} {n off : Nat} {bytes : Bytes} {d D : Disk}
    (hD : d.Alike D) (hs : Serves D.sizeBytes (host n)) :
    @Means α _ (checked (checkWrite off bytes.length) (pwriteAll (host n).turns off bytes))
      (fun f => .write off bytes (f ())) d D := by
  rw [← hD.sizeBytes] at hs
  cases hw : d.writeExact off bytes with
  | error e =>
    exact ⟨Or.inr ⟨e, write_error hw, fun f => run_write_error (hD.writeExact_error hw)⟩⟩
  | ok d' =>
    obtain ⟨hwr, hle, -⟩ := Disk.writeExact_eq_ok_iff.mp hw
    have hwD := hD.writeExact_ok (Disk.writeExact_ok hwr hle)
    obtain ⟨hok, halike⟩ := hs.write_ok hw
    have hDe : (d.emit [.write ⟨off, bytes⟩]).Alike (D.emit [.write ⟨off, bytes⟩]) :=
      hD.emit fun _ => rfl
    exact ⟨Or.inl ⟨(), _, _, Prod.ext hok rfl, ⟨halike.trans hDe, rfl⟩, fun f => run_write_ok hwD⟩⟩

theorem means_flush {host : Nat → Calls} {n : Nat} {d D : Disk} (hD : d.Alike D)
    (hs : Serves D.sizeBytes (host n)) :
    @Means α _ (fsyncAll (host n).fsync) (fun f => .flush (f ())) d D := by
  rw [hs.fsync]
  exact ⟨Or.inl ⟨(), _, _, rfl, ⟨hD.emit fun _ => rfl, rfl⟩, fun f => run_flush_ok⟩⟩

/-- 呼び出しを重ねても、切った手続きと合う。 -/
theorem exec_agrees {rule : Fault.Rule} {host : Nat → Calls} {size : Nat}
    (hs : ∀ n, Serves size (host n)) : ∀ (p : Prog α) (k n : Nat) (d : BlockDevice) (D : Disk),
      D.sizeBytes = size → Fault.Armed rule k d.fault → d.disk.Alike D →
      Agrees rule (BlockDevice.run (p.exec host n) d) (Proc.run (p.cut rule k).run D)
  | .ret a, k, n, d, D, hsize, hk, hD => ⟨hD, rfl⟩
  | .fail e, k, n, d, D, hsize, hk, hD => ⟨hD, rfl⟩
  | .read off len next, k, n, d, D, hsize, hk, hD => by
    subst hsize
    rw [exec_read, cut]
    exact agrees_call hk hD (means_read hD (hs n)) fun b k' d' D' hsize' hk' hD' =>
      exec_agrees hs (next b) k' (n + 1) d' D' hsize' hk' hD'
  | .write off bytes next, k, n, d, D, hsize, hk, hD => by
    subst hsize
    rw [exec_write, cut]
    exact agrees_call hk hD (means_write hD (hs n)) fun b k' d' D' hsize' hk' hD' =>
      exec_agrees hs next k' (n + 1) d' D' hsize' hk' hD'
  | .flush next, k, n, d, D, hsize, hk, hD => by
    subst hsize
    rw [exec_flush, cut]
    exact agrees_call hk hD (means_flush hD (hs n)) fun b k' d' D' hsize' hk' hD' =>
      exec_agrees hs next k' (n + 1) d' D' hsize' hk' hD'

/--
**fault の rule は、手続きを選んだ呼び出しの前か後で切る。**

置いた rule のもとで走らせた手続きは、切った手続きを一回で済む device で走らせたのと同じ像を残す。
切ったところに来れば rule の終わり方で終わり、来なければ結果も同じである。
rule がなければ、手続きそのものと同じである。
-/
theorem exec_cut {host : Nat → Calls} (p : Prog α) (d : Disk)
    (hs : ∀ n, Serves d.sizeBytes (host n)) (rule : Fault.Rule) :
    (let r := (Fault.install rule).rule
     Agrees r (BlockDevice.run (p.exec host 0) ⟨d, Fault.install rule⟩)
      (Proc.run (p.cut r r.hit.toNat).run d)) ∧
    ∀ f : Fault.State, f.active = false →
      (BlockDevice.run (p.exec host 0) ⟨d, f⟩).1 = (Proc.run p.run d).1.mapError .error ∧
      (BlockDevice.run (p.exec host 0) ⟨d, f⟩).2.disk.Alike (Proc.run p.run d).2 := by
  constructor
  · obtain ⟨k, -, rfl, hk⟩ := Fault.armed_install rule
    exact exec_agrees hs p _ 0 _ d rfl hk (Disk.Alike.refl d)
  · intro f hf
    have hk : Fault.Armed rule 0 f := hf
    obtain ⟨hdisk, hresult⟩ := exec_agrees hs p 0 0 ⟨d, f⟩ d rfl hk (Disk.Alike.refl d)
    rw [run_cut_zero] at hdisk hresult
    refine ⟨hresult.trans ?_, hdisk⟩
    cases (Proc.run p.run d).1 <;> rfl

namespace Example

/-- 一度に全部を運ぶ kernel。 -/
def quickHost : Nat → Calls := fun _ => { turns := List.replicate 24 ⟨[], .moved 24⟩ }

theorem serves_quickHost : ∀ n, Serves 24 (quickHost n) := fun _ => {
  alone := fun t ht => by rw [List.eq_of_mem_replicate ht]
  benign := fun t ht => Or.inr ⟨24, by decide, by rw [List.eq_of_mem_replicate ht]⟩
  enough := Nat.le_refl 24
  fsync := rfl }

/-- 二番目の書き込みの後で失敗させる。 -/
def rule : Fault.Rule := { operation := .write, timing := .after, hit := 2 }

end Example

theorem exec_cut_second_write :
    (BlockDevice.run (Example.twoWrites.exec Example.quickHost 0)
      ⟨Example.disk, Fault.install Example.rule⟩).1 =
      .error (.error { code := .io, message := "fault injection: write after operation 2" }) ∧
    (BlockDevice.run (Example.twoWrites.exec Example.quickHost 0)
      ⟨Example.disk, Fault.install Example.rule⟩).2.disk.data =
      (Image.write (fun _ => 0) 0 [1, 2, 3, 4]).write 4 [5, 6] := by
  have hagrees := (exec_cut Example.twoWrites Example.disk Example.serves_quickHost Example.rule).1
  exact ⟨hagrees.result.trans rfl, hagrees.disk.data⟩

end Prog

end Fsx
