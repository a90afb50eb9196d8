import Fsx.Core.Hoare
import Fsx.Io.Device
import Fsx.Io.Split

/-!
# 少しずつ進む device は、一回で済む device を実現する

他の module は、read・write・flush が一回で済む device（`Fsx/Io/Disk.lean`）の上で書いてある。
kernel の返事を一つずつ受け取る device（`Fsx/Io/Device.lean`）で同じ手続きを走らせると、

* 成功すれば、値も像も同じである（`exec_refines`）
* どこで失敗しても、どこで止まっても、残りうる像は、一回で済む device で止まったときに
  残りうる像である（`exec_refines`）
* fault の rule は、手続きを選んだ呼び出しの前か後で切ったものと同じ結果を残す（`exec_cut`）

一回の呼び出しについては、他の thread が範囲の外に書き続けていてもよい（`transfers_concurrent`）。
-/

namespace Fsx

/-! ## 分けて書いた像 -/

namespace Image

theorem write_nil (img : Image) (off : Nat) : img.write off [] = img := by
  funext i
  exact write_apply_of_not_mem (by rw [List.length_nil]; omega)

/-- 続けて書いた二つの列は、継いだ列である。 -/
theorem write_append (img : Image) (off : Nat) (a b : Bytes) :
    (img.write off a).write (off + a.length) b = img.write off (a ++ b) := by
  funext i
  by_cases hb : off + a.length ≤ i ∧ i < off + a.length + b.length
  · rw [write_apply_of_mem hb.1 hb.2, write_apply_of_mem (by omega)
      (by rw [List.length_append]; omega), List.getD_eq_getElem?_getD, List.getD_eq_getElem?_getD,
      List.getElem?_append_right (by omega), Nat.sub_sub]
  · rw [write_apply_of_not_mem (by omega)]
    by_cases ha : off ≤ i ∧ i < off + a.length
    · rw [write_apply_of_mem ha.1 ha.2, write_apply_of_mem ha.1
        (by rw [List.length_append]; omega), List.getD_eq_getElem?_getD,
        List.getD_eq_getElem?_getD, List.getElem?_append_left (by omega)]
    · rw [write_apply_of_not_mem (by omega),
        write_apply_of_not_mem (by rw [List.length_append]; omega)]

/-- 途中まで書いた列に、次の分を書き足す。 -/
theorem write_take_slice (img : Image) (off : Nat) (bytes : Bytes) {k m : Nat}
    (h : k + m ≤ bytes.length) :
    (img.write off (bytes.take k)).write (off + k) (slice bytes k m) =
      img.write off (bytes.take (k + m)) := by
  have hk : (bytes.take k).length = k := by
    rw [List.length_take]
    omega
  have hadd := write_append img off (bytes.take k) (slice bytes k m)
  rw [hk] at hadd
  rw [hadd, slice, List.take_add]

/-- 重ならない書き込みは、順序を入れ替えてよい。 -/
theorem applyAll_write_comm : ∀ {ws : List Write} {img : Image} {off : Nat} {b : Bytes},
    (∀ w ∈ ws, w.off + w.bytes.length ≤ off ∨ off + b.length ≤ w.off) →
    (img.write off b).applyAll ws = (img.applyAll ws).write off b
  | [], _, _, _, _ => rfl
  | w :: ws, img, off, b, h => by
    have hw := h w List.mem_cons_self
    have hcomm : (img.write off b).apply w = (img.apply w).write off b := by
      funext i
      show ((img.write off b).write w.off w.bytes) i = ((img.write w.off w.bytes).write off b) i
      by_cases hi : off ≤ i ∧ i < off + b.length
      · rw [write_apply_of_not_mem (by omega), write_apply_of_mem hi.1 hi.2,
          write_apply_of_mem hi.1 hi.2]
      · rw [@write_apply_of_not_mem (img.write w.off w.bytes) off i b (by omega)]
        by_cases hj : w.off ≤ i ∧ i < w.off + w.bytes.length
        · rw [write_apply_of_mem hj.1 hj.2, write_apply_of_mem hj.1 hj.2]
        · rw [write_apply_of_not_mem (by omega), write_apply_of_not_mem (by omega),
            write_apply_of_not_mem (by omega)]
    rw [applyAll_cons, applyAll_cons, hcomm,
      applyAll_write_comm fun v hv => h v (List.mem_cons_of_mem _ hv)]

end Image

/-- 像と大きさと、書けるかどうかが同じである。 -/
structure Disk.Alike (d e : Disk) : Prop where
  sizeBytes : d.sizeBytes = e.sizeBytes
  writable : d.writable = e.writable
  data : d.data = e.data

namespace BlockDevice

/-! ## 手続きの一歩 -/

section Step

variable {α β : Type} {d d' : BlockDevice}

theorem run_bind (p : DevIO α) (f : α → DevIO β) (d : BlockDevice) :
    run (p >>= f) d =
      match run p d with
      | (.ok a, d') => run (f a) d'
      | (.error e, d') => (.error e, d') := by
  show StateT.run (ExceptT.run (p >>= f)) d = _
  rw [ExceptT.run_bind, StateT.run_bind]
  unfold run
  cases StateT.run (ExceptT.run p) d with
  | mk r d' => cases r <;> rfl

theorem run_bind_ok {p : DevIO α} {f : α → DevIO β} {a : α} (h : run p d = (.ok a, d')) :
    run (p >>= f) d = run (f a) d' := by
  rw [run_bind, h]

theorem run_bind_error {p : DevIO α} {f : α → DevIO β} {e : Halt} (h : run p d = (.error e, d')) :
    run (p >>= f) d = (.error e, d') := by
  rw [run_bind, h]

@[simp] theorem run_pure (a : α) (d : BlockDevice) : run (pure a) d = (.ok a, d) := rfl

/-- 検査点は disk に触れない。 -/
theorem checkPoint_disk (op : Fault.Operation) (t : Fault.Timing) (d : BlockDevice) :
    (run (checkPoint op t) d).2.disk = d.disk := by
  show (checkPoint op t d).2.disk = d.disk
  unfold checkPoint
  split
  · split <;> rfl
  · rfl

/-- rule がなければ、検査点は何もしない。 -/
theorem checkPoint_inactive (op : Fault.Operation) (t : Fault.Timing) (h : d.fault.active = false) :
    run (checkPoint op t) d = (.ok (), d) := by
  show checkPoint op t d = _
  unfold checkPoint
  rw [if_neg (by simp [h])]

end Step

/-! ## 転送 -/

section Transfers

variable {α : Type} {d : Disk} {off len : Nat} {bytes : Bytes}
  {turns : List (Attempt (List Write) Errno)}

/-- 他の thread は何もしない。 -/
def Alone (turns : List (Attempt (List Write) Errno)) : Prop := ∀ t ∈ turns, t.others = []

/-- 他の thread の書き込みは、範囲の外である。 -/
def Outside (off len : Nat) (turns : List (Attempt (List Write) Errno)) : Prop :=
  ∀ t ∈ turns, ∀ w ∈ t.others, w.off + w.bytes.length ≤ off ∨ off + len ≤ w.off

/-- 他の thread の書き込みを順に並べたもの。 -/
def othersOf (turns : List (Attempt (List Write) Errno)) : List Write :=
  turns.flatMap Attempt.others

theorem othersOf_append_singleton (pre : List (Attempt (List Write) Errno))
    (t : Attempt (List Write) Errno) : othersOf (pre ++ [t]) = othersOf pre ++ t.others := by
  unfold othersOf
  rw [List.flatMap_append, List.flatMap_singleton]

theorem finish_eq_ok {σ : Type} {t : Transferred σ Errno} {value a : α} {short : Error}
    {failure : Errno → Error} (h : finish t value short failure = .ok a) :
    t.ended = .whole ∧ a = value := by
  unfold finish at h
  split at h
  · next hw => exact ⟨hw, (Except.ok.inj h).symm⟩
  all_goals cases h

/-- **書き込みは、頼んだ列の先頭だけを順に書き、成功したときは全部を書いている。** -/
theorem pwriteAll_spec (h : Outside off bytes.length turns) :
    ∃ pre, pre <+: turns ∧ ∃ k ≤ bytes.length,
      (pwriteAll turns off bytes d).2.data =
        (d.data.applyAll (othersOf pre)).write off (bytes.take k) ∧
      ∀ u, (pwriteAll turns off bytes d).1 = .ok u → k = bytes.length := by
  have hdone := @transfer_done Disk (List Write) Errno ssizeMax bytes.length
    (fun ws s => s.emit (ws.map .write))
    (fun done m s => s.emit [.write ⟨off + done, slice bytes done m⟩]) 0 turns d (Nat.zero_le _)
  obtain ⟨pre, hpre, hdata⟩ := @transfer_rule Disk (List Write) Errno ssizeMax bytes.length
    (fun ws s => s.emit (ws.map .write))
    (fun done m s => s.emit [.write ⟨off + done, slice bytes done m⟩]) 0 turns d
    (fun pre k s => s.data = (d.data.applyAll (othersOf pre)).write off (bytes.take k)) []
    (by
      intro pre' t k s hpre hs
      have hmem : t ∈ turns := hpre.subset (List.mem_append_right _ (List.mem_singleton_self t))
      rw [Disk.emit_data, replay_writes, hs, othersOf_append_singleton, Image.applyAll_append]
      refine Image.applyAll_write_comm fun w hw => ?_
      have := h t hmem w hw
      rw [List.length_take]
      omega)
    (by
      intro pre' k m s hle hs
      rw [Disk.emit_data, hs]
      exact Image.write_take_slice _ _ _ hle)
    (Nat.zero_le _) (by rw [List.take_zero, Image.write_nil]; rfl)
  refine ⟨pre, hpre, _, hdone.2.1, hdata, fun u hu => ?_⟩
  exact hdone.2.2 (finish_eq_ok hu).1

/-- **読み出しは、成功したときは頼んだ範囲の全部を読んでいる。** -/
theorem preadAll_spec (h : Outside off len turns) :
    ∃ pre, pre <+: turns ∧
      (preadAll turns off len d).2.data = d.data.applyAll (othersOf pre) ∧
      ∀ b, (preadAll turns off len d).1 = .ok b → b = d.data.read off len := by
  have hdone := @transfer_done (Disk × Bytes) (List Write) Errno ssizeMax len
    (fun ws s => (s.1.emit (ws.map .write), s.2))
    (fun done m s => (s.1, s.2 ++ s.1.data.read (off + done) m)) 0 turns (d, [])
    (Nat.zero_le _)
  obtain ⟨pre, hpre, hdata, hread, hbuf⟩ := @transfer_rule (Disk × Bytes) (List Write) Errno
    ssizeMax len (fun ws s => (s.1.emit (ws.map .write), s.2))
    (fun done m s => (s.1, s.2 ++ s.1.data.read (off + done) m)) 0 turns (d, [])
    (fun pre k s => s.1.data = d.data.applyAll (othersOf pre) ∧
      s.1.data.read off len = d.data.read off len ∧ s.2 = d.data.read off k) []
    (by
      rintro pre' t k s hpre ⟨hdata, hread, hbuf⟩
      have hmem : t ∈ turns := hpre.subset (List.mem_append_right _ (List.mem_singleton_self t))
      dsimp only
      rw [Disk.emit_data, replay_writes, othersOf_append_singleton, Image.applyAll_append, ← hdata]
      refine ⟨rfl, ?_, hbuf⟩
      rw [Image.read_applyAll_of_disjoint _ _ _ _ fun w hw => ?_, hread]
      have := h t hmem w hw
      omega)
    (by
      rintro pre' k m s hle ⟨hdata, hread, hbuf⟩
      refine ⟨hdata, hread, ?_⟩
      dsimp only
      rw [Image.read_append, hbuf, Image.read_congr fun i hi hlt =>
        Image.apply_eq_of_read_eq hread (by omega) (by omega)])
    (Nat.zero_le _) ⟨rfl, rfl, rfl⟩
  refine ⟨pre, hpre, hdata, fun b hb => ?_⟩
  obtain ⟨hwhole, rfl⟩ := finish_eq_ok hb
  rw [hbuf, hdone.2.2 hwhole]

/-! ### 一人で使う device -/

/-- 書き込みは、範囲の中を分けて書く。成功したときは全部を書いている。 -/
theorem pwriteAll_alone (h : Alone turns) :
    ∃ ps : List Write, (∀ p ∈ ps, p.Inside ⟨off, bytes⟩) ∧
      (pwriteAll turns off bytes d).2 = d.emit (ps.map .write) ∧
      ∀ u, (pwriteAll turns off bytes d).1 = .ok u →
        ∀ img : Image, img.applyAll ps = img.apply ⟨off, bytes⟩ := by
  have hdone := @transfer_done Disk (List Write) Errno ssizeMax bytes.length
    (fun ws s => s.emit (ws.map .write))
    (fun done m s => s.emit [.write ⟨off + done, slice bytes done m⟩]) 0 turns d (Nat.zero_le _)
  obtain ⟨pre, hpre, ps, hin, hdata, hall⟩ := @transfer_rule Disk (List Write) Errno ssizeMax
    bytes.length (fun ws s => s.emit (ws.map .write))
    (fun done m s => s.emit [.write ⟨off + done, slice bytes done m⟩]) 0 turns d
    (fun pre k s => ∃ ps : List Write, (∀ p ∈ ps, p.Inside ⟨off, bytes⟩) ∧
      s = d.emit (ps.map .write) ∧
      ∀ img : Image, img.applyAll ps = img.write off (bytes.take k)) []
    (by
      rintro pre' t k s hpre ⟨ps, hin, rfl, hall⟩
      have hmem : t ∈ turns := hpre.subset (List.mem_append_right _ (List.mem_singleton_self t))
      exact ⟨ps, hin, by rw [h t hmem, List.map_nil, Disk.emit_nil], hall⟩)
    (by
      rintro pre' k m s hle ⟨ps, hin, rfl, hall⟩
      refine ⟨ps ++ [⟨off + k, slice bytes k m⟩], fun p hp => ?_, ?_, fun img => ?_⟩
      · rcases List.mem_append.mp hp with hp | hp
        · exact hin p hp
        · rw [List.mem_singleton.mp hp, Write.Inside, length_slice hle]
          dsimp only
          omega
      · rw [Disk.emit_emit, List.map_append, List.map_singleton]
      · rw [Image.applyAll_append, hall]
        exact Image.write_take_slice _ _ _ hle)
    (Nat.zero_le _) ⟨[], nofun, (Disk.emit_nil d).symm, fun img => by
      rw [List.take_zero, Image.write_nil, Image.applyAll_nil]⟩
  refine ⟨ps, hin, hdata, fun u hu img => ?_⟩
  rw [hall, hdone.2.2 (finish_eq_ok hu).1, List.take_length]
  rfl

/-- 読み出しは disk を変えない。 -/
theorem preadAll_alone (h : Alone turns) : (preadAll turns off len d).2 = d := by
  obtain ⟨pre, hpre, hdisk⟩ := @transfer_rule (Disk × Bytes) (List Write) Errno ssizeMax len
    (fun ws s => (s.1.emit (ws.map .write), s.2))
    (fun done m s => (s.1, s.2 ++ s.1.data.read (off + done) m)) 0 turns (d, [])
    (fun pre k s => s.1 = d) []
    (by
      rintro pre' t k s hpre hs
      have hmem : t ∈ turns := hpre.subset (List.mem_append_right _ (List.mem_singleton_self t))
      dsimp only
      rw [h t hmem, hs, List.map_nil, Disk.emit_nil])
    (fun _ _ _ _ _ hs => hs) (Nat.zero_le _) rfl
  exact hdisk

theorem Alone.outside (h : Alone turns) : Outside off len turns := by
  intro t ht w hw
  rw [h t ht] at hw
  cases hw

theorem checkRead_bind (off len : Nat) (d : Disk) :
    (checkRead off len d >>= fun _ => .ok (d.data.read off len)) = d.readExact off len := by
  unfold checkRead Disk.readExact
  split
  · rfl
  · split <;> rfl

theorem checkWrite_bind (off : Nat) (bytes : Bytes) (d : Disk) :
    (checkWrite off bytes.length d >>= fun _ => .ok (d.emit [.write ⟨off, bytes⟩])) =
      d.writeExact off bytes := by
  unfold checkWrite Disk.writeExact
  split
  · rfl
  · split
    · rfl
    · split <;> rfl

/-- 一人で使う `write_exact` の本体。 -/
theorem checkedWrite_alone (h : Alone turns) :
    ∃ ps : List Write, (∀ p ∈ ps, p.Inside ⟨off, bytes⟩) ∧
      (checked (checkWrite off bytes.length) (pwriteAll turns off bytes) d).2 =
        d.emit (ps.map .write) ∧
      (ps = [] ∨ d.writeExact off bytes = .ok (d.emit [.write ⟨off, bytes⟩])) ∧
      ∀ u, (checked (checkWrite off bytes.length) (pwriteAll turns off bytes) d).1 = .ok u →
        d.writeExact off bytes = .ok (d.emit [.write ⟨off, bytes⟩]) ∧
        ∀ img : Image, img.applyAll ps = img.apply ⟨off, bytes⟩ := by
  have hbind := checkWrite_bind off bytes d
  unfold checked
  cases hc : checkWrite off bytes.length d with
  | error e => exact ⟨[], nofun, (Disk.emit_nil d).symm, Or.inl rfl, nofun⟩
  | ok u =>
    rw [hc, Result.ok_bind] at hbind
    obtain ⟨ps, hin, hdata, hall⟩ := @pwriteAll_alone d off bytes turns h
    exact ⟨ps, hin, hdata, Or.inr hbind.symm, fun u hu => ⟨hbind.symm, hall u hu⟩⟩

/-- 一人で使う `read_exact` の本体。 -/
theorem checkedRead_alone (h : Alone turns) :
    (checked (checkRead off len) (preadAll turns off len) d).2 = d ∧
      ∀ b, (checked (checkRead off len) (preadAll turns off len) d).1 = .ok b →
        d.readExact off len = .ok b := by
  have hbind := checkRead_bind off len d
  unfold checked
  cases hc : checkRead off len d with
  | error e => exact ⟨rfl, nofun⟩
  | ok u =>
    rw [hc, Result.ok_bind] at hbind
    refine ⟨preadAll_alone h, fun b hb => ?_⟩
    obtain ⟨pre, -, -, hread⟩ := @preadAll_spec d off len turns h.outside
    rw [hread b hb, hbind]

end Transfers

/-! ## 一回の呼び出し -/

section Call

variable {α : Type} {d : BlockDevice} {op : Fault.Operation} {body : Disk → Except Halt α × Disk}

theorem run_onDisk (body : Disk → Except Halt α × Disk) (d : BlockDevice) :
    run (onDisk body) d = ((body d.disk).1, { d with disk := (body d.disk).2 }) := rfl

/-- 呼び出しは、検査点で止まるか、本体まで進む。 -/
theorem call_cases :
    (∃ h, (run (call op body) d).1 = .error h ∧ (run (call op body) d).2.disk = d.disk) ∨
    ((run (call op body) d).2.disk = (body d.disk).2 ∧
      ∀ a, (run (call op body) d).1 = .ok a → (body d.disk).1 = .ok a) := by
  have hbefore := checkPoint_disk op .before d
  unfold call
  cases h1 : run (checkPoint op .before) d with
  | mk r d1 =>
    rw [h1] at hbefore
    cases r with
    | error h =>
      rw [run_bind_error h1]
      exact Or.inl ⟨h, rfl, hbefore⟩
    | ok u =>
      dsimp only at hbefore
      rw [run_bind_ok h1, ← hbefore]
      refine Or.inr ?_
      have h2 := run_onDisk body d1
      cases hb : (body d1.disk).1 with
      | error h =>
        rw [hb] at h2
        rw [run_bind_error h2]
        exact ⟨rfl, nofun⟩
      | ok a =>
        rw [hb] at h2
        rw [run_bind_ok h2]
        have hafter := checkPoint_disk op .after { d1 with disk := (body d1.disk).2 }
        cases h3 : run (checkPoint op .after) { d1 with disk := (body d1.disk).2 } with
        | mk r d2 =>
          rw [h3] at hafter
          cases r with
          | error h =>
            rw [run_bind_error h3]
            exact ⟨hafter, nofun⟩
          | ok u =>
            rw [run_bind_ok h3]
            exact ⟨hafter, fun b hb' => hb'⟩

/-- 一人で使う `read_exact`。 -/
theorem readExact_alone {calls : Calls} {off len : Nat} (h : Alone calls.turns) :
    (run (readExact calls off len) d).2.disk = d.disk ∧
      ∀ b, (run (readExact calls off len) d).1 = .ok b → d.disk.readExact off len = .ok b := by
  obtain ⟨hsame, hread⟩ := @checkedRead_alone d.disk off len _ h
  unfold readExact
  rcases @call_cases _ d .read (checked (checkRead off len) (preadAll calls.turns off len)) with
    ⟨e, he, hd⟩ | ⟨hd, hok⟩
  · refine ⟨hd, fun b hb => ?_⟩
    rw [he] at hb
    cases hb
  · exact ⟨hd.trans hsame, fun b hb => hread b (hok b hb)⟩

/-- 一人で使う `write_exact`。 -/
theorem writeExact_alone {calls : Calls} {off : Nat} {bytes : Bytes} (h : Alone calls.turns) :
    ∃ ps : List Write, (∀ p ∈ ps, p.Inside ⟨off, bytes⟩) ∧
      (run (writeExact calls off bytes) d).2.disk = d.disk.emit (ps.map .write) ∧
      (ps = [] ∨ d.disk.writeExact off bytes = .ok (d.disk.emit [.write ⟨off, bytes⟩])) ∧
      ∀ u, (run (writeExact calls off bytes) d).1 = .ok u →
        d.disk.writeExact off bytes = .ok (d.disk.emit [.write ⟨off, bytes⟩]) ∧
        ∀ img : Image, img.applyAll ps = img.apply ⟨off, bytes⟩ := by
  obtain ⟨ps, hin, hemit, hps, hwhole⟩ := @checkedWrite_alone d.disk off bytes _ h
  unfold writeExact
  rcases @call_cases _ d .write (checked (checkWrite off bytes.length)
    (pwriteAll calls.turns off bytes)) with ⟨e, he, hd⟩ | ⟨hd, hok⟩
  · refine ⟨[], nofun, hd.trans (Disk.emit_nil _).symm, Or.inl rfl, fun u hu => ?_⟩
    rw [he] at hu
    cases hu
  · exact ⟨ps, hin, hd.trans hemit, hps, fun u hu => hwhole u (hok u hu)⟩

theorem flush_alone {calls : Calls} :
    ∃ fs : List Event, (fs = [] ∨ fs = [.flush]) ∧
      (run (flush calls) d).2.disk = d.disk.emit fs ∧
      ∀ u, (run (flush calls) d).1 = .ok u → fs = [.flush] := by
  unfold flush
  rcases @call_cases _ d .flush (fsyncAll calls.fsync) with ⟨e, he, hd⟩ | ⟨hd, hok⟩
  · refine ⟨[], Or.inl rfl, hd.trans (Disk.emit_nil _).symm, fun u hu => ?_⟩
    rw [he] at hu
    cases hu
  · cases hf : calls.fsync with
    | some e =>
      rw [hf] at hd hok
      exact ⟨[], Or.inl rfl, hd.trans (Disk.emit_nil _).symm, fun u hu => by cases hok u hu⟩
    | none =>
      rw [hf] at hd
      exact ⟨[.flush], Or.inr rfl, hd, fun _ _ => rfl⟩

end Call

end BlockDevice

/-! ## 手続き全体 -/

namespace Disk.Alike

variable {d e : Disk}

theorem refl (d : Disk) : d.Alike d := ⟨rfl, rfl, rfl⟩

theorem trans {f : Disk} (h : d.Alike e) (h' : e.Alike f) : d.Alike f :=
  ⟨h.sizeBytes.trans h'.sizeBytes, h.writable.trans h'.writable, h.data.trans h'.data⟩

theorem readExact (h : d.Alike e) (off len : Nat) : d.readExact off len = e.readExact off len := by
  unfold Disk.readExact
  rw [h.sizeBytes, h.data]

theorem writeExact_ok (h : d.Alike e) {off : Nat} {bytes : Bytes}
    (hd : d.writeExact off bytes = .ok (d.emit [.write ⟨off, bytes⟩])) :
    e.writeExact off bytes = .ok (e.emit [.write ⟨off, bytes⟩]) := by
  obtain ⟨hw, hle, -⟩ := Disk.writeExact_eq_ok_iff.mp hd
  rw [h.writable] at hw
  rw [h.sizeBytes] at hle
  exact Disk.writeExact_ok hw hle

theorem writeExact_error (h : d.Alike e) {off : Nat} {bytes : Bytes} {err : Error}
    (hd : d.writeExact off bytes = .error err) : e.writeExact off bytes = .error err := by
  have hcheck : BlockDevice.checkWrite off bytes.length d =
      BlockDevice.checkWrite off bytes.length e := by
    unfold BlockDevice.checkWrite
    rw [h.sizeBytes, h.writable]
  rw [← BlockDevice.checkWrite_bind] at hd ⊢
  rw [hcheck] at hd
  cases hc : BlockDevice.checkWrite off bytes.length e with
  | error err' =>
    rw [hc, Result.error_bind] at hd
    rw [Result.error_bind, Except.error.inj hd]
  | ok u =>
    rw [hc] at hd
    cases hd

theorem emit (h : d.Alike e) {fs es : List Event} (hdata : ∀ img, replay img fs = replay img es) :
    (d.emit fs).Alike (e.emit es) where
  sizeBytes := h.sizeBytes
  writable := h.writable
  data := by rw [Disk.emit_data, Disk.emit_data, h.data, hdata]

end Disk.Alike

namespace Prog

open BlockDevice

variable {α : Type} {host : Nat → Calls}

theorem run_read_ok {off len : Nat} {next : Bytes → Prog α} {d : Disk} {b : Bytes}
    (h : d.readExact off len = .ok b) :
    Proc.run (run (.read off len next)) d = Proc.run (next b).run d := by
  have hread : Proc.run (DevM.read off len) d = (.ok b, d) := by
    rw [DevM.read, Proc.run_reading, h]
  rw [run_read, Proc.run_bind_ok hread]

theorem run_read_error {off len : Nat} {next : Bytes → Prog α} {d : Disk} {e : Error}
    (h : d.readExact off len = .error e) :
    Proc.run (run (.read off len next)) d = (.error e, d) := by
  have hread : Proc.run (DevM.read off len) d = (.error e, d) := by
    rw [DevM.read, Proc.run_reading, h]
  rw [run_read, Proc.run_bind_error hread]

theorem run_write_ok {off : Nat} {bytes : Bytes} {next : Prog α} {d : Disk}
    (h : d.writeExact off bytes = .ok (d.emit [.write ⟨off, bytes⟩])) :
    Proc.run (run (.write off bytes next)) d =
      Proc.run next.run (d.emit [.write ⟨off, bytes⟩]) := by
  have hwrite : Proc.run (DevM.write off bytes) d = (.ok (), d.emit [.write ⟨off, bytes⟩]) :=
    Proc.run_stepping_ok h
  rw [run_write, Proc.run_bind_ok hwrite]

theorem run_write_error {off : Nat} {bytes : Bytes} {next : Prog α} {d : Disk} {e : Error}
    (h : d.writeExact off bytes = .error e) :
    Proc.run (run (.write off bytes next)) d = (.error e, d) := by
  have hwrite : Proc.run (DevM.write off bytes) d = (.error e, d) := Proc.run_stepping_error h
  rw [run_write, Proc.run_bind_error hwrite]

theorem run_flush_ok {next : Prog α} {d : Disk} :
    Proc.run (run (.flush next)) d = Proc.run next.run (d.emit [.flush]) := by
  rw [run_flush, Proc.run_bind_ok (DevM.run_flush d)]

/-- 一回で済む device では、手続きは記録を足すだけである。 -/
theorem run_emits : ∀ (p : Prog α) (d : Disk), ∃ es, (Proc.run p.run d).2 = d.emit es
  | .ret a, d => ⟨[], (Disk.emit_nil d).symm⟩
  | .fail e, d => ⟨[], (Disk.emit_nil d).symm⟩
  | .read off len next, d => by
    cases hr : d.readExact off len with
    | error e => exact ⟨[], by rw [run_read_error hr, Disk.emit_nil]⟩
    | ok b =>
      rw [run_read_ok hr]
      exact run_emits (next b) d
  | .write off bytes next, d => by
    cases hw : d.writeExact off bytes with
    | error e => exact ⟨[], by rw [run_write_error hw, Disk.emit_nil]⟩
    | ok d' =>
      obtain ⟨hwr, hle, -⟩ := Disk.writeExact_eq_ok_iff.mp hw
      rw [run_write_ok (Disk.writeExact_ok hwr hle)]
      obtain ⟨es, hes⟩ := run_emits next (d.emit [.write ⟨off, bytes⟩])
      exact ⟨_, hes.trans (Disk.emit_emit d _ es)⟩
  | .flush next, d => by
    rw [run_flush_ok]
    obtain ⟨es, hes⟩ := run_emits next (d.emit [.flush])
    exact ⟨_, hes.trans (Disk.emit_emit d _ es)⟩

/-- 一回で済む device での結果と、少しずつ進む device での結果 `x` の関係。 -/
structure Refines (x : Except Halt α × BlockDevice) (d D : Disk) (y : Result α × Disk) : Prop where
  covered : ∃ fs es, x.2.disk = d.emit fs ∧ y.2 = D.emit es ∧ Covers fs es
  value : ∀ a, x.1 = .ok a → y.1 = .ok a ∧ x.2.disk.Alike y.2

/-- 呼び出しが失敗したところで終わる。 -/
theorem Refines.stopped {x : Except Halt α × BlockDevice} {d D : Disk} {p : Prog α} {h : Halt}
    (herr : x.1 = .error h) (hdisk : x.2.disk = d) : Refines x d D (Proc.run p.run D) := by
  obtain ⟨es, hes⟩ := run_emits p D
  refine ⟨⟨[], es, by rw [hdisk, Disk.emit_nil], hes, .stop es⟩, fun a ha => ?_⟩
  rw [herr] at ha
  cases ha

/-- **手続きのどこで止まっても、分けて書いた記録である。** -/
theorem exec_covers (hhost : ∀ n, Alone (host n).turns) : ∀ (p : Prog α) (n : Nat)
    (d : BlockDevice) (D : Disk), d.disk.Alike D →
      Refines (BlockDevice.run (p.exec host n) d) d.disk D (Proc.run p.run D)
  | .ret a, n, d, D, hD => by
    refine ⟨⟨[], [], (Disk.emit_nil _).symm, (Disk.emit_nil _).symm, .stop []⟩, fun b hb => ?_⟩
    exact ⟨congrArg Except.ok (Except.ok.inj hb), hD⟩
  | .fail e, n, d, D, hD => Refines.stopped rfl rfl
  | .read off len next, n, d, D, hD => by
    rw [exec_read]
    obtain ⟨hdisk, hread⟩ := @readExact_alone d _ off len (hhost n)
    cases hr : BlockDevice.run (BlockDevice.readExact (host n) off len) d with
    | mk r d' =>
      rw [hr] at hdisk hread
      cases r with
      | error h =>
        rw [run_bind_error hr]
        exact Refines.stopped rfl hdisk
      | ok b =>
        rw [run_bind_ok hr, run_read_ok (by rw [← hD.readExact, hread b rfl]), ← hdisk]
        exact exec_covers hhost (next b) (n + 1) d' D (hdisk ▸ hD)
  | .write off bytes next, n, d, D, hD => by
    rw [exec_write]
    obtain ⟨ps, hin, hdisk, hps, hok⟩ := @writeExact_alone d _ off bytes (hhost n)
    cases hr : BlockDevice.run (BlockDevice.writeExact (host n) off bytes) d with
    | mk r d' =>
      rw [hr] at hdisk hok
      cases r with
      | error h =>
        rw [run_bind_error hr]
        rcases hps with rfl | hw
        · exact Refines.stopped rfl (hdisk.trans (Disk.emit_nil _))
        · -- 途中まで書いた
          rw [run_write_ok (hD.writeExact_ok hw)]
          obtain ⟨es, hes⟩ := run_emits next (D.emit [.write ⟨off, bytes⟩])
          exact ⟨⟨_, _, hdisk, hes.trans (Disk.emit_emit D _ es), .cut es hin⟩, nofun⟩
      | ok u =>
        obtain ⟨hw, hwhole⟩ := hok u rfl
        rw [run_bind_ok hr, run_write_ok (hD.writeExact_ok hw)]
        dsimp only at hdisk
        have halike : d'.disk.Alike (D.emit [.write ⟨off, bytes⟩]) := by
          rw [hdisk]
          refine hD.emit fun img => ?_
          rw [replay_writes, hwhole]
          rfl
        obtain ⟨⟨fs, es, hfs, hes, hcov⟩, hval⟩ := exec_covers hhost next (n + 1) d' _ halike
        refine ⟨⟨ps.map .write ++ fs, .write ⟨off, bytes⟩ :: es, ?_, ?_, .write hin hwhole hcov⟩, hval⟩
        · rw [hfs, hdisk, Disk.emit_emit]
        · rw [hes, Disk.emit_emit, List.singleton_append]
  | .flush next, n, d, D, hD => by
    rw [exec_flush, run_flush_ok]
    obtain ⟨gs, hgs, hdisk, hok⟩ := @flush_alone d (host n)
    cases hr : BlockDevice.run (BlockDevice.flush (host n)) d with
    | mk r d' =>
      rw [hr] at hdisk hok
      cases r with
      | error h =>
        rw [run_bind_error hr]
        obtain ⟨es, hes⟩ := run_emits next (D.emit [.flush])
        have hcov : Covers gs ([.flush] ++ es) := by
          rcases hgs with rfl | rfl
          · exact .stop _
          · exact .flush (.stop es)
        exact ⟨⟨gs, _, hdisk, hes.trans (Disk.emit_emit D _ es), hcov⟩, nofun⟩
      | ok u =>
        obtain rfl := hok u rfl
        dsimp only at hdisk
        rw [run_bind_ok hr]
        obtain ⟨⟨fs, es, hfs, hes, hcov⟩, hval⟩ := exec_covers hhost next (n + 1) d' (D.emit [.flush])
          (by rw [hdisk]; exact hD.emit fun _ => rfl)
        refine ⟨⟨.flush :: fs, .flush :: es, ?_, ?_, .flush hcov⟩, hval⟩
        · rw [hfs, hdisk, Disk.emit_emit, List.singleton_append]
        · rw [hes, Disk.emit_emit, List.singleton_append]

/--
**どの kernel の返事のもとでも、どんな fault のもとでも、手続きは一回で済む device での手続きを実現する。**

成功すれば値も像も同じである。失敗しても、止まっても、残りうる像は一回で済む device で
止まったときに残りうる像である。`base` は、記録の始めの像である。
-/
theorem exec_refines (hhost : ∀ n, Alone (host n).turns) (p : Prog α) (d : BlockDevice)
    (base : Image) :
    (∀ a, (BlockDevice.run (p.exec host 0) d).1 = .ok a →
      (Proc.run p.run d.disk).1 = .ok a ∧
      (BlockDevice.run (p.exec host 0) d).2.disk.data = (Proc.run p.run d.disk).2.data) ∧
    ∀ img, CrashImage AnyTear base (BlockDevice.run (p.exec host 0) d).2.disk.events img →
      CrashImage AnyTear base (Proc.run p.run d.disk).2.events img := by
  obtain ⟨⟨fs, es, hfs, hes, hcov⟩, hval⟩ := exec_covers hhost p 0 d d.disk (Disk.Alike.refl _)
  refine ⟨fun a ha => ⟨(hval a ha).1, (hval a ha).2.data⟩, fun img hc => ?_⟩
  rw [hfs, Disk.emit_events] at hc
  rw [hes, Disk.emit_events]
  exact (hcov.prepend _).crash hc

namespace Example

/-- 24 byte の零の disk。 -/
def disk : Disk where
  sizeBytes := 24
  logicalSector := 512
  isBlockDevice := false
  writable := true
  data := fun _ => 0
  events := []
  size_lt := by decide

def device : BlockDevice := ⟨disk, {}⟩

/-- 四つを書いて flush し、二つを書く。 -/
def twoWrites : Prog Unit := .write 0 [1, 2, 3, 4] (.flush (.write 4 [5, 6] (.ret ())))

/-- 始めの書き込みは二度に分かれ、次の書き込みは一つ書いたところで失敗する。 -/
def shortHost : Nat → Calls
  | 0 => { turns := [⟨[], .moved 1⟩, ⟨[], .again⟩, ⟨[], .moved 9⟩] }
  | 2 => { turns := [⟨[], .moved 1⟩, ⟨[], .failed ⟨5, "Input/output error"⟩⟩] }
  | _ => { turns := [] }

theorem alone_shortHost : ∀ n, Alone (shortHost n).turns := by
  intro n t ht
  unfold shortHost at ht
  split at ht
  · simp only [List.mem_cons, List.not_mem_nil, or_false] at ht
    rcases ht with rfl | rfl | rfl <;> rfl
  · simp only [List.mem_cons, List.not_mem_nil, or_false] at ht
    rcases ht with rfl | rfl <;> rfl
  · cases ht

end Example

/-- 四つの event に分かれた記録は、分けない三つの event の記録より悪くはならない。 -/
theorem exec_refines_short :
    (BlockDevice.run (Example.twoWrites.exec Example.shortHost 0) Example.device).2.disk.events =
      [.write ⟨0, [1]⟩, .write ⟨1, [2, 3, 4]⟩, .flush, .write ⟨4, [5]⟩] ∧
    ∀ img, CrashImage AnyTear (fun _ => 0)
        [.write ⟨0, [1]⟩, .write ⟨1, [2, 3, 4]⟩, .flush, .write ⟨4, [5]⟩] img →
      CrashImage AnyTear (fun _ => 0)
        [.write ⟨0, [1, 2, 3, 4]⟩, .flush, .write ⟨4, [5, 6]⟩] img :=
  ⟨rfl, (exec_refines Example.alone_shortHost Example.twoWrites Example.device fun _ => 0).2⟩

end Prog

namespace BlockDevice

/-! ## 他の thread と使う device -/

/--
**範囲の外に書く thread がいくつあっても、一回の呼び出しは自分の範囲だけを正しく運ぶ。**

読み出しが返す列は始めの像のものである。書き込みは、頼んだ列の先頭だけを書く。
`pre` は、返るまでに使った kernel の返事である。
-/
theorem transfers_concurrent (d : BlockDevice) (calls : Calls) (off : Nat) :
    (∀ len, Outside off len calls.turns →
      ∃ pre, pre <+: calls.turns ∧
        (run (readExact calls off len) d).2.disk.data =
          d.disk.data.applyAll (othersOf pre) ∧
        ∀ b, (run (readExact calls off len) d).1 = .ok b →
          b = d.disk.data.read off len) ∧
    ∀ bytes : Bytes, Outside off bytes.length calls.turns →
      ∃ pre, pre <+: calls.turns ∧ ∃ k ≤ bytes.length,
        (run (writeExact calls off bytes) d).2.disk.data =
          (d.disk.data.applyAll (othersOf pre)).write off (bytes.take k) ∧
        ∀ u, (run (writeExact calls off bytes) d).1 = .ok u →
          k = bytes.length := by
  constructor
  · intro len h
    have hbody : ∃ pre, pre <+: calls.turns ∧
        (checked (checkRead off len) (preadAll calls.turns off len) d.disk).2.data =
          d.disk.data.applyAll (othersOf pre) ∧
        ∀ b, (checked (checkRead off len) (preadAll calls.turns off len) d.disk).1 = .ok b →
          b = d.disk.data.read off len := by
      unfold checked
      cases checkRead off len d.disk with
      | error e => exact ⟨[], List.nil_prefix, rfl, nofun⟩
      | ok u => exact preadAll_spec h
    obtain ⟨pre, hpre, hdata, hread⟩ := hbody
    unfold readExact
    rcases @call_cases _ d .read (checked (checkRead off len) (preadAll calls.turns off len)) with
      ⟨e, he, hd⟩ | ⟨hd, hok⟩
    · refine ⟨[], List.nil_prefix, by rw [hd]; rfl, fun b hb => ?_⟩
      rw [he] at hb
      cases hb
    · exact ⟨pre, hpre, by rw [hd, hdata], fun b hb => hread b (hok b hb)⟩
  · intro bytes h
    have hstart : d.disk.data = (d.disk.data.applyAll (othersOf [])).write off (bytes.take 0) := by
      rw [List.take_zero, Image.write_nil]
      rfl
    have hbody : ∃ pre, pre <+: calls.turns ∧ ∃ k ≤ bytes.length,
        (checked (checkWrite off bytes.length) (pwriteAll calls.turns off bytes) d.disk).2.data =
          (d.disk.data.applyAll (othersOf pre)).write off (bytes.take k) ∧
        ∀ u, (checked (checkWrite off bytes.length) (pwriteAll calls.turns off bytes) d.disk).1 =
          .ok u → k = bytes.length := by
      unfold checked
      cases checkWrite off bytes.length d.disk with
      | error e => exact ⟨[], List.nil_prefix, 0, Nat.zero_le _, hstart, nofun⟩
      | ok u => exact pwriteAll_spec h
    obtain ⟨pre, hpre, k, hk, hdata, hall⟩ := hbody
    unfold writeExact
    rcases @call_cases _ d .write (checked (checkWrite off bytes.length)
      (pwriteAll calls.turns off bytes)) with ⟨e, he, hd⟩ | ⟨hd, hok⟩
    · refine ⟨[], List.nil_prefix, 0, Nat.zero_le _, by rw [hd]; exact hstart, fun u hu => ?_⟩
      rw [he] at hu
      cases hu
    · exact ⟨pre, hpre, k, hk, by rw [hd, hdata], fun u hu => hall u (hok u hu)⟩

namespace Example

/-- 一つずつ書き、間に他の thread が後ろに書く。 -/
def busyCalls : Calls where
  turns := [⟨[⟨4, [9]⟩], .moved 1⟩, ⟨[⟨5, [8]⟩], .moved 1⟩]

theorem outside_busyCalls : Outside 0 2 busyCalls.turns := by
  intro t ht w hw
  simp only [busyCalls, List.mem_cons, List.not_mem_nil, or_false] at ht
  rcases ht with rfl | rfl <;> rw [List.mem_singleton.mp hw] <;> exact Or.inr (by decide)

end Example

theorem transfers_concurrent_busy :
    ∃ pre, pre <+: Example.busyCalls.turns ∧ ∃ k ≤ 2,
      (run (writeExact Example.busyCalls 0 [1, 2]) Prog.Example.device).2.disk.data =
        (Image.applyAll (fun _ => 0) (othersOf pre)).write 0 (List.take k [1, 2]) ∧ k = 2 := by
  obtain ⟨pre, hpre, k, hk, hdata, hall⟩ :=
    (transfers_concurrent Prog.Example.device Example.busyCalls 0).2 [1, 2] Example.outside_busyCalls
  exact ⟨pre, hpre, k, hk, hdata, hall () rfl⟩

/-! ## いつかは返る -/

section Returns

variable {α : Type} {d : Disk} {off len : Nat} {bytes : Bytes}
  {turns : List (Attempt (List Write) Errno)}

/-- やり直しでない返事が `size` 回以上ある。 -/
def Answers (size : Nat) (turns : List (Attempt (List Write) Errno)) : Prop :=
  size ≤ (turns.filter fun t => !t.reply.isAgain).length

theorem Answers.le {size : Nat} (h : Answers size turns) (hle : len ≤ size) :
    len - 0 ≤ (turns.filter fun t => !t.reply.isAgain).length := by
  rw [Nat.sub_zero]
  exact hle.trans h

/-- 大きさを変えず、返らないことのない本体。 -/
structure Total (body : Disk → Except Halt α × Disk) (d : Disk) : Prop where
  size : (body d).2.sizeBytes = d.sizeBytes
  returns : (body d).1 ≠ .error .blocked

theorem finish_ne_blocked {σ : Type} {t : Transferred σ Errno} {value : α} {short : Error}
    {failure : Errno → Error} (h : t.ended ≠ .waiting) :
    finish t value short failure ≠ .error .blocked := by
  unfold finish
  split
  · exact nofun
  · next hw => exact absurd hw h
  · exact nofun
  · exact nofun

/-- 検査を通れば返る本体は、いつも返る。 -/
theorem Total.checked {check : Disk → Result Unit} {body : Disk → Except Halt α × Disk}
    (h : check d = .ok () → Total body d) : Total (checked check body) d := by
  cases hc : check d with
  | error e =>
    unfold BlockDevice.checked
    constructor
    · rw [hc]
    · rw [hc]
      exact nofun
  | ok u =>
    obtain ⟨hsize, hret⟩ := h hc
    unfold BlockDevice.checked
    constructor
    · rw [hc]
      exact hsize
    · rw [hc]
      exact hret

theorem total_preadAll (h : Answers d.sizeBytes turns) (hle : off + len ≤ d.sizeBytes) :
    Total (preadAll turns off len) d where
  size := by
    obtain ⟨pre, -, hsize⟩ := @transfer_rule (Disk × Bytes) (List Write) Errno ssizeMax len
      (fun ws s => (s.1.emit (ws.map .write), s.2))
      (fun done m s => (s.1, s.2 ++ s.1.data.read (off + done) m)) 0 turns (d, [])
      (fun pre k s => s.1.sizeBytes = d.sizeBytes) [] (fun _ _ _ _ _ hs => hs)
      (fun _ _ _ _ _ hs => hs) (Nat.zero_le _) rfl
    exact hsize
  returns := finish_ne_blocked (transfer_ended (by decide) (h.le (by omega)))

theorem total_pwriteAll (h : Answers d.sizeBytes turns) (hle : off + bytes.length ≤ d.sizeBytes) :
    Total (pwriteAll turns off bytes) d where
  size := by
    obtain ⟨pre, -, hsize⟩ := @transfer_rule Disk (List Write) Errno ssizeMax bytes.length
      (fun ws s => s.emit (ws.map .write))
      (fun done m s => s.emit [.write ⟨off + done, slice bytes done m⟩]) 0 turns d
      (fun pre k s => s.sizeBytes = d.sizeBytes) [] (fun _ _ _ _ _ hs => hs)
      (fun _ _ _ _ _ hs => hs) (Nat.zero_le _) rfl
    exact hsize
  returns := finish_ne_blocked (transfer_ended (by decide) (h.le (by omega)))

theorem total_fsyncAll (reply : Option Errno) : Total (fsyncAll reply) d := by
  cases reply <;> exact ⟨rfl, nofun⟩

theorem checkPoint_ne_blocked {op : Fault.Operation} {t : Fault.Timing} {d : BlockDevice} :
    (run (checkPoint op t) d).1 ≠ .error .blocked := by
  show (checkPoint op t d).1 ≠ _
  unfold checkPoint
  split
  · split <;> exact nofun
  · exact nofun

/-- どちらも返る手続きを続けたものは返る。 -/
theorem run_bind_ne_blocked {β : Type} {p : DevIO α} {f : α → DevIO β} {d : BlockDevice}
    (hp : (run p d).1 ≠ .error .blocked)
    (hf : ∀ a d', run p d = (.ok a, d') → (run (f a) d').1 ≠ .error .blocked) :
    (run (p >>= f) d).1 ≠ .error .blocked := by
  cases hr : run p d with
  | mk r d' =>
    cases r with
    | error e =>
      rw [hr] at hp
      rw [run_bind_error hr]
      exact fun hc => hp (congrArg Except.error (Except.error.inj hc))
    | ok a =>
      rw [run_bind_ok hr]
      exact hf a d' hr

/-- 呼び出しは返り、成功すれば大きさは変わらない。 -/
theorem total_call {op : Fault.Operation} {body : Disk → Except Halt α × Disk} {d : BlockDevice}
    (h : Total body d.disk) :
    (run (call op body) d).1 ≠ .error .blocked ∧
      (run (call op body) d).2.disk.sizeBytes = d.disk.sizeBytes := by
  constructor
  · have hdisk := checkPoint_disk op .before d
    refine run_bind_ne_blocked checkPoint_ne_blocked fun _ d1 h1 => ?_
    rw [h1] at hdisk
    refine run_bind_ne_blocked ?_ fun a d2 _ => ?_
    · rw [run_onDisk, hdisk]
      exact h.returns
    · exact run_bind_ne_blocked checkPoint_ne_blocked fun _ _ _ => nofun
  · rcases @call_cases _ d op body with ⟨e, -, hd⟩ | ⟨hd, -⟩
    · rw [hd]
    · rw [hd]
      exact h.size

end Returns

end BlockDevice

namespace Prog

open BlockDevice

variable {α : Type}

/-- 返事が足りていれば、手続きは返る。 -/
theorem exec_ne_blocked {host : Nat → Calls} {size : Nat} (h : ∀ n, Answers size (host n).turns) :
    ∀ (p : Prog α) (n : Nat) (d : BlockDevice), d.disk.sizeBytes = size →
      (BlockDevice.run (p.exec host n) d).1 ≠ .error .blocked
  | .ret a, n, d, hd => nofun
  | .fail e, n, d, hd => nofun
  | .read off len next, n, d, hd => by
    obtain ⟨hret, hsize⟩ := @total_call _ .read (checked (checkRead off len)
      (preadAll (host n).turns off len)) d <| Total.checked fun hc => by
        have hbind := checkRead_bind off len d.disk
        rw [hc, Result.ok_bind] at hbind
        exact total_preadAll (hd ▸ h n) (Disk.readExact_eq_ok_iff.mp hbind.symm).1
    refine run_bind_ne_blocked hret fun b d' hr => ?_
    refine exec_ne_blocked h (next b) (n + 1) d' (Eq.trans ?_ hd)
    rw [← hsize]
    exact congrArg (fun x => x.2.disk.sizeBytes) hr.symm
  | .write off bytes next, n, d, hd => by
    obtain ⟨hret, hsize⟩ := @total_call _ .write (checked (checkWrite off bytes.length)
      (pwriteAll (host n).turns off bytes)) d <| Total.checked fun hc => by
        have hbind := checkWrite_bind off bytes d.disk
        rw [hc, Result.ok_bind] at hbind
        exact total_pwriteAll (hd ▸ h n) (Disk.writeExact_eq_ok_iff.mp hbind.symm).2.1
    refine run_bind_ne_blocked hret fun _ d' hr => ?_
    refine exec_ne_blocked h next (n + 1) d' (Eq.trans ?_ hd)
    rw [← hsize]
    exact congrArg (fun x => x.2.disk.sizeBytes) hr.symm
  | .flush next, n, d, hd => by
    obtain ⟨hret, hsize⟩ := @total_call _ .flush (fsyncAll (host n).fsync) d (total_fsyncAll _)
    refine run_bind_ne_blocked hret fun _ d' hr => ?_
    refine exec_ne_blocked h next (n + 1) d' (Eq.trans ?_ hd)
    rw [← hsize]
    exact congrArg (fun x => x.2.disk.sizeBytes) hr.symm

/--
**いつかは `EINTR` でない返事をする kernel なら、手続きは返る。**

`turns n` は `n` 番目の呼び出しへの返事の限りない列である。
-/
theorem exec_returns {turns : Nat → Nat → Attempt (List Write) Errno}
    (hfair : ∀ n i, ∃ j, i ≤ j ∧ (turns n j).reply.isAgain = false) (fsync : Nat → Option Errno)
    (p : Prog α) (d : BlockDevice) : ∃ K : Nat → Nat, ∀ M : Nat → Nat, (∀ n, K n ≤ M n) →
      (BlockDevice.run (p.exec (fun n => ⟨(List.range (M n)).map (turns n), fsync n⟩) 0) d).1 ≠
        .error .blocked := by
  have hbound : ∀ n, ∃ k, ∀ m, k ≤ m →
      Answers d.disk.sizeBytes ((List.range m).map (turns n)) := fun n =>
    length_filter_range_ge (fun i => by simpa using hfair n i) _
  choose K hK using hbound
  exact ⟨K, fun M hM => exec_ne_blocked (fun n => hK n _ (hM n)) p 0 d rfl⟩

/-- 偶数番目は `EINTR`、奇数番目は一つずつ進む kernel。 -/
theorem exec_returns_alternating : ∃ K : Nat → Nat, ∀ M : Nat → Nat, (∀ n, K n ≤ M n) →
    (BlockDevice.run (Example.twoWrites.exec (fun n =>
      ⟨(List.range (M n)).map fun i => ⟨[], if i % 2 = 0 then .again else .moved 1⟩, none⟩) 0)
      Example.device).1 ≠ .error .blocked :=
  @exec_returns Unit (fun _ i => ⟨[], if i % 2 = 0 then .again else .moved 1⟩)
    (fun _ i => ⟨2 * i + 1, by omega, by
      rw [if_neg (by omega)]
      rfl⟩) (fun _ => none) Example.twoWrites Example.device

end Prog

end Fsx
