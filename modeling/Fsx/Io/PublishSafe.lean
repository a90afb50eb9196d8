import Fsx.Io.Publish

/-!
# 公開はどこで止まっても破れない

最後の名前が指すのは、公開する前からそこにあった object か、内容の揃った新しい file かである。
成功を返した後は、新しい名前も内容も失われない。

手続きは四つの段を順に通る。

* `Filling`：一時 file を埋めている。最後の名前は、まだ誰もこの file を指さない。
* `Flushed`：内容が同期された。以後この file には書かない。
* `Named`：最後の名前が付いた。
* `Lasting`：その名前も同期された。

他の process は、一時の名前とこの file に触れず、最後の名前を奪わない（`Foreign`）。
最後の名前を先に使うことはあってよい。
-/

namespace Fsx.Publish

open Proc

/-! ## 操作の性質 -/

/-- 最後の名前を奪わない操作。 -/
def FsOp.KeepsName (final : String) : FsOp → Prop
  | .unlink name => name ≠ final
  | .rename old _ _ => old ≠ final
  | _ => True

/-- `ino` に最後の名前を付ける操作。 -/
def FsOp.Names (final : String) (ino : Nat) : FsOp → Prop
  | .link name j => name = final ∧ j = ino
  | .rename _ new j => new = final ∧ j = ino
  | _ => False

/-- `ino` の内容に触れない操作。 -/
def FsOp.Spares (ino : Nat) : FsOp → Prop
  | .data j _ => j ≠ ino
  | _ => True

/-- 他の process のしてよい操作。 -/
def FsOp.Foreign (temp final : String) (ino : Nat) : FsOp → Prop
  | .link name j => name ≠ temp ∧ j ≠ ino
  | .unlink name => name ≠ temp ∧ name ≠ final
  | .rename old new j => old ≠ temp ∧ old ≠ final ∧ new ≠ temp ∧ j ≠ ino
  | .data j _ => j ≠ ino

section Op

variable {temp final : String} {ino i : Nat} {o : FsOp} {v : Vfs} {dir : String → Option Nat}

theorem dirApply_keeps (ho : o.KeepsName final) (h : dir final = some i) :
    dirApply dir o final = some i := by
  cases o with
  | link name j =>
    rw [dirApply]
    split
    · next hn =>
      rw [Function.update_of_ne (fun hc => by rw [← hc, h] at hn; cases hn)]
      exact h
    · exact h
  | unlink name =>
    rw [dirApply]
    rw [Function.update_of_ne (Ne.symm ho)]
    exact h
  | rename old new j =>
    rw [dirApply]
    split
    · next hn =>
      rw [Function.update_of_ne (fun hc => by rw [← hc, h] at hn; cases hn),
        Function.update_of_ne (Ne.symm ho)]
      exact h
    · exact h
  | data j o => exact h

/-- 名前を付ける操作でなければ、新しく指すことはない。 -/
theorem dirApply_ne (ho : ¬ o.Names final ino) (h : dir final ≠ some ino) :
    dirApply dir o final ≠ some ino := by
  cases o with
  | link name j =>
    rw [dirApply]
    split
    · by_cases hn : final = name
      · subst hn
        rw [Function.update_self]
        exact fun hc => ho ⟨rfl, Option.some.inj hc⟩
      · rwa [Function.update_of_ne hn]
    · exact h
  | unlink name =>
    rw [dirApply]
    by_cases hn : final = name
    · subst hn
      rw [Function.update_self]
      exact nofun
    · rwa [Function.update_of_ne hn]
  | rename old new j =>
    rw [dirApply]
    split
    · by_cases hn : final = new
      · subst hn
        rw [Function.update_self]
        exact fun hc => ho ⟨rfl, Option.some.inj hc⟩
      · rw [Function.update_of_ne hn]
        by_cases hold : final = old
        · subst hold
          rw [Function.update_self]
          exact nofun
        · rwa [Function.update_of_ne hold]
    · exact h
  | data j o => exact h

theorem dirApply_temp (ho : o.Foreign temp final ino) : dirApply dir o temp = dir temp := by
  cases o with
  | link name j =>
    rw [dirApply]
    split
    · exact Function.update_of_ne (Ne.symm ho.1) _ _
    · rfl
  | unlink name => exact Function.update_of_ne (Ne.symm ho.1) _ _
  | rename old new j =>
    rw [dirApply]
    split
    · rw [Function.update_of_ne (Ne.symm ho.2.2.1), Function.update_of_ne (Ne.symm ho.1)]
    · rfl
  | data j o => rfl

theorem files_apply (ho : o.Spares ino) : (v.apply o).files ino = v.files ino := by
  cases o with
  | data j o => exact Function.update_of_ne (Ne.symm ho) _ _
  | _ => rfl

theorem FsOp.Foreign.keeps (ho : o.Foreign temp final ino) : o.KeepsName final := by
  cases o with
  | unlink name => exact ho.2
  | rename old new j => exact ho.2.1
  | _ => trivial

theorem FsOp.Foreign.not_names (ho : o.Foreign temp final ino) : ¬ o.Names final ino := by
  cases o with
  | link name j => exact fun hc => ho.2 hc.2
  | rename old new j => exact fun hc => ho.2.2.2 hc.2
  | _ => exact id

theorem FsOp.Foreign.spares (ho : o.Foreign temp final ino) : o.Spares ino := by
  cases o with
  | data j o => exact ho
  | _ => trivial

end Op

/-- 名前の表は、名前の表への操作だけで決まる。 -/
theorem viewOf_dir : ViewOf Vfs.apply FsOp.domain none Vfs.dir dirApply where
  inside := fun _ _ _ => rfl
  outside := by
    intro v o ho
    cases o with
    | data j o => rfl
    | _ => exact absurd rfl ho

/-- file の内容は、その file への操作だけで決まる。 -/
theorem viewOf_file (ino : Nat) : ViewOf Vfs.apply FsOp.domain (some ino)
    (fun v : Vfs => v.files ino) (fun b o => match o with | .data _ q => q.apply b | _ => b) where
  inside := by
    intro v o ho
    cases o with
    | data j o =>
      cases ho
      exact Function.update_self _ _ _
    | _ => cases ho
  outside := by
    intro v o ho
    refine files_apply ?_
    cases o with
    | data j o => exact fun hc => ho (congrArg some hc)
    | _ => trivial

/-! ## 記録の段 -/

section Phase

variable (host : Host) (temp final : String) (ino : Nat) (b : Vfs)

/-- 他の process は、してよい操作しかしない。 -/
def Quiet : Prop := ∀ n o, DurableEvent.op o ∈ (host n).others → o.Foreign temp final ino

/-- どの段でも成り立つこと。 -/
structure Calm (v : Vfs) (t : List FsEvent) : Prop where
  tracks : v = (DurableEvent.ops t).foldl Vfs.apply b
  keeps : ∀ o, .op o ∈ t → o.KeepsName final
  /-- 他の file への書き込みは、他の process のものである。 -/
  spares : ∀ i, i ≠ ino → (∀ n o, .op o ∈ (host n).others → o.Spares i) →
    ∀ o, .op o ∈ t → o.Spares i

/-- まだ誰も、最後の名前でこの file を指していない。 -/
def Unnamed (t : List FsEvent) : Prop := ∀ o, DurableEvent.op o ∈ t → ¬ o.Names final ino

/-- 一時 file を埋めている。 -/
structure Filling (bytes : Bytes) (v : Vfs) (t : List FsEvent) : Prop where
  calm : Calm host final ino b v t
  unnamed : Unnamed final ino t
  temp : v.dir temp = some ino
  holds : v.files ino = bytes

/-- 内容が同期され、以後この file には書いていない。 -/
def Sealed (bytes : Bytes) (t : List FsEvent) : Prop :=
  ∃ A B, t = (A ++ [.sync (some ino)]) ++ B ∧ Unnamed final ino A ∧
    ((DurableEvent.ops A).foldl Vfs.apply b).files ino = bytes ∧
    ∀ o, DurableEvent.op o ∈ B → o.Spares ino

/-- 内容が同期され、一時の名前はまだこの file を指している。 -/
structure Flushed (bytes : Bytes) (v : Vfs) (t : List FsEvent) : Prop where
  calm : Calm host final ino b v t
  closed : Sealed final ino b bytes t
  temp : v.dir temp = some ino

/-- 最後の名前が付いた。 -/
structure Named (bytes : Bytes) (v : Vfs) (t : List FsEvent) : Prop where
  calm : Calm host final ino b v t
  closed : Sealed final ino b bytes t
  named : v.dir final = some ino

/-- 最後の名前も同期された。 -/
structure Lasting (bytes : Bytes) (v : Vfs) (t : List FsEvent) : Prop extends
    Named host final ino b bytes v t where
  synced : ∃ A B, t = (A ++ [.sync none]) ++ B ∧
    ((DurableEvent.ops A).foldl Vfs.apply b).dir final = some ino

/-- 失敗して返るときの記録。 -/
structure Honest (bytes : Bytes) (v : Vfs) (t : List FsEvent) : Prop where
  calm : Calm host final ino b v t
  closed : Unnamed final ino t ∨ Sealed final ino b bytes t

end Phase

/-- `es` を施した後の状態と記録。 -/
def After (P : Vfs → List FsEvent → Prop) (es : List FsEvent) (v : Vfs) (t : List FsEvent) : Prop :=
  P ((DurableEvent.ops es).foldl Vfs.apply v) (t ++ es)

section Steps

variable {host : Host} {temp final : String} {ino : Nat} {b : Vfs} {bytes : Bytes} {v : Vfs}
  {t es : List FsEvent}

theorem Calm.after (h : Calm host final ino b v t) (hk : ∀ o, .op o ∈ es → o.KeepsName final)
    (hs : ∀ i, i ≠ ino → (∀ n o, .op o ∈ (host n).others → o.Spares i) →
      ∀ o, .op o ∈ es → o.Spares i) : After (Calm host final ino b) es v t where
  tracks := by
    rw [h.tracks, ← List.foldl_append, ← DurableEvent.ops_append]
  keeps := fun o ho => (List.mem_append.mp ho).elim (h.keeps o) (hk o)
  spares := fun i hi hf o ho => (List.mem_append.mp ho).elim (h.spares i hi hf o) (hs i hi hf o)

theorem Unnamed.append (h : Unnamed final ino t) (hes : Unnamed final ino es) :
    Unnamed final ino (t ++ es) :=
  fun o ho => (List.mem_append.mp ho).elim (h o) (hes o)

theorem Sealed.append (h : Sealed final ino b bytes t) (hes : ∀ o, .op o ∈ es → o.Spares ino) :
    Sealed final ino b bytes (t ++ es) := by
  obtain ⟨A, B, rfl, hA, hbytes, hB⟩ := h
  refine ⟨A, B ++ es, List.append_assoc _ _ _, hA, hbytes, fun o ho => ?_⟩
  exact (List.mem_append.mp ho).elim (hB o) (hes o)

theorem Filling.honest (h : Filling host temp final ino b bytes v t) {bytes' : Bytes} :
    Honest host final ino b bytes' v t := ⟨h.calm, Or.inl h.unnamed⟩

theorem Flushed.honest (h : Flushed host temp final ino b bytes v t) :
    Honest host final ino b bytes v t := ⟨h.calm, Or.inr h.closed⟩

theorem Named.honest (h : Named host final ino b bytes v t) : Honest host final ino b bytes v t :=
  ⟨h.calm, Or.inr h.closed⟩

/-! ### 一つの操作 -/

theorem Calm.own (h : Calm host final ino b v t) {e : FsEvent}
    (hk : ∀ o, .op o = e → o.KeepsName final) (hs : ∀ o, .op o = e → ∀ i, i ≠ ino → o.Spares i) :
    After (Calm host final ino b) [e] v t :=
  h.after (fun o ho => hk o (List.mem_singleton.mp ho)) fun i hi _ o ho =>
    hs o (List.mem_singleton.mp ho) i hi

/-- 同期は何も変えない。 -/
theorem Calm.sync (h : Calm host final ino b v t) (d : Option Nat) :
    After (Calm host final ino b) [.sync d] v t :=
  h.own (by exact nofun) (by exact nofun)

theorem Filling.data (h : Filling host temp final ino b bytes v t) (o : FileOp) :
    After (Filling host temp final ino b (o.apply bytes)) [.op (.data ino o)] v t where
  calm := h.calm.own (by rintro _ ⟨⟩; trivial) (by rintro _ ⟨⟩ i hi; exact Ne.symm hi)
  unnamed := h.unnamed.append fun q hq => by cases List.mem_singleton.mp hq; exact id
  temp := h.temp
  holds := by
    show Function.update v.files ino (o.apply (v.files ino)) ino = _
    rw [Function.update_self, h.holds]

theorem Filling.sync (h : Filling host temp final ino b bytes v t) :
    After (Flushed host temp final ino b bytes) [.sync (some ino)] v t where
  calm := h.calm.sync _
  closed := ⟨t, [], (List.append_nil _).symm, h.unnamed, h.calm.tracks ▸ h.holds,
    fun _ ho => by cases ho⟩
  temp := h.temp

theorem Flushed.rename (h : Flushed host temp final ino b bytes v t) (hne : temp ≠ final)
    (hfree : v.dir final = none) : After (fun v t => Named host final ino b bytes v t ∧
      v.dir temp = none) [.op (.rename temp final ino)] v t := by
  have hdir : dirApply v.dir (.rename temp final ino) =
      Function.update (Function.update v.dir temp none) final (some ino) := by
    rw [dirApply, if_pos hfree]
  refine ⟨⟨?_, h.closed.append ?_, ?_⟩, ?_⟩
  · exact h.calm.own (by rintro _ ⟨⟩; exact hne) (by rintro _ ⟨⟩ i _; trivial)
  · intro o ho
    cases List.mem_singleton.mp ho
    trivial
  · show dirApply v.dir (.rename temp final ino) final = _
    rw [hdir, Function.update_self]
  · show dirApply v.dir (.rename temp final ino) temp = _
    rw [hdir, Function.update_of_ne hne, Function.update_self]

theorem Flushed.link (h : Flushed host temp final ino b bytes v t) (hfree : v.dir final = none) :
    After (Named host final ino b bytes) [.op (.link final ino)] v t where
  calm := h.calm.own (by rintro _ ⟨⟩; trivial) (by rintro _ ⟨⟩ i _; trivial)
  closed := h.closed.append fun o ho => by cases List.mem_singleton.mp ho; trivial
  named := by
    show dirApply v.dir (.link final ino) final = _
    rw [dirApply, if_pos hfree, Function.update_self]

theorem Named.sync (h : Named host final ino b bytes v t) :
    After (Lasting host final ino b bytes) [.sync none] v t where
  calm := h.calm.sync _
  closed := h.closed.append fun o ho => by cases List.mem_singleton.mp ho
  named := h.named
  synced := ⟨t, [], (List.append_nil _).symm, h.calm.tracks ▸ h.named⟩

/-- 名前を奪わず内容に触れない操作の後も、名前は残る。 -/
theorem Lasting.after (h : Lasting host final ino b bytes v t)
    (hcalm : After (Calm host final ino b) es v t) (hk : ∀ o, .op o ∈ es → o.KeepsName final)
    (hs : ∀ o, .op o ∈ es → o.Spares ino) : After (Lasting host final ino b bytes) es v t where
  calm := hcalm
  closed := h.closed.append hs
  named := @foldl_preserves _ _ Vfs.apply _ (fun v : Vfs => v.dir final = some ino) _ h.named
    fun o ho v hv => dirApply_keeps (hk o (DurableEvent.mem_ops.mp ho)) hv
  synced := by
    obtain ⟨A, B, rfl, hA⟩ := h.synced
    exact ⟨A, B ++ es, List.append_assoc _ _ _, hA⟩

theorem Lasting.unlink (h : Lasting host final ino b bytes v t) (hne : temp ≠ final) :
    After (fun v t => Lasting host final ino b bytes v t ∧ v.dir temp = none) [.op (.unlink temp)]
      v t := by
  refine ⟨h.after ?_ ?_ ?_, Function.update_self _ _ _⟩
  · exact h.calm.own (by rintro _ ⟨⟩; exact hne) (by rintro _ ⟨⟩ i _; trivial)
  · intro o ho
    cases List.mem_singleton.mp ho
    exact hne
  · intro o ho
    cases List.mem_singleton.mp ho
    trivial

theorem Honest.unlink (h : Honest host final ino b bytes v t) (hne : temp ≠ final) :
    After (Honest host final ino b bytes) [.op (.unlink temp)] v t where
  calm := h.calm.own (by rintro _ ⟨⟩; exact hne) (by rintro _ ⟨⟩ i _; trivial)
  closed := h.closed.imp
    (fun h => h.append fun o ho => by cases List.mem_singleton.mp ho; exact id)
    (fun h => h.append fun o ho => by cases List.mem_singleton.mp ho; trivial)

/-! ### 他の process の操作 -/

/-- 他の process の操作が保つ段。 -/
def Stable (host : Host) (P : Vfs → List FsEvent → Prop) : Prop :=
  ∀ n v t, P v t → After P (host n).others v t

variable (hq : Quiet host temp final ino)
include hq

theorem Quiet.calm : Stable host (Calm host final ino b) := fun n _ _ h =>
  h.after (fun o ho => (hq n o ho).keeps) fun _ _ hf o ho => hf n o ho

theorem Quiet.temp_eq (n : Nat) (v : Vfs) :
    ((DurableEvent.ops (host n).others).foldl Vfs.apply v).dir temp = v.dir temp :=
  @foldl_preserves _ _ Vfs.apply _ (fun x : Vfs => x.dir temp = v.dir temp) _ rfl fun o ho _ hx =>
    (dirApply_temp (hq n o (DurableEvent.mem_ops.mp ho))).trans hx

theorem Quiet.filling : Stable host (Filling host temp final ino b bytes) := fun n v _ h => {
  calm := hq.calm n _ _ h.calm
  unnamed := h.unnamed.append fun o ho => (hq n o ho).not_names
  temp := (hq.temp_eq n v).trans h.temp
  holds := @foldl_preserves _ _ Vfs.apply _ (fun x : Vfs => x.files ino = bytes) _ h.holds
    fun o ho _ hx => (files_apply (hq n o (DurableEvent.mem_ops.mp ho)).spares).trans hx }

theorem Quiet.flushed : Stable host (Flushed host temp final ino b bytes) := fun n v _ h => {
  calm := hq.calm n _ _ h.calm
  closed := h.closed.append fun o ho => (hq n o ho).spares
  temp := (hq.temp_eq n v).trans h.temp }

theorem Quiet.named : Stable host (Named host final ino b bytes) := fun n _ _ h => {
  calm := hq.calm n _ _ h.calm
  closed := h.closed.append fun o ho => (hq n o ho).spares
  named := @foldl_preserves _ _ Vfs.apply _ (fun v : Vfs => v.dir final = some ino) _ h.named
    fun o ho _ hv => dirApply_keeps (hq n o (DurableEvent.mem_ops.mp ho)).keeps hv }

theorem Quiet.lasting : Stable host (Lasting host final ino b bytes) := fun n _ _ h =>
  h.after (hq.calm n _ _ h.calm) (fun o ho => (hq n o ho).keeps) fun o ho => (hq n o ho).spares

theorem Quiet.honest : Stable host (Honest host final ino b bytes) := fun n _ _ h => {
  calm := hq.calm n _ _ h.calm
  closed := h.closed.imp (fun h => h.append fun o ho => (hq n o ho).not_names)
    fun h => h.append fun o ho => (hq n o ho).spares }

/-- 一時の名前がないことも、他の process は変えない。 -/
theorem Quiet.gone {P : Vfs → List FsEvent → Prop} (h : Stable host P) :
    Stable host fun v t => P v t ∧ v.dir temp = none := fun n v t hv =>
  ⟨h n v t hv.1, (hq.temp_eq n v).trans hv.2⟩

end Steps

/-! ## 手続き -/

/-- 段を、手続きの条件にする。 -/
def At (P : Vfs → List FsEvent → Prop) (w : Fs) : Prop := P w.now w.trace

section Triples

variable {host : Host} {P Q E : Vfs → List FsEvent → Prop}

/-- 走らせた結果が分かっている状態では、その結果だけを調べればよい。 -/
theorem outcome_ok {σ α : Type} {p : Proc σ α} {Q : α → σ → Prop} {E : σ → Prop} {s s' : σ} {a : α}
    (hr : run p s = (.ok a, s')) (h : Q a s') : (∀ a s', run p s = (.ok a, s') → Q a s') ∧
      ∀ e s', run p s = (.error e, s') → E s' := by
  rw [hr]
  refine ⟨fun b t hb => ?_, fun e t hb => ?_⟩
  · cases hb
    exact h
  · cases hb

theorem outcome_error {σ α : Type} {p : Proc σ α} {Q : α → σ → Prop} {E : σ → Prop} {s s' : σ}
    {e : Error} (hr : run p s = (.error e, s')) (h : E s') :
    (∀ a s', run p s = (.ok a, s') → Q a s') ∧ ∀ e s', run p s = (.error e, s') → E s' := by
  rw [hr]
  refine ⟨fun b t hb => ?_, fun e t hb => ?_⟩
  · cases hb
  · cases hb
    exact h

/-- system call の結果。 -/
theorem run_attempt (act : Vfs → Except Errno (List FsEvent)) (w : Fs) :
    (∃ e, run (attempt host act) w = (.ok (some e), w.enter host)) ∨
    ∃ es, act (w.enter host).now = .ok es ∧
      run (attempt host act) w = (.ok none, (w.enter host).emit es) := by
  show (∃ e, attempt host act w = _) ∨ ∃ es, _ ∧ attempt host act w = _
  unfold attempt
  cases (host w.calls).fails with
  | some e => exact Or.inl ⟨e, rfl⟩
  | none =>
    cases act (w.enter host).now with
    | error e => exact Or.inl ⟨e, rfl⟩
    | ok es => exact Or.inr ⟨es, rfl, rfl⟩

/-- system call。失敗すれば、他の process の操作だけが進む。 -/
theorem triple_attempt (hP : Stable host P) {act : Vfs → Except Errno (List FsEvent)}
    (hact : ∀ v t es, P v t → act v = .ok es → After Q es v t) {E : Fs → Prop} :
    Triple (At P) (attempt host act) (fun r => match r with | none => At Q | some _ => At P) E := by
  intro w hw
  have hin : At P (w.enter host) := hP w.calls _ _ hw
  rcases @run_attempt host act w with ⟨e, hr⟩ | ⟨es, ha, hr⟩
  · exact outcome_ok hr hin
  · exact outcome_ok hr (hact _ _ es hin ha)

theorem triple_orFail {p : FsM (Option Errno)} {e : Errno → Error} {A : Fs → Prop} (hE : ∀ v t, P v t → E v t)
    (hp : Triple A p (fun r => match r with | none => At Q | some _ => At P) (At E)) :
    Triple A (orFail e p) (fun _ => At Q) (At E) := by
  refine Triple.bind hp fun r => ?_
  cases r with
  | none => exact Triple.pure fun _ h => h
  | some err => exact Triple.throw fun w h => hE _ _ h

theorem triple_call (hP : Stable host P) (hE : ∀ v t, P v t → E v t) {e : Errno → Error}
    {act : Vfs → Except Errno (List FsEvent)}
    (hact : ∀ v t es, P v t → act v = .ok es → After Q es v t) :
    Triple (At P) (orFail e (attempt host act)) (fun _ => At Q) (At E) :=
  triple_orFail hE (triple_attempt hP hact)

theorem triple_faultPoint (hP : Stable host P) (hE : ∀ v t, P v t → E v t) :
    Triple (At P) (faultPoint host) (fun _ => At P) (At E) := by
  intro w hw
  have hin : At P (w.enter host) := hP w.calls _ _ hw
  cases hf : (host w.calls).stops with
  | some e =>
    have hr : run (faultPoint host) w = (.error e, w.enter host) := by
      show faultPoint host w = _
      rw [faultPoint, hf]
    exact outcome_error hr (hE _ _ hin)
  | none =>
    have hr : run (faultPoint host) w = (.ok (), w.enter host) := by
      show faultPoint host w = _
      rw [faultPoint, hf]
    exact outcome_ok hr hin

/-- 親 directory の同期。 -/
theorem triple_fsyncParentDirectory (hP : Stable host P) (hE : ∀ v t, P v t → E v t)
    {objectName : String} (hsync : ∀ v t, P v t → After Q [.sync none] v t) :
    Triple (At P) (fsyncParentDirectory host objectName) (fun _ => At Q) (At E) := by
  refine Triple.bind (triple_call hP hE fun v t es h hes => ?_) fun _ =>
    triple_call hP hE fun v t es h hes => ?_
  · cases hes
    show P v (t ++ [])
    rwa [List.append_nil]
  · cases hes
    exact hsync v t h

end Triples

section Produce

variable {host : Host} {temp final : String} {ino : Nat} {b : Vfs} {bytes : Bytes}
  (hq : Quiet host temp final ino) (hne : temp ≠ final)
include hq hne

/-- 失敗の後始末は、失敗したときの記録の性質を壊さない。 -/
theorem triple_cleaning {p : FsM Unit} {A : Fs → Prop} {Q : Unit → Fs → Prop}
    (hp : Triple A p Q (At (Honest host final ino b bytes))) :
    Triple A (cleaning host temp p) Q (At (Honest host final ino b bytes)) := by
  intro w hw
  have hclean : Triple (At (Honest host final ino b bytes)) (attempt host (unlinkat temp))
      (fun _ => At (Honest host final ino b bytes)) (At (Honest host final ino b bytes)) := by
    refine (@triple_attempt host _ (Honest host final ino b bytes) hq.honest _
      (fun v t es h hes => ?_) _).mono (fun _ h => h) (fun r w h => ?_) fun _ h => h
    · unfold unlinkat at hes
      split at hes
      · cases hes
      · cases hes
        exact h.unlink hne
    · cases r with
      | none => exact h
      | some e => exact h
  cases hr : run p w with
  | mk r w' =>
    cases r with
    | ok a =>
      have hrun : run (cleaning host temp p) w = (.ok (), w') := by
        show cleaning host temp p w = _
        rw [cleaning, hr]
      exact outcome_ok hrun (hp.ok hw hr)
    | error e =>
      have hrun : run (cleaning host temp p) w =
          (.error e, (run (attempt host (unlinkat temp)) w').2) := by
        show cleaning host temp p w = _
        rw [cleaning, hr]
      exact outcome_error hrun (hclean.holds (hp.error hw hr))

/-- **名前を繋いで公開する。** 名前が同期されてから一時の名前を消す。 -/
theorem triple_publishWithLink {objectName : String} :
    Triple (At (Flushed host temp final ino b bytes)) (publishWithLink host temp final objectName)
      (fun _ => At fun v t => Lasting host final ino b bytes v t ∧ v.dir temp = none)
      (At (Honest host final ino b bytes)) := by
  refine Triple.bind (triple_call hq.flushed (fun _ _ h => h.honest) fun v t es h hes => ?_) fun _ =>
    Triple.bind (triple_fsyncParentDirectory hq.named (fun _ _ h => h.honest) fun _ _ h => h.sync)
      fun _ => Triple.bind (triple_call hq.lasting (fun _ _ h => h.honest) fun v t es h hes => ?_)
        fun _ => triple_fsyncParentDirectory (hq.gone hq.lasting) (fun _ _ h => h.1.honest)
          fun v t h => ⟨?_, h.2⟩
  · unfold linkat at hes
    rw [h.temp] at hes
    dsimp only at hes
    split at hes
    · next hfree =>
      cases hes
      exact h.link hfree
    · cases hes
  · unfold unlinkat at hes
    split at hes
    · cases hes
    · cases hes
      exact h.unlink hne
  · exact h.1.after (h.1.calm.sync _) (fun o ho => by cases List.mem_singleton.mp ho) fun o ho => by
      cases List.mem_singleton.mp ho

/-- **公開する。** -/
theorem triple_publishFileNoreplace {native : Bool} {objectName : String} :
    Triple (At (Flushed host temp final ino b bytes))
      (publishFileNoreplace host native temp final objectName)
      (fun _ => At fun v t => Lasting host final ino b bytes v t ∧ v.dir temp = none)
      (At (Honest host final ino b bytes)) := by
  refine Triple.ite (fun _ => triple_publishWithLink hq hne) fun _ => ?_
  refine Triple.bind (triple_attempt (Q := fun v t => Named host final ino b bytes v t ∧
    v.dir temp = none) hq.flushed fun v t es h hes => ?_) fun r => ?_
  · unfold renameat2 at hes
    rw [h.temp] at hes
    dsimp only at hes
    split at hes
    · next hfree =>
      cases hes
      exact h.rename hne hfree
    · cases hes
  · cases r with
    | none =>
      exact triple_fsyncParentDirectory (hq.gone hq.named) (fun _ _ h => h.1.honest)
        fun _ _ h => ⟨h.1.sync, h.2⟩
    | some e =>
      refine Triple.ite (fun _ => Triple.throw fun _ h => Flushed.honest h) fun _ => ?_
      exact Triple.ite (fun _ => Triple.throw fun _ h => Flushed.honest h) fun _ =>
        triple_publishWithLink hq hne

omit hne in
/-- 一時 file を埋める。 -/
theorem triple_fill : ∀ (os : List FileOp) {bytes' : Bytes},
    Triple (At (Filling host temp final ino b bytes')) (fill host ino os)
      (fun _ => At (Filling host temp final ino b (os.foldl FileOp.apply bytes')))
      (At (Honest host final ino b bytes))
  | [], _ => Triple.pure fun _ h => h
  | o :: os, bytes' => by
    refine Triple.bind (R := fun _ => At (Filling host temp final ino b (o.apply bytes')))
      (fun w hw => ?_) fun _ => triple_fill os
    have hin : At (Filling host temp final ino b bytes') (w.enter host) := hq.filling w.calls _ _ hw
    cases hf : (host w.calls).stops with
    | some e =>
      have hr : run (fillStep host ino o) w = (.error e, (w.enter host).emit
          ((o.part (host w.calls).moved).map fun q => .op (.data ino q))) := by
        show fillStep host ino o w = _
        rw [fillStep, hf]
      refine outcome_error hr ?_
      cases o with
      | truncate size =>
        show Honest host final ino b bytes (w.enter host).now ((w.enter host).trace ++ [])
        rw [List.append_nil]
        exact Filling.honest hin
      | write off data =>
        exact (Filling.data hin (.write off (data.take (host w.calls).moved))).honest
    | none =>
      have hr : run (fillStep host ino o) w =
          (.ok (), (w.enter host).emit [.op (.data ino o)]) := by
        show fillStep host ino o w = _
        rw [fillStep, hf]
      exact outcome_ok hr (Filling.data hin o)

/-- **埋めて、fsync して、公開する。** -/
theorem triple_produceNamed {native : Bool} {p : Producer} :
    Triple (At (Filling host temp final ino b [])) (produceNamed host native p temp final ino)
      (fun _ => At fun v t => Lasting host final ino b p.contents v t ∧ v.dir temp = none)
      (At (Honest host final ino b p.contents)) := by
  refine Triple.bind (triple_fill hq p.fileOps) fun _ =>
    Triple.bind (triple_faultPoint hq.filling fun _ _ h => h.honest) fun _ =>
      Triple.bind (triple_call (Q := Flushed host temp final ino b p.contents) hq.filling
        (fun _ _ h => h.honest) fun v t es h hes => ?_) fun _ =>
        Triple.bind (triple_faultPoint hq.flushed fun _ _ h => h.honest) fun _ =>
          triple_publishFileNoreplace hq hne
  cases hes
  exact h.sync

/-- まだ一時 file もない。 -/
structure Blank (host : Host) (final : String) (ino : Nat) (b : Vfs) (v : Vfs) (t : List FsEvent) :
    Prop where
  calm : Calm host final ino b v t
  unnamed : Unnamed final ino t
  empty : v.files ino = []

omit hne in
theorem Quiet.blank : Stable host (Blank host final ino b) := fun n _ _ h => {
  calm := hq.calm n _ _ h.calm
  unnamed := h.unnamed.append fun o ho => (hq n o ho).not_names
  empty := @foldl_preserves _ _ Vfs.apply _ (fun x : Vfs => x.files ino = []) _ h.empty
    fun o ho _ hx => (files_apply (hq n o (DurableEvent.mem_ops.mp ho)).spares).trans hx }

/-- 一時 file を作る。 -/
theorem triple_creat {e : Errno → Error} : Triple (At (Blank host final ino b))
    (orFail e (attempt host (creat temp ino))) (fun _ => At (Filling host temp final ino b []))
    (At (Honest host final ino b bytes)) := by
  refine triple_call hq.blank (fun _ _ h => ⟨h.calm, Or.inl h.unnamed⟩) fun v t es h hes => ?_
  unfold creat at hes
  split at hes
  · next hfree =>
    cases hes
    refine ⟨h.calm.own (by rintro _ ⟨⟩; trivial) (by rintro _ ⟨⟩ i _; trivial), ?_, ?_, h.empty⟩
    · exact h.unnamed.append fun o ho => by
        cases List.mem_singleton.mp ho
        exact fun hc => hne hc.1
    · show dirApply v.dir (.link temp ino) temp = _
      rw [dirApply, if_pos hfree, Function.update_self]
  · cases hes

/-- **一時 file を作って公開する。** -/
theorem triple_produce {native : Bool} {p : Producer} :
    Triple (At (Blank host final ino b)) (produce host native p temp final ino)
      (fun _ => At fun v t => Lasting host final ino b p.contents v t ∧ v.dir temp = none)
      (At (Honest host final ino b p.contents)) := by
  refine Triple.ite (fun _ => ?_) fun _ => ?_
  · exact triple_cleaning hq hne (Triple.bind (triple_creat hq hne) fun _ =>
      triple_produceNamed hq hne)
  · exact Triple.bind (triple_creat hq hne) fun _ => triple_cleaning hq hne (triple_produceNamed hq hne)

end Produce

/-! ## 止まった後に残るもの -/

section Survive

variable {host : Host} {temp final : String} {ino i : Nat} {b c v : Vfs} {bytes : Bytes}
  {t more : List FsEvent}

/-- 誰も指していない名前は、止まった後にも指さない。 -/
theorem Unnamed.survives (h : Unnamed final ino t) (hb : b.dir final ≠ some ino)
    (hc : Survives Vfs.apply FsOp.domain b t c) : c.dir final ≠ some ino :=
  @Survives.preserves _ _ _ _ _ _ _ _ _ (fun v : Vfs => v.dir final ≠ some ino) hc hb
    fun o ho _ hv => dirApply_ne (h o ho) hv

/-- 前からあった名前は残る。 -/
theorem Calm.survives_name (h : Calm host final ino b v t)
    (hmore : ∀ o, .op o ∈ more → o.Foreign temp final ino)
    (hc : Survives Vfs.apply FsOp.domain b (t ++ more) c) (hb : b.dir final = some i) :
    c.dir final = some i := by
  refine @Survives.preserves _ _ _ _ _ _ _ _ _ (fun v : Vfs => v.dir final = some i) hc hb
    fun o ho _ hv => dirApply_keeps ?_ hv
  rcases List.mem_append.mp ho with ho | ho
  · exact h.keeps o ho
  · exact (hmore o ho).keeps

/-- 他の process が書かなかった file は、元のままである。 -/
theorem Calm.survives_file (h : Calm host final ino b v t)
    (hothers : ∀ n o, .op o ∈ (host n).others → o.Spares i) (hmore : ∀ o, .op o ∈ more → o.Spares i)
    (hc : Survives Vfs.apply FsOp.domain b (t ++ more) c) (hi : i ≠ ino) : c.files i = b.files i := by
  refine @Survives.preserves _ _ _ _ _ _ _ _ _ (fun v : Vfs => v.files i = b.files i) hc rfl
    fun o ho _ hv => (files_apply ?_).trans hv
  rcases List.mem_append.mp ho with ho | ho
  · exact h.spares i hi hothers o ho
  · exact hmore o ho

/-- **最後の名前がこの file を指しているなら、内容は揃っている。** -/
theorem Honest.survives (h : Honest host final ino b bytes v t) (hb : b.dir final ≠ some ino)
    (hmore : ∀ o, .op o ∈ more → o.Foreign temp final ino)
    (hc : Survives Vfs.apply FsOp.domain b (t ++ more) c) (hname : c.dir final = some ino) :
    c.files ino = bytes := by
  rcases h.closed with hun | ⟨A, B, rfl, hA, hbytes, hB⟩
  · have hall : Unnamed final ino (t ++ more) := hun.append fun o ho => (hmore o ho).not_names
    exact absurd hname (hall.survives hb hc)
  · rw [List.append_assoc] at hc
    rcases hc.split with hc | ⟨pre, hpre, hleft⟩
    · -- 同期の前に止まった
      have hunnamed : Unnamed final ino (A ++ [.sync (some ino)]) :=
        Unnamed.append hA fun o ho => by cases List.mem_singleton.mp ho
      exact absurd hname (hunnamed.survives hb hc)
    · refine (viewOf_file ino).survives (P := fun x => x = bytes) hbytes (fun o ho v hv => ?_) hpre hleft
      refine (files_apply ?_).trans hv
      rcases List.mem_append.mp ho with ho | ho
      · exact hB o ho
      · exact (hmore o ho).spares

/-- **同期された名前は、以後どこで止まっても残る。** -/
theorem Lasting.survives (h : Lasting host final ino b bytes v t)
    (hmore : ∀ o, .op o ∈ more → o.Foreign temp final ino) {pre : List FsEvent} (hpre : pre <+: more)
    (hc : ((⟨b, []⟩ : Pending Vfs FsOp).run Vfs.apply FsOp.domain (t ++ pre)).Left Vfs.apply c) :
    c.dir final = some ino := by
  have hkeeps := h.calm.keeps
  obtain ⟨A, B, rfl, hA⟩ := h.synced
  rw [List.append_assoc, Pending.run_append] at hc
  refine viewOf_dir.survives (P := fun dir => dir final = some ino) hA (fun o ho v hv => ?_)
    ((List.prefix_append_right_inj B).mpr hpre) hc
  refine dirApply_keeps ?_ hv
  rcases List.mem_append.mp ho with ho | ho
  · exact hkeeps o (List.mem_append_right _ ho)
  · exact (hmore o ho).keeps

end Survive

/-! ## 主な結果 -/

/-- 一時 file も新しい名前もない、始めの状態。 -/
structure Fresh (final : String) (ino : Nat) (b : Vfs) : Prop where
  empty : b.files ino = []
  unnamed : b.dir final ≠ some ino

def Vfs.start (b : Vfs) : Fs := ⟨b, [], 0⟩

section Main

variable {host : Host} {temp final : String} {ino : Nat} {b : Vfs} {native : Bool} {p : Producer}
  {result : Result Unit} {w : Fs} {more : List FsEvent}

/-- 始めから走らせると、記録は正直で、成功していれば名前も同期されている。 -/
theorem honest_produce (hq : Quiet host temp final ino) (hne : temp ≠ final) (hb : Fresh final ino b)
    (hrun : run (produce host native p temp final ino) b.start = (result, w)) :
    Honest host final ino b p.contents w.now w.trace ∧
      (result = .ok () → Lasting host final ino b p.contents w.now w.trace ∧
        w.now.dir temp = none) := by
  have hblank : At (Blank host final ino b) b.start := {
    calm := ⟨rfl, nofun, nofun⟩
    unnamed := nofun
    empty := hb.empty }
  have htriple := @triple_produce host temp final ino b hq hne native p
  cases result with
  | ok a =>
    have h := htriple.ok hblank hrun
    exact ⟨h.1.honest, fun _ => h⟩
  | error e => exact ⟨htriple.error hblank hrun, nofun⟩

/--
**公開は、どの system call で失敗しても、どこで止まっても、半端なものを最後の名前に残さない。**

前からあった object の名前も内容も変わらない。成功を返した後は、名前も内容も失われない。
`more` は、返ってから後の他の process の操作である。
-/
theorem publication_atomic (hq : Quiet host temp final ino) (hne : temp ≠ final)
    (hb : Fresh final ino b)
    (hrun : run (produce host native p temp final ino) b.start = (result, w))
    (hmore : ∀ o, .op o ∈ more → o.Foreign temp final ino) :
    (∀ c, Survives Vfs.apply FsOp.domain b (w.trace ++ more) c →
      (∀ i, b.dir final = some i → c.dir final = some i) ∧
      (∀ i, i ≠ ino → (∀ n o, .op o ∈ (host n).others → o.Spares i) →
        (∀ o, .op o ∈ more → o.Spares i) → c.files i = b.files i) ∧
      (c.dir final = some ino → c.files ino = p.contents)) ∧
    (result = .ok () → w.now.dir temp = none ∧ ∀ pre, pre <+: more → ∀ c,
      ((⟨b, []⟩ : Pending Vfs FsOp).run Vfs.apply FsOp.domain (w.trace ++ pre)).Left Vfs.apply c →
        c.dir final = some ino ∧ c.files ino = p.contents) := by
  obtain ⟨hhonest, hdone⟩ := honest_produce hq hne hb hrun
  refine ⟨fun c hc => ⟨fun i hi => hhonest.calm.survives_name hmore hc hi, fun i hi ho hm =>
    hhonest.calm.survives_file ho hm hc hi, hhonest.survives hb.unnamed hmore hc⟩, fun hok => ?_⟩
  obtain ⟨hlasting, hgone⟩ := hdone hok
  refine ⟨hgone, fun pre hpre c hc => ?_⟩
  have hname := hlasting.survives hmore hpre hc
  refine ⟨hname, hhonest.survives hb.unnamed hmore ⟨_, ?_, hc⟩ hname⟩
  exact (List.prefix_append_right_inj _).mpr hpre

end Main

/-! ### `renameat2` のない kernel での例 -/

namespace Example

def blank : Vfs := ⟨fun _ => none, fun _ => []⟩

def producer : Producer where
  objectName := "image file"
  earlyCleanup := false
  createError := fromErrno .openFailed "cannot create temporary image: "
  flushError := fromErrno .flushFailed "cannot flush completed image: "
  fileOps := [.write 0 [1, 2, 3]]

/-- 五番目の呼び出しである `renameat2` が `EINVAL` を返す。 -/
def host : Host := fun n => if n = 5 then { fails := some ⟨22, "Invalid argument"⟩ } else {}

/-- `link` の前に一時 file が同期され、`unlink` の前に名前が同期される。 -/
def done : Fs := (run (produce host true producer "image.tmp" "image" 7) blank.start).2

theorem quiet_host : Quiet host "image.tmp" "image" 7 := by
  intro n o ho
  have hnone : (host n).others = [] := by
    unfold host
    split <;> rfl
  rw [hnone] at ho
  cases ho

end Example

theorem publication_atomic_linked :
    (Example.done.now.dir "image.tmp" = none ∧ Example.done.trace.length = 7) ∧
    ∀ c, Survives Vfs.apply FsOp.domain Example.blank (Example.done.trace ++ []) c →
      c.dir "image" = some 7 → c.files 7 = [1, 2, 3] := by
  have hsafe := @publication_atomic Example.host "image.tmp" "image" 7 Example.blank true
    Example.producer (.ok ()) Example.done [] Example.quiet_host (by decide) ⟨rfl, nofun⟩ rfl nofun
  exact ⟨⟨(hsafe.2 rfl).1, rfl⟩, fun c hc => (hsafe.1 c hc).2.2⟩

end Fsx.Publish
