import Fsx.ImageFile.Restore

/-!
# 検証と復元が受け入れる file

`verify` も `restore` も、同じ header・chunk の列・footer を読む（`Decodes`）。
違いは最後の検査で、footer の数が数えた数と合うことと、footer の後に何もないことは、
`verify` だけが確かめる。
-/

namespace Fsx.ImageFile

/-! ## 読み終えた file -/

/-- header・chunk の列・footer が順に読めた。`e` は footer の位置、`checked` は footer の数を入れた情報である。 -/
structure Decodes (file : Bytes) (info : ImageInfo) (cs : List Chunk) (e : Nat) (checked : ImageInfo) :
    Prop where
  header : readHeader file = .ok info
  complete : info.complete = true
  scans : Scans file info 0 headerSize cs e
  length : cs.length = info.chunks
  room : e + footerSize ≤ file.length
  footer : parseFooter (slice file e footerSize) info = .ok checked

/-- footer の数が、数えた数と合っている。 -/
def Accounts (checked : ImageInfo) (cs : List Chunk) : Prop :=
  checked.dataChunks = (cs.foldl Totals.add {}).dataChunks ∧
    checked.zeroChunks = (cs.foldl Totals.add {}).zeroChunks ∧
    checked.storedPayloadBytes = (cs.foldl Totals.add {}).payloadBytes

/-- 読める chunk の列は一通りである。 -/
theorem Scans.unique {file : Bytes} {info : ImageInfo} {i pos e : Nat} {cs : List Chunk}
    (h : Scans file info i pos cs e) : ∀ {e' : Nat} {cs' : List Chunk},
    Scans file info i pos cs' e' → cs'.length = cs.length → cs' = cs ∧ e' = e := by
  induction h with
  | nil i pos =>
    intro e' cs' h' hlen
    rw [List.length_nil, List.length_eq_zero_iff] at hlen
    subst hlen
    cases h'
    exact ⟨rfl, rfl⟩
  | @cons i pos e p cs hp hin hsum hs ih =>
    intro e' cs' h' hlen
    cases h' with
    | nil => cases hlen
    | @cons _ _ _ p' cs' hp' hin' hsum' hs' =>
      rw [hp] at hp'
      cases hp'
      obtain ⟨rfl, rfl⟩ := ih hs' (by simpa using hlen)
      exact ⟨rfl, rfl⟩

theorem Decodes.unique {file : Bytes} {info info' : ImageInfo} {cs cs' : List Chunk} {e e' : Nat}
    {checked checked' : ImageInfo} (h : Decodes file info cs e checked)
    (h' : Decodes file info' cs' e' checked') : cs' = cs ∧ e' = e ∧ checked' = checked := by
  have hinfo : info' = info := by
    have := h'.header
    rw [h.header] at this
    cases this
    rfl
  subst hinfo
  obtain ⟨rfl, rfl⟩ := h.scans.unique h'.scans (by rw [h.length, h'.length])
  have hfoot := h'.footer
  rw [h.footer] at hfoot
  cases hfoot
  exact ⟨rfl, rfl, rfl⟩

/-! ## 検証 -/

theorem footerSize_pos : 0 < footerSize := by decide

/-- **`verify` が受け入れる file。** -/
theorem verify_eq_ok_iff {file : Bytes} {checked : ImageInfo} :
    verify (.ok ()) (fun _ => false) file = .ok checked ↔
      ∃ info cs e, Decodes file info cs e checked ∧ Accounts checked cs ∧
        file.length = e + footerSize := by
  unfold verify walkImage
  rw [Result.ok_bind]
  constructor
  · intro h
    obtain ⟨info, hinfo, h⟩ := Result.bind_eq_ok h
    rw [Result.guard_bind_eq_ok_iff] at h
    obtain ⟨hcomp, h⟩ := h
    obtain ⟨⟨e, t⟩, hwalk, h⟩ := Result.bind_eq_ok h
    obtain ⟨cs, hs, hlen, ht⟩ := (walkChunks_eq_ok_iff (Nat.zero_le _)).mp hwalk
    obtain ⟨f, hf, h⟩ := Result.bind_eq_ok h
    obtain ⟨hroom, hf⟩ := (readAt_eq_ok_iff footerSize_pos).mp hf
    obtain ⟨info', hfoot, h⟩ := Result.bind_eq_ok h
    rw [Result.guard_bind_eq_ok_iff, Result.guard_bind_eq_ok_iff, Result.pure_eq_ok_iff] at h
    obtain ⟨hacc, hend, rfl⟩ := h
    rw [hf] at hfoot
    rw [ht] at hacc
    refine ⟨info, cs, e, ⟨hinfo, by simpa using hcomp, hs, hlen, hroom, hfoot⟩, ?_, by omega⟩
    unfold Accounts
    omega
  · rintro ⟨info, cs, e, h, hacc, hend⟩
    have hwalk := (@walkChunks_eq_ok_iff file info info.chunks 0 headerSize {} _ _
      (Nat.zero_le _)).mpr ⟨cs, h.scans, h.length, rfl⟩
    unfold Accounts at hacc
    rw [h.header, Result.ok_bind, if_neg (by rw [h.complete]; decide), hwalk, Result.ok_bind]
    dsimp only
    rw [readAt_ok h.room, Result.ok_bind, h.footer, Result.ok_bind, if_neg (by omega),
      if_neg (by omega)]
    rfl

/-! ## 復元 -/

section Restore

variable {host : RestoreHost} {file : Bytes} {allow : Bool} {d d' : Disk} {checked : ImageInfo}

/-- 成功した復元は、file を読み終えている。 -/
theorem decodes_of_restore (h : Proc.run (restore host file allow) d = (.ok checked, d')) :
    host.openRead = .ok () ∧ ∃ info cs e, Decodes file info cs e checked := by
  unfold restore at h
  obtain ⟨info, d1, hcheck, h⟩ := Proc.run_bind_eq_ok h
  obtain ⟨hcheck, -⟩ := Prod.mk.inj hcheck
  unfold checkRestore at hcheck
  obtain ⟨_, hopen, hcheck⟩ := Result.bind_eq_ok hcheck
  obtain ⟨same, -, hcheck⟩ := Result.bind_eq_ok hcheck
  rw [Result.guard_bind_eq_ok_iff] at hcheck
  obtain ⟨-, hcheck⟩ := hcheck
  obtain ⟨info', hinfo, hcheck⟩ := Result.bind_eq_ok hcheck
  simp only [Result.guard_bind_eq_ok_iff, Result.bind_eq_ok_iff, Result.pure_eq_ok_iff] at hcheck
  obtain ⟨hcomp, -, -, -, -, rfl⟩ := hcheck
  obtain ⟨e, d2, hchunks, h⟩ := Proc.run_bind_eq_ok h
  obtain ⟨cs, hs, hlen⟩ := scans_of_restoreChunks hchunks
  obtain ⟨f, d3, hf, h⟩ := Proc.run_bind_eq_ok h
  obtain ⟨hf, -⟩ := Prod.mk.inj hf
  obtain ⟨hroom, rfl⟩ := (readAt_eq_ok_iff footerSize_pos).mp hf
  obtain ⟨info', d4, hfoot, h⟩ := Proc.run_bind_eq_ok h
  obtain ⟨hfoot, -⟩ := Prod.mk.inj hfoot
  obtain ⟨_, d5, -, h⟩ := Proc.run_bind_eq_ok h
  obtain ⟨_, d6, -, h⟩ := Proc.run_bind_eq_ok h
  cases h
  exact ⟨hopen, info, cs, e, hinfo, by simpa using hcomp, hs, hlen, hroom, hfoot⟩

/-- 復元を断らない host と target。 -/
structure Restorable (host : RestoreHost) (allow : Bool) (d : Disk) : Prop where
  openRead : host.openRead = .ok ()
  distinct : host.sameObject = .ok false
  offline : host.offline = .ok ()
  allowed : d.isBlockDevice = true → allow = true
  writable : d.writable = true
  notCancelled : ∀ i, host.cancelled i = false
  verifyNotCancelled : ∀ i, host.verifyCancelled i = false

/-- 読める file の復元は成功し、chunk の内容を順に書いて flush する。 -/
theorem run_restore (hr : Restorable host allow d) {info : ImageInfo} {cs : List Chunk} {e : Nat}
    (h : Decodes file info cs e checked) (hsize : info.sourceBytes ≤ d.sizeBytes) :
    Proc.run (restore host file allow) d =
      (.ok checked, d.emit ((cs.map Chunk.write).map .write ++ [.flush])) := by
  have hcheck : checkRestore host file allow d = .ok info := by
    unfold checkRestore
    rw [hr.openRead, Result.ok_bind, hr.distinct, Result.ok_bind, if_neg (by decide), h.header,
      Result.ok_bind, if_neg (by rw [h.complete]; decide), if_neg (by omega), if_neg ?_, hr.offline]
    · rfl
    · rintro ⟨hb, ha⟩
      rw [hr.allowed hb] at ha
      cases ha
  have hwrites := run_restoreChunks h.scans hr.notCancelled hr.writable hsize
  rw [h.length] at hwrites
  have hdata : ∀ c ∈ cs, ((d.emit ((cs.map Chunk.write).map .write)).emit [.flush]).data.read
      c.record.sourceOffset c.record.logicalLen = c.content := by
    intro c hc
    obtain ⟨k, -, -, -, hlen⟩ := h.scans.placed c hc
    have hread := Image.read_applyAll_of_mem h.scans.pairwise (List.mem_map_of_mem hc) d.data
    rw [Disk.emit_emit, Disk.emit_data, replay_append, replay_writes, ← hlen]
    exact hread
  have hback := run_readBackChunks (d := (d.emit ((cs.map Chunk.write).map .write)).emit [.flush])
    h.scans hr.verifyNotCancelled hsize hdata
  rw [h.length] at hback
  unfold restore
  rw [Proc.run_bind_ok (Proc.run_reading _ d |>.trans (by rw [hcheck])), Proc.run_bind_ok hwrites,
    Proc.run_bind_ok (Proc.run_reading _ _ |>.trans (by rw [readAt_ok h.room])),
    Proc.run_bind_ok (Proc.run_reading _ _ |>.trans (by rw [h.footer])),
    Proc.run_bind_ok (DevM.run_flush _), Proc.run_bind_ok hback, Disk.emit_emit]
  rfl

end Restore

end Fsx.ImageFile
