import Fsx.Ext4.CleanMark
import Fsx.Ext4.Verify

/-!
# 断られた大きさの変更

`grow_within_last_group` と `finalize_metadata_only_shrink` は、検査の多くを書き始める前に終える。
しかし、はじめの superblock に dirty の印を書いた後にも検査が残っている。その検査で断られれば、
device も journal も元に戻らない。ここでは、断られたときに何も変わっていないための条件を、
書き始めた後の検査の側から正確に述べる。

device と journal の操作そのものの失敗と、終わりの検証の失敗は、断りに数えない。
-/

namespace Fsx.Ext4

open Proc Engine

/-! ## 断りに数えない失敗 -/

/-- device か journal の操作が返す失敗。 -/
def ioErrors : List Error := [
  { code := .permission, message := "device is read-only" },
  { code := .shortIo, message := "read range exceeds device geometry" },
  { code := .unsupported, message := "read range exceeds host off_t" },
  { code := .shortIo, message := "write range exceeds device geometry" },
  { code := .unsupported, message := "write range exceeds host off_t" },
  { code := .permission, message := "journal is read-only" },
  { code := .io, message := "journal is full" }]

/-- device か journal の操作が失敗した。 -/
def IoFailure (e : Error) : Prop := e ∈ ioErrors

instance (e : Error) : Decidable (IoFailure e) := inferInstanceAs (Decidable (e ∈ ioErrors))

/-- 検証に進み、検証が通らない。 -/
def VerificationFails (host : Host) (c : SizeChange) (w : World) : Prop :=
  c.verifies = true ∧ ∃ v, Proc.run (c.toVerify host) w = (.ok true, v) ∧
    ∀ r, verifyMetadata host.verifyCancelled v.disk = .ok r → r.clean = false

/-- 断られたなら、device も journal も変わっていない。 -/
def RefusesQuietly (host : Host) (c : SizeChange) (w : World) : Prop :=
  ∀ e w', Proc.run (c.call host) w = (.error e, w') → ¬ IoFailure e →
    ¬ VerificationFails host c w → w'.disk.data = w.disk.data ∧ w'.journal = w.journal

/-! ## 書き始めた後の検査 -/

/-- superblock とその写しに dirty の印を付けた device。 -/
def markedDisk (d : Disk) (ctx : MetadataContext) (raw : Bytes) : Disk :=
  d.emit (superEvents ctx raw)

/-- group `g` に置く、末尾の group の descriptor の写しが device に収まる。 -/
def BackupFits (size : Nat) (ctx : MetadataContext) (g : Nat) : Prop :=
  (ctx.sb.groupStartBlock g + 1) * ctx.sb.blockSize + (ctx.sb.groupsCount - 1) * ctx.sb.descBytes
    + ctx.sb.descBytes ≤ size

/-- 写しを持つ `n` より前の group について、descriptor の写しが device に収まる。 -/
def BackupsFit (size : Nat) (ctx : MetadataContext) (super : Bytes) (n : Nat) : Prop :=
  ∀ g, 0 < g → g < n → groupHasSuper super g = true → BackupFits size ctx g

/--
縮小の、末尾の group についての検査。`d` は dirty の印を付けた後の device である。
target 以上の block がどれも空いていて、descriptor の空きの数がその個数に足りている。
-/
def TailRemovable (d : Disk) (ctx : MetadataContext) (target : Nat) : Prop :=
  (∀ e, readGroupDesc d ctx.sb (ctx.sb.groupsCount - 1) = .error e → IoFailure e) ∧
    ∀ gd raw bm, readGroupDesc d ctx.sb (ctx.sb.groupsCount - 1) = .ok gd →
      readGroupDescriptorRaw d ctx (ctx.sb.groupsCount - 1) = .ok raw →
      readBlockBitmap d ctx.sb gd = .ok bm →
      (∀ b, target ≤ b → ctx.sb.groupStartBlock (ctx.sb.groupsCount - 1) ≤ b →
        b < ctx.sb.blocksCount →
        bitSet bm (b - ctx.sb.groupStartBlock (ctx.sb.groupsCount - 1)) = false) ∧
      ctx.sb.blocksCount - target ≤ descFree raw

/-- 縮小が、はじめの検査を通り、dirty の印と journal の record を残せる。 -/
def ShrinkStarts (host : Host) (targetBytes : Nat) (opts : FinalizeOptions) (w : World)
    (ctx : MetadataContext) (j : JournalFile) (raw : Bytes) : Prop :=
  opts.journalPath ≠ "" ∧
    checkDeviceSafety host opts.allowBlockDevice "block-device shrink requires --allow-block-device"
      = .ok () ∧
    checkFinalize host w.disk targetBytes = .ok ctx ∧ w.journal = some j ∧
    checkFinalizeJournal ctx j.view targetBytes = .ok () ∧ stateUpdate w.disk false = .ok raw ∧
    w.disk.writable = true ∧ j.view.records.length + 2 ≤ j.capacity

/-- 始めた縮小が、書き始めた後の検査をすべて通る。 -/
def ShrinkSettles (host : Host) (targetBytes : Nat) (opts : FinalizeOptions) (w : World) : Prop :=
  ∀ ctx j raw, ShrinkStarts host targetBytes opts w ctx j raw →
    TailRemovable (markedDisk w.disk ctx raw) ctx (targetBytes / ctx.sb.blockSize) ∧
    ((∃ gd, readGroupDesc (markedDisk w.disk ctx raw) ctx.sb (ctx.sb.groupsCount - 1) = .ok gd) →
      BackupsFit w.disk.sizeBytes ctx raw ctx.sb.groupsCount →
      ctx.sb.blocksCount - targetBytes / ctx.sb.blockSize ≤ ctx.sb.freeBlocks)

/-- 拡大が、はじめの検査を通り、dirty の印を書ける。 -/
def GrowStarts (host : Host) (targetBytes : Nat) (opts : GrowOptions) (w : World)
    (ctx : MetadataContext) (t : LastGroup) (raw : Bytes) : Prop :=
  checkDeviceSafety host opts.allowBlockDevice "block-device grow requires --allow-block-device"
      = .ok () ∧
    checkGrow w.disk targetBytes = .ok ctx ∧
    readLastGroup w.disk ctx (targetBytes / ctx.sb.blockSize) = .ok t ∧
    stateUpdate w.disk false = .ok raw ∧ w.disk.writable = true

/--
始めた拡大が、書き始めた後の検査をすべて通る。
descriptor の空きの数が 32 bit に収まり、末尾の group が descriptor の写しを持つなら、
その group は二つ以上の block からなる。
-/
def GrowSettles (host : Host) (targetBytes : Nat) (opts : GrowOptions) (w : World) : Prop :=
  ∀ ctx t raw, GrowStarts host targetBytes opts w ctx t raw →
    descFree t.raw + (targetBytes / ctx.sb.blockSize - ctx.sb.blocksCount) ≤ 2 ^ 32 - 1 ∧
    (0 < ctx.sb.groupsCount - 1 → groupHasSuper raw (ctx.sb.groupsCount - 1) = true →
      BackupsFit w.disk.sizeBytes ctx raw (ctx.sb.groupsCount - 1) →
      ctx.sb.groupStartBlock (ctx.sb.groupsCount - 1) + 1 < ctx.sb.blocksCount)

/-! ## 操作が返す失敗 -/

theorem ioFailure_of_writeExact {d : Disk} {off : Nat} {bytes : Bytes} {e : Error}
    (h : d.writeExact off bytes = .error e) : IoFailure e := by
  unfold Disk.writeExact at h
  split at h
  · cases h
    decide
  · split at h
    · cases h
      decide
    · split at h
      · cases h
        decide
      · cases h

theorem step_eq_ok_iff {j j' : JournalFile} {op : JournalOp} (hcost : journalCost op = 1) :
    j.step op = .ok j' ↔ j.view.records.length < j.capacity ∧ j' = { j with view := op.result j.view } := by
  unfold JournalFile.step
  rw [hcost]
  by_cases h : j.view.records.length < j.capacity
  · rw [if_neg (by omega)]
    constructor
    · intro hj
      cases hj
      exact ⟨h, rfl⟩
    · rintro ⟨-, rfl⟩
      rfl
  · rw [if_pos ⟨Nat.one_ne_zero, by omega⟩]
    exact ⟨fun hj => (by cases hj), fun hj => absurd hj.1 h⟩

theorem run_device_bind_error {α β : Type} {f : Disk → Result α} {k : α → EngineM β} {w : World}
    {e : Error} (h : f w.disk = .error e) : Proc.run (device f >>= k) w = (.error e, w) :=
  Proc.run_bind_error (Proc.run_reading _ w |>.trans (by rw [h]))

theorem write_eq_ok {off : Nat} {bytes : Bytes} {w v : World} {u : Unit}
    (h : Proc.run (write off bytes) w = (.ok u, v)) : w.disk.writable = true ∧
      off + bytes.length ≤ w.disk.sizeBytes ∧ v = w.emit [.write ⟨off, bytes⟩] := by
  cases hd : w.disk.writeExact off bytes with
  | error e =>
    rw [show Proc.run (write off bytes) w = (.error e, w) from
      Proc.run_stepping_error (by rw [hd]; rfl)] at h
    cases h
  | ok d =>
    obtain ⟨hw, hin, -⟩ := Disk.writeExact_eq_ok_iff.mp hd
    rw [run_write_ok hw hin] at h
    cases h
    exact ⟨hw, hin, rfl⟩

theorem journalOp_eq_ok {op : JournalOp} {w w' : World} {u : Unit}
    (h : Proc.run (journalOp op) w = (.ok u, w')) :
    ∃ j j', w.journal = some j ∧ j.step op = .ok j' ∧ w'.journal = some j' := by
  cases hj : w.journal with
  | none =>
    rw [show Proc.run (journalOp op) w = _ from Proc.run_stepping_error (by rw [hj])] at h
    cases h
  | some j =>
    cases hs : j.step op with
    | ok j' =>
      rw [run_journalOp_ok hj hs] at h
      cases h
      exact ⟨j, j', rfl, hs, rfl⟩
    | error e =>
      rw [show Proc.run (journalOp op) w = (.error e, w) from
        Proc.run_stepping_error (by rw [hj]; dsimp only; rw [hs]; rfl)] at h
      cases h

/-- 失敗の値だけを見る。 -/
abbrev OnlyIo {α : Type} (p : EngineM α) (w : World) : Prop := FailsIn (fun e _ => IoFailure e) p w

theorem onlyIo_write {off : Nat} {bytes : Bytes} (w : World) : OnlyIo (write off bytes) w := by
  refine FailsIn.stepping fun e he => ?_
  cases hd : w.disk.writeExact off bytes with
  | ok d =>
    rw [hd] at he
    cases he
  | error e' =>
    rw [hd] at he
    cases he
    exact ioFailure_of_writeExact hd

theorem onlyIo_flush (w : World) : OnlyIo flush w := FailsIn.of_ok (run_flush w)

theorem onlyIo_journalOp {op : JournalOp} (w : World) : OnlyIo (journalOp op) w := by
  refine FailsIn.stepping fun e he => ?_
  cases hj : w.journal with
  | none =>
    rw [hj] at he
    cases he
    decide
  | some j =>
    rw [hj] at he
    dsimp only at he
    cases hs : j.step op with
    | ok j' =>
      rw [hs] at he
      cases he
    | error e' =>
      rw [hs] at he
      cases he
      unfold JournalFile.step at hs
      split at hs
      · cases hs
        decide
      · cases hs

section Accepted

variable {ctx : MetadataContext} {size : Nat} {primary : Bytes}

theorem onlyIo_writeBackupSupers (ha : ctx.sb.Accepted size) (hsize : size < 2 ^ 63)
    (hlen : primary.length = 1024) : ∀ (n g : Nat) (w : World), g + n ≤ ctx.sb.groupsCount →
    OnlyIo (writeBackupSupers ctx primary n g) w
  | 0, _, w, _ => FailsIn.of_ok rfl
  | n + 1, g, w, hg => by
    have hrest := onlyIo_writeBackupSupers ha hsize hlen n (g + 1)
    unfold writeBackupSupers
    split
    · obtain ⟨copy, hcopy, -, -⟩ := backupSuper_ok ha hsize hlen (g := g) (by omega)
      refine FailsIn.bind_ok (Proc.run_reading _ w |>.trans (by rw [hcopy])) ?_
      exact FailsIn.bind (onlyIo_write w) fun _ s _ => hrest s (by omega)
    · exact hrest w (by omega)

/-- 受け入れられた幾何の上では、写しの番地の検査は通る。 -/
theorem onlyIo_writeSuperCopies (ha : ctx.sb.Accepted size) (hsize : size < 2 ^ 63)
    (hlen : primary.length = 1024) (w : World) : OnlyIo (writeSuperCopies ctx primary) w := by
  have hge := ha.blockSize_ge
  have hpos := Nat.pos_of_ne_zero ha.groups_pos
  refine FailsIn.guard (fun h => by omega) fun _ => FailsIn.guard (fun h => absurd hlen h) fun _ => ?_
  refine FailsIn.bind (onlyIo_write w) fun _ s _ => ?_
  exact FailsIn.bind (onlyIo_writeBackupSupers ha hsize hlen _ _ s (by omega)) fun _ s' _ =>
    onlyIo_flush s'

/-- descriptor の写しの番地。 -/
theorem backupDescAddress_eq (ha : ctx.sb.Accepted size) (hsize : size < 2 ^ 63) {descGroup g : Nat}
    (hoff : ctx.sb.descOffset descGroup ≤ size) (hg : ctx.sb.groupStartBlock g + 1 < ctx.sb.blocksCount) :
    backupDescAddress ctx descGroup g =
      .ok ((ctx.sb.groupStartBlock g + 1) * ctx.sb.blockSize + descGroup * ctx.sb.descBytes) := by
  have hge := ha.blockSize_ge
  have hfits := ha.fits
  have hmul := Nat.mul_le_mul_right ctx.sb.blockSize (Nat.le_of_lt hg)
  unfold Superblock.descOffset at hoff
  unfold backupDescAddress
  dsimp only
  rw [if_neg, if_neg]
  · rfl
  · unfold u64Max
    omega
  · rw [not_or, Nat.not_le, Nat.not_lt, Nat.le_div_iff_mul_le (by omega)]
    unfold u64Max
    omega

/-- 番地の検査で断られる group より前に、device に収まらない写しがあれば、断りは起きない。 -/
theorem onlyIo_writeBackupDescs {super desc : Bytes} {descGroup : Nat} :
    ∀ (n g : Nat) (w : World), w.disk.sizeBytes = size →
      (∀ g', g ≤ g' → g' < g + n → groupHasSuper super g' = true →
        (∃ addr, backupDescAddress ctx descGroup g' = .ok addr) ∨
        ∃ g₀ addr, g ≤ g₀ ∧ g₀ < g' ∧ groupHasSuper super g₀ = true ∧
          backupDescAddress ctx descGroup g₀ = .ok addr ∧ size < addr + desc.length) →
      OnlyIo (writeBackupDescs ctx super descGroup desc n g) w
  | 0, _, w, _, _ => FailsIn.of_ok rfl
  | n + 1, g, w, hs, h => by
    unfold writeBackupDescs
    split
    · next hsup =>
      obtain ⟨addr, haddr⟩ | ⟨g₀, -, h1, h2, -⟩ := h g (le_refl g) (by omega) hsup
      · refine FailsIn.bind_ok (Proc.run_reading _ w |>.trans (by rw [haddr])) ?_
        refine FailsIn.bind (onlyIo_write w) fun _ v hv => ?_
        obtain ⟨-, hin, rfl⟩ := write_eq_ok hv
        refine onlyIo_writeBackupDescs n (g + 1) _ hs fun g' h1 h2 h3 => ?_
        rcases h g' (by omega) (by omega) h3 with h | ⟨g₀, a, h4, h5, h6, h7, h8⟩
        · exact Or.inl h
        · refine Or.inr ⟨g₀, a, ?_, h5, h6, h7, h8⟩
          -- 書けた写しは device に収まっている
          rcases Nat.eq_or_lt_of_le h4 with rfl | hlt
          · cases haddr.symm.trans h7
            omega
          · exact hlt
      · exact absurd h1 (by omega)
    · next hsup =>
      refine onlyIo_writeBackupDescs n (g + 1) w hs fun g' h1 h2 h3 => ?_
      rcases h g' (by omega) (by omega) h3 with h | ⟨g₀, a, h4, h5, h6, h7, h8⟩
      · exact Or.inl h
      · refine Or.inr ⟨g₀, a, ?_, h5, h6, h7, h8⟩
        rcases Nat.eq_or_lt_of_le h4 with rfl | hlt
        · exact absurd h6 hsup
        · exact hlt

/-- 終わりまで進んだなら、写しはどれも device に収まっている。 -/
theorem fits_of_writeBackupDescs {super desc : Bytes} {descGroup : Nat} :
    ∀ (n g : Nat) (w v : World),
      Proc.run (writeBackupDescs ctx super descGroup desc n g) w = (.ok (), v) →
      ∀ g', g ≤ g' → g' < g + n → groupHasSuper super g' = true →
        ∃ addr, backupDescAddress ctx descGroup g' = .ok addr ∧
          addr + desc.length ≤ w.disk.sizeBytes
  | 0, g, _, _, _, g', h1, h2, _ => absurd h2 (by omega)
  | n + 1, g, w, v, hr, g', h1, h2, hs => by
    unfold writeBackupDescs at hr
    split at hr
    · next hsup =>
      obtain ⟨addr, w1, hd, hr⟩ := run_bind_eq_ok hr
      obtain ⟨haddr, rfl⟩ := Prod.mk.inj hd
      obtain ⟨_, w2, hw, hr⟩ := run_bind_eq_ok hr
      obtain ⟨-, hin, rfl⟩ := write_eq_ok hw
      rcases Nat.eq_or_lt_of_le h1 with rfl | hlt
      · exact ⟨addr, haddr, hin⟩
      · exact fits_of_writeBackupDescs n (g + 1) _ v hr g' hlt (by omega) hs
    · next hsup =>
      rcases Nat.eq_or_lt_of_le h1 with rfl | hlt
      · exact absurd hs hsup
      · exact fits_of_writeBackupDescs n (g + 1) w v hr g' hlt (by omega) hs

/-- 写しが device に収まれば、descriptor の写しのループは終わりまで進む。 -/
theorem run_writeBackupDescs {super desc : Bytes} {descGroup : Nat}
    (haddr : ∀ g, 0 < g → g < ctx.sb.groupsCount → groupHasSuper super g = true →
      ∃ addr, backupDescAddress ctx descGroup g = .ok addr ∧ addr + desc.length ≤ size) :
    ∀ (n g : Nat) (w : World), 0 < g → g + n ≤ ctx.sb.groupsCount → w.disk.writable = true →
      w.disk.sizeBytes = size → ∃ us : List Write,
      Proc.run (writeBackupDescs ctx super descGroup desc n g) w =
        (.ok (), w.emit (us.map .write))
  | 0, _, w, _, _, _, _ => ⟨[], by rw [List.map_nil, World.emit_nil]; rfl⟩
  | n + 1, g, w, h0, hg, hw, hs => by
    have hrest := run_writeBackupDescs haddr n (g + 1)
    unfold writeBackupDescs
    split
    · next hsup =>
      obtain ⟨addr, h, hin⟩ := haddr g h0 (by omega) hsup
      obtain ⟨us, hus⟩ := hrest (w.emit [.write ⟨addr, desc⟩]) (by omega) (by omega) hw hs
      refine ⟨⟨addr, desc⟩ :: us, ?_⟩
      rw [run_device_bind h, Proc.run_bind_ok (run_write_ok hw (by omega)), hus, World.emit_emit]
      rfl
    · exact hrest w (by omega) (by omega) hw hs

end Accepted

/-! ## 末尾の group -/

section Tail

variable {d : Disk} {ctx : MetadataContext}

/-- descriptor が読めれば、その生の byte 列も block bitmap も読める。 -/
theorem readable_of_readGroupDesc (ha : ctx.sb.Accepted d.sizeBytes) {g : Nat} {gd : GroupDesc}
    (h : readGroupDesc d ctx.sb g = .ok gd) :
    (∃ raw, readGroupDescriptorRaw d ctx g = .ok raw ∧ raw.length = ctx.sb.descBytes) ∧
      (∃ bm, readBlockBitmap d ctx.sb gd = .ok bm ∧ bm.length = ctx.sb.blockSize) ∧
      gd.blockBitmap * ctx.sb.blockSize + ctx.sb.blockSize ≤ d.sizeBytes ∧
      ctx.sb.descBytes ≤ ctx.sb.blockSize ∧ ctx.sb.descOffset g + ctx.sb.descBytes ≤ d.sizeBytes ∧
      ∀ raw : Bytes, raw.length = ctx.sb.descBytes →
        groupDescriptorAddress ctx g raw = .ok (ctx.sb.descOffset g) := by
  obtain ⟨hchecks, hroom, rfl, hin⟩ := readGroupDesc_eq_ok_iff.mp h
  have hsize := hchecks.size
  exact ⟨⟨_, hchecks.readGroupDescriptorRaw hroom, Image.length_read _ _ _⟩,
    ⟨_, ha.readBlockBitmap_ok hin.blockBitmap_lt, Image.length_read _ _ _⟩,
    (ha.block_fits hin.blockBitmap_lt).2, by omega, hroom,
    fun raw hlen => hchecks.groupDescriptorAddress hlen⟩

/-- 末尾の group は、bitmap の bit で数えられる。 -/
theorem Superblock.Accepted.last_group {size : Nat} {sb : Superblock} (ha : sb.Accepted size)
    (hsize : size < 2 ^ 63) :
    sb.groupStartBlock (sb.groupsCount - 1) < sb.blocksCount ∧
      sb.blocksCount ≤ sb.groupStartBlock (sb.groupsCount - 1) + sb.blockSize * 8 := by
  have hpos := Nat.pos_of_ne_zero ha.groups_pos
  have hlt := ha.lt_groupsCount_iff.mp (Nat.sub_lt hpos Nat.one_pos)
  have hnext : ¬ sb.groupsCount * sb.blocksPerGroup < sb.blocksCount - sb.firstDataBlock :=
    fun h => Nat.lt_irrefl _ (ha.lt_groupsCount_iff.mpr h)
  have hper := ha.perGroup_le
  rw [ha.groupStartBlock_eq hsize (Nat.sub_lt hpos Nat.one_pos)]
  have hsucc : sb.groupsCount * sb.blocksPerGroup =
      (sb.groupsCount - 1) * sb.blocksPerGroup + sb.blocksPerGroup := by
    rw [← Nat.succ_mul, Nat.succ_eq_add_one, Nat.sub_add_cancel hpos]
  omega

/-- 印を付けるループは、どの block も空いているときに限って通る。 -/
theorem markTailBits_cases {gs : Nat} : ∀ (n b : Nat) (bm : Bytes), b + n ≤ gs + bm.length * 8 →
    ((∀ x, b ≤ x → gs ≤ x → x < b + n → bitSet bm (x - gs) = false) ∧
      ∃ bm', markTailBits gs n b bm = .ok bm') ∨
    ((∃ x, b ≤ x ∧ gs ≤ x ∧ x < b + n ∧ bitSet bm (x - gs) = true) ∧
      ∃ e, markTailBits gs n b bm = .error e ∧ ¬ IoFailure e)
  | 0, b, bm, _ => Or.inl ⟨fun x h1 _ h3 => absurd h3 (by omega), bm, rfl⟩
  | n + 1, b, bm, hlen => by
    unfold markTailBits
    by_cases hlow : b < gs
    · rw [if_pos hlow]
      rcases @markTailBits_cases gs n (b + 1) bm (by omega) with ⟨hfree, h⟩ | ⟨⟨x, h1, h2, h3, hx⟩, h⟩
      · exact Or.inl ⟨fun x _ h2 h3 => hfree x (by omega) h2 (by omega), h⟩
      · exact Or.inr ⟨⟨x, Nat.le_of_succ_le h1, h2, by omega, hx⟩, h⟩
    · rw [if_neg hlow]
      cases hbit : bitSet bm (b - gs) with
      | true =>
        rw [if_pos rfl]
        exact Or.inr ⟨⟨b, le_refl _, by omega, by omega, hbit⟩, _, rfl, by decide⟩
      | false =>
        rw [if_neg Bool.false_ne_true]
        -- 付けた印は、残りの block の bit に触れない
        have hother : ∀ x, b + 1 ≤ x →
            bitSet (setBitmapBit bm (b - gs) true) (x - gs) = bitSet bm (x - gs) := by
          intro x hx
          rw [bitSet_setBitmapBit (by omega), if_neg (by omega)]
        rcases @markTailBits_cases gs n (b + 1) (setBitmapBit bm (b - gs) true)
          (by rw [length_setBitmapBit]; omega) with ⟨hfree, h⟩ | ⟨⟨x, h1, h2, h3, hx⟩, h⟩
        · refine Or.inl ⟨fun x h1 h2 h3 => ?_, h⟩
          rcases Nat.eq_or_lt_of_le h1 with rfl | hlt
          · exact hbit
          · rw [← hother x hlt]
            exact hfree x hlt h2 (by omega)
        · rw [hother x h1] at hx
          exact Or.inr ⟨⟨x, Nat.le_of_succ_le h1, h2, by omega, hx⟩, h⟩

/-- 末尾の group の書き込みが device に収まる。 -/
structure TailInside (size : Nat) (sb : Superblock) (group : Nat) (u : Write × Write) : Prop where
  bitmap : u.1.off + u.1.bytes.length ≤ size
  desc : u.2.off + u.2.bytes.length ≤ size
  width : sb.descBytes ≤ sb.blockSize
  offset : u.2.off = sb.descOffset group
  length : u.2.bytes.length = sb.descBytes

@[simp] theorem length_setDescFreeBlocks (raw : Bytes) (v : Nat) :
    (setDescFreeBlocks raw v).length = raw.length := by
  unfold setDescFreeBlocks
  dsimp only
  split <;> simp only [length_writeLe]

theorem length_updateBlockBitmapChecksum (raw bm : Bytes) :
    (updateBlockBitmapChecksum ctx raw bm).length = raw.length := by
  unfold updateBlockBitmapChecksum
  dsimp only
  split
  · rfl
  · split <;> simp only [length_writeLe]

/-- descriptor の checksum の更新は、読んだ descriptor の上では失敗しない。 -/
theorem updateGroupDescriptorChecksum_ok (g : Nat) {raw : Bytes}
    (hlen : raw.length = ctx.sb.descBytes) : ∃ raw', updateGroupDescriptorChecksum ctx g raw = .ok raw' ∧
      raw'.length = ctx.sb.descBytes := by
  have := ctx.sb.descBytes_ge
  unfold updateGroupDescriptorChecksum
  split
  · exact ⟨raw, rfl, hlen⟩
  · rw [if_neg (by omega)]
    exact ⟨_, rfl, by rw [length_writeLe, length_writeLe, hlen]⟩

/-- 縮小の末尾の group の検査。 -/
theorem tailUpdate_cases (ha : ctx.sb.Accepted d.sizeBytes) {target : Nat}
    (ht : target ≤ ctx.sb.blocksCount) :
    (TailRemovable d ctx target ∧ ((∀ e, tailUpdate d ctx target = .error e → IoFailure e) ∧
      ∀ u, tailUpdate d ctx target = .ok u → TailInside d.sizeBytes ctx.sb (ctx.sb.groupsCount - 1) u) ∧
      ((∃ gd, readGroupDesc d ctx.sb (ctx.sb.groupsCount - 1) = .ok gd) →
        ∃ u, tailUpdate d ctx target = .ok u)) ∨
    (¬ TailRemovable d ctx target ∧ ∃ e, tailUpdate d ctx target = .error e ∧ ¬ IoFailure e) := by
  have hsize := d.size_lt
  obtain ⟨hstart, hend⟩ := ha.last_group hsize
  unfold tailUpdate TailRemovable
  dsimp only
  generalize ctx.sb.groupsCount - 1 = last at hstart hend ⊢
  cases hgd : readGroupDesc d ctx.sb last with
  | error e =>
    rw [Result.error_bind]
    by_cases hio : IoFailure e
    · refine Or.inl ⟨⟨fun e' he' => ?_, fun gd raw bm hc => (by cases hc)⟩,
        ⟨fun e' he' => ?_, fun u hu => (by cases hu)⟩, fun ⟨gd, hc⟩ => (by cases hc)⟩
      · cases he'
        exact hio
      · cases he'
        exact hio
    · exact Or.inr ⟨fun h => hio (h.1 e rfl), e, rfl, hio⟩
  | ok gd =>
    obtain ⟨⟨raw, hraw, hrawlen⟩, ⟨bm, hbm, hbmlen⟩, hbin, hwidth, hdin, haddr⟩ :=
      readable_of_readGroupDesc ha hgd
    rw [Result.ok_bind, hraw, Result.ok_bind, hbm, Result.ok_bind]
    have hno : ∀ e, (Except.ok gd : Result GroupDesc) = .error e → IoFailure e := fun e he => by cases he
    rcases @markTailBits_cases (ctx.sb.groupStartBlock last) (ctx.sb.blocksCount - target) target bm
      (by omega) with ⟨hfree, bm', hmark⟩ | ⟨⟨x, h1, h2, h3, hx⟩, e, hmark, hio⟩
    · rw [hmark, Result.ok_bind]
      by_cases hcount : ctx.sb.blocksCount - target > descFree raw
      · rw [if_pos hcount]
        refine Or.inr ⟨fun h => ?_, _, rfl, by decide⟩
        have := (h.2 gd raw bm rfl rfl hbm).2
        omega
      · obtain ⟨raw', hraw', hlen'⟩ := @updateGroupDescriptorChecksum_ok ctx last
          (updateBlockBitmapChecksum ctx
            (setDescFreeBlocks raw (descFree raw - (ctx.sb.blocksCount - target))) bm')
          (by rw [length_updateBlockBitmapChecksum, length_setDescFreeBlocks, hrawlen])
        rw [if_neg hcount, hraw', Result.ok_bind, haddr raw' hlen', Result.ok_bind]
        refine Or.inl ⟨⟨hno, fun gd' raw₀ bm₀ hg hr hb => ?_⟩, ⟨fun e he => (by cases he), fun u hu => ?_⟩,
          fun _ => ⟨_, rfl⟩⟩
        · cases hg
          cases hr
          cases hbm.symm.trans hb
          exact ⟨fun b h1 h2 h3 => hfree b h1 h2 (by omega), by omega⟩
        · cases hu
          refine ⟨?_, ?_, hwidth, rfl, hlen'⟩
          · show _ + bm'.length ≤ _
            rw [length_markTailBits hmark, hbmlen]
            exact hbin
          · show _ + raw'.length ≤ _
            rw [hlen']
            exact hdin
    · rw [hmark, Result.error_bind]
      refine Or.inr ⟨fun h => ?_, e, rfl, hio⟩
      have := (h.2 gd raw bm rfl rfl hbm).1 x h1 h2 (by omega)
      rw [hx] at this
      cases this

end Tail

/-! ## 縮小 -/

/-- はじめの検査を通った縮小の target。末尾の group は減らない。 -/
structure ShrinkTarget (d : Disk) (ctx : MetadataContext) (targetBytes : Nat) : Prop where
  super : readSuperblock d = .ok ctx.sb
  bytes : targetBytes / ctx.sb.blockSize * ctx.sb.blockSize = targetBytes
  lt : targetBytes / ctx.sb.blockSize < ctx.sb.blocksCount
  last : ctx.sb.groupStartBlock (ctx.sb.groupsCount - 1) < targetBytes / ctx.sb.blockSize

/-- group の数を変えない target は、末尾の group の中にある。 -/
theorem Superblock.Accepted.last_lt_of_groups {size : Nat} {sb : Superblock} (ha : sb.Accepted size)
    (hsize : size < 2 ^ 63) {target : Nat}
    (h : (target - sb.firstDataBlock + sb.blocksPerGroup - 1) / sb.blocksPerGroup = sb.groupsCount) :
    sb.groupStartBlock (sb.groupsCount - 1) < target := by
  have hpos := Nat.pos_of_ne_zero ha.groups_pos
  have hper := ha.perGroup_pos
  rw [ha.groupStartBlock_eq hsize (Nat.sub_lt hpos Nat.one_pos)]
  have hle := Nat.div_mul_le_self (target - sb.firstDataBlock + sb.blocksPerGroup - 1) sb.blocksPerGroup
  rw [h] at hle
  have hsucc : sb.groupsCount * sb.blocksPerGroup =
      (sb.groupsCount - 1) * sb.blocksPerGroup + sb.blocksPerGroup := by
    rw [← Nat.succ_mul, Nat.succ_eq_add_one, Nat.sub_add_cancel hpos]
  omega

theorem shrinkTarget_of_checkFinalize {host : Host} {d : Disk} {targetBytes : Nat}
    {ctx : MetadataContext} {sbraw : Bytes} (h : checkFinalize host d targetBytes = .ok ctx)
    (hraw : readRawSuperblock d = .ok sbraw) : ShrinkTarget d ctx targetBytes := by
  obtain ⟨-, hsuper, hlt, hmod⟩ := checkFinalize_target h hraw
  have ha := accepted_of_readSuperblock hsuper
  have hge := ha.blockSize_ge
  have hmul := Nat.div_mul_cancel (Nat.dvd_of_mod_eq_zero hmod)
  refine ⟨hsuper, hmul, ?_, ?_⟩
  · rw [ha.sizeBytes_eq d.size_lt] at hlt
    exact (Nat.div_lt_iff_lt_mul (by omega)).mpr hlt
  · unfold checkFinalize at h
    obtain ⟨ready, hready, h⟩ := Result.bind_eq_ok h
    rw [Result.guard_bind_eq_ok_iff] at h
    have hposs := h.1
    unfold analyzeShrinkReadiness at hready
    rw [hsuper, Result.ok_bind] at hready
    simp only [Result.guard_bind_eq_ok_iff] at hready
    obtain ⟨-, -, hready⟩ := hready
    obtain ⟨removed, -, hready⟩ := Result.bind_eq_ok hready
    obtain ⟨graph, -, hready⟩ := Result.bind_eq_ok hready
    obtain ⟨fixed, -, hready⟩ := Result.bind_eq_ok hready
    cases hready
    refine ha.last_lt_of_groups d.size_lt ?_
    simp only [ShrinkReadiness.finalizePossible, Bool.not_eq_false, Bool.and_eq_true,
      decide_eq_true_eq] at hposs
    exact hposs.1.1

section Shrink

variable {ctx : MetadataContext} {raw : Bytes}

/-- はじめの superblock の書き込みと journal の record が通るとき。 -/
theorem run_beginFinalize {w : World} {j : JournalFile} (ha : ctx.sb.Accepted w.disk.sizeBytes)
    (hroom : 2048 ≤ w.disk.sizeBytes) (hlen : raw.length = 1024) (hj : w.journal = some j)
    (hw : w.disk.writable = true) (hcap : j.view.records.length + 2 ≤ j.capacity) :
    ∃ v, Proc.run (beginFinalize ctx raw) w = (.ok (), v) ∧ v.disk = markedDisk w.disk ctx raw ∧
      Grown j.view.records.length v.journal := by
  have h1 := (@step_eq_ok_iff j _ (.appendBatch [{ type := .filesystemMarkedDirty }]) rfl).mpr
    ⟨by omega, rfl⟩
  generalize hj1 : ({ j with view := _ } : JournalFile) = j1 at h1
  have hlen1 : j1.view.records.length = j.view.records.length + 1 := by
    rw [← hj1]
    exact length_result _ _
  have hcap1 : j1.capacity = j.capacity := by rw [← hj1]
  have h2 := (@step_eq_ok_iff j1 _ (.checkpoint .metadataFinalize) rfl).mpr ⟨by omega, rfl⟩
  unfold beginFinalize append checkpoint
  rw [Proc.run_bind_ok (run_writeSuperCopies ha hroom hlen hw),
    Proc.run_bind_ok (run_journalOp_ok (w := w.emit (superEvents ctx raw)) hj h1),
    run_journalOp_ok rfl h2]
  refine ⟨_, rfl, rfl, _, rfl, ?_⟩
  show _ < (JournalOp.result j1.view (.checkpoint .metadataFinalize)).records.length
  rw [length_result]
  omega

/-- 通ったなら、device は書けて、journal に record を二つ置けた。 -/
theorem room_of_beginFinalize {w v : World} {j : JournalFile} (hj : w.journal = some j)
    (ha : ctx.sb.Accepted w.disk.sizeBytes) (hroom : 2048 ≤ w.disk.sizeBytes)
    (hlen : raw.length = 1024) (h : Proc.run (beginFinalize ctx raw) w = (.ok (), v)) :
    w.disk.writable = true ∧ j.view.records.length + 2 ≤ j.capacity := by
  have hw : w.disk.writable = true := by
    cases hw : w.disk.writable with
    | true => rfl
    | false =>
      obtain ⟨e, he⟩ := @run_writeSuperCopies_readonly ctx raw w hw
      unfold beginFinalize at h
      rw [Proc.run_bind_error he] at h
      cases h
  refine ⟨hw, ?_⟩
  unfold beginFinalize append checkpoint at h
  rw [Proc.run_bind_ok (run_writeSuperCopies ha hroom hlen hw)] at h
  obtain ⟨_, w1, h1, h⟩ := run_bind_eq_ok h
  obtain ⟨j', j1, hj', hs1, hj1⟩ := journalOp_eq_ok h1
  cases hj.symm.trans hj'
  obtain ⟨j1', j2, hj1', hs2, -⟩ := journalOp_eq_ok h
  cases hj1.symm.trans hj1'
  obtain ⟨-, rfl⟩ := (step_eq_ok_iff rfl).mp hs1
  obtain ⟨hlt, -⟩ := (step_eq_ok_iff rfl).mp hs2
  have := length_result j.view (.appendBatch [{ type := .filesystemMarkedDirty }])
  change _ < j.capacity at hlt
  rw [this] at hlt
  exact hlt

/-- 末尾の group が二つ以上の block からなれば、どの group にも先頭の次の block がある。 -/
theorem Superblock.Accepted.start_succ_lt_of_last {size : Nat} {sb : Superblock}
    (ha : sb.Accepted size) (hsize : size < 2 ^ 63)
    (hlast : sb.groupStartBlock (sb.groupsCount - 1) + 1 < sb.blocksCount) {g : Nat}
    (hg : g < sb.groupsCount) : sb.groupStartBlock g + 1 < sb.blocksCount := by
  have hpos := Nat.pos_of_ne_zero ha.groups_pos
  have hmul := Nat.mul_le_mul_right sb.blocksPerGroup (show g ≤ sb.groupsCount - 1 by omega)
  rw [ha.groupStartBlock_eq hsize (Nat.sub_lt hpos Nat.one_pos)] at hlast
  rw [ha.groupStartBlock_eq hsize hg]
  omega

/-- 末尾より前の group は、次の group の先頭までに二つ以上の block を残す。 -/
theorem Superblock.Accepted.start_succ_lt {size : Nat} {sb : Superblock} (ha : sb.Accepted size)
    (hsize : size < 2 ^ 63) {g : Nat} (hg : g < sb.groupsCount - 1) :
    sb.groupStartBlock g + 1 < sb.blocksCount := by
  have hpos := Nat.pos_of_ne_zero ha.groups_pos
  have hper := ha.perGroup_pos
  have hlt := ha.lt_groupsCount_iff.mp (Nat.sub_lt hpos Nat.one_pos)
  have hmul := Nat.mul_le_mul_right sb.blocksPerGroup (show g + 1 ≤ sb.groupsCount - 1 from hg)
  rw [Nat.succ_mul] at hmul
  rw [ha.groupStartBlock_eq hsize (by omega)]
  omega

/-- descriptor の写しの前にある、幾何の検査は通る。 -/
theorem backups_guards {size : Nat} (ha : ctx.sb.Accepted size) (hsize : size < 2 ^ 63) {n : Nat}
    (hds : ctx.sb.descBytes ≤ ctx.sb.blockSize) (hoff : ctx.sb.descOffset n ≤ size) :
    ¬ (ctx.sb.blockSize = 0 ∨ ctx.sb.descBytes = 0 ∨ ctx.sb.descBytes > ctx.sb.blockSize) ∧
      ¬ n > u64Max / ctx.sb.descBytes := by
  have hge := ha.blockSize_ge
  have hds' := ctx.sb.descBytes_ge
  unfold Superblock.descOffset at hoff
  refine ⟨by omega, ?_⟩
  rw [Nat.not_lt, Nat.le_div_iff_mul_le (by omega)]
  unfold u64Max
  omega

theorem TailInside.offset_le {size g : Nat} {sb : Superblock} {u : Write × Write}
    (h : TailInside size sb g u) : sb.descOffset g ≤ size := by
  have := h.desc
  have := h.offset
  omega

section WriteTail

variable {size : Nat} {u : Write × Write} (ha : ctx.sb.Accepted size) (hsize : size < 2 ^ 63)
  (hu : TailInside size ctx.sb (ctx.sb.groupsCount - 1) u)

include ha hsize hu

/--
末尾の group の bitmap と descriptor、その写しを書いて flush するところ。
末尾の group が一つの block だけからなるときは、その写しに進むまでに書き込みが失敗する。
-/
theorem onlyIo_writeTail {v : World} (hs : v.disk.sizeBytes = size)
    (hback : 0 < ctx.sb.groupsCount - 1 → groupHasSuper raw (ctx.sb.groupsCount - 1) = true →
      BackupsFit size ctx raw (ctx.sb.groupsCount - 1) →
      ctx.sb.groupStartBlock (ctx.sb.groupsCount - 1) + 1 < ctx.sb.blocksCount) : OnlyIo (do
    write u.1.off u.1.bytes
    write u.2.off u.2.bytes
    writeGroupDescBackups ctx raw (ctx.sb.groupsCount - 1) u.2.bytes
    flush) v := by
  have hpos := Nat.pos_of_ne_zero ha.groups_pos
  have hoff := hu.offset_le
  obtain ⟨hg1, hg2⟩ := backups_guards ha hsize hu.width hoff
  refine FailsIn.bind (onlyIo_write v) fun _ v1 h1 => FailsIn.bind (onlyIo_write v1) fun _ v2 h2 => ?_
  obtain ⟨-, -, rfl⟩ := write_eq_ok h1
  obtain ⟨-, -, rfl⟩ := write_eq_ok h2
  refine FailsIn.bind ?_ fun _ v3 _ => onlyIo_flush v3
  refine FailsIn.guard (fun h => absurd h hg1) fun _ => FailsIn.guard (fun h => absurd h hg2) fun _ => ?_
  refine onlyIo_writeBackupDescs _ _ _ hs fun g h0 hg hsup => ?_
  by_cases hlt : ctx.sb.groupStartBlock g + 1 < ctx.sb.blocksCount
  · exact Or.inl ⟨_, backupDescAddress_eq ha hsize hoff hlt⟩
  · have hlast : g = ctx.sb.groupsCount - 1 := by
      by_contra hne
      exact hlt (ha.start_succ_lt hsize (by omega))
    subst hlast
    have hno : ¬ BackupsFit size ctx raw (ctx.sb.groupsCount - 1) :=
      fun hfit => hlt (hback h0 hsup hfit)
    unfold BackupsFit BackupFits at hno
    push Not at hno
    obtain ⟨g₀, h1, h2, h3, h4⟩ := hno
    refine Or.inr ⟨g₀, _, h1, h2, h3, backupDescAddress_eq ha hsize hoff (ha.start_succ_lt hsize h2), ?_⟩
    rw [hu.length]
    exact h4

/-- 写しの番地が filesystem の中にあって device に収まれば、書き込みは終わりまで進む。 -/
theorem run_writeTail (hstart : ∀ g, 0 < g → g < ctx.sb.groupsCount →
      groupHasSuper raw g = true → ctx.sb.groupStartBlock g + 1 < ctx.sb.blocksCount)
    (hfit : BackupsFit size ctx raw ctx.sb.groupsCount) {v : World}
    (hw : v.disk.writable = true) (hs : v.disk.sizeBytes = size) :
    ∃ es, Proc.run (do
      write u.1.off u.1.bytes
      write u.2.off u.2.bytes
      writeGroupDescBackups ctx raw (ctx.sb.groupsCount - 1) u.2.bytes
      flush) v = (.ok (), v.emit es) := by
  have hpos := Nat.pos_of_ne_zero ha.groups_pos
  have hoff := hu.offset_le
  obtain ⟨hg1, hg2⟩ := backups_guards ha hsize hu.width hoff
  have hin1 := hu.bitmap
  have hin2 := hu.desc
  have haddr : ∀ g, 0 < g → g < ctx.sb.groupsCount → groupHasSuper raw g = true →
      ∃ addr, backupDescAddress ctx (ctx.sb.groupsCount - 1) g = .ok addr ∧
        addr + u.2.bytes.length ≤ size := by
    intro g h0 hg hsup
    refine ⟨_, backupDescAddress_eq ha hsize hoff (hstart g h0 hg hsup), ?_⟩
    rw [hu.length]
    exact hfit g h0 hg hsup
  obtain ⟨us, hus⟩ := run_writeBackupDescs haddr (ctx.sb.groupsCount - 1) 1
    ((v.emit [.write ⟨u.1.off, u.1.bytes⟩]).emit [.write ⟨u.2.off, u.2.bytes⟩]) Nat.one_pos (by omega)
    hw hs
  refine ⟨[.write ⟨u.1.off, u.1.bytes⟩] ++ [.write ⟨u.2.off, u.2.bytes⟩] ++ us.map .write ++ [.flush], ?_⟩
  unfold writeGroupDescBackups
  dsimp only
  rw [Proc.run_bind_ok (run_write_ok hw (by omega)), if_neg hg1, if_neg hg2,
    Proc.run_bind_ok (run_write_ok (w := v.emit [.write ⟨u.1.off, u.1.bytes⟩]) hw
      (by rw [World.emit_disk, Disk.emit_sizeBytes]; omega)), Proc.run_bind_ok hus, run_flush]
  simp only [World.emit_emit]

variable (hlast : ctx.sb.groupStartBlock (ctx.sb.groupsCount - 1) + 1 < ctx.sb.blocksCount)
include hlast

theorem fits_of_writeTail {v v' : World} (hs : v.disk.sizeBytes = size)
    (h : Proc.run (do
      write u.1.off u.1.bytes
      write u.2.off u.2.bytes
      writeGroupDescBackups ctx raw (ctx.sb.groupsCount - 1) u.2.bytes
      flush) v = (.ok (), v')) : BackupsFit size ctx raw ctx.sb.groupsCount := by
  have hoff := hu.offset_le
  obtain ⟨hg1, hg2⟩ := backups_guards ha hsize hu.width hoff
  obtain ⟨_, v1, h1, h⟩ := run_bind_eq_ok h
  obtain ⟨-, -, rfl⟩ := write_eq_ok h1
  obtain ⟨_, v2, h2, h⟩ := run_bind_eq_ok h
  obtain ⟨-, -, rfl⟩ := write_eq_ok h2
  obtain ⟨_, v3, h3, -⟩ := run_bind_eq_ok h
  unfold writeGroupDescBackups at h3
  dsimp only at h3
  rw [if_neg hg1, if_neg hg2] at h3
  intro g h0 hg hsup
  obtain ⟨addr, haddr, hin⟩ := fits_of_writeBackupDescs _ _ _ _ h3 g h0 (by omega) hsup
  cases haddr.symm.trans (backupDescAddress_eq ha hsize hoff
    (ha.start_succ_lt_of_last hsize hlast hg))
  rw [hu.length, World.emit_disk, World.emit_disk, Disk.emit_sizeBytes, Disk.emit_sizeBytes, hs] at hin
  exact hin

end WriteTail

end Shrink

/-! ## 断りの値と状態 -/

/-- 断りに数えない失敗か、何も変わっていない。 -/
def Quiet (host : Host) (c : SizeChange) (w : World) (e : Error) (s : World) : Prop :=
  IoFailure e ∨ VerificationFails host c w ∨ (s.disk.data = w.disk.data ∧ s.journal = w.journal)

theorem refusesQuietly_iff {host : Host} {c : SizeChange} {w : World} :
    RefusesQuietly host c w ↔ FailsIn (Quiet host c w) (c.call host) w := by
  constructor
  · intro h e s hr
    by_cases hio : IoFailure e
    · exact Or.inl hio
    · by_cases hver : VerificationFails host c w
      · exact Or.inr (Or.inl hver)
      · exact Or.inr (Or.inr (h e s hr hio hver))
  · intro h e s hr hio hver
    exact ((h e s hr).resolve_left hio).resolve_left hver

section Complete

variable {host : Host} {c : SizeChange} {w v : World}

theorem OnlyIo.quiet {α : Type} {p : EngineM α} (h : OnlyIo p v) : FailsIn (Quiet host c w) p v :=
  h.mono fun _ _ => Or.inl

/-- 検証のところ。 -/
theorem quiet_verify {α : Type} {text : Error} {rest : EngineM α} (hver : c.verifies = true)
    (hto : Proc.run (c.toVerify host) w = (.ok true, v)) (hrest : FailsIn (Quiet host c w) rest v) :
    FailsIn (Quiet host c w) (do
      let r ← device fun d => verifyMetadata host.verifyCancelled d
      if r.clean = false then throw text
      rest) v := by
  refine FailsIn.bind (FailsIn.reading fun e he => ?_) fun r s hr => ?_
  · refine Or.inr (Or.inl ⟨hver, v, hto, fun r hr => ?_⟩)
    cases he.symm.trans hr
  · obtain ⟨hok, rfl⟩ := Prod.mk.inj hr
    refine FailsIn.guard (fun hc => Or.inr (Or.inl ⟨hver, v, hto, fun r' hr' => ?_⟩)) fun _ => hrest
    cases hok.symm.trans hr'
    exact hc

/-- clean の印を書くところ。 -/
theorem onlyIo_markClean {α : Type} {r : Resized} {size : Nat} {rest : EngineM α}
    (ha : r.ctx.sb.Accepted size) (hsize : size < 2 ^ 63) (hlen : r.raw.length = 1024)
    (hrest : ∀ s, OnlyIo rest s) (s : World) : OnlyIo (do
      let clean ← device fun _ => updateSuperblockChecksum (writeLe 2 r.raw 0x3a (r.state ||| 1))
      writeSuperCopies r.ctx clean
      rest) s := by
  obtain ⟨clean, hclean, hclen⟩ := @updateSuperblockChecksum_of_length
    (writeLe 2 r.raw 0x3a (r.state ||| 1)) (by rw [length_writeLe, hlen])
  refine FailsIn.bind_ok (Proc.run_reading _ s |>.trans (by rw [hclean])) ?_
  exact FailsIn.bind (onlyIo_writeSuperCopies ha hsize hclen s) fun _ t _ => hrest t

end Complete

/-! ## 縮小の条件 -/

/-- 新しい大きさの superblock は、空きの数が足りるときに限って作れる。 -/
theorem shrunkSuper_cases {ctx : MetadataContext} {raw : Bytes} {target : Nat}
    (hlen : raw.length = 1024) (state : Nat) :
    (ctx.sb.blocksCount - target ≤ ctx.sb.freeBlocks →
        ∃ b, shrunkSuper ctx raw state target = .ok b) ∧
      (¬ ctx.sb.blocksCount - target ≤ ctx.sb.freeBlocks →
        ∃ e, shrunkSuper ctx raw state target = .error e ∧ ¬ IoFailure e) := by
  unfold shrunkSuper
  constructor
  · intro h
    rw [if_neg (Nat.not_lt.mpr h)]
    refine Exists.imp (fun _ hb => hb.1) (updateSuperblockChecksum_of_length ?_)
    rw [length_writeLe, length_setLoHi, length_setLoHi, length_setLoHi, hlen]
  · intro h
    rw [if_pos (Nat.not_le.mp h)]
    exact ⟨_, rfl, by decide⟩

section ShrinkQuiet

variable {host : Host} {missing : Error} {targetBytes : Nat} {opts : FinalizeOptions} {w : World}

theorem prepared_prepareShrink : Triple (fun v => v = w) (prepareShrink host missing targetBytes opts)
    (fun r _ => r.ctx.sb.Accepted w.disk.sizeBytes ∧ r.raw.length = 1024) (fun _ => True) := by
  refine Triple.guard (fun _ _ => trivial) fun _ => ?_
  refine Triple.bind (R := fun _ v => v = w) (Triple.reading (fun _ _ h _ => h) fun _ _ => trivial)
    fun _ => ?_
  refine Triple.bind (R := fun ctx v => v = w ∧ checkFinalize host w.disk targetBytes = .ok ctx)
    (Triple.reading ?_ fun _ _ => trivial) fun ctx => ?_
  · rintro v ctx rfl h
    exact ⟨rfl, h⟩
  refine Triple.bind (R := fun _ v => v = w ∧ checkFinalize host w.disk targetBytes = .ok ctx)
    (Triple.reading (fun _ _ h _ => h) fun _ _ => trivial) fun j => ?_
  refine Triple.bind (R := fun _ v => v = w ∧ checkFinalize host w.disk targetBytes = .ok ctx)
    (Triple.reading (fun _ _ h _ => h) fun _ _ => trivial) fun _ => ?_
  refine Triple.bind (R := fun b _ => ctx.sb.Accepted w.disk.sizeBytes ∧ b.length = 1024)
    (Triple.reading ?_ fun _ _ => trivial) fun sbraw => ?_
  · rintro v b ⟨rfl, hctx⟩ hb
    refine ⟨accepted_of_readSuperblock (checkFinalize_target hctx hb).2.1, ?_⟩
    rw [(Disk.readExact_eq_ok_iff.mp hb).2, Image.length_read]
  refine Triple.bind (R := fun raw _ => ctx.sb.Accepted w.disk.sizeBytes ∧ raw.length = 1024)
    (Triple.reading ?_ fun _ _ => trivial) fun raw => ?_
  · rintro v raw ⟨ha, hlen⟩ hraw
    exact ⟨ha, (dirty_spec hlen hraw).1⟩
  rintro v ⟨ha, hlen⟩
  refine Triple.bind triple_true (fun _ => Triple.bind triple_true fun _ =>
    Triple.bind (R := fun b _ => b.length = 1024) (Triple.reading (fun _ b _ hb => ?_) fun _ _ => trivial)
      fun b => ?_) v trivial
  · exact (shrunkSuper_spec hlen hb).1
  · intro s hb
    refine Triple.bind triple_true (fun _ => Triple.pure fun _ _ => ⟨ha, hb⟩) s trivial

/-- 始めた縮小が書き始めた後の検査を通るなら、失敗はどれも断りに数えない。 -/
theorem quiet_prepareShrink (h : ShrinkSettles host targetBytes opts w) :
    FailsIn (Quiet host (.shrink missing targetBytes opts) w)
      (prepareShrink host missing targetBytes opts) w := by
  have hsame : ∀ e, Quiet host (.shrink missing targetBytes opts) w e w :=
    fun _ => Or.inr (Or.inr ⟨rfl, rfl⟩)
  refine FailsIn.guard (fun _ => hsame _) fun hpath => FailsIn.reading_bind hsame fun _ hsafe => ?_
  refine FailsIn.reading_bind hsame fun ctx hctx => FailsIn.reading_bind hsame fun j hj => ?_
  refine FailsIn.reading_bind hsame fun _ hid => FailsIn.reading_bind hsame fun sbraw hsb => ?_
  refine FailsIn.reading_bind hsame fun raw hupd => ?_
  have hst := stateUpdate_false hsb hupd
  obtain ⟨hlen, hroom⟩ := length_of_stateUpdate hst
  have htarget := shrinkTarget_of_checkFinalize hctx hsb
  have ha := accepted_of_readSuperblock htarget.super
  have hsize := w.disk.size_lt
  cases hjw : w.journal with
  | none =>
    simp only [hjw] at hj
    cases hj
  | some j₀ =>
    simp only [hjw] at hj
    cases hj
    refine FailsIn.bind (OnlyIo.quiet ?_) fun _ v hv => ?_
    · exact FailsIn.bind (onlyIo_writeSuperCopies ha hsize hlen w) fun _ s _ =>
        FailsIn.bind (onlyIo_journalOp s) fun _ t _ => onlyIo_journalOp t
    · obtain ⟨hw, hcap⟩ := room_of_beginFinalize hjw ha hroom hlen hv
      obtain ⟨v', hv', hdisk, -⟩ := run_beginFinalize ha hroom hlen hjw hw hcap
      cases hv.symm.trans hv'
      obtain ⟨htail, hfree⟩ := h ctx j raw ⟨hpath, hsafe, hctx, hjw, hid, hst, hw, hcap⟩
      rw [← hdisk] at htail hfree
      have hav : ctx.sb.Accepted v.disk.sizeBytes := by rw [hdisk]; exact ha
      have hlast := htarget.last
      have hlt := htarget.lt
      obtain ⟨-, ⟨hio, hin⟩, hok⟩ | ⟨hno, -⟩ := tailUpdate_cases hav (Nat.le_of_lt hlt)
      · have hlast' : ctx.sb.groupStartBlock (ctx.sb.groupsCount - 1) + 1 < ctx.sb.blocksCount := by omega
        refine FailsIn.bind (OnlyIo.quiet ?_) fun _ v1 hv1 => ?_
        · refine FailsIn.bind (FailsIn.reading hio) fun u s hu => ?_
          obtain ⟨hok, rfl⟩ := Prod.mk.inj hu
          exact onlyIo_writeTail hav v.disk.size_lt (hin u hok) rfl fun _ _ _ => hlast'
        · -- 写しまで書けたので、superblock の空きの数の検査も通る
          obtain ⟨u, s, hu, hv1⟩ := run_bind_eq_ok hv1
          obtain ⟨hok, rfl⟩ := Prod.mk.inj hu
          have hfit := fits_of_writeTail hav v.disk.size_lt (hin u hok) hlast' rfl hv1
          have hgd : ∃ gd, readGroupDesc v.disk ctx.sb (ctx.sb.groupsCount - 1) = .ok gd := by
            obtain ⟨gd, hgd, -⟩ := Result.bind_eq_ok hok
            exact ⟨gd, hgd⟩
          obtain ⟨b, hb⟩ := (shrunkSuper_cases hlen (readLe 2 sbraw 0x3a)).1
            (hfree hgd (by rw [hdisk] at hfit; exact hfit))
          refine FailsIn.bind_ok (Proc.run_reading _ v1 |>.trans (by rw [hb])) ?_
          exact FailsIn.bind (OnlyIo.quiet (onlyIo_writeSuperCopies ha hsize
            (shrunkSuper_spec hlen hb).1 v1)) fun _ t _ => FailsIn.of_ok rfl
      · exact absurd htail hno

/-- 検証の手前で断られ、journal が変わっているなら、断りの約束は破れている。 -/
theorem not_refusesQuietly_shrink {e : Error} {v : World}
    (h : Proc.run (prepareShrink host missing targetBytes opts) w = (.error e, v))
    (hio : ¬ IoFailure e) (hj : v.journal ≠ w.journal) :
    ¬ RefusesQuietly host (.shrink missing targetBytes opts) w := by
  intro hq
  refine hj (hq e v ?_ hio ?_).2
  · show Proc.run (finalizeMetadataOnlyShrink host missing targetBytes opts) w = _
    rw [finalizeMetadataOnlyShrink_eq_prepare]
    exact Proc.run_bind_error h
  · rintro ⟨-, v', hv', -⟩
    have : Proc.run (SizeChange.toVerify host (.shrink missing targetBytes opts)) w = (.error e, v) :=
      Proc.run_bind_error h
    rw [this] at hv'
    cases hv'

/-- 書き始めた縮小が、その後の検査を通らなければ、journal に record が残る。 -/
theorem settles_of_quiet (hq : RefusesQuietly host (.shrink missing targetBytes opts) w) :
    ShrinkSettles host targetBytes opts w := by
  rintro ctx j raw ⟨hpath, hsafe, hctx, hj, hid, hst, hw, hcap⟩
  have hst' := hst
  unfold stateUpdate at hst'
  obtain ⟨sbraw, hsb, hupd⟩ := Result.bind_eq_ok hst'
  obtain ⟨hlen, hroom⟩ := length_of_stateUpdate hst
  have htarget := shrinkTarget_of_checkFinalize hctx hsb
  have ha := accepted_of_readSuperblock htarget.super
  have hlast := htarget.last
  have hlt := htarget.lt
  have hlast' : ctx.sb.groupStartBlock (ctx.sb.groupsCount - 1) + 1 < ctx.sb.blocksCount := by omega
  obtain ⟨v, hv, hdisk, f, hf, hgrown⟩ := run_beginFinalize ha hroom hlen hj hw hcap
  have hne : some f ≠ w.journal := by
    intro hc
    rw [hj] at hc
    cases hc
    exact Nat.lt_irrefl _ hgrown
  have hrun : ∀ {k : World → World} {e : Error}, Proc.run (do
        shrinkTail ctx raw (targetBytes / ctx.sb.blockSize)
        let shrunk ← device fun _ =>
          shrunkSuper ctx raw (readLe 2 sbraw 0x3a) (targetBytes / ctx.sb.blockSize)
        writeSuperCopies ctx shrunk
        return ({ ctx, raw := shrunk, state := readLe 2 sbraw 0x3a } : Resized)) v = (.error e, k v) →
      Proc.run (prepareShrink host missing targetBytes opts) w = (.error e, k v) := by
    intro k e he
    unfold prepareShrink
    rw [if_neg hpath, run_device_bind hsafe, run_device_bind hctx,
      Proc.run_bind_ok (show Proc.run (Engine.journal missing) w = (.ok j, w) from
        Proc.run_reading _ w |>.trans (by rw [hj])),
      run_device_bind hid, run_device_bind hsb, run_device_bind hupd, Proc.run_bind_ok hv]
    exact he
  have hav : ctx.sb.Accepted v.disk.sizeBytes := by rw [hdisk]; exact ha
  rw [← hdisk]
  obtain ⟨htail, ⟨-, hin⟩, hok⟩ | ⟨-, e, he, hio⟩ := tailUpdate_cases hav (Nat.le_of_lt hlt)
  · refine ⟨htail, fun hgd hfit => ?_⟩
    by_contra hfree
    obtain ⟨u, hu⟩ := hok hgd
    obtain ⟨es, hes⟩ := run_writeTail hav v.disk.size_lt (hin u hu)
      (fun _ _ hg _ => hav.start_succ_lt_of_last v.disk.size_lt hlast' hg)
      (by rw [hdisk]; exact hfit) (v := v) (by rw [hdisk]; exact hw) rfl
    obtain ⟨e, he, hio⟩ := (shrunkSuper_cases hlen (readLe 2 sbraw 0x3a)).2 hfree
    have htailrun : Proc.run (shrinkTail ctx raw (targetBytes / ctx.sb.blockSize)) v =
        (.ok (), v.emit es) := by
      unfold shrinkTail
      rw [run_device_bind hu]
      exact hes
    refine not_refusesQuietly_shrink (hrun (k := fun v => v.emit es) (e := e) ?_) hio ?_ hq
    · rw [Proc.run_bind_ok htailrun]
      exact run_device_bind_error he
    · rw [World.emit_journal, hf]
      exact hne
  · exfalso
    refine not_refusesQuietly_shrink (hrun (k := fun v => v) (e := e) ?_) hio ?_ hq
    · refine Proc.run_bind_error ?_
      unfold shrinkTail
      exact run_device_bind_error he
    · rw [hf]
      exact hne

theorem refusesQuietly_shrink_iff : RefusesQuietly host (.shrink missing targetBytes opts) w ↔
    ShrinkSettles host targetBytes opts w := by
  refine ⟨settles_of_quiet, fun h => refusesQuietly_iff.mpr ?_⟩
  show FailsIn _ (finalizeMetadataOnlyShrink host missing targetBytes opts) w
  rw [finalizeMetadataOnlyShrink_eq_prepare]
  refine FailsIn.bind (quiet_prepareShrink h) fun r v hr => ?_
  obtain ⟨ha, hlen⟩ := prepared_prepareShrink.ok rfl hr
  refine quiet_verify rfl (Proc.run_bind_ok hr) (OnlyIo.quiet ?_)
  exact onlyIo_markClean ha w.disk.size_lt hlen
    (fun s => FailsIn.bind (onlyIo_journalOp s) fun _ t _ => onlyIo_journalOp t) v

end ShrinkQuiet

/-! ## 拡大の条件 -/

/-- はじめの検査を通った拡大の target。 -/
structure GrowTarget (d : Disk) (ctx : MetadataContext) (t : LastGroup) (targetBytes : Nat) :
    Prop where
  super : readSuperblock d = .ok ctx.sb
  clean : ctx.sb.state &&& 1 ≠ 0
  bytes : targetBytes / ctx.sb.blockSize * ctx.sb.blockSize = targetBytes
  lt : ctx.sb.blocksCount < targetBytes / ctx.sb.blockSize
  desc : readGroupDesc d ctx.sb (ctx.sb.groupsCount - 1) = .ok t.gd
  raw : readGroupDescriptorRaw d ctx (ctx.sb.groupsCount - 1) = .ok t.raw
  bitmap : readBlockBitmap d ctx.sb t.gd = .ok t.bitmap
  within : targetBytes / ctx.sb.blockSize ≤
    ctx.sb.groupStartBlock (ctx.sb.groupsCount - 1) + ctx.sb.blocksPerGroup
  /-- 増える block は、どれも bitmap で使われている -/
  closed : ∀ b, ctx.sb.blocksCount ≤ b → b < targetBytes / ctx.sb.blockSize →
    bitSet t.bitmap (b - ctx.sb.groupStartBlock (ctx.sb.groupsCount - 1)) = true

/-- 増える block のループが通れば、どの block の bit も立っている。 -/
theorem closed_of_checkGrowRange {sb : Superblock} {t : LastGroup} {gs : Nat} : ∀ {n b : Nat},
    checkGrowRange sb t gs n b = .ok () → ∀ x, b ≤ x → x < b + n → bitSet t.bitmap (x - gs) = true
  | 0, b, _, x, h1, h2 => absurd h2 (by omega)
  | n + 1, b, h, x, h1, h2 => by
    unfold checkGrowRange at h
    split at h
    · cases h
    · split at h
      · cases h
      · split at h
        · cases h
        · next hbit =>
          rcases Nat.eq_or_lt_of_le h1 with rfl | hlt
          · simpa using hbit
          · exact closed_of_checkGrowRange h x hlt (by omega)

theorem growTarget_of_checks {d : Disk} {targetBytes : Nat} {ctx : MetadataContext} {t : LastGroup}
    (h : checkGrow d targetBytes = .ok ctx)
    (ht : readLastGroup d ctx (targetBytes / ctx.sb.blockSize) = .ok t) :
    GrowTarget d ctx t targetBytes := by
  obtain ⟨ctx', hload, h⟩ := Result.bind_eq_ok h
  simp only [Result.guard_bind_eq_ok_iff, Result.pure_eq_ok_iff] at h
  obtain ⟨-, -, -, hclean, hlt, -, hmod, -, hin, rfl⟩ := h
  have hsuper := readSuperblock_of_loadMetadataContext hload
  have ha := accepted_of_readSuperblock hsuper
  have hge := ha.blockSize_ge
  have hmul := Nat.div_mul_cancel (Nat.dvd_of_mod_eq_zero (not_not.mp hmod))
  unfold readLastGroup at ht
  obtain ⟨gd, hgd, ht⟩ := Result.bind_eq_ok ht
  obtain ⟨raw, hraw, ht⟩ := Result.bind_eq_ok ht
  obtain ⟨bm, hbm, ht⟩ := Result.bind_eq_ok ht
  obtain ⟨_, hrange, ht⟩ := Result.bind_eq_ok ht
  cases ht
  have hlt' : ctx.sb.blocksCount < targetBytes / ctx.sb.blockSize := by
    rw [ha.sizeBytes_eq d.size_lt, ← hmul] at hlt
    exact Nat.lt_of_mul_lt_mul_right (Nat.not_le.mp hlt)
  exact ⟨hsuper, hclean, hmul, hlt', hgd, hraw, hbm, Nat.not_lt.mp hin, fun b h1 h2 =>
    closed_of_checkGrowRange hrange b h1 (by omega)⟩

section GrowQuiet

variable {host : Host} {targetBytes : Nat} {opts : GrowOptions} {w : World}

/-- 末尾の group の書き込みは、空きの数が 32 bit に収まるときに限って作れる。 -/
theorem grownTail_cases {ctx : MetadataContext} {t : LastGroup} {d : Disk}
    (ha : ctx.sb.Accepted d.sizeBytes) (ht : GrowTarget d ctx t targetBytes) :
    (descFree t.raw + (targetBytes / ctx.sb.blockSize - ctx.sb.blocksCount) ≤ 2 ^ 32 - 1 →
      ∃ u, grownTail ctx t (targetBytes / ctx.sb.blockSize) = .ok u ∧
        TailInside d.sizeBytes ctx.sb (ctx.sb.groupsCount - 1) u ∧
        u.1 = ⟨t.gd.blockBitmap * ctx.sb.blockSize, setBitmapRange t.bitmap
          (ctx.sb.blocksCount - ctx.sb.groupStartBlock (ctx.sb.groupsCount - 1))
          (targetBytes / ctx.sb.blockSize - ctx.sb.blocksCount) false⟩) ∧
    (¬ descFree t.raw + (targetBytes / ctx.sb.blockSize - ctx.sb.blocksCount) ≤ 2 ^ 32 - 1 →
      ∃ e, grownTail ctx t (targetBytes / ctx.sb.blockSize) = .error e ∧ ¬ IoFailure e) := by
  obtain ⟨⟨raw, hraw, hrawlen⟩, ⟨bm, hbm, hbmlen⟩, hbin, hwidth, hdin, haddr⟩ :=
    readable_of_readGroupDesc ha ht.desc
  cases ht.raw.symm.trans hraw
  cases ht.bitmap.symm.trans hbm
  unfold grownTail
  dsimp only
  constructor
  · intro h
    obtain ⟨raw', hraw', hlen'⟩ := @updateGroupDescriptorChecksum_ok ctx (ctx.sb.groupsCount - 1)
      (updateBlockBitmapChecksum ctx (setDescFreeBlocks t.raw
        (descFree t.raw + (targetBytes / ctx.sb.blockSize - ctx.sb.blocksCount)))
        (setBitmapRange t.bitmap
          (ctx.sb.blocksCount - ctx.sb.groupStartBlock (ctx.sb.groupsCount - 1))
          (targetBytes / ctx.sb.blockSize - ctx.sb.blocksCount) false))
      (by rw [length_updateBlockBitmapChecksum, length_setDescFreeBlocks, hrawlen])
    rw [if_neg (Nat.not_lt.mpr h), hraw', Result.ok_bind, haddr raw' hlen', Result.ok_bind]
    refine ⟨_, rfl, ⟨?_, ?_, hwidth, rfl, hlen'⟩, rfl⟩
    · dsimp only
      rw [length_setBitmapRange, hbmlen]
      exact hbin
    · dsimp only
      rw [hlen']
      exact hdin
  · intro h
    rw [if_pos (Nat.not_le.mp h)]
    exact ⟨_, rfl, by decide⟩

/-- 受け入れられた superblock の空きの数は、64 bit を溢れない。 -/
theorem grownSuper_ok {ctx : MetadataContext} {raw : Bytes} {size target state : Nat}
    (ha : ctx.sb.Accepted size) (hsize : size < 2 ^ 63) (ht : target * ctx.sb.blockSize ≤ size)
    (hlen : raw.length = 1024) : ∃ b, grownSuper ctx raw state target = .ok b := by
  have hge := ha.blockSize_ge
  have hfree := ha.free_le
  have hblocks := ha.blocks_lt hsize
  have hle := Nat.mul_le_mul_left target (show 1 ≤ ctx.sb.blockSize by omega)
  unfold grownSuper
  dsimp only
  rw [if_neg (by unfold u64Max; omega)]
  refine Exists.imp (fun _ hb => hb.1) (updateSuperblockChecksum_of_length ?_)
  rw [length_writeLe, length_setLoHi, length_setLoHi, hlen]

theorem prepared_prepareGrow : Triple (fun v => v = w) (prepareGrow host targetBytes opts)
    (fun r _ => r.ctx.sb.Accepted w.disk.sizeBytes ∧ r.raw.length = 1024) (fun _ => True) := by
  refine Triple.bind (R := fun _ v => v = w) (Triple.reading (fun _ _ h _ => h) fun _ _ => trivial)
    fun _ => ?_
  refine Triple.bind (R := fun ctx v => v = w ∧ ctx.sb.Accepted w.disk.sizeBytes)
    (Triple.reading ?_ fun _ _ => trivial) fun ctx => ?_
  · rintro v ctx rfl h
    obtain ⟨ctx', hload, h⟩ := Result.bind_eq_ok h
    simp only [Result.guard_bind_eq_ok_iff, Result.pure_eq_ok_iff] at h
    obtain ⟨-, -, -, -, -, -, -, -, -, rfl⟩ := h
    exact ⟨rfl, accepted_of_readSuperblock (readSuperblock_of_loadMetadataContext hload)⟩
  refine Triple.bind (R := fun _ v => v = w ∧ ctx.sb.Accepted w.disk.sizeBytes)
    (Triple.reading (fun _ _ h _ => h) fun _ _ => trivial) fun t => ?_
  refine Triple.bind (R := fun b _ => ctx.sb.Accepted w.disk.sizeBytes ∧ b.length = 1024)
    (Triple.reading ?_ fun _ _ => trivial) fun sbraw => ?_
  · rintro v b ⟨rfl, ha⟩ hb
    refine ⟨ha, ?_⟩
    rw [(Disk.readExact_eq_ok_iff.mp hb).2, Image.length_read]
  refine Triple.bind (R := fun raw _ => ctx.sb.Accepted w.disk.sizeBytes ∧ raw.length = 1024)
    (Triple.reading ?_ fun _ _ => trivial) fun raw => ?_
  · rintro v raw ⟨ha, hlen⟩ hraw
    exact ⟨ha, (dirty_spec hlen hraw).1⟩
  rintro v ⟨ha, hlen⟩
  refine Triple.bind triple_true (fun _ => Triple.bind triple_true fun _ =>
    Triple.bind (R := fun b _ => b.length = 1024) (Triple.reading (fun _ b _ hb => ?_) fun _ _ => trivial)
      fun b => ?_) v trivial
  · exact (grownSuper_spec hlen hb).1
  · intro s hb
    refine Triple.bind triple_true (fun _ => Triple.pure fun _ _ => ⟨ha, hb⟩) s trivial

/-- 始めた拡大が書き始めた後の検査を通るなら、失敗はどれも断りに数えない。 -/
theorem quiet_prepareGrow (h : GrowSettles host targetBytes opts w) :
    FailsIn (Quiet host (.grow targetBytes opts) w) (prepareGrow host targetBytes opts) w := by
  have hsame : ∀ e, Quiet host (.grow targetBytes opts) w e w := fun _ => Or.inr (Or.inr ⟨rfl, rfl⟩)
  refine FailsIn.reading_bind hsame fun _ hsafe => FailsIn.reading_bind hsame fun ctx hctx => ?_
  refine FailsIn.reading_bind hsame fun t ht => FailsIn.reading_bind hsame fun sbraw hsb => ?_
  refine FailsIn.reading_bind hsame fun raw hupd => ?_
  have hst := stateUpdate_false hsb hupd
  obtain ⟨hlen, hroom⟩ := length_of_stateUpdate hst
  have htarget := growTarget_of_checks hctx ht
  have ha := accepted_of_readSuperblock htarget.super
  have hsize := w.disk.size_lt
  refine FailsIn.bind (OnlyIo.quiet (onlyIo_writeSuperCopies ha hsize hlen w)) fun _ v hv => ?_
  have hw : w.disk.writable = true := by
    cases hw : w.disk.writable with
    | true => rfl
    | false =>
      obtain ⟨e, he⟩ := @run_writeSuperCopies_readonly ctx raw w hw
      rw [he] at hv
      cases hv
  obtain ⟨hcount, hback⟩ := h ctx t raw ⟨hsafe, hctx, ht, hst, hw⟩
  obtain ⟨u, hu, hin, -⟩ := (grownTail_cases ha htarget).1 hcount
  have hbytes : targetBytes ≤ w.disk.sizeBytes := by
    obtain ⟨ctx', -, hctx⟩ := Result.bind_eq_ok hctx
    simp only [Result.guard_bind_eq_ok_iff, Result.pure_eq_ok_iff] at hctx
    omega
  rw [run_writeSuperCopies ha hroom hlen hw] at hv
  cases hv
  refine FailsIn.bind (OnlyIo.quiet ?_) fun _ v1 hv1 => ?_
  · unfold growTail
    refine FailsIn.bind_ok (Proc.run_reading _ _ |>.trans (by rw [hu])) ?_
    exact onlyIo_writeTail ha hsize hin rfl hback
  · obtain ⟨b, hb⟩ := @grownSuper_ok ctx raw _ _ (readLe 2 sbraw 0x3a) ha hsize
      (by rw [htarget.bytes]; exact hbytes) hlen
    refine FailsIn.bind_ok (Proc.run_reading _ v1 |>.trans (by rw [hb])) ?_
    exact FailsIn.bind (OnlyIo.quiet (onlyIo_writeSuperCopies ha hsize
      (grownSuper_spec hlen hb).1 v1)) fun _ t _ => FailsIn.of_ok rfl

/-- 検証の手前で断られ、device が変わっているなら、断りの約束は破れている。 -/
theorem not_refusesQuietly_grow {e : Error} {v : World}
    (h : Proc.run (prepareGrow host targetBytes opts) w = (.error e, v)) (hio : ¬ IoFailure e)
    (hd : v.disk.data ≠ w.disk.data) : ¬ RefusesQuietly host (.grow targetBytes opts) w := by
  intro hq
  refine hd (hq e v ?_ hio ?_).1
  · exact Proc.run_bind_error (Proc.run_bind_error h)
  · rintro ⟨-, v', hv', -⟩
    have : Proc.run (SizeChange.toVerify host (.grow targetBytes opts)) w = (.error e, v) :=
      Proc.run_bind_error h
    rw [this] at hv'
    cases hv'

/-- 末尾の group の写しの番地で断られるまでに、ほかの写しは書かれている。 -/
theorem run_writeBackupDescs_refused {ctx : MetadataContext} {super desc : Bytes} {last : Nat}
    {e : Error} (haddr : ∀ g, 0 < g → g < last → groupHasSuper super g = true →
      ∃ addr, backupDescAddress ctx last g = .ok addr ∧ addr + desc.length ≤ w.disk.sizeBytes ∧
        2 * ctx.sb.blockSize ≤ addr)
    (hsup : groupHasSuper super last = true) (hbad : backupDescAddress ctx last last = .error e) :
    ∀ (n g : Nat) (v : World), 0 < g → g + n = last → v.disk.writable = true →
      v.disk.sizeBytes = w.disk.sizeBytes → ∃ us : List Write,
      Proc.run (writeBackupDescs ctx super last desc (n + 1) g) v =
          (.error e, v.emit (us.map .write)) ∧ ∀ x ∈ us, 2 * ctx.sb.blockSize ≤ x.off
  | 0, g, v, _, hg, _, _ => by
    obtain rfl : g = last := by omega
    refine ⟨[], ?_, fun x hx => (by cases hx)⟩
    unfold writeBackupDescs
    rw [if_pos hsup, List.map_nil, World.emit_nil]
    exact run_device_bind_error hbad
  | n + 1, g, v, h0, hg, hw, hs => by
    have hrest := run_writeBackupDescs_refused haddr hsup hbad n (g + 1)
    unfold writeBackupDescs
    split
    · next hsup' =>
      obtain ⟨addr, h, hin, hge⟩ := haddr g h0 (by omega) hsup'
      obtain ⟨us, hus, hoff⟩ := hrest (v.emit [.write ⟨addr, desc⟩]) (by omega) (by omega) hw hs
      refine ⟨⟨addr, desc⟩ :: us, ?_, List.forall_mem_cons.mpr ⟨hge, hoff⟩⟩
      rw [run_device_bind h, Proc.run_bind_ok (run_write_ok hw (by omega)), hus, World.emit_emit]
      rfl
    · exact hrest v (by omega) (by omega) hw hs

/-- 写しの番地の検査が通らない group。 -/
theorem backupDescAddress_refused {ctx : MetadataContext} {descGroup g : Nat}
    (hg : ¬ ctx.sb.groupStartBlock g + 1 < ctx.sb.blocksCount) :
    ∃ e, backupDescAddress ctx descGroup g = .error e ∧ ¬ IoFailure e := by
  unfold backupDescAddress
  dsimp only
  rw [if_pos (Or.inl (by omega))]
  exact ⟨_, rfl, by decide⟩

/-- dirty の印を付けた superblock は、dirty である。 -/
theorem dirty_of_stateUpdate {d : Disk} {raw : Bytes} (hst : stateUpdate d false = .ok raw) :
    readLe 2 raw 0x3a &&& 1 = 0 := by
  unfold stateUpdate at hst
  obtain ⟨sbraw, hsb, hst⟩ := Result.bind_eq_ok hst
  refine (dirty_spec ?_ hst).2.2
  rw [(Disk.readExact_eq_ok_iff.mp hsb).2, Image.length_read]

/-- 拡大は、clean の印のある device から始まる。 -/
theorem GrowTarget.markedClean {d : Disk} {ctx : MetadataContext} {t : LastGroup}
    (ht : GrowTarget d ctx t targetBytes) : MarkedClean d.data := by
  have hclean := ht.clean
  rw [← (readSuperblock_eq_ok_iff.mp ht.super).2.1, decodeSuperblock_state, Nat.and_one_is_mod] at hclean
  unfold MarkedClean
  rw [Nat.and_one_is_mod]
  omega

/-- dirty の印を付けた device は、元のままではない。 -/
theorem data_ne_of_mark {ctx : MetadataContext} {t : LastGroup} {raw : Bytes}
    (ht : GrowTarget w.disk ctx t targetBytes) (hst : stateUpdate w.disk false = .ok raw) :
    w.disk.data.applyAll (superCopies ctx raw) ≠ w.disk.data := by
  intro heq
  have h := not_markedClean_superCopies (accepted_of_readSuperblock ht.super) w.disk.size_lt
    (length_of_stateUpdate hst).1 (dirty_of_stateUpdate hst) w.disk.data
  rw [heq] at h
  exact h ht.markedClean

/--
dirty の印と、末尾の group の bitmap と descriptor を書いた後の device は、元のままではない。

bitmap が superblock に重ならなければ dirty の印が残り、重なれば、立っていた bit が消えて残る。
-/
theorem data_ne_of_tail {ctx : MetadataContext} {t : LastGroup} {raw : Bytes} {u : Write × Write}
    {us : List Write} (ht : GrowTarget w.disk ctx t targetBytes)
    (hst : stateUpdate w.disk false = .ok raw)
    (hu : TailInside w.disk.sizeBytes ctx.sb (ctx.sb.groupsCount - 1) u)
    (hbm : u.1 = ⟨t.gd.blockBitmap * ctx.sb.blockSize, setBitmapRange t.bitmap
      (ctx.sb.blocksCount - ctx.sb.groupStartBlock (ctx.sb.groupsCount - 1))
      (targetBytes / ctx.sb.blockSize - ctx.sb.blocksCount) false⟩)
    (hus : ∀ x ∈ us, 2 * ctx.sb.blockSize ≤ x.off) :
    ((((w.disk.data.applyAll (superCopies ctx raw)).apply u.1).apply u.2).applyAll us) ≠
      w.disk.data := by
  have ha := accepted_of_readSuperblock ht.super
  have hsize := w.disk.size_lt
  obtain ⟨hlen, hroom⟩ := length_of_stateUpdate hst
  have hge := ha.blockSize_ge
  have hblen := length_of_readBlockBitmap ht.bitmap
  have htable := ha.tableOffset_ge
  have hoff : ctx.sb.tableOffset ≤ u.2.off := by
    rw [hu.offset]
    exact Nat.le_add_right _ _
  have hulen : u.1.bytes.length = ctx.sb.blockSize := by rw [hbm, length_setBitmapRange, hblen]
  intro heq
  by_cases haway : Away (t.gd.blockBitmap * ctx.sb.blockSize) ctx.sb.blockSize
  · -- dirty の印を消す書き込みはない
    have h0 := not_markedClean_superCopies ha hsize hlen (dirty_of_stateUpdate hst) w.disk.data
    have h1 := KeepsDirty.apply (w := u.1) (Or.inl (by rw [hulen, hbm]; exact haway)) h0
    have h2 := KeepsDirty.apply (w := u.2) (Or.inl (Or.inr (by omega))) h1
    have h3 := Image.applyAll_preserves (P := fun i => ¬ MarkedClean i) h2
      fun x hx i hi => KeepsDirty.apply (Or.inl (Or.inr (by have := hus x hx; omega))) hi
    rw [heq] at h3
    exact h3 ht.markedClean
  · -- bitmap の block は、後の書き込みに触れられない
    have hlow : t.gd.blockBitmap * ctx.sb.blockSize + ctx.sb.blockSize ≤ 2 * ctx.sb.blockSize ∧
        t.gd.blockBitmap * ctx.sb.blockSize + ctx.sb.blockSize ≤ ctx.sb.tableOffset := by
      obtain ⟨k, hk⟩ := ha.dvd_blockSize
      unfold Away at haway
      unfold Superblock.tableOffset
      by_cases hone : ctx.sb.blockSize = 1024
      · rw [if_pos hone]
        rw [hone] at haway ⊢
        omega
      · have hzero : t.gd.blockBitmap = 0 := by
          by_contra hne
          have := Nat.mul_le_mul_right ctx.sb.blockSize (Nat.pos_of_ne_zero hne)
          omega
        rw [if_neg hone, hzero]
        omega
    have hread := congrArg
      (fun i => i.read (t.gd.blockBitmap * ctx.sb.blockSize) ctx.sb.blockSize) heq
    rw [Image.read_applyAll_of_disjoint _ _ _ _
      fun x hx => Or.inl (by have := hus x hx; omega)] at hread
    unfold Image.apply at hread
    rw [Image.read_write_of_disjoint (Or.inl (by omega)), hbm,
      Image.read_write_self _ _ _ (by rw [length_setBitmapRange, hblen])] at hread
    obtain ⟨hstart, -⟩ := ha.last_group hsize
    have hlt := ht.lt
    have hbit := ht.closed ctx.sb.blocksCount (le_refl _) hlt
    have hbits : ctx.sb.blocksCount - ctx.sb.groupStartBlock (ctx.sb.groupsCount - 1) +
        (targetBytes / ctx.sb.blockSize - ctx.sb.blocksCount) ≤ t.bitmap.length * 8 := by
      have := ht.within
      have := ha.perGroup_le
      omega
    have hclear := bitSet_setBitmapRange hbits (v := false)
      (ctx.sb.blocksCount - ctx.sb.groupStartBlock (ctx.sb.groupsCount - 1))
    dsimp only at hread
    rw [hread, if_pos (by omega)] at hclear
    rw [← (readBlockBitmap_eq_ok ht.bitmap).2, hbit] at hclear
    cases hclear

theorem settles_of_quiet_grow (hq : RefusesQuietly host (.grow targetBytes opts) w) :
    GrowSettles host targetBytes opts w := by
  rintro ctx t raw ⟨hsafe, hctx, ht, hst, hw⟩
  have hst' := hst
  unfold stateUpdate at hst'
  obtain ⟨sbraw, hsb, hupd⟩ := Result.bind_eq_ok hst'
  obtain ⟨hlen, hroom⟩ := length_of_stateUpdate hst
  have htarget := growTarget_of_checks hctx ht
  have ha := accepted_of_readSuperblock htarget.super
  have hsize := w.disk.size_lt
  have hge := ha.blockSize_ge
  have hrun : ∀ {v : World} {e : Error},
      Proc.run (growTail ctx raw t (targetBytes / ctx.sb.blockSize)) (w.emit (superEvents ctx raw)) =
        (.error e, v) → Proc.run (prepareGrow host targetBytes opts) w = (.error e, v) := by
    intro v e he
    unfold prepareGrow
    rw [run_device_bind hsafe, run_device_bind hctx, run_device_bind ht, run_device_bind hsb,
      run_device_bind hupd, Proc.run_bind_ok (run_writeSuperCopies ha hroom hlen hw)]
    exact Proc.run_bind_error he
  have hcount : descFree t.raw + (targetBytes / ctx.sb.blockSize - ctx.sb.blocksCount) ≤ 2 ^ 32 - 1 := by
    by_contra hcount
    obtain ⟨e, he, hio⟩ := (grownTail_cases ha htarget).2 hcount
    refine not_refusesQuietly_grow (hrun (v := w.emit (superEvents ctx raw)) (e := e) ?_) hio ?_ hq
    · unfold growTail
      exact run_device_bind_error he
    · rw [World.emit_disk, Disk.emit_data, replay_superEvents]
      exact data_ne_of_mark htarget hst
  refine ⟨hcount, fun h0 hsup hfit => ?_⟩
  by_contra hlast
  obtain ⟨u, hu, hin, hbm⟩ := (grownTail_cases ha htarget).1 hcount
  obtain ⟨e, he, hio⟩ := @backupDescAddress_refused ctx (ctx.sb.groupsCount - 1) _ hlast
  have hoff := hin.offset_le
  obtain ⟨hg1, hg2⟩ := backups_guards ha hsize hin.width hoff
  have hin1 := hin.bitmap
  have hin2 := hin.desc
  have haddr : ∀ g, 0 < g → g < ctx.sb.groupsCount - 1 → groupHasSuper raw g = true →
      ∃ addr, backupDescAddress ctx (ctx.sb.groupsCount - 1) g = .ok addr ∧
        addr + u.2.bytes.length ≤ w.disk.sizeBytes ∧ 2 * ctx.sb.blockSize ≤ addr := by
    intro g h1 h2 h3
    refine ⟨_, backupDescAddress_eq ha hsize hoff (ha.start_succ_lt hsize h2), ?_, ?_⟩
    · rw [hin.length]
      exact hfit g h1 h2 h3
    · have := ha.backup_ge hsize h1 (by omega)
      have := Nat.add_one_mul (ctx.sb.groupStartBlock g) ctx.sb.blockSize
      omega
  obtain ⟨us, hus, hlow⟩ := run_writeBackupDescs_refused haddr hsup he (ctx.sb.groupsCount - 1 - 1) 1
    (((w.emit (superEvents ctx raw)).emit [.write ⟨u.1.off, u.1.bytes⟩]).emit
      [.write ⟨u.2.off, u.2.bytes⟩]) Nat.one_pos (by omega) hw rfl
  rw [Nat.sub_add_cancel h0] at hus
  have hne := data_ne_of_tail htarget hst hin hbm hlow
  refine not_refusesQuietly_grow (hrun (v := (((w.emit (superEvents ctx raw)).emit
    [.write ⟨u.1.off, u.1.bytes⟩]).emit [.write ⟨u.2.off, u.2.bytes⟩]).emit (us.map .write))
    (e := e) ?_) hio ?_ hq
  · unfold growTail writeGroupDescBackups
    dsimp only
    rw [run_device_bind hu, Proc.run_bind_ok (run_write_ok (w := w.emit (superEvents ctx raw)) hw hin1),
      Proc.run_bind_ok (run_write_ok
        (w := (w.emit (superEvents ctx raw)).emit [.write ⟨u.1.off, u.1.bytes⟩]) hw hin2),
      if_neg hg1, if_neg hg2]
    exact Proc.run_bind_error hus
  · rw [World.emit_disk, Disk.emit_data, replay_writes]
    simp only [World.emit_disk, Disk.emit_data, replay_superEvents]
    exact hne

theorem refusesQuietly_grow_iff : RefusesQuietly host (.grow targetBytes opts) w ↔
    GrowSettles host targetBytes opts w := by
  refine ⟨settles_of_quiet_grow, fun h => refusesQuietly_iff.mpr ?_⟩
  refine FailsIn.bind ?_ fun _ v _ => FailsIn.of_ok rfl
  refine FailsIn.bind (quiet_prepareGrow h) fun r v hr => ?_
  obtain ⟨ha, hlen⟩ := prepared_prepareGrow.ok rfl hr
  have hmark := @onlyIo_markClean GrowReport r _ (pure {
    oldBlocks := r.ctx.sb.blocksCount
    newBlocks := targetBytes / r.ctx.sb.blockSize
    blocksAdded := targetBytes / r.ctx.sb.blockSize - r.ctx.sb.blocksCount
    freeBlocksAfter := r.ctx.sb.freeBlocks + (targetBytes / r.ctx.sb.blockSize - r.ctx.sb.blocksCount)
    verified := opts.verifyAfter }) ha w.disk.size_lt hlen (fun s => FailsIn.of_ok rfl) v
  unfold completeGrow
  split
  · next hver => exact quiet_verify hver (Proc.run_bind_ok hr) (OnlyIo.quiet hmark)
  · exact OnlyIo.quiet hmark

end GrowQuiet

/-! ## 主な結果 -/

/--
**断られた大きさの変更が何も変えないのは、書き始めた後の検査が通るときに限る。**

縮小では、target 以上の block が dirty の印を付けた後も空いていて、descriptor と superblock の空きの数が
その個数に足りている。拡大では、descriptor の空きの数が 32 bit に収まり、descriptor の写しを持つ末尾の
group が二つ以上の block からなる。
-/
theorem refuses_quietly_iff (host : Host) (w : World) :
    (∀ missing targetBytes opts, RefusesQuietly host (.shrink missing targetBytes opts) w ↔
      ShrinkSettles host targetBytes opts w) ∧
    ∀ targetBytes opts, RefusesQuietly host (.grow targetBytes opts) w ↔
      GrowSettles host targetBytes opts w :=
  ⟨fun _ _ _ => refusesQuietly_shrink_iff, fun _ _ => refusesQuietly_grow_iff⟩

namespace OneBlockGroup

/-- 末尾の group が、superblock の写しの block だけからなる filesystem。 -/
def disk : Disk where
  sizeBytes := 32768
  logicalSector := 512
  isBlockDevice := false
  writable := true
  data := Image.applyAll (fun _ => 0) [
    ⟨1024, leBytes 4 16 ++ leBytes 4 9⟩, ⟨1024 + 0x10, leBytes 4 8⟩,
    ⟨1024 + 0x18, leBytes 4 1⟩, ⟨1024 + 0x20, leBytes 4 8⟩, ⟨1024 + 0x28, leBytes 4 8⟩,
    ⟨1024 + 0x38, leBytes 2 extMagic ++ leBytes 2 1⟩, ⟨1024 + 0x58, leBytes 2 128⟩,
    ⟨2048, leBytes 4 2 ++ leBytes 4 3 ++ leBytes 4 4⟩,
    ⟨2080, leBytes 4 5 ++ leBytes 4 6 ++ leBytes 4 7 ++ leBytes 2 0 ++ leBytes 2 8⟩,
    ⟨4096, [0xff]⟩, ⟨6144, [0xff]⟩, ⟨10240, [0xff]⟩]
  events := []
  size_lt := TwoGroups.size_lt

def boot : World := ⟨disk, none, []⟩

/-- block を一つ増やそうとして、検証の手前で止まったところ。 -/
def refused : Result Resized × World := Proc.run (prepareGrow Tiny.host (10 * 2048) {}) boot

def refusal : Error :=
  { code := .corrupt, message := "backup descriptor table address is outside filesystem" }

theorem refused_map : (refused.1.map fun _ => ()) = .error refusal := by decide +kernel

theorem run_refused : Proc.run (prepareGrow Tiny.host (10 * 2048) {}) boot = (refused.1, refused.2) :=
  (Prod.mk.eta (p := refused)).symm

theorem refused_eq : refused.1 = .error refusal := by
  have h := refused_map
  generalize refused.1 = r at h
  cases r with
  | ok r => cases h
  | error e =>
    cases h
    rfl

/-- 状態の欄の clean の印が消えている。 -/
theorem state_ne : refused.2.disk.data 1082 ≠ boot.disk.data 1082 := by decide +kernel

end OneBlockGroup

/-- 断られた拡大が、superblock に dirty の印を残す。 -/
theorem refused_grow_changes : ¬ ∀ (host : Host) (c : SizeChange) (w : World),
    (∀ plan opts, c ≠ .commit plan opts) → RefusesQuietly host c w := by
  intro h
  exact not_refusesQuietly_grow
    (OneBlockGroup.run_refused.trans (by rw [OneBlockGroup.refused_eq])) (by decide)
    (fun hd => OneBlockGroup.state_ne (congrFun hd 1082))
    (h Tiny.host (.grow (10 * 2048) {}) OneBlockGroup.boot fun _ _ hc => by cases hc)

end Fsx.Ext4
