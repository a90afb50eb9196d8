import Fsx.Ext4.TailRewrite

/-!
# 拡大は縮小の逆である

縮小の確定を終えた filesystem をもとの大きさまで広げると、末尾の group の bitmap と descriptor は
もとの byte 列に戻り、block の数と空きの数も戻る。ほかの group には手が付かない。

二つの関数は別々に書かれている。縮小は dirty の印を付けた後に末尾の group を読み、拡大は付ける前に
読む。どちらも同じ場所を同じ順に書くので、置き場所が重ならなければ（`Separate`）、書き終えた device の
見え方（`TailView`）は三つの byte 列だけで決まる。
-/

namespace Fsx.Ext4

open Proc Engine Finset

/-! ## 検証の結果 -/

section Verify

variable {cancel : Nat → Bool} {d : Disk} {ctx : MetadataContext} {r : MetadataIntegrityReport}

theorem verifyGroups_ok : ∀ {n g : Nat} {out : MetadataIntegrityReport},
    verifyGroups cancel d ctx n g out = .ok r →
    verifyGroups (fun _ => false) d ctx n g out = .ok r ∧
      ∀ i < n, cancel (g + i) = false ∧ ∃ gd, readGroupDesc d ctx.sb (g + i) = .ok gd
  | 0, g, out, h => ⟨h, fun i hi => absurd hi (by omega)⟩
  | n + 1, g, out, h => by
    unfold verifyGroups at h ⊢
    rw [Result.guard_bind_eq_ok_iff] at h
    obtain ⟨hc, h⟩ := h
    obtain ⟨out', hout, h⟩ := Result.bind_eq_ok h
    obtain ⟨hrest, hall⟩ := verifyGroups_ok h
    rw [if_neg (by decide), hout]
    refine ⟨hrest, fun i hi => ?_⟩
    cases i with
    | zero =>
      unfold verifyGroup at hout
      obtain ⟨raw, -, hout⟩ := Result.bind_eq_ok hout
      obtain ⟨ok, -, hout⟩ := Result.bind_eq_ok hout
      obtain ⟨gd, hgd, -⟩ := Result.bind_eq_ok hout
      exact ⟨by simpa using hc, gd, hgd⟩
    | succ i =>
      have := hall i (by omega)
      rwa [show g + 1 + i = g + (i + 1) by omega] at this

/-- 中断しない group だけなら、中断の要求は結果に関わらない。 -/
theorem verifyGroups_cancel : ∀ {n g : Nat} {out : MetadataIntegrityReport},
    (∀ i < n, cancel (g + i) = false) →
    verifyGroups cancel d ctx n g out = verifyGroups (fun _ => false) d ctx n g out
  | 0, _, _, _ => rfl
  | n + 1, g, out, h => by
    unfold verifyGroups
    have hhead : cancel g = false := h 0 (by omega)
    rw [if_neg (by rw [hhead]; decide), if_neg (by decide)]
    refine congrArg _ (funext fun out' => verifyGroups_cancel fun i hi => ?_)
    rw [show g + 1 + i = g + (i + 1) by omega]
    exact h (i + 1) (by omega)

/-- 通った検証は、中断なしでも通る。どの group の descriptor も読めている。 -/
theorem verifyMetadata_ok {sb : Superblock} (hsb : readSuperblock d = .ok sb)
    (h : verifyMetadata cancel d = .ok r) : verifyMetadata (fun _ => false) d = .ok r ∧
      Readable d sb ∧ ∀ g < sb.groupsCount, cancel g = false := by
  unfold verifyMetadata at h ⊢
  obtain ⟨raw, hraw, h⟩ := Result.bind_eq_ok h
  obtain ⟨sb', hsb', h⟩ := Result.bind_eq_ok h
  cases hsb.symm.trans hsb'
  obtain ⟨ctx, hctx, h⟩ := Result.bind_eq_ok h
  obtain ⟨out, hout, h⟩ := Result.bind_eq_ok h
  cases hsb.symm.trans (readSuperblock_of_loadMetadataContext hctx)
  obtain ⟨hfalse, hall⟩ := verifyGroups_ok hout
  rw [hraw, Result.ok_bind, hsb, Result.ok_bind, hctx, Result.ok_bind, hfalse]
  refine ⟨h, ⟨hsb, fun g hg => ?_⟩, fun g hg => ?_⟩
  · have := (hall g hg).2
    rwa [Nat.zero_add] at this
  · have := (hall g hg).1
    rwa [Nat.zero_add] at this

theorem VerifiesClean.run (h : VerifiesClean d) {sb : Superblock} (hsb : readSuperblock d = .ok sb)
    (hc : ∀ g < sb.groupsCount, cancel g = false) :
    ∃ r, verifyMetadata cancel d = .ok r ∧ r.clean = true := by
  obtain ⟨r, hr, hclean⟩ := h
  refine ⟨r, ?_, hclean⟩
  rw [← hr]
  unfold verifyMetadata
  cases hctx : loadMetadataContext d with
  | error e => rfl
  | ok ctx =>
    have hctxsb := readSuperblock_of_loadMetadataContext hctx
    cases hsb.symm.trans hctxsb
    simp only [Result.ok_bind]
    have hloop : ∀ out, verifyGroups cancel d ctx ctx.sb.groupsCount 0 out =
        verifyGroups (fun _ => false) d ctx ctx.sb.groupsCount 0 out := fun out =>
      verifyGroups_cancel fun i hi => by rw [Nat.zero_add]; exact hc i hi
    simp only [hloop]

end Verify

/-! ## 末尾の group を書く -/

section Tail

variable {ctx : MetadataContext} {super desc : Bytes} {last : Nat}

/-- 書き終えた descriptor の写し。 -/
theorem emit_of_writeBackupDescs : ∀ {n g : Nat} {w v : World},
    Proc.run (writeBackupDescs ctx super last desc n g) w = (.ok (), v) →
    ∃ us : List Write, v = w.emit (us.map .write) ∧ ∀ x ∈ us, x.bytes = desc ∧
      ∃ k, g ≤ k ∧ k < g + n ∧ groupHasSuper super k = true ∧
        x.off = (ctx.sb.groupStartBlock k + 1) * ctx.sb.blockSize + last * ctx.sb.descBytes
  | 0, g, w, v, h => by
    cases h
    exact ⟨[], by rw [List.map_nil, World.emit_nil], fun x hx => (by cases hx)⟩
  | n + 1, g, w, v, h => by
    unfold writeBackupDescs at h
    split at h
    · next hsup =>
      obtain ⟨addr, w1, hd, h⟩ := run_bind_eq_ok h
      obtain ⟨haddr, rfl⟩ := Prod.mk.inj hd
      obtain ⟨_, w2, hw, h⟩ := run_bind_eq_ok h
      obtain ⟨-, -, rfl⟩ := write_eq_ok hw
      obtain ⟨us, rfl, hus⟩ := emit_of_writeBackupDescs h
      refine ⟨⟨addr, desc⟩ :: us, ?_, fun x hx => ?_⟩
      · rw [World.emit_emit]
        rfl
      · rcases List.mem_cons.mp hx with rfl | hx
        · refine ⟨rfl, g, le_refl _, by omega, hsup, ?_⟩
          unfold backupDescAddress at haddr
          simp only [Result.guard_bind_eq_ok_iff, Result.pure_eq_ok_iff] at haddr
          exact haddr.2.2
        · obtain ⟨h1, k, h2, h3, h4⟩ := hus x hx
          exact ⟨h1, k, by omega, by omega, h4⟩
    · obtain ⟨us, rfl, hus⟩ := emit_of_writeBackupDescs h
      refine ⟨us, rfl, fun x hx => ?_⟩
      obtain ⟨h1, k, h2, h3, h4⟩ := hus x hx
      exact ⟨h1, k, by omega, by omega, h4⟩

/-- 末尾の group の書き込みが終わった device。 -/
theorem emit_of_writeTail {u : Write × Write} {w v : World} (h : Proc.run (do
      write u.1.off u.1.bytes
      write u.2.off u.2.bytes
      writeGroupDescBackups ctx super last u.2.bytes
      flush) w = (.ok (), v)) :
    ∃ us : List Write, v = w.emit ((u.1 :: u.2 :: us).map .write ++ [.flush]) ∧
      ∀ x ∈ us, x.bytes = u.2.bytes ∧ ∃ k, k ≠ 0 ∧ k < ctx.sb.groupsCount ∧
        groupHasSuper super k = true ∧
        x.off = (ctx.sb.groupStartBlock k + 1) * ctx.sb.blockSize + last * ctx.sb.descBytes := by
  obtain ⟨_, w1, h1, h⟩ := run_bind_eq_ok h
  obtain ⟨-, -, rfl⟩ := write_eq_ok h1
  obtain ⟨_, w2, h2, h⟩ := run_bind_eq_ok h
  obtain ⟨-, -, rfl⟩ := write_eq_ok h2
  obtain ⟨_, w3, h3, h⟩ := run_bind_eq_ok h
  unfold writeGroupDescBackups at h3
  dsimp only at h3
  split at h3
  · cases h3
  split at h3
  · cases h3
  obtain ⟨us, rfl, hus⟩ := emit_of_writeBackupDescs h3
  rw [run_flush] at h
  cases h
  refine ⟨us, ?_, fun x hx => ?_⟩
  · simp only [World.emit_emit]
    rfl
  · obtain ⟨hb, k, hk1, hk2, hs, hoff⟩ := hus x hx
    exact ⟨hb, k, by omega, by omega, hs, hoff⟩

end Tail

/-! ## superblock の写しを書く -/

/-- 大きさだけが違う superblock の context で書いても、写しの番地は変わらない。 -/
theorem TailView.supers {d : Disk} {sb : Superblock} (ha : sb.Accepted d.sizeBytes)
    (hs : Separate d sb) {img : Image} {super desc bm : Bytes} (hv : TailView d sb img super desc bm)
    {ctx : MetadataContext} {b f r s : Nat} (hsb : ctx.sb = sb.sized b f r s)
    (hgroups : ctx.sb.groupsCount = sb.groupsCount) {primary : Bytes} (hlen : primary.length = 1024)
    (hcopies : ∀ g, groupHasSuper primary g = groupHasSuper (rawSuper d) g) :
    TailView d sb (replay img (superEvents ctx primary)) primary desc bm := by
  rw [replay_superEvents]
  refine hv.write_supers ha hs hlen fun x hx => ?_
  obtain ⟨k, h1, h2, hsup, hk⟩ := mem_backupSupers.mp hx
  unfold backupSuper at hk
  rw [Result.guard_bind_eq_ok_iff] at hk
  obtain ⟨copy, hcopy, hx⟩ := Result.bind_eq_ok hk.2
  cases hx
  rw [hgroups] at h2
  refine ⟨k, mem_copyGroups.mpr ⟨by omega, by rw [← hcopies]; exact hsup⟩, by omega, ?_, ?_⟩
  · unfold Superblock.superBase
    rw [if_neg (by omega), hsb]
    rfl
  · rw [(updateSuperblockChecksum_ok hcopy).1, length_writeLe, hlen]

/-- 末尾の group の bitmap と descriptor を書く。 -/
theorem TailView.tail {d : Disk} {sb : Superblock} (ha : sb.Accepted d.sizeBytes)
    (hs : Separate d sb) {img : Image} {super desc bm : Bytes} (hv : TailView d sb img super desc bm)
    {ctx : MetadataContext} {b f r s : Nat} (hsb : ctx.sb = sb.sized b f r s)
    (hgroups : ctx.sb.groupsCount = sb.groupsCount) {raw : Bytes}
    (hcopies : ∀ g, groupHasSuper raw g = groupHasSuper (rawSuper d) g) {u : Write × Write}
    (hoff : u.1.off = (descAt d sb (sb.groupsCount - 1)).blockBitmap * sb.blockSize)
    (hoff' : u.2.off = sb.descOffset (sb.groupsCount - 1)) (hbm : u.1.bytes.length = sb.blockSize)
    (hdesc : u.2.bytes.length = sb.descBytes) {us : List Write}
    (hus : ∀ x ∈ us, x.bytes = u.2.bytes ∧ ∃ k, k ≠ 0 ∧ k < ctx.sb.groupsCount ∧
      groupHasSuper raw k = true ∧ x.off = (ctx.sb.groupStartBlock k + 1) * ctx.sb.blockSize +
        (ctx.sb.groupsCount - 1) * ctx.sb.descBytes) :
    TailView d sb (replay img ((u.1 :: u.2 :: us).map .write ++ [.flush])) super u.2.bytes
      u.1.bytes := by
  have happly : replay img ((u.1 :: u.2 :: us).map .write ++ [.flush]) =
      img.applyAll (u.1 :: u.2 :: us) := by
    rw [replay_append, replay_writes]
    rfl
  have hcopy : ∀ x ∈ us, ∃ k ∈ copyGroups sb (rawSuper d), k ≠ 0 ∧
      x.off = sb.tableBase k + (sb.groupsCount - 1) * sb.descBytes ∧
      x.bytes.length = sb.descBytes := by
    intro x hx
    obtain ⟨hb, k, h0, hk, hsup, hx⟩ := hus x hx
    rw [hgroups] at hk hx
    refine ⟨k, mem_copyGroups.mpr ⟨hk, by rw [← hcopies]; exact hsup⟩, h0, ?_, by rw [hb, hdesc]⟩
    rw [hx, hsb]
    unfold Superblock.tableBase
    rw [if_neg h0]
    rfl
  have hmain := hv.write_tail ha hs hbm hdesc hcopy
  rw [← hoff, ← hoff'] at hmain
  rw [happly]
  exact hmain

/-! ## 見え方から読めるもの -/

section Reads

variable {d e : Disk} {sb : Superblock} {super desc bm : Bytes}

/-- 末尾の group の descriptor が指す block は変わっていない。 -/
def SamePointers (sb : Superblock) (desc desc' : Bytes) : Prop :=
  (decodeGroupDesc sb desc').blockBitmap = (decodeGroupDesc sb desc).blockBitmap ∧
    (decodeGroupDesc sb desc').inodeBitmap = (decodeGroupDesc sb desc).inodeBitmap ∧
    (decodeGroupDesc sb desc').inodeTable = (decodeGroupDesc sb desc).inodeTable

theorem TailView.bitmapAt (hv : TailView d sb e.data super desc bm)
    (hp : SamePointers sb (rawDesc d sb (sb.groupsCount - 1)) desc) :
    blockBitmapAt e sb (sb.groupsCount - 1) = bm := by
  rw [← hv.bitmap]
  unfold blockBitmapAt descAt
  rw [show rawDesc e sb (sb.groupsCount - 1) = desc from hv.desc, hp.1]

/-- 像の見え方が `d` と同じなら、どの group の descriptor と bitmap も同じに読める。 -/
theorem TailView.same (hv : TailView d sb e.data super (rawDesc d sb (sb.groupsCount - 1))
    (blockBitmapAt d sb (sb.groupsCount - 1))) {g : Nat} (hg : g < sb.groupsCount) :
    rawDesc e sb g = rawDesc d sb g ∧ blockBitmapAt e sb g = blockBitmapAt d sb g ∧
      inodeBitmapAt e sb g = inodeBitmapAt d sb g := by
  have hdesc : rawDesc e sb g = rawDesc d sb g := by
    rcases Nat.lt_or_ge g (sb.groupsCount - 1) with hlt | hge
    · exact hv.descs g hlt
    · rw [show g = sb.groupsCount - 1 by omega]
      exact hv.desc
  refine ⟨hdesc, ?_, ?_⟩
  · unfold blockBitmapAt descAt
    rw [hdesc]
    rcases Nat.lt_or_ge g (sb.groupsCount - 1) with hlt | hge
    · exact hv.blockBitmaps g hlt
    · rw [show g = sb.groupsCount - 1 by omega]
      exact hv.bitmap
  · unfold inodeBitmapAt descAt
    rw [hdesc]
    exact hv.inodeBitmaps g hg

end Reads

/-! ## 大きさだけが違う superblock -/

theorem SameBase.groupHasSuper {b b' : Bytes} (h : SameBase b b') (g : Nat) :
    groupHasSuper b' g = Ext4.groupHasSuper b g :=
  groupHasSuper_congr (h.readLe (by omega) (by omega) (by omega) (by omega))
    (h.readLe (by omega) (by omega) (by omega) (by omega))
    (h.readLe (by omega) (by omega) (by omega) (by omega))
    (h.readLe (by omega) (by omega) (by omega) (by omega)) g

theorem state_eq (b : Bytes) : (decodeSuperblock b).state = Fsx.readLe 2 b 0x3a := rfl

theorem featureRoCompat_eq (b : Bytes) :
    (decodeSuperblock b).featureRoCompat = Fsx.readLe 4 b 0x64 := rfl

theorem SameBase.context {d e : Disk} (h : SameBase (rawSuper d) (rawSuper e)) :
    contextAt e = { contextAt d with sb := decodeSuperblock (rawSuper e) } := by
  have huuid := h.slices 16 0x68 (by omega) (by omega) (by omega) (by omega)
  have hseed : metadataSeed (rawSuper e) = metadataSeed (rawSuper d) := by
    unfold metadataSeed
    rw [huuid, h.readLe (by omega) (by omega) (by omega) (by omega),
      h.readLe (by omega) (by omega) (by omega) (by omega)]
  have hro : ∀ bit, (decodeSuperblock (rawSuper e)).hasRoCompat bit =
      (decodeSuperblock (rawSuper d)).hasRoCompat bit := by
    intro bit
    unfold Superblock.hasRoCompat
    rw [featureRoCompat_eq, featureRoCompat_eq, h.readLe (by omega) (by omega) (by omega) (by omega)]
  unfold contextAt
  rw [huuid, hseed, hro, hro]

/-- 大きさの欄を入れ替えた context。 -/
def MetadataContext.sized (ctx : MetadataContext) (blocks free reserved state : Nat) :
    MetadataContext :=
  { ctx with sb := ctx.sb.sized blocks free reserved state }

theorem SameBase.context_sized {d e : Disk} {blocks free reserved state : Nat}
    (h : SameBase (rawSuper d) (rawSuper e)) (hdec : decodeSuperblock (rawSuper e) =
      (decodeSuperblock (rawSuper d)).sized blocks free reserved state) :
    contextAt e = (contextAt d).sized blocks free reserved state := by
  have hctx := h.context
  rw [hdec] at hctx
  exact hctx

section Sized

variable (ctx : MetadataContext) (blocks free reserved state g : Nat) (raw bm : Bytes)

theorem verifyGroupDescriptorChecksum_sized :
    verifyGroupDescriptorChecksum (ctx.sized blocks free reserved state) g raw =
      verifyGroupDescriptorChecksum ctx g raw := rfl

theorem verifyBlockBitmapChecksum_sized :
    verifyBlockBitmapChecksum (ctx.sized blocks free reserved state) raw bm =
      verifyBlockBitmapChecksum ctx raw bm := rfl

theorem verifyInodeBitmapChecksum_sized :
    verifyInodeBitmapChecksum (ctx.sized blocks free reserved state) raw bm =
      verifyInodeBitmapChecksum ctx raw bm := rfl

theorem resizedDesc_sized (n : Nat) :
    resizedDesc (ctx.sized blocks free reserved state) g raw n bm = resizedDesc ctx g raw n bm := rfl

end Sized

/-- 状態と予約の数のほかが等しく、予約が増えていない superblock は、同じ検査を通る。 -/
theorem readSuperblock_state {d e : Disk} {sb : Superblock} {r s : Nat}
    (hsize : e.sizeBytes = d.sizeBytes) (h : readSuperblock d = .ok sb)
    (hdec : decodeSuperblock (rawSuper e) = sb.sized sb.blocksCount sb.freeBlocks r s)
    (hres : r ≤ sb.reservedBlocks) :
    readSuperblock e = .ok (sb.sized sb.blocksCount sb.freeBlocks r s) := by
  obtain ⟨hin, -, hc⟩ := readSuperblock_eq_ok_iff.mp h
  refine readSuperblock_eq_ok_iff.mpr ⟨by omega, hdec, ?_⟩
  rw [hsize]
  exact { hc with free_le := ⟨hc.free_le.1, hc.free_le.2.1, hres.trans hc.free_le.2.2⟩ }

/-- group の数は、block の数を group の大きさで割って切り上げた値である。 -/
theorem Superblock.groupsCount_eq {sb : Superblock} (hpos : 0 < sb.blocksPerGroup) :
    sb.groupsCount =
      (sb.blocksCount - sb.firstDataBlock + sb.blocksPerGroup - 1) / sb.blocksPerGroup := by
  unfold Superblock.groupsCount
  dsimp only
  rw [if_neg (by omega)]
  generalize sb.blocksCount - sb.firstDataBlock = n
  generalize sb.blocksPerGroup = k at hpos
  have hdm := Nat.div_add_mod n k
  have hmod := Nat.mod_lt n hpos
  split
  · next h =>
    have hn : n + k - 1 = (n % k - 1) + k * (n / k + 1) := by
      rw [Nat.mul_succ]
      omega
    rw [hn, Nat.add_mul_div_left _ _ hpos, Nat.div_eq_of_lt (show n % k - 1 < k by omega), Nat.zero_add]
  · next h =>
    have hn : n + k - 1 = (k - 1) + k * (n / k) := by omega
    rw [hn, Nat.add_mul_div_left _ _ hpos, Nat.div_eq_of_lt (show k - 1 < k by omega), Nat.zero_add,
      Nat.add_zero]

/-! ## 末尾にある metadata -/

/-- block `b` は、descriptor `gd` の指す bitmap か inode table の block である。 -/
def GroupDesc.Covers (sb : Superblock) (gd : GroupDesc) (b : Nat) : Prop :=
  b = gd.blockBitmap ∨ b = gd.inodeBitmap ∨
    (gd.inodeTable ≤ b ∧ b < gd.inodeTable + sb.inodeTableBlocks)

theorem LastGroup.isFixed_eq_false {sb : Superblock} {t : LastGroup} {b : Nat}
    (h : ¬ t.gd.Covers sb b) : t.isFixed sb b = false := by
  unfold GroupDesc.Covers at h
  simp only [not_or, not_and, Nat.not_lt] at h
  obtain ⟨h1, h2, h3⟩ := h
  unfold LastGroup.isFixed
  rw [decide_eq_false h1, decide_eq_false h2, Bool.false_or, Bool.false_or, Bool.and_eq_false_iff]
  by_cases ht : t.gd.inodeTable ≤ b
  · exact Or.inr (decide_eq_false (Nat.not_lt.mpr (h3 ht)))
  · exact Or.inl (decide_eq_false ht)

/-- 数は減らず、増えなければ、どの group の metadata も `target` より手前にある。 -/
theorem covers_of_countTailMetadata {d : Disk} {sb : Superblock} {target r : Nat} :
    ∀ {n g count : Nat}, countTailMetadata d sb target n g count = .ok r → count ≤ r ∧
      (r = count → ∀ k, g ≤ k → k < g + n → ∀ gd, readGroupDesc d sb k = .ok gd →
        ∀ b, target ≤ b → b < sb.blocksCount → ¬ gd.Covers sb b)
  | 0, g, count, h => by
    cases h
    exact ⟨le_refl _, fun _ k h1 h2 => absurd h2 (by omega)⟩
  | n + 1, g, count, h => by
    unfold countTailMetadata at h
    obtain ⟨gd, hgd, h⟩ := Result.bind_eq_ok h
    dsimp only at h
    obtain ⟨hle, hrest⟩ := covers_of_countTailMetadata h
    refine ⟨by omega, fun heq k h1 h2 gd' hgd' b hb hlt => ?_⟩
    rcases Nat.eq_or_lt_of_le h1 with rfl | hk
    · cases hgd.symm.trans hgd'
      rintro (rfl | rfl | ⟨h3, h4⟩)
      · rw [if_pos (show gd.blockBitmap ≥ target ∧ gd.blockBitmap < sb.blocksCount from ⟨hb, hlt⟩)] at hle
        omega
      · rw [if_pos (show gd.inodeBitmap ≥ target ∧ gd.inodeBitmap < sb.blocksCount from ⟨hb, hlt⟩)] at hle
        omega
      · rw [if_pos (show min (gd.inodeTable + sb.inodeTableBlocks) sb.blocksCount >
          max gd.inodeTable target by omega)] at hle
        omega
    · exact hrest (by omega) k (by omega) (by omega) gd' hgd' b hb hlt

/-! ## 縮小の後 -/

/-- 縮小の後の予約 block の数。 -/
def Superblock.shrunkReserved (sb : Superblock) (target : Nat) : Nat :=
  if sb.reservedBlocks > target then target / 20 else sb.reservedBlocks

/-- 縮小の後の superblock。`s` は状態の欄である。 -/
def Superblock.shrunk (sb : Superblock) (target s : Nat) : Superblock :=
  sb.sized target (sb.freeBlocks - (sb.blocksCount - target)) (sb.shrunkReserved target) s

/-- 状態の欄は descriptor の読み方に関わらない。 -/
theorem readGroupDesc_shrunk (d : Disk) (sb : Superblock) (target s s' g : Nat) :
    readGroupDesc d (sb.shrunk target s) g = readGroupDesc d (sb.shrunk target s') g := rfl

/-- 縮小の後の、末尾の group の descriptor。 -/
def shrunkDesc (d : Disk) (sb : Superblock) (target : Nat) (bm : Bytes) : Bytes :=
  resizedDesc (contextAt d) (sb.groupsCount - 1) (rawDesc d sb (sb.groupsCount - 1))
    (descFree (rawDesc d sb (sb.groupsCount - 1)) - (sb.blocksCount - target)) bm

/-- `d` を `target` block まで縮め終えた device `e`。 -/
structure ShrunkDisk (d : Disk) (sb : Superblock) (target : Nat) (e : Disk) (super bm : Bytes) :
    Prop where
  size : e.sizeBytes = d.sizeBytes
  writable : e.writable = true
  view : TailView d sb e.data super (shrunkDesc d sb target bm) bm
  marked : markTailBits (sb.groupStartBlock (sb.groupsCount - 1)) (sb.blocksCount - target) target
    (blockBitmapAt d sb (sb.groupsCount - 1)) = .ok bm
  count : sb.blocksCount - target ≤ descFree (rawDesc d sb (sb.groupsCount - 1))
  free : sb.blocksCount - target ≤ sb.freeBlocks
  base : SameBase (rawSuper d) super
  sum : verifySuperblockChecksum super = true
  decoded : decodeSuperblock super = sb.shrunk target ((sb.state ||| 1) % 256 ^ 2)
  readable : Readable e (sb.shrunk target ((sb.state ||| 1) % 256 ^ 2))
  lt : target < sb.blocksCount
  last : sb.groupStartBlock (sb.groupsCount - 1) < target
  groups : (sb.shrunk target ((sb.state ||| 1) % 256 ^ 2)).groupsCount = sb.groupsCount
  fits : BackupsFit d.sizeBytes (contextAt d) (rawSuper d) sb.groupsCount
  noMetaBg : sb.hasIncompat incompatMetaBg = false
  noBigalloc : sb.hasRoCompat roCompatBigalloc = false
  clear : ∀ b, target ≤ b → b < sb.blocksCount → ¬ (descAt d sb (sb.groupsCount - 1)).Covers sb b

theorem contextAt_of_load {d : Disk} {sb : Superblock} {ctx : MetadataContext}
    (h : readSuperblock d = .ok sb) (hctx : loadMetadataContext d = .ok ctx) : ctx = contextAt d := by
  rw [loadMetadataContext_eq h] at hctx
  split at hctx
  · cases hctx
  · exact (Except.ok.inj hctx).symm

/-- 縮小の検査から分かること。 -/
theorem checkFinalize_groups {host : Host} {d : Disk} {targetBytes : Nat} {ctx : MetadataContext}
    (h : checkFinalize host d targetBytes = .ok ctx) {sb : Superblock}
    (hsb : readSuperblock d = .ok sb) : ctx = contextAt d ∧
      (targetBytes / sb.blockSize - sb.firstDataBlock + sb.blocksPerGroup - 1) / sb.blocksPerGroup =
        sb.groupsCount ∧
      sb.hasIncompat incompatMetaBg = false ∧ sb.hasRoCompat roCompatBigalloc = false ∧
      countTailMetadata d sb (targetBytes / sb.blockSize) sb.groupsCount 0 0 = .ok 0 := by
  unfold checkFinalize at h
  obtain ⟨ready, hready, h⟩ := Result.bind_eq_ok h
  rw [Result.guard_bind_eq_ok_iff] at h
  obtain ⟨hposs, h⟩ := h
  obtain ⟨ctx', hctx, h⟩ := Result.bind_eq_ok h
  simp only [Result.guard_bind_eq_ok_iff, Result.pure_eq_ok_iff] at h
  obtain ⟨hno, rfl⟩ := h
  cases hsb.symm.trans (readSuperblock_of_loadMetadataContext hctx)
  unfold analyzeShrinkReadiness at hready
  rw [hsb, Result.ok_bind] at hready
  simp only [Result.guard_bind_eq_ok_iff] at hready
  obtain ⟨-, -, hready⟩ := hready
  obtain ⟨removed, -, hready⟩ := Result.bind_eq_ok hready
  obtain ⟨graph, -, hready⟩ := Result.bind_eq_ok hready
  obtain ⟨fixed, hfixed, hready⟩ := Result.bind_eq_ok hready
  cases hready
  simp only [ShrinkReadiness.finalizePossible, Bool.not_eq_false, Bool.and_eq_true,
    decide_eq_true_eq] at hposs
  rw [not_or, Bool.not_eq_true, Bool.not_eq_true] at hno
  rw [hposs.2] at hfixed
  exact ⟨contextAt_of_load hsb hctx, hposs.1.1, hno.1, hno.2, hfixed⟩

/-- 末尾の group の更新が作るもの。 -/
theorem tailUpdate_eq {d : Disk} {ctx : MetadataContext} {target : Nat} {u : Write × Write}
    {gd : GroupDesc} {raw bm : Bytes} (hlen : 32 ≤ raw.length)
    (h1 : readGroupDesc d ctx.sb (ctx.sb.groupsCount - 1) = .ok gd)
    (h2 : readGroupDescriptorRaw d ctx (ctx.sb.groupsCount - 1) = .ok raw)
    (h3 : readBlockBitmap d ctx.sb gd = .ok bm) (h : tailUpdate d ctx target = .ok u) :
    ∃ bm', markTailBits (ctx.sb.groupStartBlock (ctx.sb.groupsCount - 1))
        (ctx.sb.blocksCount - target) target bm = .ok bm' ∧
      ctx.sb.blocksCount - target ≤ descFree raw ∧
      u = (⟨gd.blockBitmap * ctx.sb.blockSize, bm'⟩, ⟨ctx.sb.descOffset (ctx.sb.groupsCount - 1),
        resizedDesc ctx (ctx.sb.groupsCount - 1) raw
          (descFree raw - (ctx.sb.blocksCount - target)) bm'⟩) := by
  unfold tailUpdate at h
  dsimp only at h
  rw [h1, Result.ok_bind, h2, Result.ok_bind, h3, Result.ok_bind] at h
  obtain ⟨bm', hbm', h⟩ := Result.bind_eq_ok h
  rw [Result.guard_bind_eq_ok_iff] at h
  obtain ⟨hcount, h⟩ := h
  have hlen' : 32 ≤ (updateBlockBitmapChecksum ctx (setDescFreeBlocks raw
      (descFree raw - (ctx.sb.blocksCount - target))) bm').length := by
    rw [length_updateBlockBitmapChecksum, length_setDescFreeBlocks]
    exact hlen
  rw [updateGroupDescriptorChecksum_eq hlen', Result.ok_bind] at h
  obtain ⟨addr, haddr, h⟩ := Result.bind_eq_ok h
  cases h
  refine ⟨bm', hbm', Nat.not_lt.mp hcount, ?_⟩
  rw [(groupDescriptorAddress_eq_ok haddr).2.2]
  rfl

theorem disk_of_journalOp {op : JournalOp} {w w' : World} {u : Unit}
    (h : Proc.run (journalOp op) w = (.ok u, w')) : w'.disk = w.disk := by
  obtain ⟨j, j', hj, hs, -⟩ := journalOp_eq_ok h
  rw [run_journalOp_ok hj hs] at h
  cases h
  rfl

/-- 書けた superblock の写し。 -/
theorem emit_of_writeSuperCopies {ctx : MetadataContext} {primary : Bytes} {w v : World}
    (ha : ctx.sb.Accepted w.disk.sizeBytes) (hsize : 2048 ≤ w.disk.sizeBytes)
    (hlen : primary.length = 1024) (h : Proc.run (writeSuperCopies ctx primary) w = (.ok (), v)) :
    w.disk.writable = true ∧ v = w.emit (superEvents ctx primary) := by
  have hw : w.disk.writable = true := by
    cases hw : w.disk.writable with
    | true => rfl
    | false =>
      obtain ⟨e, he⟩ := @run_writeSuperCopies_readonly ctx primary w hw
      rw [he] at h
      cases h
  rw [run_writeSuperCopies ha hsize hlen hw] at h
  cases h
  exact ⟨hw, rfl⟩

theorem Superblock.sized_self (sb : Superblock) :
    sb.sized sb.blocksCount sb.freeBlocks sb.reservedBlocks sb.state = sb := rfl

theorem markedDisk_sizeBytes (d : Disk) (ctx : MetadataContext) (raw : Bytes) :
    (markedDisk d ctx raw).sizeBytes = d.sizeBytes := Disk.emit_sizeBytes _ _

theorem markedDisk_data (d : Disk) (ctx : MetadataContext) (raw : Bytes) :
    (markedDisk d ctx raw).data = replay d.data (superEvents ctx raw) := Disk.emit_data _ _

section Shrink

variable {host : Host} {missing : Error} {targetBytes : Nat} {opts : FinalizeOptions} {w : World}
  {sb : Superblock}

/-- 検証の手前まで縮めた world。 -/
structure PreparedShrink (d : Disk) (sb : Superblock) (target : Nat) (r : Resized) (bm : Bytes)
    (v : World) : Prop where
  ctx : r.ctx = contextAt d
  state : r.state = sb.state
  size : v.disk.sizeBytes = d.sizeBytes
  writable : v.disk.writable = true
  view : TailView d sb v.disk.data r.raw (shrunkDesc d sb target bm) bm
  marked : markTailBits (sb.groupStartBlock (sb.groupsCount - 1)) (sb.blocksCount - target) target
    (blockBitmapAt d sb (sb.groupsCount - 1)) = .ok bm
  count : sb.blocksCount - target ≤ descFree (rawDesc d sb (sb.groupsCount - 1))
  free : sb.blocksCount - target ≤ sb.freeBlocks
  base : SameBase (rawSuper d) r.raw
  decoded : decodeSuperblock r.raw = sb.shrunk target ((sb.state &&& 0xfffe) % 256 ^ 2)
  lt : target < sb.blocksCount
  last : sb.groupStartBlock (sb.groupsCount - 1) < target
  groups : ∀ s, (sb.shrunk target s).groupsCount = sb.groupsCount
  fits : BackupsFit d.sizeBytes (contextAt d) (rawSuper d) sb.groupsCount
  noMetaBg : sb.hasIncompat incompatMetaBg = false
  noBigalloc : sb.hasRoCompat roCompatBigalloc = false
  clear : ∀ b, target ≤ b → b < sb.blocksCount → ¬ (descAt d sb (sb.groupsCount - 1)).Covers sb b

/-- 検証の手前まで進んだ縮小の、それぞれの段。 -/
theorem prepareShrink_ok (hr : Readable w.disk sb) {r : Resized} {v : World}
    (h : Proc.run (prepareShrink host missing targetBytes opts) w = (.ok r, v)) :
    ∃ raw u shrunk v1 v2, checkFinalize host w.disk targetBytes = .ok (contextAt w.disk) ∧
      updateSuperblockChecksum (writeLe 2 (rawSuper w.disk) 0x3a
        (readLe 2 (rawSuper w.disk) 0x3a &&& 0xfffe)) = .ok raw ∧
      w.disk.writable = true ∧ v1.disk = markedDisk w.disk (contextAt w.disk) raw ∧
      tailUpdate v1.disk (contextAt w.disk) (targetBytes / sb.blockSize) = .ok u ∧
      Proc.run (do
        write u.1.off u.1.bytes
        write u.2.off u.2.bytes
        writeGroupDescBackups (contextAt w.disk) raw (sb.groupsCount - 1) u.2.bytes
        flush) v1 = (.ok (), v2) ∧
      shrunkSuper (contextAt w.disk) raw (readLe 2 (rawSuper w.disk) 0x3a)
        (targetBytes / sb.blockSize) = .ok shrunk ∧
      Proc.run (writeSuperCopies (contextAt w.disk) shrunk) v2 = (.ok (), v) ∧
      r = ⟨contextAt w.disk, shrunk, readLe 2 (rawSuper w.disk) 0x3a⟩ := by
  have hsbeq := hr.sb_eq
  subst hsbeq
  have ha := hr.accepted
  have hrawsb := (readSuperblock_eq hr.super).2.1
  unfold prepareShrink at h
  split at h
  · cases h
  replace ⟨_, _, h⟩ := run_device_bind_eq_ok h
  replace ⟨ctx, hctx, h⟩ := run_device_bind_eq_ok h
  obtain rfl := (checkFinalize_groups hctx hr.super).1
  replace ⟨j, w0, hj, h⟩ := run_bind_eq_ok h
  obtain ⟨hjw, rfl⟩ := Prod.mk.inj hj
  replace ⟨_, _, h⟩ := run_device_bind_eq_ok h
  replace ⟨sbraw, hsb, h⟩ := run_device_bind_eq_ok h
  have hread : sbraw = rawSuper w.disk := Except.ok.inj (hsb.symm.trans hrawsb)
  rw [hread] at hsb h
  replace ⟨raw, hupd, h⟩ := run_device_bind_eq_ok h
  obtain ⟨hlen, hroom⟩ := length_of_stateUpdate (stateUpdate_false hsb hupd)
  cases hjournal : w.journal with
  | none =>
    simp only [hjournal] at hjw
    cases hjw
  | some j₀ =>
    replace ⟨_, v1, hbegin, h⟩ := run_bind_eq_ok h
    obtain ⟨hw, hcap⟩ := room_of_beginFinalize hjournal ha hroom hlen hbegin
    obtain ⟨v', hv', hdisk, -⟩ := run_beginFinalize ha hroom hlen hjournal hw hcap
    cases hbegin.symm.trans hv'
    replace ⟨_, v2, htail, h⟩ := run_bind_eq_ok h
    unfold shrinkTail at htail
    replace ⟨u, hu, htail⟩ := run_device_bind_eq_ok htail
    replace ⟨shrunk, hsh, h⟩ := run_device_bind_eq_ok h
    replace ⟨_, v3, hcopies, h⟩ := run_bind_eq_ok h
    obtain ⟨hreq, rfl⟩ := Prod.mk.inj h
    exact ⟨raw, u, shrunk, v1, v2, hctx, hupd, hw, hdisk, hu, htail, hsh, hcopies,
      (Except.ok.inj hreq).symm⟩

/-- 末尾の group の bitmap と descriptor を書き直した device。 -/
theorem tailView_of_shrinkTail (hr : Readable w.disk sb) (hs : Separate w.disk sb) {target : Nat}
    {raw : Bytes} {u : Write × Write} {v1 v2 : World} (hlt : target < sb.blocksCount)
    (hlast : sb.groupStartBlock (sb.groupsCount - 1) < target)
    (hbase : SameBase (rawSuper w.disk) raw) (hsize : v1.disk.sizeBytes = w.disk.sizeBytes)
    (hview : TailView w.disk sb v1.disk.data raw (rawDesc w.disk sb (sb.groupsCount - 1))
      (blockBitmapAt w.disk sb (sb.groupsCount - 1)))
    (hu : tailUpdate v1.disk (contextAt w.disk) target = .ok u)
    (h : Proc.run (do
      write u.1.off u.1.bytes
      write u.2.off u.2.bytes
      writeGroupDescBackups (contextAt w.disk) raw (sb.groupsCount - 1) u.2.bytes
      flush) v1 = (.ok (), v2)) :
    ∃ bm, markTailBits (sb.groupStartBlock (sb.groupsCount - 1)) (sb.blocksCount - target) target
        (blockBitmapAt w.disk sb (sb.groupsCount - 1)) = .ok bm ∧
      sb.blocksCount - target ≤ descFree (rawDesc w.disk sb (sb.groupsCount - 1)) ∧
      v2.disk.sizeBytes = w.disk.sizeBytes ∧
      TailView w.disk sb v2.disk.data raw (shrunkDesc w.disk sb target bm) bm ∧
      BackupsFit w.disk.sizeBytes (contextAt w.disk) (rawSuper w.disk) sb.groupsCount := by
  have hsb : (contextAt w.disk).sb = sb := hr.sb_eq.symm
  have ha := hr.accepted
  have hlastlt : sb.groupsCount - 1 < sb.groupsCount :=
    Nat.sub_lt (Nat.pos_of_ne_zero ha.groups_pos) Nat.one_pos
  obtain ⟨r1, r2, r3, -⟩ := hr.reads hlastlt
  obtain ⟨bm, hmark, hcount, hueq⟩ := @tailUpdate_eq _ _ _ _ (descAt w.disk sb (sb.groupsCount - 1))
    (rawDesc w.disk sb (sb.groupsCount - 1)) (blockBitmapAt w.disk sb (sb.groupsCount - 1))
    (by rw [length_rawDesc]; exact sb.descBytes_ge)
    (by rw [hsb]; exact (readGroupDesc_congr hsize hview.desc).trans r1)
    (by rw [readGroupDescriptorRaw_congr hsize (by rw [hsb]; exact hview.desc), hsb]; exact r2)
    (by rw [hsb]; exact (readBlockBitmap_congr hsize hview.bitmap).trans r3) hu
  rw [hsb] at hmark hcount hueq
  have hbmlen : bm.length = sb.blockSize := by
    rw [length_markTailBits hmark]
    exact Image.length_read _ _ _
  have hav : (contextAt w.disk).sb.Accepted v1.disk.sizeBytes := by rw [hsb, hsize]; exact ha
  have hinside := (tailUpdate_cases hav (by rw [hsb]; exact Nat.le_of_lt hlt)).elim
    (fun h => h.2.1.2 _ hu) fun h => by
      obtain ⟨e, he, -⟩ := h.2
      rw [hu] at he
      cases he
  have hfit := fits_of_writeTail hav v1.disk.size_lt hinside (by rw [hsb]; omega) rfl
    (by rw [hsb]; exact h)
  rw [hsb, hsize] at hfit
  obtain ⟨us, hv2, hus⟩ := emit_of_writeTail h
  rw [← hsb] at hus
  have hbytes : u.1.bytes = bm := by rw [hueq]
  have hdesc : u.2.bytes = shrunkDesc w.disk sb target bm := by rw [hueq]; rfl
  have hoff : u.1.off = (descAt w.disk sb (sb.groupsCount - 1)).blockBitmap * sb.blockSize := by
    rw [hueq]
  have hoff' : u.2.off = sb.descOffset (sb.groupsCount - 1) := by rw [hueq]
  have hview2 := hview.tail ha hs (hsb.trans sb.sized_self.symm) (by rw [hsb]) hbase.groupHasSuper
    hoff hoff' (by rw [hbytes, hbmlen])
    (by rw [hueq, length_resizedDesc, length_rawDesc]) (by rw [hsb] at hus ⊢; exact hus)
  rw [hbytes, hdesc] at hview2
  refine ⟨bm, hmark, hcount, ?_, ?_, fun g h1 h2 hsup => ?_⟩
  · rw [hv2, World.emit_disk, Disk.emit_sizeBytes, hsize]
  · rw [hv2, World.emit_disk, Disk.emit_data]
    exact hview2
  · exact hfit g h1 h2 (by rw [hbase.groupHasSuper]; exact hsup)

/-- 書き直す superblock は、縮小の後のものである。 -/
theorem decode_of_shrunkSuper (hr : Readable w.disk sb) {target v : Nat} {raw shrunk : Bytes}
    (hlt : target < sb.blocksCount)
    (hupd : updateSuperblockChecksum (writeLe 2 (rawSuper w.disk) 0x3a v) = .ok raw)
    (hsh : shrunkSuper (contextAt w.disk) raw (readLe 2 (rawSuper w.disk) 0x3a) target =
      .ok shrunk) :
    SameBase raw shrunk ∧ sb.blocksCount - target ≤ sb.freeBlocks ∧
      decodeSuperblock shrunk = sb.shrunk target ((sb.state &&& 0xfffe) % 256 ^ 2) := by
  have hsb : (contextAt w.disk).sb = sb := hr.sb_eq.symm
  have hsbraw : decodeSuperblock (rawSuper w.disk) = sb := hr.sb_eq.symm
  have ha := hr.accepted
  have hblocks := ha.blocks_lt w.disk.size_lt
  obtain ⟨hbase, hdec⟩ := decode_state (length_rawSuper w.disk) hupd
  have hlen : raw.length = 1024 := hbase.length.trans (length_rawSuper _)
  have hfields : (decodeSuperblock raw).blocksCount = sb.blocksCount ∧
      (decodeSuperblock raw).reservedBlocks = sb.reservedBlocks := by
    rw [hdec, ← hsbraw]
    exact ⟨rfl, rfl⟩
  obtain ⟨hbase', hfree, hdec'⟩ := decode_shrunk hlen (by rw [hsb, hfields.1])
    (by rw [hsb, hfields.2]) (by rw [hsb]; omega) (by rw [hsb]; exact ha.free_le)
    (by rw [hsb]; exact Nat.le_of_lt hlt) hsh
  have hstate : readLe 2 (rawSuper w.disk) 0x3a = sb.state := by
    rw [← hsbraw, state_eq]
  rw [hsb] at hfree
  rw [hdec, hsbraw, hsb, Superblock.sized_sized, hstate] at hdec'
  exact ⟨hbase', hfree, hdec'⟩

theorem preparedShrink_of_run (hr : Readable w.disk sb) (hs : Separate w.disk sb) {r : Resized}
    {v : World} (h : Proc.run (prepareShrink host missing targetBytes opts) w = (.ok r, v)) :
    ∃ bm, PreparedShrink w.disk sb (targetBytes / sb.blockSize) r bm v := by
  obtain ⟨raw, u, shrunk, v1, v2, hctx, hupd, hw, hdisk, hu, htail, hsh, hcopies, hreq⟩ :=
    prepareShrink_ok hr h
  rw [hreq]
  have hsb : (contextAt w.disk).sb = sb := hr.sb_eq.symm
  have hsized := hsb.trans sb.sized_self.symm
  have ha := hr.accepted
  have hlastlt : sb.groupsCount - 1 < sb.groupsCount :=
    Nat.sub_lt (Nat.pos_of_ne_zero ha.groups_pos) Nat.one_pos
  have hraw := (readSuperblock_eq hr.super).2.1
  obtain ⟨hlen, hroom⟩ := length_of_stateUpdate (stateUpdate_false hraw hupd)
  have hlt := (shrinkTarget_of_checkFinalize hctx hraw).lt
  have hlast := (shrinkTarget_of_checkFinalize hctx hraw).last
  rw [hsb] at hlt hlast
  obtain ⟨-, hgroups, hmeta, hbig, hfixed⟩ := checkFinalize_groups hctx hr.super
  have hbase := (decode_state (length_rawSuper w.disk) hupd).1
  have hsize : v1.disk.sizeBytes = w.disk.sizeBytes := by rw [hdisk, markedDisk_sizeBytes]
  -- dirty の印を付けても、末尾の group は同じに読める
  have hview : TailView w.disk sb v1.disk.data raw (rawDesc w.disk sb (sb.groupsCount - 1))
      (blockBitmapAt w.disk sb (sb.groupsCount - 1)) := by
    rw [hdisk, markedDisk_data]
    exact tailView_self.supers ha hs hsized (by rw [hsb]) hlen hbase.groupHasSuper
  obtain ⟨bm, hmark, hcount, hsize2, hview2, hfit⟩ :=
    tailView_of_shrinkTail hr hs hlt hlast hbase hsize hview hu htail
  -- 新しい大きさの superblock
  obtain ⟨hbase', hfree, hdec'⟩ := decode_of_shrunkSuper hr hlt hupd hsh
  have hlen' : shrunk.length = 1024 := hbase'.length.trans hlen
  obtain ⟨hw2, hv⟩ := emit_of_writeSuperCopies (by rw [hsb, hsize2]; exact ha)
    (by rw [hsize2]; exact hroom) hlen' hcopies
  have hview3 : TailView w.disk sb v.disk.data shrunk
      (shrunkDesc w.disk sb (targetBytes / sb.blockSize) bm) bm := by
    rw [hv, World.emit_disk, Disk.emit_data]
    exact hview2.supers ha hs hsized (by rw [hsb]) hlen' (hbase.trans hbase').groupHasSuper
  have hstate : readLe 2 (rawSuper w.disk) 0x3a = sb.state := by
    rw [← show decodeSuperblock (rawSuper w.disk) = sb from hr.sb_eq.symm, state_eq]
  refine ⟨bm, rfl, ?_, ?_, ?_, hview3, hmark, hcount, hfree, hbase.trans hbase', hdec', hlt, hlast,
    fun s => ?_, hfit, hmeta, hbig, (covers_of_countTailMetadata hfixed).2 rfl _ (Nat.zero_le _)
      (by omega) _ (hr.reads hlastlt).1⟩
  · dsimp only
    exact hstate
  · rw [hv, World.emit_disk, Disk.emit_sizeBytes, hsize2]
  · rw [hv, World.emit_disk, Disk.emit_writable]
    exact hw2
  · exact (@Superblock.groupsCount_eq (sb.shrunk _ s) ha.perGroup_pos).trans hgroups

/-- 末尾の group が同じに見える二つの device は、どの group の descriptor も同じに読める。 -/
theorem TailView.rawDesc_eq {d e f : Disk} {sb : Superblock} {super super' desc bm : Bytes}
    (he : TailView d sb e.data super desc bm) (hf : TailView d sb f.data super' desc bm) {g : Nat}
    (hg : g < sb.groupsCount) : rawDesc f sb g = rawDesc e sb g := by
  rcases Nat.lt_or_ge g (sb.groupsCount - 1) with hlt | hge
  · exact (hf.descs g hlt).trans (he.descs g hlt).symm
  · rw [show g = sb.groupsCount - 1 by omega]
    exact hf.desc.trans he.desc.symm

/-- **縮小を終えた device。** -/
theorem shrunkDisk_of_run (hr : Readable w.disk sb) (hs : Separate w.disk sb) {v : World}
    (h : Proc.run (finalizeMetadataOnlyShrink host missing targetBytes opts) w = (.ok (), v)) :
    ∃ super bm, ShrunkDisk w.disk sb (targetBytes / sb.blockSize) v.disk super bm := by
  rw [finalizeMetadataOnlyShrink_eq_prepare] at h
  obtain ⟨r, v1, hprep, h⟩ := run_bind_eq_ok h
  obtain ⟨bm, p⟩ := preparedShrink_of_run hr hs hprep
  unfold completeShrink at h
  obtain ⟨rep, hver, h⟩ := run_device_bind_eq_ok h
  split at h
  · cases h
  obtain ⟨clean, hupd, h⟩ := run_device_bind_eq_ok h
  obtain ⟨_, v2, hcopies, h⟩ := run_bind_eq_ok h
  obtain ⟨_, v3, happ, hcheck⟩ := run_bind_eq_ok h
  have hdisk : v.disk = v2.disk := (disk_of_journalOp hcheck).trans (disk_of_journalOp happ)
  have ha := hr.accepted
  have hsb : (contextAt w.disk).sb = sb := hr.sb_eq.symm
  have hlen : r.raw.length = 1024 := p.base.length.trans (length_rawSuper _)
  -- 検証が通ったので、縮めた superblock も descriptor も読める
  have hsb1 : readSuperblock v1.disk = .ok (sb.shrunk (targetBytes / sb.blockSize)
      ((sb.state &&& 0xfffe) % 256 ^ 2)) := by
    unfold verifyMetadata at hver
    obtain ⟨_, -, hver⟩ := Result.bind_eq_ok hver
    obtain ⟨sb', hsb', -⟩ := Result.bind_eq_ok hver
    rw [hsb', (readSuperblock_eq hsb').1, ← p.decoded, ← p.view.super]
    rfl
  have hread := (verifyMetadata_ok hsb1 hver).2.1
  obtain ⟨hbase, hdec⟩ := decode_state hlen hupd
  have hlen' : clean.length = 1024 := hbase.length.trans hlen
  rw [p.decoded, p.state] at hdec
  obtain ⟨hw, hv⟩ := emit_of_writeSuperCopies (by rw [p.ctx, hsb, p.size]; exact ha)
    (by rw [p.size]; exact (readSuperblock_eq hr.super).2.1 |> fun h =>
      (Disk.readExact_eq_ok_iff.mp h).1) hlen' hcopies
  have hview : TailView w.disk sb v.disk.data clean
      (shrunkDesc w.disk sb (targetBytes / sb.blockSize) bm) bm := by
    rw [hdisk, hv, World.emit_disk, Disk.emit_data, p.ctx]
    exact p.view.supers ha hs (hsb.trans sb.sized_self.symm) (by rw [hsb]) hlen'
      (p.base.trans hbase).groupHasSuper
  have hsize : v.disk.sizeBytes = w.disk.sizeBytes := by
    rw [hdisk, hv, World.emit_disk, Disk.emit_sizeBytes, p.size]
  refine ⟨clean, bm, hsize, ?_, hview, p.marked, p.count, p.free, p.base.trans hbase,
    verifies_of_update (by rw [length_writeLe, hlen]) hupd, hdec, ⟨?_, fun g hg => ?_⟩, p.lt, p.last,
    p.groups _, p.fits, p.noMetaBg, p.noBigalloc, p.clear⟩
  · rw [hdisk, hv, World.emit_disk, Disk.emit_writable]
    exact p.writable
  · refine readSuperblock_state (hsize.trans p.size.symm) hsb1 ?_ (le_refl _)
    rw [show rawSuper v.disk = clean from hview.super]
    exact hdec
  · rw [p.groups] at hg
    obtain ⟨gd, hgd⟩ := hread.desc g (by rw [p.groups]; exact hg)
    refine ⟨gd, Eq.trans ?_ hgd⟩
    rw [readGroupDesc_shrunk v.disk sb _ _ ((sb.state &&& 0xfffe) % 256 ^ 2)]
    exact readGroupDesc_congr (hsize.trans p.size.symm) (p.view.rawDesc_eq hview hg)

end Shrink

end Fsx.Ext4
