import Fsx.Gpt.Backup
import Fsx.ImageFile.Writes
import Fsx.Io.PublishSafe
import Fsx.Journal.Crash
import Fsx.Mbr.Resize

/-!
# 公開する四つの作り手

`image::create`・`TransactionJournal::create`・`gpt::backup_metadata`・`mbr::resize_partition` の
undo sector。どれも `Fsx/Io/Publish.lean` の段取りで、一時 file に書く内容だけが違う。

どこで止まっても、最後の名前にある file は、それを読む側の検査を通る。
-/

namespace Fsx.Publish

open Proc TransactionJournal JournalState

/-! ## file の内容 -/

theorem extend_of_le {b : Bytes} {n : Nat} (h : n ≤ b.length) : extend b n = b := by
  unfold extend
  rw [Nat.sub_eq_zero_of_le h]
  exact List.append_nil b

/-- 収まる書き込みは、上書きである。 -/
theorem apply_write_of_fits {b bytes : Bytes} {off : Nat} (h : off + bytes.length ≤ b.length) :
    FileOp.apply b (.write off bytes) = patch b off bytes := by
  show patch (extend b (off + bytes.length)) off bytes = _
  rw [extend_of_le h]

/-- 末尾への書き込みは、後ろに継ぐ。 -/
theorem apply_write_end (b bytes : Bytes) :
    FileOp.apply b (.write b.length bytes) = b ++ bytes := by
  have hext : extend b (b.length + bytes.length) = b ++ zeros bytes.length := by
    unfold extend
    rw [Nat.add_sub_cancel_left]
  show patch (extend b (b.length + bytes.length)) b.length bytes = _
  rw [hext, patch_eq_append (by rw [List.length_append, length_zeros]), List.take_left,
    List.drop_eq_nil_of_le (by rw [List.length_append, length_zeros]), List.append_nil]

/-- 作りたての file を伸ばすと、零が並ぶ。 -/
theorem apply_truncate_nil (n : Nat) : FileOp.apply [] (.truncate n) = zeros n := by
  show extend (List.take n []) n = _
  rw [List.take_nil]
  rfl

/-- 順に末尾へ継ぐ書き込み。 -/
def appendOps : Nat → List Bytes → List FileOp
  | _, [] => []
  | pos, b :: bs => .write pos b :: appendOps (pos + b.length) bs

theorem foldl_appendOps : ∀ (bs : List Bytes) (b : Bytes),
    (appendOps b.length bs).foldl FileOp.apply b = b ++ bs.flatten
  | [], b => (List.append_nil b).symm
  | x :: bs, b => by
    have ih := foldl_appendOps bs (b ++ x)
    rw [List.length_append] at ih
    show (appendOps (b.length + x.length) bs).foldl FileOp.apply (FileOp.apply b (.write b.length x)) = _
    rw [apply_write_end, ih, List.flatten_cons, List.append_assoc]

/-! ## 作り手 -/

/-- `image::create`。`pieces` は `createWrites` の返す列で、最後に header を書き直す。 -/
def imageProducer (path : String) (pieces : List Bytes) (header : Bytes) : Producer where
  objectName := "image file"
  earlyCleanup := false
  createError := fromErrno .openFailed ("cannot create temporary image near " ++ path ++ ": ")
  flushError := fun e =>
    { code := .flushFailed, message := "cannot flush completed image", sysErrno := e.code }
  fileOps := appendOps 0 pieces ++ [.write 0 header]

/-- `BlockDevice::create_file` で大きさを決め、書いて flush する作り手。 -/
def deviceProducer (objectName temp : String) (size : Nat) (writes : List FileOp) : Producer where
  objectName := objectName
  earlyCleanup := true
  createError := fromErrno .openFailed ("cannot create " ++ temp ++ ": ")
  flushError := fromErrno .flushFailed "fsync failed: "
  fileOps := .truncate size :: writes

/-- `TransactionJournal::create`。 -/
def journalProducer (temp : String) (id : JournalIdentity) (cap : Nat) : Producer :=
  deviceProducer "transaction journal" temp cap [
    .write (0 * headerBytes) (encodeHeader (createdHeader id 1)),
    .write (1 * headerBytes) (encodeHeader (createdHeader id 0))]

/-- `gpt::backup_metadata`。先頭の 128 byte と payload を分けて書く。 -/
def gptProducer (temp : String) (bytes : Bytes) : Producer :=
  deviceProducer "GPT metadata backup" temp bytes.length [
    .write 0 (bytes.take 128), .write (bytes.take 128).length (bytes.drop 128)]

/-- `mbr::resize_partition` の undo sector。 -/
def mbrProducer (temp : String) (orig : Bytes) : Producer :=
  deviceProducer "MBR undo sector" temp 512 [.write 0 orig]

theorem contents_imageProducer {path : String} {pieces : List Bytes} {header : Bytes}
    (h : header.length ≤ pieces.flatten.length) :
    (imageProducer path pieces header).contents = patch pieces.flatten 0 header := by
  have hpieces := foldl_appendOps pieces []
  rw [List.nil_append] at hpieces
  show (appendOps 0 pieces ++ [FileOp.write 0 header]).foldl FileOp.apply [] = _
  rw [List.foldl_append, show (appendOps 0 pieces).foldl FileOp.apply [] = pieces.flatten from hpieces]
  exact apply_write_of_fits (by rwa [Nat.zero_add])

/-- 大きさを決めた file の、収まる書き込みはどれも上書きである。 -/
theorem contents_deviceProducer {objectName temp : String} {size : Nat} (ws : List Write)
    (h : ∀ w ∈ ws, w.off + w.bytes.length ≤ size) :
    (deviceProducer objectName temp size (ws.map fun w => .write w.off w.bytes)).contents =
      ws.foldl (fun b w => patch b w.off w.bytes) (zeros size) := by
  have hall : ∀ (ws : List Write) (b : Bytes), b.length = size →
      (∀ w ∈ ws, w.off + w.bytes.length ≤ size) →
      (ws.map fun w => FileOp.write w.off w.bytes).foldl FileOp.apply b =
        ws.foldl (fun b w => patch b w.off w.bytes) b := by
    intro ws
    induction ws with
    | nil => exact fun _ _ _ => rfl
    | cons w ws ih =>
      intro b hb hws
      rw [List.map_cons, List.foldl_cons, List.foldl_cons,
        apply_write_of_fits (by rw [hb]; exact hws w List.mem_cons_self)]
      exact ih _ ((length_patch _ _ _).trans hb) fun x hx => hws x (List.mem_cons_of_mem _ hx)
  show (ws.map fun w => FileOp.write w.off w.bytes).foldl FileOp.apply
    (FileOp.apply [] (.truncate size)) = _
  rw [apply_truncate_nil]
  exact hall ws _ (length_zeros size) h

theorem contents_journalProducer {temp : String} {id : JournalIdentity} {cap : Nat}
    (hcap : 8192 ≤ cap) : (journalProducer temp id cap).contents =
      patch (patch (zeros cap) 0 (encodeHeader (createdHeader id 1))) 4096
        (encodeHeader (createdHeader id 0)) := by
  refine contents_deviceProducer [⟨0, encodeHeader (createdHeader id 1)⟩,
    ⟨4096, encodeHeader (createdHeader id 0)⟩] ?_
  simp only [List.forall_mem_cons, List.not_mem_nil, false_implies, implies_true, and_true,
    length_encodeHeader]
  omega

/-- 零の列を前と後ろで埋めると、二つを継いだものになる。 -/
theorem patch_zeros_append (x y : Bytes) :
    patch (patch (zeros (x.length + y.length)) 0 x) x.length y = x ++ y := by
  have hfirst : patch (zeros (x.length + y.length)) 0 x =
      x ++ (zeros (x.length + y.length)).drop x.length := by
    rw [patch_eq_append (by rw [length_zeros]; omega), List.take_zero, List.nil_append, Nat.zero_add]
  have hrest : ((zeros (x.length + y.length)).drop x.length).length = y.length := by
    rw [List.length_drop, length_zeros]
    omega
  rw [hfirst, patch_eq_append (by rw [List.length_append, hrest]), List.take_left,
    List.drop_eq_nil_of_le (by rw [List.length_append, hrest]), List.append_nil]

theorem contents_gptProducer (temp : String) (bytes : Bytes) :
    (gptProducer temp bytes).contents = bytes := by
  have hlen : (bytes.take 128).length + (bytes.drop 128).length = bytes.length := by
    rw [List.length_take, List.length_drop]
    omega
  refine (contents_deviceProducer [⟨0, bytes.take 128⟩, ⟨(bytes.take 128).length, bytes.drop 128⟩]
    ?_).trans ?_
  · simp only [List.forall_mem_cons, List.not_mem_nil, false_implies, implies_true, and_true]
    omega
  · show patch (patch (zeros bytes.length) 0 (bytes.take 128)) (bytes.take 128).length
      (bytes.drop 128) = bytes
    rw [← hlen, patch_zeros_append, List.take_append_drop]

theorem contents_mbrProducer {temp : String} {orig : Bytes} (h : orig.length = 512) :
    (mbrProducer temp orig).contents = orig := by
  refine (contents_deviceProducer [⟨0, orig⟩] ?_).trans ?_
  · simp only [List.forall_mem_cons, List.not_mem_nil, false_implies, implies_true, and_true]
    omega
  · show patch (zeros 512) 0 orig = orig
    rw [patch_eq_append (by rw [length_zeros]; omega), List.take_zero, List.nil_append,
      List.drop_eq_nil_of_le (by rw [length_zeros]; omega), List.append_nil]

/-! ## 読む側の検査 -/

/-- journal の file として開ける。 -/
theorem open_of_holds {id : JournalIdentity} {cap : Nat} {temp : String} (hlt : cap < 2 ^ 63)
    (hcap : recordsOffset + recordBytes * 16 ≤ cap) {file : Disk}
    (hf : Gpt.Holds file (journalProducer temp id cap).contents) :
    ∃ j, openFile file true = .ok j ∧
      j.view = .ok { identity := id, phase := .prepared, records := [] } := by
  have hroom : 8192 ≤ cap := le_trans (by decide) hcap
  have hbytes := @contents_journalProducer temp id cap hroom
  obtain ⟨hsize, hdata⟩ := hf
  rw [hbytes] at hsize hdata
  have hlen : (patch (patch (zeros cap) 0 (encodeHeader (createdHeader id 1))) 4096
      (encodeHeader (createdHeader id 0))).length = cap := by
    rw [length_patch, length_patch, length_zeros]
  rw [hlen] at hsize hdata
  have hread : ∀ off, off + 4096 ≤ cap → file.data.read off 4096 =
      slice (patch (patch (zeros cap) 0 (encodeHeader (createdHeader id 1))) 4096
        (encodeHeader (createdHeader id 0))) off 4096 := by
    intro off hoff
    rw [← hdata, Image.slice_read _ _ _ _ _ hoff, Nat.zero_add]
  have h0 : slotHeader file.data 0 = .ok (createdHeader id 1) := by
    unfold slotHeader
    rw [show 0 * headerBytes = 0 from rfl, hread 0 (by omega),
      slice_patch_of_disjoint (by omega), slice_patch_self (length_encodeHeader _)
        (by rw [length_zeros]; omega), decodeHeader_encodeHeader]
  have h1 : slotHeader file.data 1 = .ok (createdHeader id 0) := by
    unfold slotHeader
    rw [show 1 * headerBytes = 4096 from rfl, hread 4096 (by omega),
      slice_patch_self (length_encodeHeader _) (by rw [length_patch, length_zeros]; omega),
      decodeHeader_encodeHeader]
  have hslots : Slots file.data (createdHeader id 1) 0 := by
    refine ⟨by decide, h0, fun g hg => ?_⟩
    rw [h1] at hg
    cases hg
    exact ⟨rfl, show (0 : UInt64) < 1 by decide, fun _ => ⟨rfl, rfl⟩⟩
  have hheld : Held file.sizeBytes file.data [] := {
    room := by rw [hsize]; exact le_trans (by decide) hcap
    size_lt := by rw [hsize]; exact hlt
    fits := Nat.zero_le _
    encoded := fun _ _ hi => by cases hi
    contiguous := fun _ _ hi => by cases hi }
  obtain ⟨j, hopen, -, -, -, hl⟩ :=
    openFile_of_stored (⟨hslots, hheld, rfl, show (1 : UInt64).toNat ≤ 1 by decide⟩ :
      Stored file.sizeBytes file.data (createdHeader id 1) [] 0)
  exact ⟨j, hopen, hl.view_eq⟩

/-- undo sector として読める。 -/
theorem loadUndo_of_holds {orig : Bytes} (hlen : orig.length = 512)
    (hsig : (readLe 1 orig 510 == 0x55 && readLe 1 orig 511 == 0xaa) = true) {file : Disk}
    (hf : Gpt.Holds file orig) : Mbr.loadUndo file = .ok orig := by
  obtain ⟨hsize, hdata⟩ := hf
  rw [hlen] at hsize hdata
  obtain ⟨t, ht, -, hok, -⟩ := Mbr.decode_ok (b := orig) (by rw [hlen])
  rw [hsig] at hok
  unfold Mbr.loadUndo
  rw [if_neg (not_not.mpr hsize), Disk.readExact_ok (by omega), Result.ok_bind, hdata, ht]
  dsimp only
  rw [if_pos hok]
  rfl

/--
作り手と、その file を読む側の検査。

image の source の sector は二冪で、GPT の disk には protective MBR がある。どちらも作り手は調べないが、
読む側は調べる。
-/
inductive Publishes (temp : String) : Producer → (Bytes → Prop) → Prop
  | image {path : String} {host : ImageFile.CreateHost} {source : Disk}
      {opts : ImageFile.CreateOptions} {info : ImageFile.ImageInfo} {pieces : List Bytes}
      (sector : ImageFile.SectorOk source.logicalSector)
      (create : ImageFile.createWrites host source opts = .ok (info, pieces)) :
      Publishes temp (imageProducer path pieces (ImageFile.makeHeader info true))
        (fun b => ImageFile.verify (.ok ()) (fun _ => false) b = .ok info)
  | journal {host : TransactionJournal.CreateHost} {id : JournalIdentity} {cap : Nat}
      {j : TransactionJournal} (create : TransactionJournal.create host id cap = .ok j) :
      Publishes temp (journalProducer temp id cap)
        (fun b => ∀ file, Gpt.Holds file b → ∃ j, openFile file true = .ok j ∧
          j.view = .ok { identity := id, phase := .prepared, records := [] })
  | gpt {host : Gpt.BackupHost} {d : Disk} {bytes : Bytes}
      (backup : Gpt.backupMetadata host d = .ok bytes) (mbr : Gpt.protectiveMbrOk d = true) :
      Publishes temp (gptProducer temp bytes)
        (fun b => ∀ file target, Gpt.Holds file b → target.sizeBytes = d.sizeBytes →
          Gpt.sectorSize target = Gpt.sectorSize d →
          Gpt.loadBackup target file = .ok (Gpt.savedImage d))
  | mbr {d : Disk} {index : Nat} {first sectors : UInt32} {b orig : Bytes}
      (checked : Mbr.checkResize d index first sectors = .ok b)
      (read : Mbr.readSector d = .ok orig) :
      Publishes temp (mbrProducer temp orig)
        (fun b => ∀ file, Gpt.Holds file b → Mbr.loadUndo file = .ok orig)

/-- **書き終えた file は、読む側の検査を通る。** -/
theorem Publishes.accepted {temp : String} {p : Producer} {Acc : Bytes → Prop}
    (h : Publishes temp p Acc) : Acc p.contents := by
  cases h with
  | image sector create =>
    have hcreate := ImageFile.create_of_createWrites create
    obtain ⟨info, cs, e, hdec, hacc, hend, -⟩ := ImageFile.decodes_of_create sector hcreate
    rw [contents_imageProducer (by
      rw [ImageFile.length_makeHeader]
      exact ImageFile.headerSize_le_of_createWrites create)]
    exact ImageFile.verify_eq_ok_iff.mpr ⟨info, cs, e, hdec, hacc, hend⟩
  | journal create =>
    obtain ⟨hlt, hcap, -⟩ := JournalState.create_eq_ok create
    exact fun file hf => open_of_holds hlt hcap hf
  | gpt backup mbr =>
    obtain ⟨hs, hbytes, -⟩ := Gpt.backupMetadata_eq_ok backup
    intro file target hf hsize hsector
    rw [contents_gptProducer, hbytes] at hf
    exact (Gpt.loadBackup_savedFile hs hf hsize hsector).mpr ⟨mbr, rfl⟩
  | @mbr d index first sectors b orig checked read =>
    obtain ⟨-, hsig, -⟩ := Mbr.checkResize_eq_ok checked
    obtain ⟨-, horig⟩ := Mbr.readSector_eq_ok_iff.mp read
    have hlen : orig.length = 512 := by rw [horig, Image.length_read]
    rw [← horig] at hsig
    intro file hf
    rw [contents_mbrProducer hlen] at hf
    exact loadUndo_of_holds hlen hsig hf

namespace Example

/-- 何も失敗せず、他の process もいない。 -/
def quietHost : Host := fun _ => {}

def journal : Producer := journalProducer "undo.fsxj.tmp" zeroIdentity 10240

end Example

end Fsx.Publish
