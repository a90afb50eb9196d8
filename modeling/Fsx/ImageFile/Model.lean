import Fsx.ImageFile.Format
import Fsx.Io.Disk

/-!
# image の作成・検証・復元（`src/ops/image.cpp`）

file は byte の列で、読むときは位置を引数に持つ。`lseek` は位置の計算になる。
file への読み書きが `errno` で失敗することはないものとし、host に尋ねる手続き（path の検査、一時 file、
`fsync`、公開、target が使われていないことの確認）の答えだけを外から受け取る。
-/

namespace Fsx.ImageFile

structure CreateOptions where
  chunkBytes : Nat := 4 * 1024 * 1024
  sparseZeroChunks : Bool := true

/-- `create` が host に尋ねること。 -/
structure CreateHost where
  /-- 出力の path に何もないこと -/
  lstat : Result Unit
  mkstemp : Result Unit
  fsync : Result Unit
  /-- `publish_file_noreplace` -/
  publish : Result Unit
  /-- chunk `i` の手前での中断要求 -/
  cancelled : Nat → Bool

/-- `restore` が host に尋ねること。 -/
structure RestoreHost where
  openRead : Result Unit
  /-- 二つの `fstat` で見た、image と target が同じものか -/
  sameObject : Result Bool
  /-- `require_offline_for_write` -/
  offline : Result Unit
  /-- 書き込みの chunk `i` の手前での中断要求 -/
  cancelled : Nat → Bool
  /-- 読み戻しの chunk `i` の手前での中断要求 -/
  verifyCancelled : Nat → Bool

/-! ## 読む側 -/

/-- `fd_read_exact`。 -/
def readAt (file : Bytes) (pos n : Nat) : Result Bytes :=
  if 0 < n ∧ file.length < pos + n then
    .error { code := .shortIo, message := "unexpected end of image" }
  else .ok (slice file pos n)

/-- `read_header`。 -/
def readHeader (file : Bytes) : Result ImageInfo := do
  let h ← readAt file 0 headerSize
  parseHeader h

/-- `walk_image` が数えるもの。 -/
structure Totals where
  dataChunks : Nat := 0
  zeroChunks : Nat := 0
  payloadBytes : Nat := 0
  deriving DecidableEq

/-- `walk_image` の chunk のループ。`n` は残りの chunk の数、`pos` は file の位置である。 -/
def walkChunks (cancelled : Nat → Bool) (verifyPayload : Bool) (file : Bytes) (info : ImageInfo) :
    Nat → Nat → Nat → Totals → Result (Nat × Totals)
  | 0, _, pos, t => .ok (pos, t)
  | n + 1, i, pos, t => do
    if cancelled i then
      throw { code := .unsafeErr, message := "image verification cancelled" }
    let raw ← readAt file pos recordSize
    let p ← parseRecord raw info i
    if p.flags &&& chunkZero ≠ 0 then
      walkChunks cancelled verifyPayload file info n (i + 1) (pos + recordSize)
        { t with zeroChunks := t.zeroChunks + 1 }
    else
      if t.payloadBytes > info.sourceBytes - p.storedLen then
        throw { code := .corrupt
                message := "FSX image payload accounting overflows source size" }
      let payload ← readAt file (pos + recordSize) p.storedLen
      if verifyPayload ∧ checksum payload ≠ p.payloadCrc then
        throw { code := .corrupt
                message := "FSX image payload checksum failed at chunk " ++ toString i }
      walkChunks cancelled verifyPayload file info n (i + 1) (pos + recordSize + p.storedLen)
        { t with dataChunks := t.dataChunks + 1, payloadBytes := t.payloadBytes + p.storedLen }

/-- `walk_image`。 -/
def walkImage (cancelled : Nat → Bool) (verifyPayload : Bool) (file : Bytes) : Result ImageInfo := do
  let info ← readHeader file
  if info.complete = false then
    throw { code := .corrupt, message := "FSX image is incomplete" }
  let (pos, t) ← walkChunks cancelled verifyPayload file info info.chunks 0 headerSize {}
  let f ← readAt file pos footerSize
  let info' ← parseFooter f info
  if info'.dataChunks ≠ t.dataChunks ∨ info'.zeroChunks ≠ t.zeroChunks
      ∨ info'.storedPayloadBytes ≠ t.payloadBytes then
    throw { code := .corrupt, message := "FSX image footer accounting does not match records" }
  if file.length > pos + footerSize then
    throw { code := .corrupt, message := "FSX image has unexpected trailing data" }
  return info'

/-- `verify`。 -/
def verify (openRead : Result Unit) (cancelled : Nat → Bool) (file : Bytes) : Result ImageInfo := do
  openRead
  walkImage cancelled true file

/-! ## 作成 -/

/-- `create` の chunk のループ。`out` は書いた列である。 -/
def createChunks (host : CreateHost) (source : Disk) (sparse : Bool) :
    Nat → Nat → Nat → ImageInfo → Bytes → Result (ImageInfo × Bytes)
  | 0, _, _, info, out => .ok (info, out)
  | n + 1, i, off, info, out => do
    if host.cancelled i then
      throw { code := .unsafeErr, message := "image creation cancelled; partial file removed" }
    let len := min info.chunkBytes (info.sourceBytes - off)
    let span ← source.readExact off len
    let elided := sparse && allZero span
    let record := makeRecord {
      index := i
      sourceOffset := off
      logicalLen := len
      storedLen := if elided then 0 else len
      flags := if elided then chunkZero else 0
      payloadCrc := if elided then 0 else checksum span }
    if elided then
      createChunks host source sparse n (i + 1) (off + len)
        { info with zeroChunks := info.zeroChunks + 1 } (out ++ record)
    else
      createChunks host source sparse n (i + 1) (off + len)
        { info with
          dataChunks := info.dataChunks + 1
          storedPayloadBytes := info.storedPayloadBytes + len } (out ++ record ++ span)

/-- `create`。公開した file の内容も返す。 -/
def create (host : CreateHost) (source : Disk) (opts : CreateOptions) :
    Result (ImageInfo × Bytes) := do
  if opts.chunkBytes < 64 * 1024 ∨ opts.chunkBytes > 64 * 1024 * 1024 then
    throw { code := .invalidArgument
            message := "image chunk size must be between 64 KiB and 64 MiB" }
  if source.logicalSector = 0 then
    throw { code := .invalidArgument, message := "source reports a zero logical sector size" }
  if opts.chunkBytes % source.logicalSector ≠ 0 then
    throw { code := .invalidArgument
            message := "image chunk size must be a multiple of the source logical sector" }
  host.lstat
  host.mkstemp
  if source.sizeBytes = 0 then
    throw { code := .invalidArgument, message := "cannot image an empty source" }
  let info : ImageInfo := {
    sourceBytes := source.sizeBytes
    logicalSector := source.logicalSector
    chunkBytes := opts.chunkBytes
    chunks := ceilDivU64 source.sizeBytes opts.chunkBytes }
  let (info, out) ← createChunks host source opts.sparseZeroChunks info.chunks 0 0 info
    (makeHeader info false)
  let info' := { info with complete := true }
  let file := patch (out ++ makeFooter info) 0 (makeHeader info' true)
  host.fsync
  host.publish
  return (info', file)

/-! ## 復元 -/

/-- 書き込みの pass。終わりの位置を返す。 -/
def restoreChunks (cancelled : Nat → Bool) (file : Bytes) (info : ImageInfo) :
    Nat → Nat → Nat → DevM Nat
  | 0, _, pos => pure pos
  | n + 1, i, pos => do
    if cancelled i then
      throw { code := .unsafeErr
              message := "restore cancelled; target contains a partial restore" }
    let raw ← Proc.reading fun _ => readAt file pos recordSize
    let p ← Proc.reading fun _ => parseRecord raw info i
    if p.flags &&& chunkZero ≠ 0 then
      DevM.write p.sourceOffset (zeros p.logicalLen)
      restoreChunks cancelled file info n (i + 1) (pos + recordSize)
    else
      let payload ← Proc.reading fun _ => readAt file (pos + recordSize) p.logicalLen
      if checksum payload ≠ p.payloadCrc then
        throw { code := .corrupt
                message := "image payload checksum failed before restore at chunk " ++ toString i }
      DevM.write p.sourceOffset payload
      restoreChunks cancelled file info n (i + 1) (pos + recordSize + p.logicalLen)

/-- 読み戻しの pass。 -/
def readBackChunks (cancelled : Nat → Bool) (file : Bytes) (info : ImageInfo) :
    Nat → Nat → Nat → DevM Unit
  | 0, _, _ => pure ()
  | n + 1, i, pos => do
    if cancelled i then
      throw { code := .unsafeErr, message := "restore verification cancelled" }
    let raw ← Proc.reading fun _ => readAt file pos recordSize
    let p ← Proc.reading fun _ => parseRecord raw info i
    let span ← DevM.read p.sourceOffset p.logicalLen
    if p.flags &&& chunkZero ≠ 0 then
      if allZero span = false then
        throw { code := .io
                message := "restore read-back mismatch in zero chunk " ++ toString i }
      readBackChunks cancelled file info n (i + 1) (pos + recordSize)
    else
      if checksum span ≠ p.payloadCrc then
        throw { code := .io
                message := "restore read-back checksum mismatch at chunk " ++ toString i }
      readBackChunks cancelled file info n (i + 1) (pos + recordSize + p.storedLen)

/-- 書き始める前の検査。 -/
def checkRestore (host : RestoreHost) (file : Bytes) (allowBlockDevice : Bool) (target : Disk) :
    Result ImageInfo := do
  host.openRead
  let same ← host.sameObject
  if same then
    throw { code := .unsafeErr
            message := "image source and restore target refer to the same object" }
  let info ← readHeader file
  if info.complete = false then
    throw { code := .corrupt, message := "FSX image is incomplete" }
  if target.sizeBytes < info.sourceBytes then
    throw { code := .unsafeErr, message := "restore target is smaller than source image" }
  if target.isBlockDevice ∧ allowBlockDevice = false then
    throw { code := .unsafeErr
            message := "restoring to a block device requires --allow-block-device" }
  host.offline
  return info

/-- `restore`。 -/
def restore (host : RestoreHost) (file : Bytes) (allowBlockDevice : Bool) : DevM ImageInfo := do
  let info ← Proc.reading fun d => checkRestore host file allowBlockDevice d
  let pos ← restoreChunks host.cancelled file info info.chunks 0 headerSize
  let footer ← Proc.reading fun _ => readAt file pos footerSize
  let checked ← Proc.reading fun _ => parseFooter footer info
  DevM.flush
  readBackChunks host.verifyCancelled file info info.chunks 0 headerSize
  return checked

end Fsx.ImageFile
