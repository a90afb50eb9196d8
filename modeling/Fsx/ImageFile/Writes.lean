import Fsx.ImageFile.RoundTrip

/-!
# `create` の書き込みの列（`src/ops/image.cpp`）

`create` は一時 file の先頭から順に、未完成の header、chunk ごとの record と payload、footer を
`fd_write_exact` し、最後に完成した header を先頭に書き直す。`Fsx/ImageFile/Model.lean` の `create` は
できあがった内容だけを返すので、ここでは同じ手順を、書いた列の並びとして持つ。

二つは `create_eq_writes` で結ぶ。
-/

namespace Fsx.ImageFile

/-- `create` の chunk のループが順に書く列。 -/
def chunkWrites (cancelled : Nat → Bool) (source : Disk) (sparse : Bool) :
    Nat → Nat → Nat → ImageInfo → Result (ImageInfo × List Bytes)
  | 0, _, _, info => .ok (info, [])
  | n + 1, i, off, info => do
    if cancelled i then
      throw { code := .unsafeErr, message := "image creation cancelled; partial file removed" }
    let len := min info.chunkBytes (info.sourceBytes - off)
    let span ← source.readExact off len
    let elided := sparse && allZero span
    let record := makeRecord {
      index := i
      sourceOffset := off
      logicalLen := len
      storedLen := if elided then 0 else len
      flags := if elided then chunkZero else 0
      payloadCrc := if elided then 0 else checksum span }
    if elided then
      let (info', pieces) ← chunkWrites cancelled source sparse n (i + 1) (off + len)
        { info with zeroChunks := info.zeroChunks + 1 }
      return (info', record :: pieces)
    else
      let (info', pieces) ← chunkWrites cancelled source sparse n (i + 1) (off + len)
        { info with
          dataChunks := info.dataChunks + 1
          storedPayloadBytes := info.storedPayloadBytes + len }
      return (info', record :: span :: pieces)

/-- `create` のうち、一時 file の `fsync` の手前まで。返す情報には完成の印がある。 -/
def createWrites (host : CreateHost) (source : Disk) (opts : CreateOptions) :
    Result (ImageInfo × List Bytes) := do
  if opts.chunkBytes < 64 * 1024 ∨ opts.chunkBytes > 64 * 1024 * 1024 then
    throw { code := .invalidArgument
            message := "image chunk size must be between 64 KiB and 64 MiB" }
  if source.logicalSector = 0 then
    throw { code := .invalidArgument, message := "source reports a zero logical sector size" }
  if opts.chunkBytes % source.logicalSector ≠ 0 then
    throw { code := .invalidArgument
            message := "image chunk size must be a multiple of the source logical sector" }
  host.lstat
  host.mkstemp
  if source.sizeBytes = 0 then
    throw { code := .invalidArgument, message := "cannot image an empty source" }
  let start : ImageInfo := {
    sourceBytes := source.sizeBytes
    logicalSector := source.logicalSector
    chunkBytes := opts.chunkBytes
    chunks := ceilDivU64 source.sizeBytes opts.chunkBytes }
  let (info, pieces) ← chunkWrites host.cancelled source opts.sparseZeroChunks start.chunks 0 0 start
  return ({ info with complete := true }, makeHeader start false :: pieces ++ [makeFooter info])

/-! ## できあがる内容 -/

/-- 断る枝は、続きを見ない。 -/
theorem guard_bind_assoc {α β γ : Type} {c : Prop} [Decidable c] (e : Error) (f : α → Result β)
    (x : Result β) (g : β → Result γ) :
    ((if c then (throw e : Result α) >>= f else x) >>= g) =
      if c then (throw e : Result α) >>= fun a => f a >>= g else x >>= g := by
  split <;> rfl

/-- ループの書いた列は、`createChunks` が後ろに継いだ内容である。 -/
theorem createChunks_eq_writes (host : CreateHost) (source : Disk) (sparse : Bool) :
    ∀ (n i off : Nat) (info : ImageInfo) (out : Bytes),
      createChunks host source sparse n i off info out =
        (chunkWrites host.cancelled source sparse n i off info >>= fun r => .ok (r.1, out ++ r.2.flatten))
  | 0, i, off, info, out => by
    rw [createChunks, chunkWrites, Result.ok_bind, List.flatten_nil, List.append_nil]
  | n + 1, i, off, info, out => by
    rw [createChunks, chunkWrites]
    by_cases hc : host.cancelled i = true
    · rw [if_pos hc, if_pos hc]
      rfl
    simp only [if_neg hc, bind_assoc]
    congr 1
    funext span
    generalize (sparse && allZero span) = elided
    cases elided with
    | true =>
      simp only [if_true, createChunks_eq_writes host source sparse n, bind_assoc, pure_bind,
        List.flatten_cons, List.append_assoc]
    | false =>
      simp only [Bool.false_eq_true, if_false, createChunks_eq_writes host source sparse n, bind_assoc,
        pure_bind, List.flatten_cons, List.append_assoc]

/-- **`create` は、この列を書き、`fsync` と公開に成功すれば、できあがった内容を残す。** -/
theorem create_eq_writes (host : CreateHost) (source : Disk) (opts : CreateOptions) :
    create host source opts = (createWrites host source opts >>= fun r =>
      host.fsync >>= fun _ => host.publish >>= fun _ =>
        .ok (r.1, patch r.2.flatten 0 (makeHeader r.1 true))) := by
  unfold create createWrites
  simp only [createChunks_eq_writes, guard_bind_assoc, bind_assoc, pure_bind, Result.ok_bind,
    List.cons_append, List.flatten_cons, List.flatten_append, List.flatten_nil, List.append_nil,
    List.append_assoc]
  rfl

/-- 書き終えた列の内容は、同じ source から何も失敗せずに作った file である。 -/
theorem create_of_createWrites {host : CreateHost} {source : Disk} {opts : CreateOptions}
    {info : ImageInfo} {pieces : List Bytes} (h : createWrites host source opts = .ok (info, pieces)) :
    create { host with fsync := .ok (), publish := .ok () } source opts =
      .ok (info, patch pieces.flatten 0 (makeHeader info true)) := by
  have hwrites : createWrites { host with fsync := .ok (), publish := .ok () } source opts =
      .ok (info, pieces) := h
  rw [create_eq_writes, hwrites]
  rfl

/-- 列の先頭には header が収まっている。 -/
theorem headerSize_le_of_createWrites {host : CreateHost} {source : Disk} {opts : CreateOptions}
    {info : ImageInfo} {pieces : List Bytes} (h : createWrites host source opts = .ok (info, pieces)) :
    headerSize ≤ pieces.flatten.length := by
  unfold createWrites at h
  simp only [Result.guard_bind_eq_ok_iff, Result.bind_eq_ok_iff, Result.pure_eq_ok_iff] at h
  obtain ⟨-, -, -, -, -, -, -, -, ⟨info', ps⟩, -, hret⟩ := h
  obtain ⟨-, hpieces⟩ := Prod.mk.inj hret
  rw [hpieces, List.cons_append, List.flatten_cons, List.length_append, length_makeHeader]
  exact Nat.le_add_right _ _

end Fsx.ImageFile
