import Fsx.Core.Crc
import Fsx.Core.Error

/-!
# image file の形式（`src/ops/image.cpp` の `FSXIMG1`）

header（4096 byte）・chunk ごとの record（48 byte）・footer（4096 byte）の codec。
record の後には、零でない chunk の内容がそのまま続く。

checksum は、その欄を零にした全体の CRC32C である。
-/

namespace Fsx.ImageFile

/-- `checksum`。 -/
abbrev checksum (b : Bytes) : Nat := (crc32cFinal b).toNat

def headerSize : Nat := 4096
def recordSize : Nat := 48
def footerSize : Nat := 4096
def version : Nat := 1
def headerComplete : Nat := 1
def chunkZero : Nat := 1

/-- `"FSXIMG1\0"`。 -/
def headerMagic : Bytes := [0x46, 0x53, 0x58, 0x49, 0x4d, 0x47, 0x31, 0x00]

/-- `"FSXCHN1\0"`。 -/
def recordMagic : Bytes := [0x46, 0x53, 0x58, 0x43, 0x48, 0x4e, 0x31, 0x00]

/-- `"FSXEND1\0"`。 -/
def footerMagic : Bytes := [0x46, 0x53, 0x58, 0x45, 0x4e, 0x44, 0x31, 0x00]

structure ImageInfo where
  sourceBytes : Nat
  logicalSector : Nat
  chunkBytes : Nat
  chunks : Nat
  dataChunks : Nat := 0
  zeroChunks : Nat := 0
  storedPayloadBytes : Nat := 0
  complete : Bool := false
  deriving DecidableEq

/-- `ceil_div_u64`。 -/
def ceilDivU64 (n d : Nat) : Nat := n / d + (if n % d ≠ 0 then 1 else 0)

/-- `all_zero`。8 byte ずつ見て、残りを 1 byte ずつ見る。 -/
def allZero : Bytes → Bool
  | b0 :: b1 :: b2 :: b3 :: b4 :: b5 :: b6 :: b7 :: rest =>
    if leNat [b0, b1, b2, b3, b4, b5, b6, b7] ≠ 0 then false else allZero rest
  | bs => bs.all fun b => b = 0

/-! ## 書く側 -/

/-- checksum を書く前の header。 -/
def headerBody (info : ImageInfo) (complete : Bool) : Bytes :=
  let h := patch (zeros headerSize) 0 headerMagic
  let h := writeLe 4 h 8 version
  let h := writeLe 4 h 12 headerSize
  let h := writeLe 8 h 16 info.sourceBytes
  let h := writeLe 4 h 24 info.logicalSector
  let h := writeLe 4 h 28 info.chunkBytes
  let h := writeLe 8 h 32 info.chunks
  let h := writeLe 4 h 40 (if complete then headerComplete else 0)
  writeLe 4 h 44 0

/-- `make_header`。 -/
def makeHeader (info : ImageInfo) (complete : Bool) : Bytes :=
  writeLe 4 (headerBody info complete) 44 (checksum (headerBody info complete))

structure ParsedRecord where
  index : Nat
  sourceOffset : Nat
  logicalLen : Nat
  storedLen : Nat
  flags : Nat
  payloadCrc : Nat
  deriving DecidableEq

/-- checksum を書く前の record。 -/
def recordBody (p : ParsedRecord) : Bytes :=
  let r := patch (zeros recordSize) 0 recordMagic
  let r := writeLe 8 r 8 p.index
  let r := writeLe 8 r 16 p.sourceOffset
  let r := writeLe 4 r 24 p.logicalLen
  let r := writeLe 4 r 28 p.storedLen
  let r := writeLe 4 r 32 p.flags
  let r := writeLe 4 r 36 p.payloadCrc
  writeLe 4 r 40 0

/-- `make_record`。 -/
def makeRecord (p : ParsedRecord) : Bytes := writeLe 4 (recordBody p) 40 (checksum (recordBody p))

/-- checksum を書く前の footer。 -/
def footerBody (info : ImageInfo) : Bytes :=
  let f := patch (zeros footerSize) 0 footerMagic
  let f := writeLe 8 f 8 info.chunks
  let f := writeLe 8 f 16 info.dataChunks
  let f := writeLe 8 f 24 info.zeroChunks
  let f := writeLe 8 f 32 info.storedPayloadBytes
  writeLe 4 f 40 0

/-- `make_footer`。 -/
def makeFooter (info : ImageInfo) : Bytes :=
  writeLe 4 (footerBody info) 40 (checksum (footerBody info))

/-! ## 読む側 -/

/-- 32 bit の `~bit`。 -/
def notBit (bit : Nat) : Nat := 0xffffffff ^^^ bit

/-- header の幾何の検査。 -/
def validGeometry (info : ImageInfo) : Bool :=
  decide (info.sourceBytes ≠ 0)
    && decide (info.logicalSector ≠ 0 ∧ info.logicalSector &&& (info.logicalSector - 1) = 0)
    && decide (512 ≤ info.logicalSector ∧ info.logicalSector ≤ 65536)
    && decide (64 * 1024 ≤ info.chunkBytes ∧ info.chunkBytes ≤ 64 * 1024 * 1024)
    && decide (info.chunkBytes % info.logicalSector = 0)

/-- `parse_header`。 -/
def parseHeader (h : Bytes) : Result ImageInfo := do
  if h.length ≠ headerSize ∨ slice h 0 8 ≠ headerMagic then
    throw { code := .corrupt, message := "not an FSX image" }
  if readLe 4 h 8 ≠ version ∨ readLe 4 h 12 ≠ headerSize then
    throw { code := .unsupported, message := "unsupported FSX image format version" }
  if checksum (writeLe 4 h 44 0) ≠ readLe 4 h 44 then
    throw { code := .corrupt, message := "FSX image header checksum failed" }
  let flags := readLe 4 h 40
  if flags &&& notBit headerComplete ≠ 0 then
    throw { code := .unsupported, message := "FSX image header uses unknown flags" }
  let info : ImageInfo := {
    sourceBytes := readLe 8 h 16
    logicalSector := readLe 4 h 24
    chunkBytes := readLe 4 h 28
    chunks := readLe 8 h 32
    complete := flags &&& headerComplete ≠ 0 }
  if validGeometry info = false then
    throw { code := .corrupt, message := "invalid FSX image geometry" }
  if info.chunks ≠ ceilDivU64 info.sourceBytes info.chunkBytes then
    throw { code := .corrupt, message := "FSX image chunk count is inconsistent" }
  return info

/-- record の欄。 -/
def decodeRecord (r : Bytes) : ParsedRecord where
  index := readLe 8 r 8
  sourceOffset := readLe 8 r 16
  logicalLen := readLe 4 r 24
  storedLen := readLe 4 r 28
  flags := readLe 4 r 32
  payloadCrc := readLe 4 r 36

/-- `parse_record`。 -/
def parseRecord (r : Bytes) (info : ImageInfo) (expectedIndex : Nat) : Result ParsedRecord := do
  if r.length ≠ recordSize ∨ slice r 0 8 ≠ recordMagic then
    throw { code := .corrupt, message := "invalid FSX image chunk record" }
  if checksum (writeLe 4 r 40 0) ≠ readLe 4 r 40 then
    throw { code := .corrupt, message := "FSX image chunk header checksum failed" }
  let p := decodeRecord r
  if expectedIndex > (2 ^ 64 - 1) / info.chunkBytes then
    throw { code := .corrupt, message := "FSX image chunk offset overflows" }
  let expectedOffset := expectedIndex * info.chunkBytes
  if p.index ≠ expectedIndex ∨ p.sourceOffset ≠ expectedOffset
      ∨ p.sourceOffset ≥ info.sourceBytes then
    throw { code := .corrupt, message := "FSX image chunks are out of order" }
  let expectedLen := min info.chunkBytes (info.sourceBytes - p.sourceOffset)
  if p.logicalLen ≠ expectedLen ∨ p.logicalLen = 0 then
    throw { code := .corrupt, message := "FSX image chunk length is invalid" }
  if p.flags &&& notBit chunkZero ≠ 0 then
    throw { code := .unsupported, message := "FSX image uses unknown chunk flags" }
  if p.flags &&& chunkZero ≠ 0 then
    if p.storedLen ≠ 0 ∨ p.payloadCrc ≠ 0 then
      throw { code := .corrupt, message := "zero chunk contains payload metadata" }
    return p
  if p.storedLen ≠ p.logicalLen then
    throw { code := .corrupt
            message := "uncompressed chunk stored length differs from logical length" }
  return p

/-- `parse_footer`。 -/
def parseFooter (f : Bytes) (info : ImageInfo) : Result ImageInfo := do
  if f.length ≠ footerSize ∨ slice f 0 8 ≠ footerMagic then
    throw { code := .corrupt, message := "FSX image footer is missing" }
  if checksum (writeLe 4 f 40 0) ≠ readLe 4 f 40 then
    throw { code := .corrupt, message := "FSX image footer checksum failed" }
  if readLe 8 f 8 ≠ info.chunks then
    throw { code := .corrupt, message := "FSX image footer chunk count differs from header" }
  let data := readLe 8 f 16
  let zeroes := readLe 8 f 24
  if data > info.chunks ∨ zeroes ≠ info.chunks - data then
    throw { code := .corrupt, message := "FSX image footer chunk totals are invalid" }
  return { info with
    dataChunks := data
    zeroChunks := zeroes
    storedPayloadBytes := readLe 8 f 32 }

/-! ## 零の検査 -/

theorem leNat_eq_zero_iff : ∀ b : Bytes, leNat b = 0 ↔ ∀ x ∈ b, x = 0
  | [] => by simp [leNat]
  | x :: xs => by
    have hx : x.toNat = 0 ↔ x = 0 := by
      constructor
      · intro h
        exact UInt8.toNat_inj.mp h
      · rintro rfl
        rfl
    rw [leNat, List.forall_mem_cons, ← leNat_eq_zero_iff xs, ← hx]
    omega

/-- `all_zero` は、どの byte も零であることを見ている。 -/
theorem allZero_iff (b : Bytes) : allZero b = true ↔ ∀ x ∈ b, x = 0 := by
  fun_induction allZero b with
  | case1 b0 b1 b2 b3 b4 b5 b6 b7 rest hne =>
    rw [ne_eq, leNat_eq_zero_iff] at hne
    simp only [Bool.false_eq_true, false_iff]
    intro hall
    refine hne fun x hx => hall x ?_
    exact List.mem_append_left rest hx
  | case2 b0 b1 b2 b3 b4 b5 b6 b7 rest hne ih =>
    rw [ne_eq, not_not, leNat_eq_zero_iff] at hne
    rw [ih]
    simp only [List.forall_mem_cons] at hne ⊢
    obtain ⟨h0, h1, h2, h3, h4, h5, h6, h7, -⟩ := hne
    constructor
    · intro h
      exact ⟨h0, h1, h2, h3, h4, h5, h6, h7, h⟩
    · rintro ⟨-, -, -, -, -, -, -, -, h⟩
      exact h
  | case3 bs _ => simp

theorem allZero_zeros (n : Nat) : allZero (zeros n) = true :=
  (allZero_iff _).mpr fun _ hx => (List.mem_replicate.mp hx).2

theorem eq_zeros_of_allZero {b : Bytes} (h : allZero b = true) : b = zeros b.length :=
  List.eq_replicate_of_mem ((allZero_iff b).mp h)

/-! ## 往復 -/

/-- checksum の欄を零に戻すと、書く前の列になる。 -/
theorem sealed_checksum {b : Bytes} {off : Nat} (h : off + 4 ≤ b.length)
    (hz : writeLe 4 b off 0 = b) :
    checksum (writeLe 4 (writeLe 4 b off (checksum b)) off 0) =
      readLe 4 (writeLe 4 b off (checksum b)) off := by
  rw [writeLe_writeLe, hz, readLe_writeLe_self h]
  exact (Nat.mod_eq_of_lt (UInt32.toNat_lt _)).symm

@[simp] theorem length_headerBody (info : ImageInfo) (c : Bool) :
    (headerBody info c).length = headerSize := by
  simp only [headerBody, length_writeLe, length_patch, length_zeros]

@[simp] theorem length_makeHeader (info : ImageInfo) (c : Bool) :
    (makeHeader info c).length = headerSize := by
  simp only [makeHeader, length_writeLe, length_headerBody]

@[simp] theorem length_recordBody (p : ParsedRecord) : (recordBody p).length = recordSize := by
  simp only [recordBody, length_writeLe, length_patch, length_zeros]

@[simp] theorem length_makeRecord (p : ParsedRecord) : (makeRecord p).length = recordSize := by
  simp only [makeRecord, length_writeLe, length_recordBody]

@[simp] theorem length_footerBody (info : ImageInfo) : (footerBody info).length = footerSize := by
  simp only [footerBody, length_writeLe, length_patch, length_zeros]

@[simp] theorem length_makeFooter (info : ImageInfo) : (makeFooter info).length = footerSize := by
  simp only [makeFooter, length_writeLe, length_footerBody]

/-- header の欄を読み戻す。 -/
theorem makeHeader_fields (info : ImageInfo) (c : Bool) (h1 : info.sourceBytes < 2 ^ 64)
    (h2 : info.logicalSector < 2 ^ 32) (h3 : info.chunkBytes < 2 ^ 32) (h4 : info.chunks < 2 ^ 64) :
    slice (makeHeader info c) 0 8 = headerMagic ∧
    readLe 4 (makeHeader info c) 8 = version ∧
    readLe 4 (makeHeader info c) 12 = headerSize ∧
    readLe 8 (makeHeader info c) 16 = info.sourceBytes ∧
    readLe 4 (makeHeader info c) 24 = info.logicalSector ∧
    readLe 4 (makeHeader info c) 28 = info.chunkBytes ∧
    readLe 8 (makeHeader info c) 32 = info.chunks ∧
    readLe 4 (makeHeader info c) 40 = (if c then headerComplete else 0) := by
  have e1 : info.sourceBytes % 256 ^ 8 = info.sourceBytes := Nat.mod_eq_of_lt (by omega)
  have e2 : info.logicalSector % 256 ^ 4 = info.logicalSector := Nat.mod_eq_of_lt (by omega)
  have e3 : info.chunkBytes % 256 ^ 4 = info.chunkBytes := Nat.mod_eq_of_lt (by omega)
  have e4 : info.chunks % 256 ^ 8 = info.chunks := Nat.mod_eq_of_lt (by omega)
  have e5 : (if c then headerComplete else 0) % 256 ^ 4 = if c then headerComplete else 0 := by
    cases c <;> decide
  unfold makeHeader headerBody headerSize
  simp (disch := first | omega | simp) only [slice_writeLe_of_disjoint, readLe_writeLe_self,
    readLe_writeLe_of_disjoint, e1, e2, e3, e4, e5, and_true]
  exact ⟨slice_patch_self rfl (by simp), by decide, by decide⟩

/-- **header は読み戻せる。** -/
theorem parseHeader_makeHeader (info : ImageInfo) (c : Bool) (h1 : info.sourceBytes < 2 ^ 64)
    (h2 : info.logicalSector < 2 ^ 32) (h3 : info.chunkBytes < 2 ^ 32) (h4 : info.chunks < 2 ^ 64)
    (hg : validGeometry info = true)
    (hn : info.chunks = ceilDivU64 info.sourceBytes info.chunkBytes) :
    parseHeader (makeHeader info c) = .ok {
      sourceBytes := info.sourceBytes
      logicalSector := info.logicalSector
      chunkBytes := info.chunkBytes
      chunks := info.chunks
      complete := c } := by
  obtain ⟨f1, f2, f3, f4, f5, f6, f7, f8⟩ := makeHeader_fields info c h1 h2 h3 h4
  have hsum : checksum (writeLe 4 (makeHeader info c) 44 0) = readLe 4 (makeHeader info c) 44 :=
    sealed_checksum (by rw [length_headerBody]; decide) (writeLe_writeLe _ _ _ _ _)
  have hflag : (if c then headerComplete else 0) &&& notBit headerComplete = 0 := by cases c <;> decide
  have hcomp : decide ((if c then headerComplete else 0) &&& headerComplete ≠ 0) = c := by
    cases c <;> decide
  unfold parseHeader
  rw [if_neg (by simp [f1]), if_neg (by simp [f2, f3]), if_neg (not_not.mpr hsum), f8,
    if_neg (not_not.mpr hflag), f4, f5, f6, f7]
  dsimp only
  rw [hcomp, if_neg ?_, if_neg (not_not.mpr hn)]
  · rfl
  · rw [Bool.not_eq_false]
    exact hg

/-- record の欄を読み戻す。 -/
theorem makeRecord_fields (p : ParsedRecord) (h1 : p.index < 2 ^ 64) (h2 : p.sourceOffset < 2 ^ 64)
    (h3 : p.logicalLen < 2 ^ 32) (h4 : p.storedLen < 2 ^ 32) (h5 : p.flags < 2 ^ 32)
    (h6 : p.payloadCrc < 2 ^ 32) :
    slice (makeRecord p) 0 8 = recordMagic ∧ decodeRecord (makeRecord p) = p := by
  have e1 : p.index % 256 ^ 8 = p.index := Nat.mod_eq_of_lt (by omega)
  have e2 : p.sourceOffset % 256 ^ 8 = p.sourceOffset := Nat.mod_eq_of_lt (by omega)
  have e3 : p.logicalLen % 256 ^ 4 = p.logicalLen := Nat.mod_eq_of_lt (by omega)
  have e4 : p.storedLen % 256 ^ 4 = p.storedLen := Nat.mod_eq_of_lt (by omega)
  have e5 : p.flags % 256 ^ 4 = p.flags := Nat.mod_eq_of_lt (by omega)
  have e6 : p.payloadCrc % 256 ^ 4 = p.payloadCrc := Nat.mod_eq_of_lt (by omega)
  unfold makeRecord recordBody recordSize decodeRecord
  simp (disch := first | omega | simp) only [slice_writeLe_of_disjoint, readLe_writeLe_self,
    readLe_writeLe_of_disjoint, e1, e2, e3, e4, e5, e6, and_true]
  exact slice_patch_self rfl (by simp)

/-- 零の chunk か。 -/
def ParsedRecord.isZero (p : ParsedRecord) : Bool := p.flags &&& chunkZero ≠ 0

/-- `parse_record` の求める record。 -/
structure RecordOk (p : ParsedRecord) (info : ImageInfo) (i : Nat) : Prop where
  index : p.index = i
  offset : p.sourceOffset = i * info.chunkBytes
  inside : p.sourceOffset < info.sourceBytes
  len : p.logicalLen = min info.chunkBytes (info.sourceBytes - p.sourceOffset)
  len_pos : 0 < p.logicalLen
  flags : p.flags &&& notBit chunkZero = 0
  zeroed : p.isZero = true → p.storedLen = 0 ∧ p.payloadCrc = 0
  stored : p.isZero = false → p.storedLen = p.logicalLen

theorem recordOk_of_parseRecord {r : Bytes} {info : ImageInfo} {i : Nat} {p : ParsedRecord}
    (h : parseRecord r info i = .ok p) : RecordOk p info i := by
  unfold parseRecord at h
  simp only [Result.guard_bind_eq_ok_iff] at h
  obtain ⟨-, -, -, horder, hlen, hflags, h⟩ := h
  by_cases hz : (decodeRecord r).flags &&& chunkZero ≠ 0
  · rw [if_pos hz, Result.guard_bind_eq_ok_iff, Result.pure_eq_ok_iff] at h
    obtain ⟨hzero, rfl⟩ := h
    refine ⟨by omega, by omega, by omega, by omega, by omega, not_not.mp hflags,
      fun _ => by omega, fun hc => ?_⟩
    unfold ParsedRecord.isZero at hc
    simp [hz] at hc
  · rw [if_neg hz, Result.guard_bind_eq_ok_iff, Result.pure_eq_ok_iff] at h
    obtain ⟨hstored, rfl⟩ := h
    refine ⟨by omega, by omega, by omega, by omega, by omega, not_not.mp hflags, fun hc => ?_,
      fun _ => by omega⟩
    unfold ParsedRecord.isZero at hc
    simp [hz] at hc

/-- **record は読み戻せる。** -/
theorem parseRecord_makeRecord {p : ParsedRecord} {info : ImageInfo} {i : Nat}
    (h : RecordOk p info i) (hchunk : 0 < info.chunkBytes) (hchunk' : info.chunkBytes < 2 ^ 32)
    (hsource : info.sourceBytes < 2 ^ 64) (hflags : p.flags < 2 ^ 32) (hcrc : p.payloadCrc < 2 ^ 32) :
    parseRecord (makeRecord p) info i = .ok p := by
  have hin := h.inside
  have hoff := h.offset
  have hlen := h.len
  have hindex : i * 1 ≤ i * info.chunkBytes := Nat.mul_le_mul_left i hchunk
  have hstored : p.storedLen < 2 ^ 32 := by
    cases hz : p.isZero with
    | true =>
      rw [(h.zeroed hz).1]
      decide
    | false =>
      rw [h.stored hz]
      omega
  obtain ⟨f1, f2⟩ := makeRecord_fields p (by rw [h.index]; omega) (by omega) (by omega) hstored hflags
    hcrc
  have hsum : checksum (writeLe 4 (makeRecord p) 40 0) = readLe 4 (makeRecord p) 40 :=
    sealed_checksum (by rw [length_recordBody]; decide) (writeLe_writeLe _ _ _ _ _)
  have hover : ¬ i > (2 ^ 64 - 1) / info.chunkBytes := by
    rw [Nat.not_lt, Nat.le_div_iff_mul_le hchunk]
    omega
  have horder : ¬ (p.index ≠ i ∨ p.sourceOffset ≠ i * info.chunkBytes ∨
      p.sourceOffset ≥ info.sourceBytes) := by
    have := h.index
    omega
  have hlen' : ¬ (p.logicalLen ≠ min info.chunkBytes (info.sourceBytes - p.sourceOffset) ∨
      p.logicalLen = 0) := by
    have := h.len_pos
    omega
  unfold parseRecord
  rw [if_neg (by simp [f1]), if_neg (not_not.mpr hsum), f2, if_neg hover]
  dsimp only
  rw [if_neg horder, if_neg hlen', if_neg (not_not.mpr h.flags)]
  by_cases hz : p.flags &&& chunkZero ≠ 0
  · have hzero := h.zeroed (by unfold ParsedRecord.isZero; simp [hz])
    rw [if_pos hz, if_neg (by omega)]
    rfl
  · have hst := h.stored (by unfold ParsedRecord.isZero; simpa using hz)
    rw [if_neg hz, if_neg (by omega)]
    rfl

/-- footer の欄を読み戻す。 -/
theorem makeFooter_fields (info : ImageInfo) (h1 : info.chunks < 2 ^ 64)
    (h2 : info.dataChunks < 2 ^ 64) (h3 : info.zeroChunks < 2 ^ 64)
    (h4 : info.storedPayloadBytes < 2 ^ 64) :
    slice (makeFooter info) 0 8 = footerMagic ∧
    readLe 8 (makeFooter info) 8 = info.chunks ∧
    readLe 8 (makeFooter info) 16 = info.dataChunks ∧
    readLe 8 (makeFooter info) 24 = info.zeroChunks ∧
    readLe 8 (makeFooter info) 32 = info.storedPayloadBytes := by
  have e1 : info.chunks % 256 ^ 8 = info.chunks := Nat.mod_eq_of_lt (by omega)
  have e2 : info.dataChunks % 256 ^ 8 = info.dataChunks := Nat.mod_eq_of_lt (by omega)
  have e3 : info.zeroChunks % 256 ^ 8 = info.zeroChunks := Nat.mod_eq_of_lt (by omega)
  have e4 : info.storedPayloadBytes % 256 ^ 8 = info.storedPayloadBytes :=
    Nat.mod_eq_of_lt (by omega)
  unfold makeFooter footerBody footerSize
  simp (disch := first | omega | simp) only [slice_writeLe_of_disjoint, readLe_writeLe_self,
    readLe_writeLe_of_disjoint, e1, e2, e3, e4, and_true]
  exact slice_patch_self rfl (by simp)

/-- **footer は読み戻せる。** -/
theorem parseFooter_makeFooter {info totals : ImageInfo} (hc : totals.chunks = info.chunks)
    (hsum : totals.dataChunks + totals.zeroChunks = info.chunks) (h1 : info.chunks < 2 ^ 64)
    (h2 : totals.storedPayloadBytes < 2 ^ 64) :
    parseFooter (makeFooter totals) info = .ok { info with
      dataChunks := totals.dataChunks
      zeroChunks := totals.zeroChunks
      storedPayloadBytes := totals.storedPayloadBytes } := by
  obtain ⟨f1, f2, f3, f4, f5⟩ := makeFooter_fields totals (by omega) (by omega) (by omega) h2
  have hck : checksum (writeLe 4 (makeFooter totals) 40 0) = readLe 4 (makeFooter totals) 40 :=
    sealed_checksum (by rw [length_footerBody]; decide) (writeLe_writeLe _ _ _ _ _)
  unfold parseFooter
  rw [if_neg (by simp [f1]), if_neg (not_not.mpr hck), f2, f3, f4, f5, if_neg (not_not.mpr hc)]
  dsimp only
  rw [if_neg (by omega)]
  rfl

end Fsx.ImageFile
