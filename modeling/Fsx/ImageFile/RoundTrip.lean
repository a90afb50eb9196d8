import Fsx.ImageFile.Trust

/-!
# image の往復

`create` の書いた file は `verify` が同じ情報で受け入れ、`restore` は source と同じ内容を target に書く。
-/

namespace Fsx.ImageFile

/-! ## 列の切り出し -/

/-- 先頭を同じ長さの列で上書きする。 -/
theorem patch_append_left {a a' b : Bytes} (h : a'.length = a.length) :
    patch (a ++ b) 0 a' = a' ++ b := by
  unfold patch
  rw [List.take_zero, List.nil_append, Nat.sub_zero, Nat.zero_add, h, List.drop_left,
    List.take_of_length_le]
  rw [List.length_append, h]
  omega

/-! ## chunk のループ -/

/-- `create` の作る record。 -/
def chunkRecord (i off len : Nat) (elided : Bool) (span : Bytes) : ParsedRecord where
  index := i
  sourceOffset := off
  logicalLen := len
  storedLen := if elided then 0 else len
  flags := if elided then chunkZero else 0
  payloadCrc := if elided then 0 else checksum span

theorem isZero_chunkRecord (i off len : Nat) (elided : Bool) (span : Bytes) :
    (chunkRecord i off len elided span).isZero = elided := by
  show decide ((if elided then chunkZero else 0) &&& chunkZero ≠ 0) = elided
  cases elided <;> decide

theorem recordOk_chunkRecord {info : ImageInfo} {i : Nat} {elided : Bool} {span : Bytes}
    (hchunk : 0 < info.chunkBytes) (hin : i * info.chunkBytes < info.sourceBytes) :
    RecordOk (chunkRecord i (i * info.chunkBytes)
      (min info.chunkBytes (info.sourceBytes - i * info.chunkBytes)) elided span) info i := by
  refine ⟨rfl, rfl, hin, rfl, ?_, ?_, fun hz => ?_, fun hz => ?_⟩
  · show 0 < min info.chunkBytes (info.sourceBytes - i * info.chunkBytes)
    omega
  · show (if elided then chunkZero else 0) &&& notBit chunkZero = 0
    cases elided <;> decide
  · rw [isZero_chunkRecord] at hz
    subst hz
    exact ⟨rfl, rfl⟩
  · rw [isZero_chunkRecord] at hz
    subst hz
    rfl

/-- chunk の内容が source の内容である。 -/
def Copies (source : Disk) (c : Chunk) : Prop :=
  c.content = source.data.read c.record.sourceOffset c.record.logicalLen

/-- 数えるほかの欄が同じ情報。 -/
structure SameGeometry (a b : ImageInfo) : Prop where
  sourceBytes : a.sourceBytes = b.sourceBytes
  logicalSector : a.logicalSector = b.logicalSector
  chunkBytes : a.chunkBytes = b.chunkBytes
  chunks : a.chunks = b.chunks

/-- 情報の中の、数えた数。 -/
def ImageInfo.totals (info : ImageInfo) : Totals where
  dataChunks := info.dataChunks
  zeroChunks := info.zeroChunks
  payloadBytes := info.storedPayloadBytes

/-- 一つの chunk を書いたところは、その chunk として読める。 -/
theorem scans_chunk {source : Disk} {info : ImageInfo} {i e : Nat} {sparse : Bool} {cs : List Chunk}
    {file pre post : Bytes} (hsource : source.sizeBytes = info.sourceBytes) (hchunk : 0 < info.chunkBytes)
    (hchunk' : info.chunkBytes < 2 ^ 32) (hin : i * info.chunkBytes < info.sourceBytes)
    {len : Nat} (hlen : len = min info.chunkBytes (info.sourceBytes - i * info.chunkBytes))
    {span : Bytes} (hspan : span = source.data.read (i * info.chunkBytes) len)
    {elided : Bool} (helided : elided = (sparse && allZero span))
    {stored : Bytes} (hstored : stored = if elided then [] else span)
    {p : ParsedRecord} (hp : p = chunkRecord i (i * info.chunkBytes) len elided span)
    (hfile : file = pre ++ makeRecord p ++ stored ++ post)
    (hs : Scans file info (i + 1) (pre.length + recordSize + p.storedLen) cs e) :
    Scans file info i pre.length (⟨p, stored⟩ :: cs) e ∧ Copies source ⟨p, stored⟩ := by
  have hsize := source.size_lt
  have hslen : span.length = len := by rw [hspan, Image.length_read]
  have hrec : RecordOk p info i := by
    rw [hp, hlen]
    exact recordOk_chunkRecord hchunk hin
  have hlenp : stored.length = p.storedLen := by
    rw [hstored, hp]
    cases elided
    · exact hslen
    · rfl
  have hcrc : p.payloadCrc < 2 ^ 32 := by
    rw [hp]
    cases elided
    · exact UInt32.toNat_lt _
    · exact Nat.zero_lt_succ _
  have hflags : p.flags < 2 ^ 32 := by
    rw [hp]
    show (if elided then chunkZero else 0) < 2 ^ 32
    cases elided <;> decide
  have hraw : slice file pre.length recordSize = makeRecord p := by
    rw [hfile, List.append_assoc (pre ++ makeRecord p)]
    exact slice_append_middle rfl (length_makeRecord p)
  have hpay : slice file (pre.length + recordSize) p.storedLen = stored := by
    rw [hfile]
    exact slice_append_middle (by rw [List.length_append, length_makeRecord]) hlenp
  have hroom : pre.length + recordSize + p.storedLen ≤ file.length := by
    rw [hfile]
    simp only [List.length_append, length_makeRecord]
    omega
  constructor
  · have hone := @Scans.cons file info i pre.length _ p _
      (by rw [hraw]; exact parseRecord_makeRecord hrec hchunk hchunk' (by omega) hflags hcrc) hroom
      (fun hz => ?_) hs
    · rw [hpay] at hone
      exact hone
    · rw [hpay, hstored]
      rw [hp, isZero_chunkRecord] at hz
      rw [hp, hz]
      rfl
  · unfold Copies Chunk.content
    dsimp only
    rw [hp, isZero_chunkRecord, hstored]
    cases he : elided with
    | false => exact hspan
    | true =>
      rw [he] at helided
      have hzero : allZero span = true := (Bool.and_eq_true_iff.mp helided.symm).2
      rw [if_pos rfl]
      show zeros len = source.data.read (i * info.chunkBytes) len
      rw [← hspan, eq_zeros_of_allZero hzero, hslen]

/-- ループの一回分。どちらの枝も、record と payload を書いて続きに進む。 -/
theorem createChunks_succ {host : CreateHost} {source : Disk} {sparse : Bool} {n i off : Nat}
    {info : ImageInfo} {out : Bytes} {r : ImageInfo × Bytes}
    (h : createChunks host source sparse (n + 1) i off info out = .ok r) :
    ∃ len span elided p stored info1,
      len = min info.chunkBytes (info.sourceBytes - off) ∧ span = source.data.read off len ∧
      elided = (sparse && allZero span) ∧ stored = (if elided then [] else span) ∧
      p = chunkRecord i off len elided span ∧ SameGeometry info1 info ∧
      info1.complete = info.complete ∧ info1.totals = info.totals.add ⟨p, stored⟩ ∧
      createChunks host source sparse n (i + 1) (off + len) info1
        (out ++ makeRecord p ++ stored) = .ok r := by
  rw [createChunks] at h
  by_cases hc : host.cancelled i = true
  · rw [if_pos hc] at h
    cases h
  rw [if_neg hc] at h
  obtain ⟨span, hspan, h⟩ := Result.bind_eq_ok h
  obtain ⟨-, hspan⟩ := Disk.readExact_eq_ok_iff.mp hspan
  dsimp only at h
  generalize helided : (sparse && allZero span) = elided at h
  have hz := isZero_chunkRecord i off (min info.chunkBytes (info.sourceBytes - off)) elided span
  refine ⟨_, span, elided, _, _, ?_, rfl, hspan, helided.symm, rfl, rfl, ?_⟩
  · exact if elided then { info with zeroChunks := info.zeroChunks + 1 }
      else { info with
        dataChunks := info.dataChunks + 1
        storedPayloadBytes := info.storedPayloadBytes +
          min info.chunkBytes (info.sourceBytes - off) }
  · unfold Totals.add
    rw [hz]
    cases elided with
    | true =>
      refine ⟨⟨rfl, rfl, rfl, rfl⟩, rfl, rfl, ?_⟩
      rw [if_pos rfl, if_pos rfl, List.append_nil]
      exact h
    | false => exact ⟨⟨rfl, rfl, rfl, rfl⟩, rfl, rfl, h⟩

/-- `create` のループが書いた列。 -/
structure Written (source : Disk) (info : ImageInfo) (i n : Nat) (out : Bytes) (info' : ImageInfo)
    (out' : Bytes) (body : Bytes) (cs : List Chunk) : Prop where
  out_eq : out' = out ++ body
  length : cs.length = n
  geometry : SameGeometry info' info
  complete : info'.complete = info.complete
  totals : info'.totals = cs.foldl Totals.add info.totals
  copies : ∀ c ∈ cs, Copies source c
  scans : ∀ h : ImageInfo, h.sourceBytes = info.sourceBytes → h.chunkBytes = info.chunkBytes →
    ∀ pre post, Scans (pre ++ body ++ post) h i pre.length cs (pre.length + body.length)

theorem written_of_createChunks {host : CreateHost} {source : Disk} {sparse : Bool} :
    ∀ {n i off : Nat} {info info' : ImageInfo} {out out' : Bytes},
    createChunks host source sparse n i off info out = .ok (info', out') →
    source.sizeBytes = info.sourceBytes → 0 < info.chunkBytes → info.chunkBytes < 2 ^ 32 →
    (∀ k < i + n, k * info.chunkBytes < info.sourceBytes) → (n = 0 ∨ off = i * info.chunkBytes) →
    ∃ body cs, Written source info i n out info' out' body cs
  | 0, i, off, info, info', out, out', h, _, _, _, _, _ => by
    cases h
    refine ⟨[], [], ⟨by simp, rfl, ⟨rfl, rfl, rfl, rfl⟩, rfl, rfl, by simp, ?_⟩⟩
    intro _ _ _ pre post
    exact .nil i pre.length
  | n + 1, i, off, info, info', out, out', h, hsource, hchunk, hchunk', hin, hoff => by
    obtain rfl : off = i * info.chunkBytes := hoff.resolve_left (by omega)
    obtain ⟨len, span, elided, p, stored, info1, hlen, hspan, helided, hstored, hp, hg1, hc1, ht1, h1⟩ :=
      createChunks_succ h
    have hlast := hin i (by omega)
    -- 次の chunk があるなら、この chunk は満ちている
    have hoff' : n = 0 ∨ i * info.chunkBytes + len = (i + 1) * info.chunkBytes := by
      rcases Nat.eq_zero_or_pos n with hn | hn
      · exact Or.inl hn
      · right
        have hnext := hin (i + 1) (by omega)
        rw [Nat.succ_mul] at hnext ⊢
        omega
    have hplen : p.storedLen = stored.length := by
      rw [hp, hstored]
      cases elided
      · show len = span.length
        rw [hspan, Image.length_read]
      · rfl
    obtain ⟨body, cs, hw⟩ := written_of_createChunks h1 (by rw [hg1.sourceBytes]; exact hsource)
      (by rw [hg1.chunkBytes]; exact hchunk) (by rw [hg1.chunkBytes]; exact hchunk')
      (by
        rw [hg1.chunkBytes, hg1.sourceBytes]
        intro k hk
        exact hin k (by omega))
      (by rw [hg1.chunkBytes]; exact hoff')
    have hone : ∀ h : ImageInfo, h.sourceBytes = info.sourceBytes → h.chunkBytes = info.chunkBytes →
        ∀ pre post, Scans (pre ++ (makeRecord p ++ stored ++ body) ++ post) h i pre.length
          (⟨p, stored⟩ :: cs) (pre.length + (makeRecord p ++ stored ++ body).length) ∧
        Copies source ⟨p, stored⟩ := by
      intro hd e1 e2 pre post
      have hrest := hw.scans hd (by rw [e1, hg1.sourceBytes]) (by rw [e2, hg1.chunkBytes])
        (pre ++ makeRecord p ++ stored) post
      have hpre : (pre ++ makeRecord p ++ stored).length = pre.length + recordSize + p.storedLen := by
        simp only [List.length_append, length_makeRecord]
        omega
      rw [hpre] at hrest
      refine @scans_chunk _ _ _ _ sparse _ _ _ (body ++ post) (by rw [e1]; exact hsource)
        (by rw [e2]; exact hchunk) (by rw [e2]; exact hchunk') (by rw [e1, e2]; exact hlast)
        len (by rw [e1, e2]; exact hlen) _ (by rw [e2]; exact hspan) _ helided _ hstored
        _ (by rw [e2]; exact hp) (by simp only [List.append_assoc]) ?_
      have hfile : pre ++ (makeRecord p ++ stored ++ body) ++ post =
          pre ++ makeRecord p ++ stored ++ body ++ post := by simp only [List.append_assoc]
      have hend : pre.length + (makeRecord p ++ stored ++ body).length =
          pre.length + recordSize + p.storedLen + body.length := by
        simp only [List.length_append, length_makeRecord]
        omega
      rw [hfile, hend]
      exact hrest
    refine ⟨makeRecord p ++ stored ++ body, ⟨p, stored⟩ :: cs, ?_, ?_, ?_, ?_, ?_, ?_, ?_⟩
    · rw [hw.out_eq]
      simp only [List.append_assoc]
    · rw [List.length_cons, hw.length]
    · have g := hw.geometry
      exact ⟨g.sourceBytes.trans hg1.sourceBytes, g.logicalSector.trans hg1.logicalSector,
        g.chunkBytes.trans hg1.chunkBytes, g.chunks.trans hg1.chunks⟩
    · rw [hw.complete, hc1]
    · rw [hw.totals, ht1]
      rfl
    · intro c hc
      rcases List.mem_cons.mp hc with rfl | hc
      · exact (hone info rfl rfl [] []).2
      · exact hw.copies c hc
    · intro hd e1 e2 pre post
      exact (hone hd e1 e2 pre post).1

/-! ## 数えた数 -/

theorem lt_ceilDivU64_iff {k n d : Nat} (hd : 0 < d) : k < ceilDivU64 n d ↔ k * d < n := by
  unfold ceilDivU64
  have hdm := Nat.div_add_mod n d
  have hmod := Nat.mod_lt n hd
  rw [Nat.mul_comm] at hdm
  constructor
  · intro hk
    rcases Nat.lt_or_ge k (n / d) with hlt | hge
    · have := Nat.mul_le_mul_right d (Nat.succ_le_of_lt hlt)
      rw [Nat.succ_mul] at this
      omega
    · split at hk
      · obtain rfl : k = n / d := by omega
        omega
      · omega
  · intro hk
    by_contra hc
    have hge : n / d ≤ k := by omega
    have hmul := Nat.mul_le_mul_right d hge
    split at hc
    · have := Nat.mul_le_mul_right d (show n / d + 1 ≤ k by omega)
      rw [Nat.succ_mul] at this
      omega
    · omega

theorem count_foldl_add : ∀ (cs : List Chunk) (t : Totals),
    (cs.foldl Totals.add t).dataChunks + (cs.foldl Totals.add t).zeroChunks =
      t.dataChunks + t.zeroChunks + cs.length
  | [], _ => rfl
  | c :: cs, t => by
    rw [List.foldl_cons, count_foldl_add cs, List.length_cons]
    unfold Totals.add
    split
    · show t.dataChunks + (t.zeroChunks + 1) + cs.length = _
      omega
    · show t.dataChunks + 1 + t.zeroChunks + cs.length = _
      omega

theorem Scans.payload_le {file : Bytes} {info : ImageInfo} {i pos e : Nat} {cs : List Chunk}
    (h : Scans file info i pos cs e) : ∀ {t : Totals}, t.payloadBytes ≤ i * info.chunkBytes →
    (cs.foldl Totals.add t).payloadBytes ≤ (i + cs.length) * info.chunkBytes := by
  induction h with
  | nil i pos =>
    intro t ht
    exact ht
  | @cons i pos e p cs hp hin hsum hs ih =>
    intro t ht
    have := ih (Totals.add_le (b := slice file (pos + recordSize) p.storedLen)
      (recordOk_of_parseRecord hp) ht)
    rw [List.foldl_cons, List.length_cons, show i + (cs.length + 1) = i + 1 + cs.length by omega]
    exact this

/-! ## 作った file -/

/-- 二冪の sector。 -/
structure SectorOk (s : Nat) : Prop where
  pow : ∃ k, s = 2 ^ k
  ge : 512 ≤ s
  le : s ≤ 65536

theorem SectorOk.and_pred {s : Nat} (h : SectorOk s) : s &&& (s - 1) = 0 := by
  obtain ⟨k, rfl⟩ := h.pow
  rw [Nat.and_two_pow_sub_one_eq_mod, Nat.mod_self]

/-- 作り始めるときの情報。 -/
def startInfo (source : Disk) (opts : CreateOptions) : ImageInfo where
  sourceBytes := source.sizeBytes
  logicalSector := source.logicalSector
  chunkBytes := opts.chunkBytes
  chunks := ceilDivU64 source.sizeBytes opts.chunkBytes

/-- `create` の受け入れる source と chunk の大きさ。 -/
structure Creatable (source : Disk) (opts : CreateOptions) : Prop where
  chunk_ge : 64 * 1024 ≤ opts.chunkBytes
  chunk_le : opts.chunkBytes ≤ 64 * 1024 * 1024
  aligned : opts.chunkBytes % source.logicalSector = 0
  nonempty : 0 < source.sizeBytes

section Created

variable {source : Disk} {opts : CreateOptions}

theorem Creatable.chunk_lt (hc : Creatable source opts) {k : Nat}
    (hk : k < (startInfo source opts).chunks) : k * opts.chunkBytes < source.sizeBytes := by
  have := hc.chunk_ge
  exact (lt_ceilDivU64_iff (by omega)).mp hk

theorem Creatable.chunks_mul_lt (hc : Creatable source opts) :
    (startInfo source opts).chunks * opts.chunkBytes < 2 ^ 64 := by
  have hsize := source.size_lt
  have hle := hc.chunk_le
  rcases Nat.eq_zero_or_pos (startInfo source opts).chunks with hz | hz
  · rw [hz, Nat.zero_mul]
    decide
  · have hlast := hc.chunk_lt (k := (startInfo source opts).chunks - 1) (by omega)
    rw [Nat.sub_one_mul] at hlast
    omega

theorem Creatable.chunks_lt (hc : Creatable source opts) :
    (startInfo source opts).chunks < 2 ^ 64 := by
  have hmul := hc.chunks_mul_lt
  have hge := hc.chunk_ge
  have := Nat.mul_le_mul_left (startInfo source opts).chunks (show 1 ≤ opts.chunkBytes by omega)
  omega

/-- 成功した `create` は、header・ループの書いた列・footer をこの順に残す。 -/
theorem create_eq_ok {host : CreateHost} {info' : ImageInfo} {file : Bytes}
    (h : create host source opts = .ok (info', file)) :
    Creatable source opts ∧ ∃ info out body cs,
      Written source (startInfo source opts) 0 (startInfo source opts).chunks
        (makeHeader (startInfo source opts) false) info out body cs ∧
      info' = { info with complete := true } ∧
      file = makeHeader info' true ++ body ++ makeFooter info := by
  unfold create at h
  simp only [Result.guard_bind_eq_ok_iff, Result.bind_eq_ok_iff, Result.pure_eq_ok_iff] at h
  obtain ⟨hrange, -, hmul, -, -, -, -, hempty, ⟨info, out⟩, hchunks, -, -, -, -, hret⟩ := h
  obtain ⟨hinfo, hfile⟩ := Prod.mk.inj hret
  have hc : Creatable source opts := ⟨by omega, by omega, by omega, by omega⟩
  have hsize := source.size_lt
  have hpos : 0 < (startInfo source opts).chunkBytes := by show 0 < opts.chunkBytes; omega
  obtain ⟨body, cs, hw⟩ := @written_of_createChunks _ _ _ _ _ _ (startInfo source opts) _ _ _
    hchunks rfl hpos
    (by show opts.chunkBytes < 2 ^ 32; omega)
    (fun k hk => hc.chunk_lt (by rwa [Nat.zero_add] at hk)) (Or.inr (Nat.zero_mul _).symm)
  refine ⟨hc, info, out, body, cs, hw, hinfo, ?_⟩
  rw [hfile, hinfo, hw.out_eq, List.append_assoc,
    patch_append_left (by rw [length_makeHeader, length_makeHeader]), List.append_assoc]

/-- 二冪の sector の source からは、幾何の検査を通る header ができる。 -/
theorem Creatable.validGeometry_eq (hc : Creatable source opts) (hsector : SectorOk source.logicalSector) :
    validGeometry (startInfo source opts) = true := by
  have hge := hc.chunk_ge
  have hle := hc.chunk_le
  have hsge := hsector.ge
  have hsle := hsector.le
  have hand := hsector.and_pred
  have hal := hc.aligned
  have hne := hc.nonempty
  unfold validGeometry startInfo
  simp only [Bool.and_eq_true, decide_eq_true_eq]
  omega

/-- chunk の大きさは sector の倍数なので、sector は header の欄に収まる。 -/
theorem Creatable.sector_lt (hc : Creatable source opts) : source.logicalSector < 2 ^ 32 := by
  have hge := hc.chunk_ge
  have hle := hc.chunk_le
  have hdvd := Nat.le_of_dvd (by omega) (Nat.dvd_of_mod_eq_zero hc.aligned)
  omega

/-- 完成した header を読み戻した情報。 -/
theorem Creatable.parseHeader_eq (hc : Creatable source opts)
    (hvalid : validGeometry (startInfo source opts) = true) {info : ImageInfo}
    (hg : SameGeometry info (startInfo source opts)) :
    parseHeader (makeHeader info true) = .ok { startInfo source opts with complete := true } := by
  obtain ⟨g1, g2, g3, g4⟩ := hg
  have hsize := source.size_lt
  have hsector := hc.sector_lt
  have hle := hc.chunk_le
  rw [parseHeader_makeHeader info true (by rw [g1]; exact hsize.trans_le (by decide))
    (by rw [g2]; exact hsector) (by rw [g3]; show opts.chunkBytes < _; omega)
    (by rw [g4]; exact hc.chunks_lt)
    (by unfold validGeometry at hvalid ⊢; rw [g1, g2, g3]; exact hvalid) (by rw [g4, g1, g3]; rfl),
    g1, g2, g3, g4]
  rfl

/-- 幾何の検査を通るなら、`create` の作った file は source の chunk の列として読める。 -/
theorem decodes_of_validGeometry {host : CreateHost} {info' : ImageInfo} {file : Bytes}
    (hvalid : validGeometry (startInfo source opts) = true)
    (h : create host source opts = .ok (info', file)) :
    ∃ info cs e, Decodes file info cs e info' ∧ Accounts info' cs ∧
      file.length = e + footerSize ∧ (∀ c ∈ cs, Copies source c) ∧
      info.sourceBytes = source.sizeBytes ∧ info.chunkBytes = opts.chunkBytes ∧
      Creatable source opts ∧ cs.length = (startInfo source opts).chunks := by
  obtain ⟨hc, info, out, body, cs, hw, hinfo', hfile⟩ := create_eq_ok h
  have hlen := hw.length
  have hg : SameGeometry info' (startInfo source opts) := by
    obtain ⟨g1, g2, g3, g4⟩ := hw.geometry
    rw [hinfo']
    exact ⟨g1, g2, g3, g4⟩
  have htot : info.totals = cs.foldl Totals.add {} := hw.totals
  -- 数えた数は、chunk の数と source の大きさで抑えられる
  have hsum : info.dataChunks + info.zeroChunks = (startInfo source opts).chunks := by
    have hcount := count_foldl_add cs {}
    rw [hlen, ← htot] at hcount
    exact hcount.trans (Nat.zero_add _)
  have hscan := hw.scans { startInfo source opts with complete := true } rfl rfl
    (makeHeader info' true) (makeFooter info)
  rw [length_makeHeader, ← hfile] at hscan
  have hpay : info.storedPayloadBytes < 2 ^ 64 := by
    have hle := hscan.payload_le (t := {}) (Nat.zero_le _)
    rw [Nat.zero_add, hlen, ← htot] at hle
    exact Nat.lt_of_le_of_lt hle hc.chunks_mul_lt
  have hflen : file.length = headerSize + body.length + footerSize := by
    rw [hfile]
    simp only [List.length_append, length_makeHeader, length_makeFooter]
  have hhead : slice file 0 headerSize = makeHeader info' true := by
    have hmid := slice_append_middle (a := []) (b := makeHeader info' true)
      (c := body ++ makeFooter info) (k := 0) List.length_nil (length_makeHeader _ _)
    rwa [List.nil_append, ← List.append_assoc, ← hfile] at hmid
  have hfoot : slice file (headerSize + body.length) footerSize = makeFooter info := by
    have hmid := slice_append_middle (a := makeHeader info' true ++ body) (b := makeFooter info)
      (c := []) (k := headerSize + body.length) (by rw [List.length_append, length_makeHeader])
      (length_makeFooter info)
    rwa [List.append_nil, ← hfile] at hmid
  refine ⟨_, cs, headerSize + body.length, ⟨?_, rfl, hscan, hlen, by omega, ?_⟩, ?_, hflen, hw.copies,
    rfl, rfl, hc, hlen⟩
  · unfold readHeader
    rw [readAt_ok (by omega), Result.ok_bind, hhead]
    exact hc.parseHeader_eq hvalid hg
  · obtain ⟨g1, g2, g3, g4⟩ := hw.geometry
    have hparse := @parseFooter_makeFooter { startInfo source opts with complete := true } _
      g4 hsum hc.chunks_lt hpay
    rw [hfoot]
    refine hparse.trans ?_
    rw [hinfo', g1, g2, g3, g4]
  · rw [Accounts, ← htot, hinfo']
    exact ⟨rfl, rfl, rfl⟩

/-- `create` の作った file は、source の chunk の列として読める。 -/
theorem decodes_of_create {host : CreateHost} {info' : ImageInfo} {file : Bytes}
    (hsector : SectorOk source.logicalSector) (h : create host source opts = .ok (info', file)) :
    ∃ info cs e, Decodes file info cs e info' ∧ Accounts info' cs ∧
      file.length = e + footerSize ∧ (∀ c ∈ cs, Copies source c) ∧
      info.sourceBytes = source.sizeBytes ∧ info.chunkBytes = opts.chunkBytes ∧
      Creatable source opts ∧ cs.length = (startInfo source opts).chunks := by
  obtain ⟨hc, -⟩ := create_eq_ok h
  exact decodes_of_validGeometry (hc.validGeometry_eq hsector) h

end Created

/-! ## 復元した内容 -/

/-- source の写しの chunk をすべて書くと、source の範囲は source と同じになり、その先は変わらない。 -/
theorem restored_data {file : Bytes} {info : ImageInfo} {cs : List Chunk} {pos e : Nat} {source : Disk}
    (h : Scans file info 0 pos cs e) (hpos : 0 < info.chunkBytes)
    (hlen : cs.length = ceilDivU64 info.sourceBytes info.chunkBytes)
    (hcopies : ∀ c ∈ cs, Copies source c) (img : Image) :
    (∀ j < info.sourceBytes, img.applyAll (cs.map Chunk.write) j = source.data j) ∧
      ∀ j, info.sourceBytes ≤ j → img.applyAll (cs.map Chunk.write) j = img j := by
  constructor
  · intro j hj
    -- `j` の入る chunk を読み戻す
    have hdm := Nat.div_add_mod j info.chunkBytes
    have hmod := Nat.mod_lt j hpos
    rw [Nat.mul_comm] at hdm
    have hk : j / info.chunkBytes < cs.length := by
      rw [hlen, lt_ceilDivU64_iff hpos]
      omega
    obtain ⟨c, hc, hrec⟩ := h.exists_index (j / info.chunkBytes) (Nat.zero_le _) (by omega)
    obtain ⟨-, -, -, -, hclen⟩ := h.placed c hc
    have hread := Image.read_applyAll_of_mem h.pairwise (List.mem_map_of_mem hc) img
    have hsame : (img.applyAll (cs.map Chunk.write)).read c.record.sourceOffset c.record.logicalLen =
        source.data.read c.record.sourceOffset c.record.logicalLen := by
      rw [← hcopies c hc, ← hclen]
      exact hread
    have hoff := hrec.offset
    have hl := hrec.len
    exact Image.apply_eq_of_read_eq hsame (by omega) (by omega)
  · intro j hj
    have hread : (img.applyAll (cs.map Chunk.write)).read j 1 = img.read j 1 := by
      refine Image.read_applyAll_of_disjoint _ _ _ _ fun w hw => ?_
      obtain ⟨c, hc, rfl⟩ := List.mem_map.mp hw
      obtain ⟨k, -, -, hrec, hclen⟩ := h.placed c hc
      have hend := hrec.end_le
      right
      show c.record.sourceOffset + c.content.length ≤ j
      omega
    exact Image.apply_eq_of_read_eq hread (Nat.le_refl j) (by omega)

/--
**image の往復。** `create` が成功すれば、`verify` はその file を同じ情報で受け入れ、`restore` は成功して、
target のはじめの source の大きさの範囲を source と同じにし、その先を変えない。
-/
theorem image_round_trip {host : CreateHost} {source : Disk} {opts : CreateOptions} {info : ImageInfo}
    {file : Bytes} (hsector : SectorOk source.logicalSector)
    (h : create host source opts = .ok (info, file)) :
    verify (.ok ()) (fun _ => false) file = .ok info ∧
      ∀ rhost allow target, Restorable rhost allow target → source.sizeBytes ≤ target.sizeBytes →
        ∃ target', Proc.run (restore rhost file allow) target = (.ok info, target') ∧
          (∀ j < source.sizeBytes, target'.data j = source.data j) ∧
          ∀ j, source.sizeBytes ≤ j → target'.data j = target.data j := by
  obtain ⟨head, cs, e, hdec, hacc, hend, hcopies, hsource, hchunk, hc, hlen⟩ :=
    decodes_of_create hsector h
  refine ⟨verify_eq_ok_iff.mpr ⟨head, cs, e, hdec, hacc, hend⟩, ?_⟩
  intro rhost allow target hr hsize
  have hge := hc.chunk_ge
  obtain ⟨h1, h2⟩ := restored_data hdec.scans (by omega)
    (by rw [hlen, hsource, hchunk]; rfl) hcopies target.data
  have hdata : (target.emit ((cs.map Chunk.write).map .write ++ [.flush])).data =
      target.data.applyAll (cs.map Chunk.write) := by
    rw [Disk.emit_data, replay_append, replay_writes]
    rfl
  refine ⟨_, run_restore hr hdec (by omega), ?_, ?_⟩
  · rw [hdata, ← hsource]
    exact h1
  · rw [hdata, ← hsource]
    exact h2

/-! ## 作れること -/

/-- 作成を妨げない host。 -/
structure CreateHost.Permits (host : CreateHost) : Prop where
  lstat : host.lstat = .ok ()
  mkstemp : host.mkstemp = .ok ()
  fsync : host.fsync = .ok ()
  publish : host.publish = .ok ()
  notCancelled : ∀ i, host.cancelled i = false

theorem createChunks_total {host : CreateHost} (hh : host.Permits) {source : Disk} {sparse : Bool} :
    ∀ (n i off : Nat) (info : ImageInfo) (out : Bytes), info.sourceBytes = source.sizeBytes →
    off ≤ source.sizeBytes → ∃ r, createChunks host source sparse n i off info out = .ok r
  | 0, _, _, info, out, _, _ => ⟨(info, out), rfl⟩
  | n + 1, i, off, info, out, hs, hoff => by
    rw [createChunks, if_neg (by rw [hh.notCancelled]; decide)]
    dsimp only
    rw [Disk.readExact_ok (by omega), Result.ok_bind]
    split
    · exact createChunks_total hh n _ _ _ _ hs (by omega)
    · exact createChunks_total hh n _ _ _ _ hs (by omega)

/-- 妨げがなければ `create` は成功する。 -/
theorem create_total {host : CreateHost} (hh : host.Permits) {source : Disk} {opts : CreateOptions}
    (hc : Creatable source opts) (hsector : 0 < source.logicalSector) :
    ∃ info file, create host source opts = .ok (info, file) := by
  have hge := hc.chunk_ge
  have hle := hc.chunk_le
  have hal := hc.aligned
  have hne := hc.nonempty
  obtain ⟨⟨info, out⟩, hr⟩ := @createChunks_total _ hh source opts.sparseZeroChunks
    (startInfo source opts).chunks 0 0 (startInfo source opts) (makeHeader (startInfo source opts) false)
    rfl (Nat.zero_le _)
  unfold startInfo at hr
  unfold create
  rw [if_neg (by omega), if_neg (by omega), if_neg (by omega), hh.lstat, Result.ok_bind, hh.mkstemp,
    Result.ok_bind, if_neg (by omega)]
  dsimp only
  rw [hr, Result.ok_bind]
  dsimp only
  rw [hh.fsync, Result.ok_bind, hh.publish, Result.ok_bind]
  exact ⟨_, _, rfl⟩

namespace Small

/-- 三つの chunk に分かれる source。一つ目は零だけで、三つ目は途中までである。 -/
def source : Disk where
  sizeBytes := 150528
  logicalSector := 512
  isBlockDevice := false
  writable := false
  data := fun i => if i < 65536 then 0 else UInt8.ofNat (i % 7)
  events := []
  size_lt := by decide

def options : CreateOptions where
  chunkBytes := 65536

def target : Disk where
  sizeBytes := 200704
  logicalSector := 512
  isBlockDevice := false
  writable := true
  data := fun _ => 0
  events := []
  size_lt := by decide

def createHost : CreateHost where
  lstat := .ok ()
  mkstemp := .ok ()
  fsync := .ok ()
  publish := .ok ()
  cancelled := fun _ => false

def restoreHost : RestoreHost where
  openRead := .ok ()
  sameObject := .ok false
  offline := .ok ()
  cancelled := fun _ => false
  verifyCancelled := fun _ => false

theorem restorable : Restorable restoreHost false target :=
  ⟨rfl, rfl, rfl, (fun h => by cases h), rfl, fun _ => rfl, fun _ => rfl⟩

theorem sectorOk : SectorOk source.logicalSector := ⟨⟨9, rfl⟩, by decide, by decide⟩

theorem created : ∃ info file, create createHost source options = .ok (info, file) :=
  create_total ⟨rfl, rfl, rfl, rfl, fun _ => rfl⟩ ⟨by decide, by decide, by decide, by decide⟩ (by decide)

end Small

theorem image_round_trip_small : (startInfo Small.source Small.options).chunks = 3 ∧
    ∃ info file, SectorOk Small.source.logicalSector ∧
    create Small.createHost Small.source Small.options = .ok (info, file) ∧
    verify (.ok ()) (fun _ => false) file = .ok info ∧
    ∃ target', Proc.run (restore Small.restoreHost file false) Small.target = (.ok info, target') ∧
      ∀ j < Small.source.sizeBytes, target'.data j = Small.source.data j := by
  obtain ⟨info, file, h⟩ := Small.created
  obtain ⟨hv, hr⟩ := image_round_trip Small.sectorOk h
  obtain ⟨target', hrun, hdata, -⟩ := hr _ _ _ Small.restorable (by decide)
  exact ⟨by decide, info, file, Small.sectorOk, h, hv, target', hrun, hdata⟩

/-! ## 復元できて検証できない file -/

/-- footer の数が数えた数と合い、footer の後に何もない file。 -/
def FooterExact (file : Bytes) : Prop :=
  ∃ info cs e checked, Decodes file info cs e checked ∧ Accounts checked cs ∧
    file.length = e + footerSize

/--
**復元できた file を `verify` が同じ情報で受け入れるのは、footer の数が数えた数と合い、
footer の後に何もないときであり、そのときに限る。**
-/
theorem verify_iff_of_restore {host : RestoreHost} {file : Bytes} {allow : Bool} {d d' : Disk}
    {checked : ImageInfo} (h : Proc.run (restore host file allow) d = (.ok checked, d')) :
    verify host.openRead (fun _ => false) file = .ok checked ↔ FooterExact file := by
  obtain ⟨hopen, info, cs, e, hdec⟩ := decodes_of_restore h
  rw [hopen, verify_eq_ok_iff]
  constructor
  · rintro ⟨info', cs', e', hdec', hacc, hend⟩
    exact ⟨info', cs', e', checked, hdec', hacc, hend⟩
  · rintro ⟨info', cs', e', checked', hdec', hacc, hend⟩
    obtain ⟨-, -, rfl⟩ := hdec.unique hdec'
    exact ⟨info', cs', e', hdec', hacc, hend⟩

theorem verify_iff_of_restore_small : ∃ info file target', info.chunks = 3 ∧
    Proc.run (restore Small.restoreHost file false) Small.target = (.ok info, target') ∧
    (verify Small.restoreHost.openRead (fun _ => false) file = .ok info ↔ FooterExact file) := by
  obtain ⟨info, file, h⟩ := Small.created
  obtain ⟨-, _, _, _, _, hw, hinfo, -⟩ := create_eq_ok h
  obtain ⟨head, cs, e, hdec, -, -, -, hsource, -⟩ := decodes_of_create Small.sectorOk h
  have hrun := run_restore Small.restorable hdec (by rw [hsource]; decide)
  refine ⟨info, file, _, ?_, hrun, verify_iff_of_restore hrun⟩
  rw [hinfo]
  exact hw.geometry.chunks

theorem Scans.append {file extra : Bytes} {info : ImageInfo} {i pos e : Nat} {cs : List Chunk}
    (h : Scans file info i pos cs e) : Scans (file ++ extra) info i pos cs e := by
  induction h with
  | nil i pos => exact .nil i pos
  | @cons i pos e p cs hp hin hsum hs ih =>
    have hpay := @slice_append_left file extra (pos + recordSize) p.storedLen hin
    have hone := @Scans.cons (file ++ extra) info i pos _ p _
      (by rw [slice_append_left (by omega)]; exact hp)
      (by rw [List.length_append]; omega) (by rw [hpay]; exact hsum) ih
    rwa [hpay] at hone

/-- 後ろに byte が付いても、同じものが読める。 -/
theorem Decodes.append {file extra : Bytes} {info checked : ImageInfo} {cs : List Chunk} {e : Nat}
    (h : Decodes file info cs e checked) : Decodes (file ++ extra) info cs e checked := by
  have hhead := h.header
  have hroom := h.room
  refine ⟨?_, h.complete, h.scans.append, h.length, by rw [List.length_append]; omega, ?_⟩
  · unfold readHeader at hhead ⊢
    obtain ⟨b, hb, hhead⟩ := Result.bind_eq_ok hhead
    obtain ⟨hle, rfl⟩ := (readAt_eq_ok_iff (by decide)).mp hb
    rw [readAt_ok (by rw [List.length_append]; omega), slice_append_left hle, Result.ok_bind]
    exact hhead
  · rw [slice_append_left hroom]
    exact h.footer

/-- footer の後に 1 byte 付いた file は、復元できるのに `verify` は断る。 -/
theorem restore_accepts_trailing : ∃ info file target',
    Proc.run (restore Small.restoreHost file false) Small.target = (.ok info, target') ∧
    ∀ info', verify Small.restoreHost.openRead (fun _ => false) file ≠ .ok info' := by
  obtain ⟨info, file, h⟩ := Small.created
  obtain ⟨head, cs, e, hdec, -, hend, -, hsource, -⟩ := decodes_of_create Small.sectorOk h
  have hdec' := @Decodes.append _ [0] _ _ _ _ hdec
  refine ⟨info, file ++ [0], _, run_restore Small.restorable hdec' (by rw [hsource]; decide), ?_⟩
  intro info' hv
  obtain ⟨head', cs', e', hdec'', -, hlen⟩ := verify_eq_ok_iff.mp hv
  obtain ⟨-, rfl, -⟩ := hdec'.unique hdec''
  rw [List.length_append, List.length_singleton] at hlen
  omega

end Fsx.ImageFile
