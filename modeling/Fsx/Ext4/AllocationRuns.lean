import Fsx.Ext4.Coverage
import Fsx.Io.Scheduler

/-!
# 割り当ての区間（`src/ext4/allocation.cpp`）

`build_allocation_graph` は bitmap の読み出しを限られた数だけ先に出しておき、出した順に受け取って
block を一つずつ走査する。

三段で示す。

1. 先読みの窓の大きさによらず、走査されるのは group の順に並べた block である
   （`scanPipeline_eq_ok`）。
2. 走査した block が番号の順に途切れなく並ぶとき、区間は印の等しい block の極大な並びになる
   （`Scanning`）。
3. group ごとの block の列をつなぐと、`first_data_block` から `blocks_count` までが途切れなく並ぶ
   （`flatMap_blockStates`）。
-/

namespace Fsx.Ext4

/-! ## 先読みの pipeline -/

/-- `AllocationGraph` の残りの欄。 -/
structure CountedGraph extends AllocationGraph where
  blockSize : Nat
  totalBlocks : Nat
  allocatedBlocks : Nat
  freeBlocks : Nat

/-- 走査の途中。 -/
structure ScanState where
  graph : AllocationGraph := {}
  run : Option OpenRun := none
  allocatedBlocks : Nat := 0
  freeBlocks : Nat := 0

/-- block 一つ分。 -/
def scanBlock (s : ScanState) (x : Nat × Bool) : ScanState where
  graph := (graphStep (s.graph, s.run) x).1
  run := (graphStep (s.graph, s.run) x).2
  allocatedBlocks := if x.2 then s.allocatedBlocks + 1 else s.allocatedBlocks
  freeBlocks := if x.2 then s.freeBlocks else s.freeBlocks + 1

/-- 走査への host の答え。中断の要求は、調べた場所ごとの答えとして与える。 -/
structure ScanHost where
  /-- `profile_device` の `tuning` -/
  profile : Result IoTuning
  /-- group `g` の bitmap を受け取る前の中断要求 -/
  scanCancelled : Nat → Bool
  /-- scheduler が group `g` の bitmap を読む前の中断要求 -/
  readCancelled : Nat → Bool

/-- 出してある読み出し。group の番号と、その答えである。 -/
abbrev BitmapFuture := Nat × Result Bytes

section Pipeline

variable (host : ScanHost) (d : Disk) (sb : Superblock)

/-- `submit_one`。 -/
def submitOne (x : Nat × GroupDesc) : Result BitmapFuture := do
  if x.2.blockBitmap ≥ sb.blocksCount then
    throw { code := .corrupt, message := "block bitmap points beyond filesystem" }
  return (x.1,
    if host.readCancelled x.1 then .error { code := .unsafeErr, message := "operation cancelled" }
    else d.readExact (x.2.blockBitmap * sb.blockSize) sb.blockSize)

/-- 窓がいっぱいになるまで読み出しを出す。残りの group と、出した読み出しを返す。 -/
def fillWindow (window : Nat) : List (Nat × GroupDesc) → List BitmapFuture →
    Result (List (Nat × GroupDesc) × List BitmapFuture)
  | [], pending => .ok ([], pending)
  | x :: rest, pending =>
    if pending.length < window then do
      let f ← submitOne host d sb x
      fillWindow window rest (pending ++ [f])
    else .ok (x :: rest, pending)

/-- 先頭の読み出しを受け取って、その group を走査する。 -/
def finishOne (f : BitmapFuture) (completed : Nat) (s : ScanState) : Result ScanState := do
  if host.scanCancelled completed then
    throw { code := .unsafeErr, message := "scan cancelled" }
  let bm ← f.2
  if f.1 ≠ completed then
    throw { code := .internal, message := "allocation bitmap pipeline lost group ordering" }
  return (groupBlockStates sb f.1 bm).foldl scanBlock s

/-- 出すものがなくなった後のループ。 -/
def scanTail : List BitmapFuture → Nat → ScanState → Result ScanState
  | [], _, s => .ok s
  | f :: pending, completed, s => do
    let s ← finishOne host sb f completed s
    scanTail pending (completed + 1) s

/-- 走査のループ。一つ受け取るたびに、次の読み出しを一つ出す。 -/
def scanPipeline : List (Nat × GroupDesc) → List BitmapFuture → Nat → ScanState →
    Result ScanState
  | [], pending, completed, s => scanTail host sb pending completed s
  | _ :: _, [], _, s => .ok s
  | x :: rest, f :: pending, completed, s => do
    let s ← finishOne host sb f completed s
    let next ← submitOne host d sb x
    scanPipeline rest (pending ++ [next]) (completed + 1) s

end Pipeline

/-- `build_allocation_graph`。`requested` は呼び出し側の `IoTuning` である。 -/
def buildAllocationGraphWith (host : ScanHost) (requested : Option IoTuning) (d : Disk) :
    Result CountedGraph := do
  let sb ← readSuperblock d
  if sb.hasIncompat incompatMetaBg then
    throw { code := .unsupported
            message := "allocation graph does not yet support ext4 meta_bg descriptor placement" }
  if sb.hasRoCompat roCompatBigalloc then
    throw { code := .unsupported
            message := "bigalloc uses cluster allocation; block-granularity relocation is refused" }
  let profile ← host.profile
  let tuning := requested.getD profile
  let descs ← readDescs d sb sb.groupsCount 0
  let window := max 1 (u64 (tuning.queueDepth + max 1 tuning.workers))
  let p ← fillWindow host d sb window ((List.range descs.length).zip descs) []
  let s ← scanPipeline host d sb p.1 p.2 0 {}
  return {
    toAllocationGraph := flushRun s.graph s.run
    blockSize := sb.blockSize
    totalBlocks := sb.blocksCount
    allocatedBlocks := s.allocatedBlocks
    freeBlocks := s.freeBlocks }

section Pipeline

variable {host : ScanHost} {d : Disk} {sb : Superblock} {xs rest : List (Nat × GroupDesc)}
  {pending : List BitmapFuture} {s s' : ScanState} {completed window : Nat}

/-- group の bitmap の内容。 -/
def bitmapOf (d : Disk) (sb : Superblock) (gd : GroupDesc) : Bytes :=
  d.data.read (gd.blockBitmap * sb.blockSize) sb.blockSize

/-- 一つの group の走査。 -/
def scanBitmap (d : Disk) (sb : Superblock) (s : ScanState) (x : Nat × GroupDesc) : ScanState :=
  (groupBlockStates sb x.1 (bitmapOf d sb x.2)).foldl scanBlock s

/-- `pending` は、group の列 `xs` の読み出しを順に出したものである。 -/
def Submitted (host : ScanHost) (d : Disk) (sb : Superblock) (xs : List (Nat × GroupDesc))
    (pending : List BitmapFuture) : Prop :=
  List.Forall₂ (fun x f => submitOne host d sb x = .ok f) xs pending

theorem Submitted.concat (h : Submitted host d sb xs pending) {x : Nat × GroupDesc}
    {f : BitmapFuture} (hf : submitOne host d sb x = .ok f) :
    Submitted host d sb (xs ++ [x]) (pending ++ [f]) :=
  List.rel_append h (.cons hf .nil)

/-- 受け取った bitmap は、出したときの group のものである。 -/
theorem finishOne_eq_ok {x : Nat × GroupDesc} {f : BitmapFuture}
    (hf : submitOne host d sb x = .ok f) (h : finishOne host sb f completed s = .ok s') :
    s' = scanBitmap d sb s x := by
  unfold submitOne at hf
  rw [Result.guard_bind_eq_ok_iff, Result.pure_eq_ok_iff] at hf
  obtain ⟨-, rfl⟩ := hf
  unfold finishOne at h
  simp only [Result.guard_bind_eq_ok_iff, Result.bind_eq_ok_iff, Result.pure_eq_ok_iff] at h
  obtain ⟨-, bm, hbm, -, rfl⟩ := h
  by_cases hc : host.readCancelled x.1 = true
  · rw [if_pos hc] at hbm
    cases hbm
  · rw [if_neg hc] at hbm
    rw [(Disk.readExact_eq_ok_iff.mp hbm).2]
    rfl

theorem scanTail_eq_ok (hp : Submitted host d sb xs pending)
    (h : scanTail host sb pending completed s = .ok s') : s' = xs.foldl (scanBitmap d sb) s := by
  induction hp generalizing completed s with
  | nil =>
    cases h
    rfl
  | cons hf _ ih =>
    obtain ⟨s₁, h₁, h⟩ := Result.bind_eq_ok h
    rw [List.foldl_cons, ← finishOne_eq_ok hf h₁]
    exact ih h

/-- **どの大きさの窓でも、group は順に走査される。** -/
theorem scanPipeline_eq_ok (hp : Submitted host d sb xs pending) (hne : rest ≠ [] → pending ≠ [])
    (h : scanPipeline host d sb rest pending completed s = .ok s') :
    s' = (xs ++ rest).foldl (scanBitmap d sb) s := by
  induction rest generalizing xs pending completed s with
  | nil =>
    rw [List.append_nil]
    unfold scanPipeline at h
    exact scanTail_eq_ok hp h
  | cons x rest ih =>
    cases hp with
    | nil => exact absurd rfl (hne (List.cons_ne_nil _ _))
    | cons hf hp =>
      obtain ⟨s₁, h₁, h⟩ := Result.bind_eq_ok h
      obtain ⟨next, hnext, h⟩ := Result.bind_eq_ok h
      have hrec := ih (Submitted.concat hp hnext) (fun _ => by simp) h
      rw [hrec, finishOne_eq_ok hf h₁, List.append_assoc, List.singleton_append, List.cons_append,
        List.foldl_cons]

/-- 窓を満たした後、残りの group があれば、出した読み出しもある。 -/
theorem fillWindow_eq_ok {p : List (Nat × GroupDesc) × List BitmapFuture} (hw : 0 < window)
    (hp : Submitted host d sb xs pending)
    (h : fillWindow host d sb window rest pending = .ok p) :
    ∃ ys, rest = ys ++ p.1 ∧ Submitted host d sb (xs ++ ys) p.2 ∧ (p.1 ≠ [] → p.2 ≠ []) := by
  induction rest generalizing xs pending with
  | nil =>
    cases h
    exact ⟨[], rfl, by rw [List.append_nil]; exact hp, fun hne => absurd rfl hne⟩
  | cons x rest ih =>
    unfold fillWindow at h
    by_cases hlt : pending.length < window
    · rw [if_pos hlt] at h
      obtain ⟨f, hf, h⟩ := Result.bind_eq_ok h
      obtain ⟨ys, hys, hsub, hne⟩ := ih (hp.concat hf) h
      refine ⟨x :: ys, by rw [hys]; rfl, ?_, hne⟩
      rw [List.append_assoc, List.singleton_append] at hsub
      exact hsub
    · rw [if_neg hlt] at h
      cases h
      refine ⟨[], rfl, by rw [List.append_nil]; exact hp, fun _ hnil => ?_⟩
      dsimp only at hnil
      rw [hnil] at hlt
      exact hlt hw

end Pipeline

/-! ## 途切れのない block の走査 -/

/-- `[first, next)` の block のうち、印が `used` のものの数。 -/
def countOf (f : Nat → Bool) (used : Bool) (first next : Nat) : Nat :=
  (List.range' first (next - first)).countP fun b => f b == used

section Runs

variable {f : Nat → Bool} {used : Bool} {first next start len : Nat} {es : List BlockExtent}

theorem countOf_self : countOf f used first first = 0 := by
  rw [countOf, Nat.sub_self]
  rfl

/-- 続く `len` 個の数を足す。 -/
theorem countOf_add (h : first ≤ start) : countOf f used first (start + len) =
    countOf f used first start + (List.range' start len).countP fun b => f b == used := by
  unfold countOf
  rw [show start + len - first = (start - first) + len by omega, ← List.range'_append_1,
    List.countP_append, Nat.add_sub_cancel' h]

theorem countOf_add_run (h : first ≤ start)
    (hrun : ∀ b, start ≤ b → b < start + len → f b = used) :
    countOf f used first (start + len) = countOf f used first start + len := by
  rw [countOf_add h, List.countP_eq_length.mpr, List.length_range']
  intro b hb
  rw [List.mem_range'_1] at hb
  simpa using hrun b hb.1 hb.2

theorem countOf_add_other (h : first ≤ start)
    (hrun : ∀ b, start ≤ b → b < start + len → f b ≠ used) :
    countOf f used first (start + len) = countOf f used first start := by
  rw [countOf_add h, List.countP_eq_zero.mpr, Nat.add_zero]
  intro b hb
  rw [List.mem_range'_1] at hb
  simpa using hrun b hb.1 hb.2

/-- `[first, next)` の block のうち、印が `used` のものの極大な並び。 -/
structure MaximalRuns (f : Nat → Bool) (used : Bool) (first next : Nat) (es : List BlockExtent) :
    Prop where
  positive : ∀ e ∈ es, 0 < e.length
  gaps : es.Pairwise fun a b => a.endBlock < b.start
  exact : ∀ b, InRuns es b ↔ first ≤ b ∧ b < next ∧ f b = used
  total : (es.map BlockExtent.length).sum = countOf f used first next

theorem MaximalRuns.nil : MaximalRuns f used first first [] where
  positive := fun e he => (by cases he)
  gaps := .nil
  exact := fun b => by
    constructor
    · rintro ⟨e, he, -⟩
      cases he
    · rintro ⟨h1, h2, -⟩
      omega
  total := countOf_self.symm

/-- 印の異なる block は、区間を変えない。 -/
theorem MaximalRuns.skip (h : MaximalRuns f used first start es) (hle : first ≤ start)
    (hrun : ∀ b, start ≤ b → b < start + len → f b ≠ used) :
    MaximalRuns f used first (start + len) es where
  positive := h.positive
  gaps := h.gaps
  exact := fun b => by
    rw [h.exact b]
    constructor
    · rintro ⟨h1, h2, h3⟩
      exact ⟨h1, by omega, h3⟩
    · rintro ⟨h1, h2, h3⟩
      refine ⟨h1, ?_, h3⟩
      by_contra hge
      exact hrun b (by omega) h2 h3
  total := h.total.trans (countOf_add_other hle hrun).symm

/-- 直前の block の印が異なるので、新しい区間はどの区間とも隣り合わない。 -/
theorem MaximalRuns.endBlock_lt (h : MaximalRuns f used first start es)
    (hgap : first < start → f (start - 1) ≠ used) {e : BlockExtent} (he : e ∈ es) :
    e.endBlock < start := by
  have hpos := h.positive e he
  have hin : InRuns es (e.endBlock - 1) := by
    refine ⟨e, he, ?_, ?_⟩
    · unfold BlockExtent.endBlock
      omega
    · unfold BlockExtent.endBlock
      omega
  obtain ⟨h1, h2, h3⟩ := (h.exact _).mp hin
  have hend : 0 < e.endBlock := Nat.lt_of_lt_of_le hpos (Nat.le_add_left _ _)
  by_contra hge
  have heq : e.endBlock - 1 = start - 1 := by omega
  rw [heq] at h1 h3
  exact hgap (by omega) h3

theorem MaximalRuns.append (h : MaximalRuns f used first start es) (hle : first ≤ start)
    (hlen : 0 < len) (hrun : ∀ b, start ≤ b → b < start + len → f b = used)
    (hgap : first < start → f (start - 1) ≠ used) :
    MaximalRuns f used first (start + len) (appendRun es start len) := by
  have happ : appendRun es start len = es ++ [⟨start, len⟩] := by
    unfold appendRun
    rw [if_neg (by omega)]
    cases hl : es.getLast? with
    | none => rfl
    | some e =>
      have := h.endBlock_lt hgap (List.mem_of_getLast? hl)
      dsimp only
      rw [if_neg (by omega)]
  rw [happ]
  refine ⟨?_, ?_, ?_, ?_⟩
  · intro e he
    rcases List.mem_append.mp he with he | he
    · exact h.positive e he
    · rw [List.mem_singleton.mp he]
      exact hlen
  · refine List.pairwise_append.mpr ⟨h.gaps, List.pairwise_singleton _ _, ?_⟩
    intro a ha b hb
    rw [List.mem_singleton.mp hb]
    exact h.endBlock_lt hgap ha
  · intro b
    constructor
    · rintro ⟨e, he, h1, h2⟩
      rcases List.mem_append.mp he with he | he
      · obtain ⟨h3, h4, h5⟩ := (h.exact b).mp ⟨e, he, h1, h2⟩
        exact ⟨h3, by omega, h5⟩
      · rw [List.mem_singleton.mp he] at h1 h2
        exact ⟨hle.trans h1, h2, hrun b h1 h2⟩
    · rintro ⟨h1, h2, h3⟩
      rcases Nat.lt_or_ge b start with hb | hb
      · exact ((h.exact b).mpr ⟨h1, hb, h3⟩).append_left
      · exact inRuns_concat hb h2
  · rw [List.map_append, List.sum_append, h.total, countOf_add_run hle hrun]
    rfl

/-- 走査の途中。`[first, next)` を走査し終えている。 -/
structure Scanning (f : Nat → Bool) (first next : Nat) (s : ScanState) : Prop where
  allocated : s.allocatedBlocks = countOf f true first next
  free : s.freeBlocks = countOf f false first next
  settled : s.run = none → next = first ∧ s.graph = {}
  opened : ∀ r, s.run = some r → first ≤ r.start ∧ 0 < r.length ∧ r.start + r.length = next ∧
    (∀ b, r.start ≤ b → b < next → f b = r.used) ∧ (first < r.start → f (r.start - 1) ≠ r.used) ∧
    ∀ v, MaximalRuns f v first r.start (s.graph.side v)

variable {s : ScanState}

theorem Scanning.init (f : Nat → Bool) (first : Nat) : Scanning f first first {} where
  allocated := countOf_self.symm
  free := countOf_self.symm
  settled := fun _ => ⟨rfl, rfl⟩
  opened := fun r hr => by cases hr

/-- 開いた区間を閉じると、走査し終えたところまでの極大な並びになる。 -/
theorem Scanning.flush (h : Scanning f first next s) (used : Bool) :
    MaximalRuns f used first next ((flushRun s.graph s.run).side used) := by
  cases hr : s.run with
  | none =>
    obtain ⟨rfl, hg⟩ := h.settled hr
    rw [hg, flushRun]
    cases used <;> exact MaximalRuns.nil
  | some r =>
    obtain ⟨hle, hlen, rfl, hrun, hgap, hside⟩ := h.opened r hr
    have hgrow := (hside r.used).append hle hlen hrun hgap
    have hkeep : used ≠ r.used → MaximalRuns f used first (r.start + r.length)
        (s.graph.side used) := by
      intro hne
      refine (hside used).skip hle fun b h1 h2 => ?_
      rw [hrun b h1 h2]
      exact hne.symm
    rw [flushRun]
    cases hu : r.used with
    | true =>
      rw [hu] at hgrow hkeep
      cases used with
      | true => exact hgrow
      | false => exact hkeep (by decide)
    | false =>
      rw [hu] at hgrow hkeep
      cases used with
      | true => exact hkeep (by decide)
      | false => exact hgrow

/-- 次の block を走査する。 -/
theorem Scanning.step (h : Scanning f first next s) (hle : first ≤ next) :
    Scanning f first (next + 1) (scanBlock s (next, f next)) := by
  have hone : ∀ b, next ≤ b → b < next + 1 → b = next := fun b h1 h2 => by omega
  have hcount : ∀ v, countOf f v first (next + 1) =
      countOf f v first next + if f next = v then 1 else 0 := by
    intro v
    by_cases hv : f next = v
    · rw [if_pos hv]
      exact countOf_add_run hle fun b h1 h2 => by rw [hone b h1 h2, hv]
    · rw [if_neg hv]
      exact countOf_add_other hle fun b h1 h2 => by rw [hone b h1 h2]; exact hv
  -- `next` だけの区間を開いた後
  have hfresh : ∀ g : AllocationGraph, (∀ v, MaximalRuns f v first next (g.side v)) →
      (first < next → f (next - 1) ≠ f next) → ∀ r, some (⟨f next, next, 1⟩ : OpenRun) = some r →
      first ≤ r.start ∧ 0 < r.length ∧ r.start + r.length = next + 1 ∧
        (∀ b, r.start ≤ b → b < next + 1 → f b = r.used) ∧
        (first < r.start → f (r.start - 1) ≠ r.used) ∧
        ∀ v, MaximalRuns f v first r.start (g.side v) := by
    intro g hg hgap r hr
    cases hr
    exact ⟨hle, Nat.one_pos, rfl, fun b h1 h2 => by rw [hone b h1 h2], hgap, hg⟩
  refine ⟨?_, ?_, ?_, ?_⟩
  · rw [hcount, scanBlock]
    dsimp only
    rw [h.allocated]
    cases f next <;> simp
  · rw [hcount, scanBlock]
    dsimp only
    rw [h.free]
    cases f next <;> simp
  · intro hn
    have : (graphStep (s.graph, s.run) (next, f next)).2 = none := hn
    cases hr : s.run with
    | none =>
      rw [hr] at this
      cases this
    | some r =>
      rw [hr, graphStep] at this
      split at this
      · cases this
      · cases this
  · cases hr : s.run with
    | none =>
      obtain ⟨rfl, hg⟩ := h.settled hr
      have hrun : (scanBlock s (next, f next)).run = some ⟨f next, next, 1⟩ := by
        rw [scanBlock, hr]
        rfl
      have hgraph : (scanBlock s (next, f next)).graph = {} := by
        rw [scanBlock, hr, hg]
        rfl
      rw [hrun, hgraph]
      refine hfresh _ (fun v => ?_) fun hlt => absurd hlt (Nat.lt_irrefl _)
      cases v <;> exact MaximalRuns.nil
    | some r =>
      obtain ⟨hstart, hlen, hend, hblocks, hgap, hside⟩ := h.opened r hr
      by_cases hsame : f next = r.used
      · -- 区間が伸びる
        have hstep : graphStep (s.graph, some r) (next, f next) =
            (s.graph, some { r with length := r.length + 1 }) := by
          rw [graphStep, if_pos ⟨hsame, hend⟩]
        have hrun : (scanBlock s (next, f next)).run = some { r with length := r.length + 1 } := by
          rw [scanBlock, hr, hstep]
        have hgraph : (scanBlock s (next, f next)).graph = s.graph := by
          rw [scanBlock, hr, hstep]
        rw [hrun, hgraph]
        intro r' hr'
        cases hr'
        refine ⟨hstart, Nat.succ_pos _, by dsimp only; omega, fun b h1 h2 => ?_, hgap, hside⟩
        rcases Nat.lt_or_ge b next with hb | hb
        · exact hblocks b h1 hb
        · rw [hone b hb h2]
          exact hsame
      · have hstep : graphStep (s.graph, some r) (next, f next) =
            (flushRun s.graph (some r), some ⟨f next, next, 1⟩) := by
          rw [graphStep, if_neg fun hc => hsame hc.1]
        have hrun : (scanBlock s (next, f next)).run = some ⟨f next, next, 1⟩ := by
          rw [scanBlock, hr, hstep]
        have hgraph : (scanBlock s (next, f next)).graph = flushRun s.graph (some r) := by
          rw [scanBlock, hr, hstep]
        rw [hrun, hgraph]
        refine hfresh _ (fun v => hr ▸ h.flush v) fun _ => ?_
        rw [hblocks (next - 1) (by omega) (by omega)]
        exact Ne.symm hsame

/-- 続く `n` 個の block を走査する。 -/
theorem Scanning.foldl (h : Scanning f first next s) (hle : first ≤ next) (n : Nat) :
    Scanning f first (next + n)
      (((List.range' next n).map fun b => (b, f b)).foldl scanBlock s) := by
  induction n generalizing next s with
  | zero => exact h
  | succ n ih =>
    rw [List.range'_succ, List.map_cons, List.foldl_cons]
    have hrec := ih (h.step hle) (Nat.le_succ_of_le hle)
    rw [show next + (n + 1) = next + 1 + n by omega]
    exact hrec

end Runs

/-! ## filesystem の block -/

/-- block `b` の、属する group の bitmap での印。 -/
def bitAt (d : Disk) (sb : Superblock) (b : Nat) : Bool :=
  bitSet (blockBitmapAt d sb (sb.groupOf b)) (sb.indexOf b)

section Blocks

variable {d : Disk} {sb : Superblock} {n g : Nat}

/-- 読めた descriptor は、見え方のとおりである。 -/
theorem readGroupDesc_eq_descAt {gd : GroupDesc} (h : readGroupDesc d sb g = .ok gd) :
    gd = descAt d sb g ∧ g < sb.groupsCount := by
  obtain ⟨hchecks, -, rfl, -⟩ := readGroupDesc_eq_ok_iff.mp h
  exact ⟨rfl, Nat.not_le.mp hchecks.group⟩

theorem readDescs_eq_descAt {gds : List GroupDesc} (h : readDescs d sb n g = .ok gds) :
    gds = (List.range n).map fun i => descAt d sb (g + i) := by
  induction n generalizing g gds with
  | zero =>
    cases h
    rfl
  | succ n ih =>
    unfold readDescs at h
    obtain ⟨gd, hgd, h⟩ := Result.bind_eq_ok h
    rw [Result.guard_bind_eq_ok_iff] at h
    obtain ⟨rest, hrest, h⟩ := Result.bind_eq_ok h.2
    cases h
    rw [(readGroupDesc_eq_descAt hgd).1, ih hrest, map_range_from_succ]

theorem readGroupDesc_of_readDescs {gds : List GroupDesc} (h : readDescs d sb n g = .ok gds) :
    ∀ k, g ≤ k → k < g + n → readGroupDesc d sb k = .ok (descAt d sb k) := by
  induction n generalizing g gds with
  | zero =>
    intro k h1 h2
    omega
  | succ n ih =>
    unfold readDescs at h
    obtain ⟨gd, hgd, h⟩ := Result.bind_eq_ok h
    rw [Result.guard_bind_eq_ok_iff] at h
    obtain ⟨rest, hrest, -⟩ := Result.bind_eq_ok h.2
    intro k h1 h2
    rcases Nat.eq_or_lt_of_le h1 with rfl | hlt
    · rw [hgd, (readGroupDesc_eq_descAt hgd).1]
    · exact ih hrest k hlt (by omega)

/-- 一つの group の block は、途切れなく並ぶ。 -/
theorem groupBlockStates_eq (ha : sb.Accepted d.sizeBytes) (hg : g < sb.groupsCount) :
    groupBlockStates sb g (bitmapOf d sb (descAt d sb g)) =
      (List.range' (sb.firstDataBlock + g * sb.blocksPerGroup)
        (min sb.blocksPerGroup (sb.blocksCount - (sb.firstDataBlock + g * sb.blocksPerGroup)))).map
          fun b => (b, bitAt d sb b) := by
  unfold groupBlockStates
  rw [ha.groupBlockCount_eq d.size_lt hg, ha.groupStartBlock_eq d.size_lt hg, List.range'_eq_map_range,
    List.map_map]
  refine List.map_congr_left fun i hi => ?_
  rw [List.mem_range] at hi
  obtain ⟨h1, h2⟩ := ha.groupOf_indexOf_of_eq
    (b := sb.firstDataBlock + g * sb.blocksPerGroup + i) (g := g) (i := i) (by omega) rfl
  rw [Function.comp_apply, bitAt, h1, h2]
  rfl

/-- group の列をつなぐと、`first_data_block` からの block が途切れなく並ぶ。 -/
theorem flatMap_blockStates (ha : sb.Accepted d.sizeBytes) (hn : n ≤ sb.groupsCount) :
    ((List.range n).flatMap fun g => groupBlockStates sb g (bitmapOf d sb (descAt d sb g))) =
      (List.range' sb.firstDataBlock
        (min (n * sb.blocksPerGroup) (sb.blocksCount - sb.firstDataBlock))).map
          fun b => (b, bitAt d sb b) := by
  induction n with
  | zero => rw [Nat.zero_mul, Nat.zero_min]; rfl
  | succ n ih =>
    have hlt := ha.lt_groupsCount_iff.mp hn
    rw [List.range_succ, List.flatMap_append, ih (Nat.le_of_succ_le hn), List.flatMap_singleton,
      groupBlockStates_eq ha hn, ← List.map_append, Nat.min_eq_left (Nat.le_of_lt hlt),
      List.range'_append_1, Nat.succ_mul]
    rw [show n * sb.blocksPerGroup + min sb.blocksPerGroup
      (sb.blocksCount - (sb.firstDataBlock + n * sb.blocksPerGroup)) =
      min (n * sb.blocksPerGroup + sb.blocksPerGroup) (sb.blocksCount - sb.firstDataBlock) by omega]

/-- すべての group をつなぐと、filesystem の block がそろう。 -/
theorem flatMap_all (ha : sb.Accepted d.sizeBytes) :
    ((List.range sb.groupsCount).flatMap fun g =>
      groupBlockStates sb g (bitmapOf d sb (descAt d sb g))) =
      (List.range' sb.firstDataBlock (sb.blocksCount - sb.firstDataBlock)).map
        fun b => (b, bitAt d sb b) := by
  have hend : ¬ sb.groupsCount < sb.groupsCount := Nat.lt_irrefl _
  rw [ha.lt_groupsCount_iff] at hend
  rw [flatMap_blockStates ha (Nat.le_refl _), Nat.min_eq_right (by omega)]

end Blocks

section Graph

variable {host : ScanHost} {requested : Option IoTuning} {d : Disk} {r : CountedGraph}

/-- 成功した走査は、filesystem の block を順に走査したものである。 -/
theorem buildAllocationGraphWith_eq_ok (h : buildAllocationGraphWith host requested d = .ok r) :
    ∃ sb s, readSuperblock d = .ok sb ∧ sb.hasIncompat incompatMetaBg = false ∧
      sb.hasRoCompat roCompatBigalloc = false ∧
      (∃ descs, readDescs d sb sb.groupsCount 0 = .ok descs) ∧
      s = ((List.range' sb.firstDataBlock (sb.blocksCount - sb.firstDataBlock)).map
        fun b => (b, bitAt d sb b)).foldl scanBlock {} ∧
      r = { toAllocationGraph := flushRun s.graph s.run
            blockSize := sb.blockSize
            totalBlocks := sb.blocksCount
            allocatedBlocks := s.allocatedBlocks
            freeBlocks := s.freeBlocks } := by
  unfold buildAllocationGraphWith at h
  obtain ⟨sb, hsb, h⟩ := Result.bind_eq_ok h
  simp only [Result.guard_bind_eq_ok_iff] at h
  obtain ⟨hmeta, hbig, h⟩ := h
  obtain ⟨profile, -, h⟩ := Result.bind_eq_ok h
  obtain ⟨descs, hdescs, h⟩ := Result.bind_eq_ok h
  obtain ⟨p, hp, h⟩ := Result.bind_eq_ok h
  obtain ⟨s, hs, h⟩ := Result.bind_eq_ok h
  cases h
  refine ⟨sb, s, hsb, by simpa using hmeta, by simpa using hbig, ⟨descs, hdescs⟩, ?_, rfl⟩
  have hall := flatMap_all (accepted_of_readSuperblock hsb)
  have heq := readDescs_eq_descAt hdescs
  have hlen : descs.length = sb.groupsCount := by rw [heq, List.length_map, List.length_range]
  have hgroups : (List.range descs.length).zip descs =
      (List.range sb.groupsCount).map fun g => (g, descAt d sb g) := by
    rw [List.map_prod_left_eq_zip, hlen, heq]
    simp only [Nat.zero_add]
  obtain ⟨ys, hys, hsub, hne⟩ := fillWindow_eq_ok (Nat.lt_of_lt_of_le Nat.one_pos (Nat.le_max_left _ _))
    (show Submitted _ _ _ [] [] from .nil) hp
  have hscan := scanPipeline_eq_ok hsub hne hs
  rw [List.nil_append, ← hys, hgroups, List.foldl_map] at hscan
  rw [hscan, ← hall, List.foldl_flatMap]
  rfl

/-- 成功した走査の区間と数は、bitmap の極大な並びとその block の数である。 -/
theorem maximalRuns_of_build (h : buildAllocationGraphWith host requested d = .ok r) :
    ∃ sb, readSuperblock d = .ok sb ∧
      MaximalRuns (bitAt d sb) true sb.firstDataBlock sb.blocksCount r.allocated ∧
      MaximalRuns (bitAt d sb) false sb.firstDataBlock sb.blocksCount r.free ∧
      r.allocatedBlocks = countOf (bitAt d sb) true sb.firstDataBlock sb.blocksCount ∧
      r.freeBlocks = countOf (bitAt d sb) false sb.firstDataBlock sb.blocksCount := by
  obtain ⟨sb, s, hsb, -, -, -, hs, rfl⟩ := buildAllocationGraphWith_eq_ok h
  have hlt := (accepted_of_readSuperblock hsb).first_lt
  have hscan := (Scanning.init (bitAt d sb) sb.firstDataBlock).foldl (Nat.le_refl _)
    (sb.blocksCount - sb.firstDataBlock)
  rw [← hs, Nat.add_sub_cancel' hlt.le] at hscan
  exact ⟨sb, hsb, hscan.flush true, hscan.flush false, hscan.allocated, hscan.free⟩

/--
**走査の結果は bitmap そのものである。**

使用中と空きの区間は、それぞれ空でない極大な並びで、合わせて filesystem の block をちょうど覆う。
block が使用中の区間に入るのは、属する group の bitmap で印があるときである。二つの数は、それぞれの
区間の長さの和に等しい。
-/
theorem buildAllocationGraphWith_exact (h : buildAllocationGraphWith host requested d = .ok r) :
    ∃ sb, readSuperblock d = .ok sb ∧
      (∀ e ∈ r.allocated ++ r.free, 0 < e.length) ∧
      (r.allocated.Pairwise fun a b => a.endBlock < b.start) ∧
      (r.free.Pairwise fun a b => a.endBlock < b.start) ∧
      (∀ b, InRuns r.allocated b ∨ InRuns r.free b ↔
        sb.firstDataBlock ≤ b ∧ b < sb.blocksCount) ∧
      (∀ b, ¬ (InRuns r.allocated b ∧ InRuns r.free b)) ∧
      (∀ b, sb.firstDataBlock ≤ b → b < sb.blocksCount → (InRuns r.allocated b ↔
        bitSet (blockBitmapAt d sb (sb.groupOf b)) (sb.indexOf b) = true)) ∧
      r.allocatedBlocks = (r.allocated.map BlockExtent.length).sum ∧
      r.freeBlocks = (r.free.map BlockExtent.length).sum := by
  obtain ⟨sb, hsb, hused, hfree, hallocated, hfreed⟩ := maximalRuns_of_build h
  refine ⟨sb, hsb, ?_, hused.gaps, hfree.gaps, ?_, ?_, ?_, ?_, ?_⟩
  · intro e he
    rcases List.mem_append.mp he with he | he
    · exact hused.positive e he
    · exact hfree.positive e he
  · intro b
    rw [hused.exact b, hfree.exact b]
    cases bitAt d sb b <;> simp
  · rintro b ⟨h1, h2⟩
    have h3 := ((hused.exact b).mp h1).2.2
    rw [((hfree.exact b).mp h2).2.2] at h3
    cases h3
  · intro b h1 h2
    rw [hused.exact b]
    exact ⟨fun hb => hb.2.2, fun hb => ⟨h1, h2, hb⟩⟩
  · rw [hused.total]
    exact hallocated
  · rw [hfree.total]
    exact hfreed

/-- worker も queue もない `IoTuning` で、小さな filesystem を走査する。 -/
def Tiny.scanHost : ScanHost where
  profile := .ok {}
  scanCancelled := fun _ => false
  readCancelled := fun _ => false

theorem Tiny.scanned : (buildAllocationGraphWith Tiny.scanHost
    (some { workers := 0, queueDepth := 0 }) (Tiny.disk (Tiny.image 1 []))).isOk = true := by
  decide +kernel

theorem buildAllocationGraphWith_exact_tiny : ∃ r, buildAllocationGraphWith Tiny.scanHost
      (some { workers := 0, queueDepth := 0 }) (Tiny.disk (Tiny.image 1 [])) = .ok r ∧
    (r.allocated.Pairwise fun a b => a.endBlock < b.start) ∧
    r.allocatedBlocks = (r.allocated.map BlockExtent.length).sum := by
  have hok := Tiny.scanned
  cases h : buildAllocationGraphWith Tiny.scanHost (some { workers := 0, queueDepth := 0 })
      (Tiny.disk (Tiny.image 1 [])) with
  | error e =>
    rw [h] at hok
    cases hok
  | ok r =>
    obtain ⟨-, -, -, h1, -, -, -, -, h2, -⟩ := buildAllocationGraphWith_exact h
    exact ⟨r, rfl, h1, h2⟩

/-! ## 順に読む走査との一致 -/

theorem foldl_scanBlock_graph (xs : List (Nat × Bool)) (s : ScanState) :
    ((xs.foldl scanBlock s).graph, (xs.foldl scanBlock s).run) =
      xs.foldl graphStep (s.graph, s.run) := by
  induction xs generalizing s with
  | nil => rfl
  | cons x xs ih =>
    rw [List.foldl_cons, List.foldl_cons, ih]
    rfl

/-- 中断がなければ、bitmap を順に読むのは失敗しない。 -/
theorem readBlockStates_ok {cancel : Nat → Bool} {sb : Superblock} (ha : sb.Accepted d.sizeBytes)
    (hc : ∀ g, cancel g = false) {gds : List GroupDesc}
    (hin : ∀ gd ∈ gds, gd.blockBitmap < sb.blocksCount) (g : Nat) :
    readBlockStates cancel d sb g gds = .ok (((List.range' g gds.length).zip gds).flatMap fun x =>
      groupBlockStates sb x.1 (bitmapOf d sb x.2)) := by
  induction gds generalizing g with
  | nil => rfl
  | cons gd gds ih =>
    have hgd := hin gd List.mem_cons_self
    have hmul : (gd.blockBitmap + 1) * sb.blockSize ≤ sb.blocksCount * sb.blockSize :=
      Nat.mul_le_mul_right _ hgd
    rw [Nat.succ_mul] at hmul
    have hfits := ha.fits
    unfold readBlockStates
    rw [if_neg (by omega), if_neg (by rw [hc]; decide), Disk.readExact_ok (by omega),
      Result.ok_bind, ih fun x hx => hin x (List.mem_cons_of_mem _ hx)]
    rw [List.length_cons, List.range'_succ, List.zip_cons_cons, List.flatMap_cons]
    rfl

/-- descriptor はどれも、bitmap が filesystem の中にあることを確かめてから使われる。 -/
theorem blockBitmap_lt_of_readDescs {sb : Superblock} {n g : Nat} {gds : List GroupDesc}
    (h : readDescs d sb n g = .ok gds) : ∀ gd ∈ gds, gd.blockBitmap < sb.blocksCount := by
  induction n generalizing g gds with
  | zero =>
    cases h
    intro gd hgd
    cases hgd
  | succ n ih =>
    unfold readDescs at h
    obtain ⟨gd, hgd, h⟩ := Result.bind_eq_ok h
    rw [Result.guard_bind_eq_ok_iff] at h
    obtain ⟨rest, hrest, h⟩ := Result.bind_eq_ok h.2
    cases h
    intro x hx
    rcases List.mem_cons.mp hx with rfl | hx
    · exact (readGroupDesc_eq_ok_iff.mp hgd).2.2.2.blockBitmap_lt
    · exact ih hrest x hx

/-- **先読みの走査が成功すれば、順に読む走査も、中断されないかぎり同じ区間を返す。** -/
theorem buildAllocationGraph_of_with {host' : Host} {profile : IoProfile}
    (h : buildAllocationGraphWith host requested d = .ok r) (hp : host'.profile = .ok profile)
    (hc : ∀ g, host'.graphCancelled g = false) :
    buildAllocationGraph host' d = .ok r.toAllocationGraph := by
  obtain ⟨sb, s, hsb, hmeta, hbig, ⟨descs, hdescs⟩, hs, rfl⟩ := buildAllocationGraphWith_eq_ok h
  have ha := accepted_of_readSuperblock hsb
  have heq := readDescs_eq_descAt hdescs
  have hlen : descs.length = sb.groupsCount := by rw [heq, List.length_map, List.length_range]
  have hstates := readBlockStates_ok ha hc (blockBitmap_lt_of_readDescs hdescs) 0
  rw [← List.range_eq_range', hlen] at hstates
  have hzip : ((List.range sb.groupsCount).zip descs).flatMap (fun x =>
      groupBlockStates sb x.1 (bitmapOf d sb x.2)) = (List.range sb.groupsCount).flatMap fun g =>
      groupBlockStates sb g (bitmapOf d sb (descAt d sb g)) := by
    rw [heq, ← List.map_prod_left_eq_zip, List.flatMap_map]
    simp only [Nat.zero_add]
  rw [hzip, flatMap_all ha] at hstates
  have hfold := foldl_scanBlock_graph ((List.range' sb.firstDataBlock
    (sb.blocksCount - sb.firstDataBlock)).map fun b => (b, bitAt d sb b)) {}
  rw [← hs] at hfold
  unfold buildAllocationGraph
  rw [hsb, Result.ok_bind, hmeta, hbig]
  simp only [Bool.false_eq_true, if_false]
  rw [hp, Result.ok_bind, hdescs, Result.ok_bind, hstates, Result.ok_bind, ← hfold]
  rfl

end Graph

end Fsx.Ext4
