import Fsx.Core.Hoare
import Fsx.Ext4.Commit
import Fsx.Journal.Validate

/-!
# engine の run と、journal の不変条件

計画を一つ決め、`stage_relocation` と `commit_staged_relocation` を何度でも呼び、
そのどこでも crash が起きうる run を定める。

run の途中で path にあった journal をすべて見るために、不変条件は「いまの journal と、
`trace` に残った journal のどれもが `J` を満たす」の形にする。device への操作はこれを変えないので、
調べるのは journal への操作だけでよい。
-/

namespace Fsx.Ext4

open Proc

/-! ## 失敗の後始末 -/

theorem run_onError_ok {α : Type} {p : EngineM α} {h : EngineM Unit} {w w' : World} {a : α}
    (hp : Proc.run p w = (.ok a, w')) : Proc.run (Engine.onError p h) w = (.ok a, w') := by
  show Engine.onError p h w = _
  unfold Engine.onError
  rw [hp]

theorem run_onError_error {α : Type} {p : EngineM α} {h : EngineM Unit} {w w' : World} {e : Error}
    (hp : Proc.run p w = (.error e, w')) :
    Proc.run (Engine.onError p h) w = (.error e, (Proc.run h w').2) := by
  show Engine.onError p h w = _
  unfold Engine.onError
  rw [hp]

theorem triple_onError {α : Type} {P : World → Prop} {p : EngineM α} {h : EngineM Unit}
    {Q : α → World → Prop} {E E' : World → Prop} (hp : Triple P p Q E')
    (hh : Triple E' h (fun _ => E) E) : Triple P (Engine.onError p h) Q E := by
  intro w hw
  cases hr : Proc.run p w with
  | mk r w' =>
    cases r with
    | ok a =>
      rw [run_onError_ok hr]
      constructor
      · intro b w'' hb
        cases hb
        exact hp.ok hw hr
      · intro e w'' hb
        cases hb
    | error e =>
      rw [run_onError_error hr]
      constructor
      · intro b w'' hb
        cases hb
      · intro e' w'' hb
        cases hb
        exact hh.holds (hp.error hw hr)

/-! ## run -/

/-- 起動してからの世界。`boot` は起動した時点の世界である。 -/
structure Session where
  boot : World
  now : World

/--
一歩。`Guard` は `commit_staged_relocation` を呼ぶときの条件である。

crash は起動してからの `trace` のどこでも起こる。呼び出しの途中で止まるのも、その一つである。
-/
inductive Step (plan : OwnerRelocationPlan) (Guard : Host → World → Prop) :
    Session → Session → Prop
  | stage {s : Session} (host : Host) (jhost : JournalHost) (opts : StageOptions) :
      Step plan Guard s
        { s with now := (Proc.run (stageRelocation host jhost plan opts) s.now).2 }
  | commit {s : Session} (host : Host) (opts : CommitOptions) :
      Guard host s.now →
      Step plan Guard s { s with now := (Proc.run (commitStagedRelocation host plan opts) s.now).2 }
  | crash {s : Session} {w : World} : CrashWorld s.boot s.now.trace w → Step plan Guard s ⟨w, w⟩

/-- 何歩でも。 -/
abbrev Run (plan : OwnerRelocationPlan) (Guard : Host → World → Prop) :
    Session → Session → Prop :=
  Relation.ReflTransGen (Step plan Guard)

/-! ## journal の不変条件 -/

/-- これまでに path にあった journal は、どれも `J` を満たす。 -/
structure JournalAlways (J : JournalView → Prop) (w : World) : Prop where
  now : ∀ j, w.journal = some j → J j.view
  past : ∀ j, WorldEvent.journal j ∈ w.trace → J j.view

/-- これまでの journal が `J` を満たし、いまの journal は `F` も満たす。 -/
def Holds (J F : JournalView → Prop) (w : World) : Prop :=
  JournalAlways J w ∧ ∀ j, w.journal = some j → F j.view

variable {J F G : JournalView → Prop} {α : Type}

/-- device を読むだけの計算。 -/
theorem triple_device {f : Disk → Result α} :
    Triple (Holds J F) (Engine.device f) (fun _ => Holds J F) (JournalAlways J) :=
  Triple.reading (fun _ _ h _ => h) fun _ h => h.1

/-- device への操作は journal に触れない。 -/
theorem Holds.dev {w w' : World} (h : Holds J F w) (hj : w'.journal = w.journal) {e : Event}
    (ht : w'.trace = w.trace ++ [.dev e]) : Holds J F w' := by
  refine ⟨⟨fun j hw => h.1.now j (hj ▸ hw), fun j hmem => ?_⟩, fun j hw => h.2 j (hj ▸ hw)⟩
  rw [ht, List.mem_append, List.mem_singleton] at hmem
  rcases hmem with hmem | hmem
  · exact h.1.past j hmem
  · cases hmem

theorem triple_write {off : Nat} {bytes : Bytes} :
    Triple (Holds J F) (Engine.write off bytes) (fun _ => Holds J F) (JournalAlways J) := by
  refine Triple.stepping (fun w w' h hw => ?_) fun _ h => h.1
  obtain ⟨d, _, hd⟩ := Result.bind_eq_ok hw
  cases hd
  exact h.dev rfl rfl

theorem triple_flush :
    Triple (Holds J F) Engine.flush (fun _ => Holds J F) (JournalAlways J) := by
  refine Triple.stepping (fun w w' h hw => ?_) fun _ h => h.1
  obtain ⟨d, _, hd⟩ := Result.bind_eq_ok hw
  cases hd
  exact h.dev rfl rfl

/-- journal への操作。書く状態がどれも `J` を満たし、終えた状態が `G` を満たせばよい。 -/
theorem triple_journalOp {op : JournalOp}
    (hop : ∀ v, J v → F v → (∀ v' ∈ op.states v, J v') ∧ G (op.result v)) :
    Triple (Holds J F) (Engine.journalOp op) (fun _ => Holds J G) (JournalAlways J) := by
  refine Triple.stepping (fun w w' h hw => ?_) fun _ h => h.1
  cases hj : w.journal with
  | none =>
    rw [hj] at hw
    cases hw
  | some j =>
    rw [hj] at hw
    obtain ⟨j', hstep, hw'⟩ := Result.bind_eq_ok hw
    cases hw'
    obtain ⟨hJ, hG⟩ := hop j.view (h.1.now j hj) (h.2 j hj)
    have hview : j'.view = op.result j.view := by
      unfold JournalFile.step at hstep
      split at hstep
      · cases hstep
      · cases hstep
        rfl
    have hlast : op.result j.view ∈ op.states j.view := by
      simp only [JournalOp.states, List.mem_cons, or_true, true_or]
    refine ⟨⟨fun k hk => ?_, fun k hk => ?_⟩, fun k hk => ?_⟩
    · cases hk
      rw [hview]
      exact hJ _ hlast
    · rcases List.mem_append.mp hk with hk | hk
      · exact h.1.past k hk
      · obtain ⟨v, hv, hvk⟩ := List.mem_map.mp hk
        cases hvk
        exact hJ v hv
    · cases hk
      rw [hview]
      exact hG

theorem triple_append {r : JournalRecord} (hop : ∀ v, J v → F v → J (v.extend [r]) ∧ G (v.extend [r])) :
    Triple (Holds J F) (Engine.append r) (fun _ => Holds J G) (JournalAlways J) := by
  refine triple_journalOp fun v hJ hF => ?_
  obtain ⟨h1, h2⟩ := hop v hJ hF
  refine ⟨fun v' hv' => ?_, h2⟩
  simp only [JournalOp.states, JournalOp.recorded, JournalOp.result, List.mem_cons,
    List.not_mem_nil, or_false, or_self] at hv'
  rw [hv']
  exact h1

/-- 途中で止まった世界の journal は、それまでにあったもののどれかである。 -/
theorem JournalAlways.crash {boot now w : World} (hb : JournalAlways J boot)
    (hn : JournalAlways J now) (hc : CrashWorld boot now.trace w) : JournalAlways J w := by
  obtain ⟨pre, ⟨suf, htr⟩, img, -, rfl⟩ := hc
  refine ⟨fun j hj => ?_, fun j hj => (by cases hj)⟩
  have hlast : ∀ (es : List WorldEvent) (j₀ : Option JournalFile),
      lastJournal j₀ es = some j → j₀ = some j ∨ WorldEvent.journal j ∈ es := by
    intro es
    induction es with
    | nil => exact fun j₀ h => Or.inl h
    | cons e es ih =>
      intro j₀ h
      cases e with
      | dev e =>
        rcases ih j₀ h with h | h
        · exact Or.inl h
        · exact Or.inr (List.mem_cons_of_mem _ h)
      | journal k =>
        rcases ih (some k) h with h | h
        · cases h
          exact Or.inr List.mem_cons_self
        · exact Or.inr (List.mem_cons_of_mem _ h)
  rcases hlast pre boot.journal hj with h | h
  · exact hb.now j h
  · exact hn.past j (htr ▸ List.mem_append_left _ h)

/-! ## 小さな filesystem

block が 2048 byte で、16 block の group が一つだけの image。block 0 に superblock、1 に descriptor、
2 と 3 に bitmap、4 に inode table があり、inode 11 の file が block 12 の一つを使う。 -/

namespace Tiny

/-- `rawLen` は file の extent の長さの欄、`data` は block 12 の内容である。 -/
def image (rawLen : Nat) (data : Bytes) : Image :=
  Image.applyAll (fun _ => 0) [
    ⟨1024, leBytes 4 16⟩, ⟨1024 + 0x04, leBytes 4 16⟩, ⟨1024 + 0x0c, leBytes 4 10⟩,
    ⟨1024 + 0x10, leBytes 4 5⟩, ⟨1024 + 0x18, leBytes 4 1⟩, ⟨1024 + 0x20, leBytes 4 16384⟩,
    ⟨1024 + 0x28, leBytes 4 16⟩, ⟨1024 + 0x38, leBytes 2 extMagic⟩, ⟨1024 + 0x3a, leBytes 2 1⟩,
    ⟨1024 + 0x58, leBytes 2 128⟩,
    ⟨2048, leBytes 4 2 ++ leBytes 4 3 ++ leBytes 4 4 ++ leBytes 2 10 ++ leBytes 2 5⟩,
    ⟨4096, [0x1f, 0x10]⟩,
    ⟨6144, [0xff, 0x07]⟩,
    ⟨9472, leBytes 2 0x81a4⟩, ⟨9472 + 26, leBytes 2 1⟩, ⟨9472 + 32, leBytes 4 extentsFlag⟩,
    ⟨9472 + 40, leBytes 2 0xf30a ++ leBytes 2 1 ++ leBytes 2 4⟩,
    ⟨9472 + 56, leBytes 2 rawLen ++ leBytes 2 0 ++ leBytes 4 12⟩,
    ⟨24576, data⟩]

/-- 目次より後の、何も置かれていない範囲。 -/
theorem read_image_blank {rawLen o n : Nat} {data : Bytes} (ho : 9600 ≤ o)
    (hn : o + n ≤ 24576 ∨ 24576 + data.length ≤ o) : (image rawLen data).read o n = zeros n := by
  unfold image
  rw [Image.read_applyAll_of_disjoint, Image.read_zero]
  simp only [List.forall_mem_cons, List.not_mem_nil, false_implies, implies_true, and_true,
    List.length_append, length_leBytes, List.length_cons, List.length_nil]
  omega

def disk (img : Image) : Disk where
  sizeBytes := 32768
  logicalSector := 512
  isBlockDevice := false
  writable := true
  data := img
  events := []
  size_lt := by decide

/-- 二つの file を持つ image。inode 11 は深さ 1 の木で二つの葉を、inode 12 は root に二つの extent を持つ。 -/
def spread : Disk :=
  disk ((image 1 []).applyAll [
    ⟨1024 + 0x0c, leBytes 4 5⟩, ⟨1024 + 0x10, leBytes 4 4⟩,
    ⟨2048 + 12, leBytes 2 5 ++ leBytes 2 4⟩,
    ⟨4096, [0x1f, 0xfc]⟩, ⟨6144, [0xff, 0x0f]⟩,
    ⟨9472 + 40, leBytes 2 0xf30a ++ leBytes 2 2 ++ leBytes 2 4 ++ leBytes 2 1⟩,
    ⟨9472 + 52, leBytes 4 0 ++ leBytes 4 13 ++ zeros 4⟩,
    ⟨9472 + 64, leBytes 4 4 ++ leBytes 4 15 ++ zeros 4⟩,
    ⟨9600, leBytes 2 0x81a4⟩, ⟨9600 + 26, leBytes 2 1⟩, ⟨9600 + 32, leBytes 4 extentsFlag⟩,
    ⟨9600 + 40, leBytes 2 0xf30a ++ leBytes 2 2 ++ leBytes 2 4⟩,
    ⟨9600 + 52, leBytes 4 0 ++ leBytes 2 1 ++ leBytes 2 0 ++ leBytes 4 12⟩,
    ⟨9600 + 64, leBytes 4 7 ++ leBytes 2 1 ++ leBytes 2 0 ++ leBytes 4 10⟩,
    ⟨26624, leBytes 2 0xf30a ++ leBytes 2 1 ++ leBytes 2 4 ++ zeros 10 ++ leBytes 2 1 ++ leBytes 2 0
      ++ leBytes 4 14⟩,
    ⟨30720, leBytes 2 0xf30a ++ leBytes 2 1 ++ leBytes 2 4 ++ zeros 6 ++ leBytes 4 4 ++ leBytes 2 1
      ++ leBytes 2 0 ++ leBytes 4 11⟩])

/-- 何も妨げない host。 -/
def host : Host where
  srt := StdSort.ofStable
  offline := .ok ()
  blockDevice := .ok false
  profile := .ok ⟨1, 65536⟩
  graphCancelled := fun _ => false
  scanCancelled := fun _ => false
  verifyCancelled := fun _ => false
  stageCancelled := fun _ => false
  copyCancelled := fun _ _ => false
  commitCancelled := fun _ => false

def journalHost : JournalHost where
  operationUuid := Uuid.ofBytes (zeros 16)
  create := .ok ()

/-- 10 block に縮める計画。file を block 5 に移す。 -/
def plan (unwritten : Bool) : OwnerRelocationPlan where
  blockSize := 2048
  targetBlocks := 10
  targetBytes := 20480
  unknownAllocatedBlocksAboveTarget := 0
  fixedMetadataBlocksAboveTarget := 0
  legacyBlockmapInodes := 0
  completeOwnerCoverage := true
  destinationsAvailable := true
  moves := [{
    kind := .dataExtent, transactionId := 1, inode := 11, logicalBlock := 0, sourceBlock := 12
    destinationBlock := 5, blockCount := 1, unwritten, treeDepth := 0 }]

def stageOptions : StageOptions where
  journalPath := "journal"

def commitOptions : CommitOptions where
  journalPath := "journal"

/-- 零の block を写し終えた journal。 -/
def stagedJournal : JournalFile where
  view := {
    identity := {
      operationUuid := Uuid.ofBytes (zeros 16), filesystemUuid := Uuid.ofBytes (zeros 16)
      deviceSize := 32768, targetSize := 20480 }
    phase := .staged
    records := (plan false).moves.map (moveRecord .relocationIntent) ++
      (plan false).moves.map fun m => verifiedRecord m (crc32cFinal (zeros 2048)) }
  capacity := 100

/-- journal のない世界。 -/
def world (img : Image) : World := ⟨disk img, none, []⟩

/-- 写しを終えた世界。 -/
def staged (p : OwnerRelocationPlan) (w : World) : World :=
  (Proc.run (stageRelocation host journalHost p stageOptions) w).2

/-- 確定を試みた世界。 -/
def committed (p : OwnerRelocationPlan) (w : World) : World :=
  (Proc.run (commitStagedRelocation host p commitOptions) w).2

theorem step_stage {p : OwnerRelocationPlan} {Guard : Host → World → Prop} {boot w : World} :
    Step p Guard ⟨boot, w⟩ ⟨boot, staged p w⟩ :=
  Step.stage (s := ⟨boot, w⟩) host journalHost stageOptions

theorem step_commit {p : OwnerRelocationPlan} {Guard : Host → World → Prop} {boot w : World}
    (h : Guard host w) : Step p Guard ⟨boot, w⟩ ⟨boot, committed p w⟩ :=
  Step.commit (s := ⟨boot, w⟩) host commitOptions h

end Tiny

end Fsx.Ext4
