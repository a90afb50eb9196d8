import Fsx.Core.Error
import Mathlib.Data.Finset.Card
import Mathlib.Data.Set.Basic
import Mathlib.Order.CompletePartialOrder
import Mathlib.Logic.Relation
import Mathlib.Order.WellFoundedSet

/-!
# 重なる device の拒否（`src/io/safety.cpp`）

clone の前に、複写元と複写先が同じ記憶域を共有しないことを sysfs から確かめる。
`collect_backing_devices` は `slaves` だけをたどって葉を集め、
`require_nonoverlapping_devices` は葉どうしを path の前後関係で比べる。

sysfs の側は `Topology`（partition と slaves の関係）と `Sectors`（各 device の sector の集合）で
表し、この二つから重なりが見逃されない条件を求める。
-/

namespace Fsx

/-! ## sysfs -/

/-- path の成分の列。空の列は C++ の空の path にあたる。 -/
abbrev SysPath := List String

/--
code が sysfs から読むもの。

`devBlock` は `/sys/dev/block/MAJ:MIN` の canonical な path で、解決できなければ `none`。
`slavesDirs` は `slaves` directory を持つ path とその中身で、解決できない項目は `none` とする。
-/
structure Sysfs where
  devBlock : Nat × Nat → Option SysPath
  slavesDirs : List (SysPath × List (Option SysPath))

namespace Sysfs

/-- `slaves` の項目。directory がなければ空である（code は両者を区別しない）。 -/
def slaves (fs : Sysfs) (p : SysPath) : List (Option SysPath) :=
  (fs.slavesDirs.lookup p).getD []

/-- `slaves` directory を持つ path の全体。 -/
def slavesPaths (fs : Sysfs) : Finset SysPath :=
  (fs.slavesDirs.map Prod.fst).toFinset

theorem mem_slavesPaths {fs : Sysfs} {p : SysPath} (h : fs.slaves p ≠ []) :
    p ∈ fs.slavesPaths := by
  unfold slaves at h
  cases hl : fs.slavesDirs.lookup p with
  | none => rw [hl] at h; simp at h
  | some es =>
    obtain ⟨l₁, l₂, heq, -⟩ := List.lookup_eq_some_iff.mp hl
    simp [slavesPaths, heq]

/-- 訪問中の path を一つ増やすと、残りは減る。 -/
theorem card_sdiff_insert_lt {fs : Sysfs} {p : SysPath} {visiting : Finset SysPath}
    (hs : fs.slaves p ≠ []) (hv : p ∉ visiting) :
    (fs.slavesPaths \ insert p visiting).card < (fs.slavesPaths \ visiting).card := by
  apply Finset.card_lt_card
  rw [Finset.ssubset_iff_of_subset (Finset.sdiff_subset_sdiff (Finset.Subset.refl _)
    (Finset.subset_insert _ _))]
  exact ⟨p, by simp [mem_slavesPaths hs, hv], by simp⟩

end Sysfs

/-- `fstat` の結果のうち、この判定が使う部分。 -/
structure Stat where
  dev : Nat
  ino : Nat
  isBlock : Bool
  rdev : Nat × Nat
  deriving DecidableEq

/-- 循環のない関係は、有限集合の上では逆向きに整礎である。 -/
theorem wellFounded_of_acyclic {α : Type} {r : α → α → Prop} (s : Finset α)
    (h : ∀ a, ¬ Relation.TransGen r a a) :
    WellFounded fun b a => r a b ∧ b ∈ s ∧ a ∈ s := by
  have : IsStrictOrder α fun b a => Relation.TransGen r a b :=
    { irrefl := h, trans := fun _ _ _ hab hbc => hbc.trans hab }
  have hwf := Set.wellFoundedOn_iff.mp
    (s.finite_toSet.wellFoundedOn (r := fun b a => Relation.TransGen r a b))
  refine Subrelation.wf ?_ hwf
  intro b a hab
  exact ⟨.single hab.1, hab.2.1, hab.2.2⟩

/-! ## 判定（`safety.cpp`） -/

/-- `same_or_descendant` -/
def sameOrDescendant (base candidate : SysPath) : Bool :=
  if base.isEmpty || candidate.isEmpty then false
  else base.isPrefixOf candidate

/--
`collect_backing_devices`

`visiting` は再帰の間だけ `sys` を含み、戻るときに元へ戻される。
-/
def collectBackingDevices (fs : Sysfs) (sys : SysPath) (out visiting : Finset SysPath) :
    Finset SysPath :=
  if _hv : sys ∈ visiting then out
  else if _hs : fs.slaves sys = [] then insert sys out
  else
    (fs.slaves sys).foldl
      (fun out entry =>
        entry.elim out fun child => collectBackingDevices fs child out (insert sys visiting))
      out
termination_by (fs.slavesPaths \ visiting).card
decreasing_by exact Sysfs.card_sdiff_insert_lt _hs _hv

/-- `backing_set` -/
def backingSet (fs : Sysfs) (d : Nat × Nat) : Finset SysPath :=
  match fs.devBlock d with
  | none => ∅
  | some sys => collectBackingDevices fs sys ∅ ∅

/-- 二つの path が等しいか、一方が他方の下にある。 -/
def pathsOverlap (a b : SysPath) : Bool :=
  a == b || sameOrDescendant a b || sameOrDescendant b a

/-- `require_nonoverlapping_devices`（Linux の側） -/
def requireNonoverlappingDevices (fs : Sysfs) (source target : Stat) : Result Unit := do
  if source.dev = target.dev ∧ source.ino = target.ino then
    throw ⟨.unsafeErr, "source and target refer to the same object", 0⟩
  if ¬ source.isBlock ∨ ¬ target.isBlock then
    return ()
  if source.rdev = target.rdev then
    throw ⟨.unsafeErr, "source and target refer to the same block device", 0⟩
  match fs.devBlock source.rdev, fs.devBlock target.rdev with
  | some sp, some tp =>
    if sameOrDescendant sp tp || sameOrDescendant tp sp then
      throw ⟨.unsafeErr, "source and target are a disk/partition overlap", 0⟩
    let sb := backingSet fs source.rdev
    let tb := backingSet fs target.rdev
    if sb = ∅ ∨ tb = ∅ then
      throw ⟨.unsupported, "cannot resolve block-device backing storage; refusing " ++
        "potentially overlapping copy", 0⟩
    if ∃ a ∈ sb, ∃ b ∈ tb, pathsOverlap a b then
      throw ⟨.unsafeErr, "source and target share overlapping block storage", 0⟩
  | _, _ =>
    throw ⟨.unsupported, "cannot resolve block-device ancestry; refusing potentially " ++
      "overlapping copy", 0⟩

theorem sameOrDescendant_iff {a b : SysPath} :
    sameOrDescendant a b = true ↔ a ≠ [] ∧ b ≠ [] ∧ a <+: b := by
  unfold sameOrDescendant
  cases a <;> cases b <;> simp

theorem pathsOverlap_iff {a b : SysPath} :
    pathsOverlap a b = true ↔ a = b ∨ (a ≠ [] ∧ b ≠ [] ∧ (a <+: b ∨ b <+: a)) := by
  unfold pathsOverlap
  simp only [Bool.or_eq_true, beq_iff_eq, sameOrDescendant_iff]
  tauto

/-! ## たどった葉 -/

namespace Sysfs

variable {fs : Sysfs}

/-- `q` は `p` の `slaves` に並ぶ。 -/
def SlaveOf (fs : Sysfs) (p q : SysPath) : Prop :=
  some q ∈ fs.slaves p

/-- `q` は `p` から `slaves` をたどって着く葉である。 -/
structure LeafBelow (fs : Sysfs) (p q : SysPath) : Prop where
  reach : Relation.ReflTransGen fs.SlaveOf p q
  leaf : fs.slaves q = []

theorem LeafBelow.step {p c q : SysPath} (hc : fs.SlaveOf p c) (h : fs.LeafBelow c q) :
    fs.LeafBelow p q :=
  ⟨.head hc h.reach, h.leaf⟩

theorem LeafBelow.self {p : SysPath} (h : fs.slaves p = []) : fs.LeafBelow p p :=
  ⟨.refl, h⟩

/-- slave を持つ device の葉は、どれかの slave の葉である。 -/
theorem LeafBelow.cases {p q : SysPath} (h : fs.LeafBelow p q) :
    (p = q ∧ fs.slaves p = []) ∨ ∃ c, fs.SlaveOf p c ∧ fs.LeafBelow c q := by
  rcases Relation.ReflTransGen.cases_head h.reach with rfl | ⟨c, hc, hr⟩
  · exact .inl ⟨rfl, h.leaf⟩
  · exact .inr ⟨c, hc, hr, h.leaf⟩

end Sysfs

section Collect

variable {fs : Sysfs}

/-- 項目を順に畳み込んだ結果は、元の集合と各項目が加えたものである。 -/
theorem mem_foldl_collect {f : SysPath → Finset SysPath → Finset SysPath}
    {P : SysPath → SysPath → Prop} {es : List (Option SysPath)}
    (hf : ∀ c, some c ∈ es → ∀ out q, q ∈ f c out ↔ q ∈ out ∨ P c q)
    (out : Finset SysPath) (q : SysPath) :
    q ∈ es.foldl (fun out entry => entry.elim out fun child => f child out) out ↔
      q ∈ out ∨ ∃ c, some c ∈ es ∧ P c q := by
  induction es generalizing out with
  | nil => simp
  | cons e es ih =>
    have hrest := ih (fun c hc => hf c (List.mem_cons_of_mem _ hc))
    cases e with
    | none => simp [hrest]
    | some child =>
      rw [List.foldl_cons, Option.elim_some, hrest, hf child (List.mem_cons_self ..)]
      constructor
      · rintro ((h | h) | ⟨c, hc, h⟩)
        · exact .inl h
        · exact .inr ⟨child, List.mem_cons_self .., h⟩
        · exact .inr ⟨c, List.mem_cons_of_mem _ hc, h⟩
      · rintro (h | ⟨c, hc, h⟩)
        · exact .inl (.inl h)
        · rcases List.mem_cons.mp hc with heq | hc
          · cases heq; exact .inl (.inr h)
          · exact .inr ⟨c, hc, h⟩

/--
**`collect_backing_devices` は葉をちょうど集める。**

`slaves` に循環がなければ、途中で `visiting` に当たることはない。
-/
theorem mem_collectBackingDevices (hacyc : ∀ p, ¬ Relation.TransGen fs.SlaveOf p p)
    (sys : SysPath) (out visiting : Finset SysPath)
    (hvis : ∀ v ∈ visiting, ¬ Relation.ReflTransGen fs.SlaveOf sys v) (q : SysPath) :
    q ∈ collectBackingDevices fs sys out visiting ↔ q ∈ out ∨ fs.LeafBelow sys q := by
  induction hn : (fs.slavesPaths \ visiting).card using Nat.strong_induction_on
    generalizing sys out visiting q with
  | _ n ih =>
    have hv : sys ∉ visiting := fun h => hvis sys h .refl
    rw [collectBackingDevices, dif_neg hv]
    by_cases hs : fs.slaves sys = []
    · rw [dif_pos hs, Finset.mem_insert]
      constructor
      · rintro (rfl | h)
        · exact .inr (.self hs)
        · exact .inl h
      · rintro (h | h)
        · exact .inr h
        · rcases h.cases with ⟨rfl, -⟩ | ⟨c, hc, -⟩
          · exact .inl rfl
          · unfold Sysfs.SlaveOf at hc
            rw [hs] at hc
            cases hc
    · rw [dif_neg hs]
      have hlt : (fs.slavesPaths \ insert sys visiting).card < n :=
        hn ▸ Sysfs.card_sdiff_insert_lt hs hv
      -- 子から `sys` や `visiting` へは、循環なしには戻れない。
      have hchild : ∀ c, some c ∈ fs.slaves sys → ∀ out q,
          q ∈ collectBackingDevices fs c out (insert sys visiting) ↔
            q ∈ out ∨ fs.LeafBelow c q := by
        intro c hc out q
        refine ih _ hlt c out (insert sys visiting) ?_ q rfl
        intro v hv hr
        rcases Finset.mem_insert.mp hv with rfl | hv
        · exact hacyc v (.head' hc hr)
        · exact hvis v hv (.head hc hr)
      rw [mem_foldl_collect (P := fs.LeafBelow) hchild]
      constructor
      · rintro (h | ⟨c, hc, h⟩)
        · exact .inl h
        · exact .inr (h.step hc)
      · rintro (h | h)
        · exact .inl h
        · rcases h.cases with ⟨-, h⟩ | h
          · exact absurd h hs
          · exact .inr h

/-- `backing_set` は device の葉の全体である。 -/
theorem mem_backingSet (hacyc : ∀ p, ¬ Relation.TransGen fs.SlaveOf p p) {d : Nat × Nat}
    {sys : SysPath} (hd : fs.devBlock d = some sys) (q : SysPath) :
    q ∈ backingSet fs d ↔ fs.LeafBelow sys q := by
  unfold backingSet
  rw [hd]
  simp [mem_collectBackingDevices hacyc sys ∅ ∅ (by simp)]

/-- slave のない device の `backing_set` は自分だけである。 -/
theorem mem_backingSet_of_leaf (hacyc : ∀ p, ¬ Relation.TransGen fs.SlaveOf p p) {d : Nat × Nat}
    {sys : SysPath} (hd : fs.devBlock d = some sys) (hl : fs.slaves sys = []) (q : SysPath) :
    q ∈ backingSet fs d ↔ q = sys := by
  rw [mem_backingSet hacyc hd]
  constructor
  · intro h
    rcases h.cases with ⟨rfl, -⟩ | ⟨c, hc, -⟩
    · rfl
    · unfold Sysfs.SlaveOf at hc
      rw [hl] at hc
      cases hc
  · rintro rfl
    exact .self hl

end Collect

/-- 解決できた二つの別の device について、判定が通るのは、どの葉も path で関わらないときである。 -/
theorem requireNonoverlappingDevices_eq_ok_iff {fs : Sysfs} {source target : Stat}
    {sp tp : SysPath} (hs : source.isBlock) (ht : target.isBlock)
    (hsp : fs.devBlock source.rdev = some sp) (htp : fs.devBlock target.rdev = some tp) :
    requireNonoverlappingDevices fs source target = .ok () ↔
      ¬ (source.dev = target.dev ∧ source.ino = target.ino) ∧ source.rdev ≠ target.rdev ∧
      ¬ (sameOrDescendant sp tp || sameOrDescendant tp sp) = true ∧
      ¬ (backingSet fs source.rdev = ∅ ∨ backingSet fs target.rdev = ∅) ∧
      ¬ ∃ a ∈ backingSet fs source.rdev, ∃ b ∈ backingSet fs target.rdev,
        pathsOverlap a b := by
  unfold requireNonoverlappingDevices
  rw [hsp, htp]
  simp only [Result.guard_bind_eq_ok_iff, Result.guard_eq_ok_iff, hs, ht, not_true_eq_false,
    or_self, if_false]
  simp only [ne_eq, pure, Except.pure, and_true]

/-! ## device の積み重ね -/

/--
sysfs に現れる device の有限な構成。

partition の path は disk の path の直下にあり、`slaves` を持つのは disk だけである。
`slaves` は循環しない限りどの device を指してもよい。
-/
structure Topology where
  sysfs : Sysfs
  devices : Finset SysPath
  /-- partition の属する disk。disk 自身では `none`。 -/
  disk : SysPath → Option SysPath
  path_ne_nil : ∀ p ∈ devices, p ≠ []
  resolves : ∀ p ∈ devices, ∃ n, sysfs.devBlock n = some p
  disk_mem : ∀ p ∈ devices, ∀ d, disk p = some d → d ∈ devices
  disk_whole : ∀ p ∈ devices, ∀ d, disk p = some d → disk d = none
  partition_path : ∀ p ∈ devices, ∀ d, disk p = some d → ∃ name, p = d ++ [name]
  partition_slaves : ∀ p ∈ devices, ∀ d, disk p = some d → sysfs.slaves p = []
  slaves_mem : ∀ p ∈ devices, ∀ e ∈ sysfs.slaves p, ∃ q ∈ devices, e = some q
  acyclic : ∀ p, ¬ Relation.TransGen sysfs.SlaveOf p p

/-- 各 device の占める sector の集合。 -/
structure Sectors (T : Topology) (S : Type) where
  of : SysPath → Set S
  partition_subset : ∀ p ∈ T.devices, ∀ d, T.disk p = some d → of p ⊆ of d
  siblings_disjoint : ∀ p ∈ T.devices, ∀ q ∈ T.devices, ∀ d, T.disk p = some d →
    T.disk q = some d → p ≠ q → Disjoint (of p) (of q)
  disks_disjoint : ∀ p ∈ T.devices, ∀ q ∈ T.devices, T.disk p = none → T.disk q = none →
    T.sysfs.slaves p = [] → T.sysfs.slaves q = [] → p ≠ q → Disjoint (of p) (of q)
  stacked_subset : ∀ p ∈ T.devices, T.sysfs.slaves p ≠ [] →
    ∀ s ∈ of p, ∃ q, T.sysfs.SlaveOf p q ∧ s ∈ of q

namespace Topology

variable {T : Topology}

/-- `st` は構成の中の block device `p` である。 -/
structure IsDevice (T : Topology) (st : Stat) (p : SysPath) : Prop where
  mem : p ∈ T.devices
  isBlock : st.isBlock = true
  resolved : T.sysfs.devBlock st.rdev = some p

/-- 構成が許すどの sector の割り当てでも、重なる二つの device は拒否される。 -/
def RefusesOverlaps (T : Topology) : Prop :=
  ∀ (S : Type) (sectors : Sectors T S) (source target : Stat) (p q : SysPath),
    T.IsDevice source p → T.IsDevice target q → (sectors.of p ∩ sectors.of q).Nonempty →
    ∃ e, requireNonoverlappingDevices T.sysfs source target = .error e

/-- slave を持つ device は partition に分かれていない。 -/
def StackedWhole (T : Topology) : Prop :=
  ∀ p ∈ T.devices, ∀ d, T.disk p = some d → T.sysfs.slaves d = []

theorem slaveOf_mem {p q : SysPath} (hp : p ∈ T.devices) (h : T.sysfs.SlaveOf p q) :
    q ∈ T.devices := by
  obtain ⟨r, hr, heq⟩ := T.slaves_mem p hp _ h
  cases heq
  exact hr

theorem reach_mem {p q : SysPath} (hp : p ∈ T.devices)
    (h : Relation.ReflTransGen T.sysfs.SlaveOf p q) : q ∈ T.devices := by
  induction h with
  | refl => exact hp
  | tail _ hbc ih => exact slaveOf_mem ih hbc

/-- `slaves` に循環がなく device は有限なので、slave の関係は整礎である。 -/
theorem wellFounded_slaveOf (T : Topology) :
    WellFounded fun q p => T.sysfs.SlaveOf p q ∧ q ∈ T.devices ∧ p ∈ T.devices :=
  wellFounded_of_acyclic T.devices T.acyclic

/-- **device の各 sector は、その葉のどれかにある。** -/
theorem exists_leaf_of_mem {S : Type} (sectors : Sectors T S) {s : S} :
    ∀ {p : SysPath}, p ∈ T.devices → s ∈ sectors.of p →
      ∃ q, T.sysfs.LeafBelow p q ∧ s ∈ sectors.of q := by
  intro p
  induction p using T.wellFounded_slaveOf.induction with
  | _ p ih =>
    intro hp hs
    by_cases hl : T.sysfs.slaves p = []
    · exact ⟨p, .self hl, hs⟩
    · obtain ⟨c, hc, hsc⟩ := sectors.stacked_subset p hp hl s hs
      obtain ⟨q, hq, hsq⟩ := ih c ⟨hc, slaveOf_mem hp hc, hp⟩ (slaveOf_mem hp hc) hsc
      exact ⟨q, hq.step hc, hsq⟩

/-- 葉の属する slave のない disk。葉が disk ならそれ自身である。 -/
theorem exists_disk_of_leaf (hT : T.StackedWhole) {S : Type} (sectors : Sectors T S) {s : S}
    {q : SysPath} (hq : q ∈ T.devices) (hleaf : T.sysfs.slaves q = []) (hs : s ∈ sectors.of q) :
    ∃ d ∈ T.devices, T.disk d = none ∧ T.sysfs.slaves d = [] ∧ s ∈ sectors.of d ∧
      (q = d ∨ T.disk q = some d) := by
  cases hd : T.disk q with
  | none => exact ⟨q, hq, hd, hleaf, hs, .inl rfl⟩
  | some d =>
    exact ⟨d, T.disk_mem q hq d hd, T.disk_whole q hq d hd, hT q hq d hd,
      sectors.partition_subset q hq d hd hs, .inr rfl⟩

theorem pathsOverlap_of_disk {d q : SysPath} (hd : d ∈ T.devices) (hq : q ∈ T.devices)
    (h : q = d ∨ T.disk q = some d) : d ≠ [] ∧ q ≠ [] ∧ d <+: q := by
  refine ⟨T.path_ne_nil d hd, T.path_ne_nil q hq, ?_⟩
  rcases h with rfl | h
  · exact List.prefix_rfl
  · obtain ⟨name, rfl⟩ := T.partition_path q hq d h
    exact List.prefix_append _ _

/-- **積まれた device が分割されていなければ、重なる葉は path で関わる。** -/
theorem pathsOverlap_of_common (hT : T.StackedWhole) {S : Type} (sectors : Sectors T S) {s : S}
    {a b : SysPath} (ha : a ∈ T.devices) (hb : b ∈ T.devices) (hla : T.sysfs.slaves a = [])
    (hlb : T.sysfs.slaves b = []) (hsa : s ∈ sectors.of a) (hsb : s ∈ sectors.of b) :
    pathsOverlap a b = true := by
  obtain ⟨d, hd, hwd, hld, hsd, hda⟩ := exists_disk_of_leaf hT sectors ha hla hsa
  obtain ⟨d', hd', hwd', hld', hsd', hdb⟩ := exists_disk_of_leaf hT sectors hb hlb hsb
  -- 同じ sector を持つ slave のない disk は一つしかない。
  have hdd : d = d' := by
    by_contra hne
    exact Set.disjoint_left.mp
      (sectors.disks_disjoint d hd d' hd' hwd hwd' hld hld' hne) hsd hsd'
  subst hdd
  have hpa := pathsOverlap_of_disk hd ha hda
  have hpb := pathsOverlap_of_disk hd hb hdb
  rw [pathsOverlap_iff]
  rcases hda with rfl | hda
  · exact .inr ⟨hpb.1, hpb.2.1, .inl hpb.2.2⟩
  · rcases hdb with rfl | hdb
    · exact .inr ⟨hpa.2.1, hpa.1, .inr hpa.2.2⟩
    · -- 兄弟の partition は交わらないので、同じ partition である。
      left
      by_contra hne
      exact Set.disjoint_left.mp
        (sectors.siblings_disjoint a ha b hb d hda hdb hne) hsa hsb

/-- **積まれた device が分割されていない構成では、重なりはすべて拒否される。** -/
theorem StackedWhole.refusesOverlaps (hT : T.StackedWhole) : T.RefusesOverlaps := by
  intro S sectors source target p q hp hq ⟨s, hsp, hsq⟩
  obtain ⟨a, hpa, hsa⟩ := exists_leaf_of_mem sectors hp.mem hsp
  obtain ⟨b, hqb, hsb⟩ := exists_leaf_of_mem sectors hq.mem hsq
  have hover := pathsOverlap_of_common hT sectors (reach_mem hp.mem hpa.reach)
    (reach_mem hq.mem hqb.reach) hpa.leaf hqb.leaf hsa hsb
  cases hr : requireNonoverlappingDevices T.sysfs source target with
  | error e => exact ⟨e, rfl⟩
  | ok u =>
    obtain ⟨-, -, -, -, hnone⟩ := (requireNonoverlappingDevices_eq_ok_iff hp.isBlock hq.isBlock
      hp.resolved hq.resolved).mp hr
    exact absurd ⟨a, (mem_backingSet T.acyclic hp.resolved a).mpr hpa, b,
      (mem_backingSet T.acyclic hq.resolved b).mpr hqb, hover⟩ hnone

/-! ## 条件の必要性 -/

/-- `q` は `p` の直下の記憶域である。partition なら disk、積まれた device なら slave。 -/
def Under (T : Topology) (p q : SysPath) : Prop :=
  T.disk p = some q ∨ T.sysfs.SlaveOf p q

/--
device の path が入れ子になるのは partition の場合だけで、
partition と slave をたどっても元の device に戻らない構成。実際の sysfs はこうなっている。
-/
structure Layered (T : Topology) : Prop where
  nested : ∀ p ∈ T.devices, ∀ q ∈ T.devices, p <+: q → p = q ∨ T.disk q = some p
  acyclic : ∀ p, ¬ Relation.TransGen T.Under p p

/-- 一つの sector が下る先。partition は disk へ、積まれた device は最初の slave へ下る。 -/
def next (T : Topology) (p : SysPath) : Option SysPath :=
  match T.disk p with
  | some d => some d
  | none => (T.sysfs.slaves p).head?.join

theorem next_of_partition {p d : SysPath} (h : T.disk p = some d) : T.next p = some d := by
  simp [next, h]

theorem next_of_stacked {p : SysPath} (hp : p ∈ T.devices) (h : T.sysfs.slaves p ≠ []) :
    ∃ q, T.next p = some q ∧ T.sysfs.SlaveOf p q := by
  have hnone : T.disk p = none := by
    cases hd : T.disk p with
    | none => rfl
    | some d => exact absurd (T.partition_slaves p hp d hd) h
  cases hes : T.sysfs.slaves p with
  | nil => exact absurd hes h
  | cons e es =>
    have hmem : e ∈ T.sysfs.slaves p := by rw [hes]; exact List.mem_cons_self ..
    obtain ⟨q, -, rfl⟩ := T.slaves_mem p hp e hmem
    refine ⟨q, ?_, hmem⟩
    simp [next, hnone, hes]

theorem next_eq_none {p : SysPath} (hw : T.disk p = none) (h : T.sysfs.slaves p = []) :
    T.next p = none := by
  simp [next, hw, h]

theorem under_of_next {p q : SysPath} (h : T.next p = some q) : T.Under p q := by
  unfold next at h
  cases hd : T.disk p with
  | some d =>
    rw [hd] at h
    cases h
    exact .inl hd
  | none =>
    rw [hd] at h
    right
    unfold Sysfs.SlaveOf
    cases hes : T.sysfs.slaves p with
    | nil => rw [hes] at h; cases h
    | cons e es =>
      rw [hes] at h
      simp only [List.head?_cons, Option.join_some] at h
      rw [h]
      exact List.mem_cons_self ..

/-- `p` から `next` で下って着く device。 -/
def Chain (T : Topology) (p q : SysPath) : Prop :=
  Relation.ReflTransGen (fun a b => T.next a = some b) p q

theorem Chain.under {p q : SysPath} (h : T.Chain p q) : Relation.ReflTransGen T.Under p q :=
  Relation.ReflTransGen.mono (fun _ _ h => under_of_next h) _ _ h

/-- 下る先は一つなので、同じ device から下った二つの device は一方が他方の下にある。 -/
theorem Chain.total {p a b : SysPath} (ha : T.Chain p a) (hb : T.Chain p b) :
    T.Chain a b ∨ T.Chain b a :=
  Relation.ReflTransGen.total_of_right_unique
    (fun _ _ _ h₁ h₂ => Option.some.inj (h₁.symm.trans h₂)) ha hb

theorem Chain.eq_or_head {a b c : SysPath} (h : T.Chain a b) (hn : T.next a = some c) :
    a = b ∨ T.Chain c b := by
  rcases Relation.ReflTransGen.cases_head h with rfl | ⟨c', hc', hr⟩
  · exact .inl rfl
  · rw [hn] at hc'
    cases hc'
    exact .inr hr

theorem Chain.eq_of_last {a b : SysPath} (h : T.Chain a b) (hn : T.next a = none) : a = b := by
  rcases Relation.ReflTransGen.cases_head h with rfl | ⟨c, hc, -⟩
  · rfl
  · rw [hn] at hc
    cases hc

/-- 同じ disk の二つの partition が一つの列に並ぶことはない。 -/
theorem Layered.sibling_eq (hT : T.Layered) {a b d : SysPath} (hda : T.disk a = some d)
    (hdb : T.disk b = some d) (h : T.Chain a b) : a = b := by
  rcases h.eq_or_head (next_of_partition hda) with heq | hr
  · exact heq
  · exact absurd (Relation.TransGen.tail' hr.under (.inl hdb)) (hT.acyclic d)

/-- 一つの sector だけを、`p` から下る列の device すべてに置く。 -/
def Layered.sectors (hT : T.Layered) (p : SysPath) : Sectors T Unit where
  of q := {_u | T.Chain p q}
  partition_subset := fun _ _ _ hd _ hs => hs.tail (next_of_partition hd)
  siblings_disjoint := by
    intro a _ b _ d hda hdb hne
    rw [Set.disjoint_left]
    intro s hsa hsb
    rcases Chain.total hsa hsb with h | h
    · exact hne (hT.sibling_eq hda hdb h)
    · exact hne (hT.sibling_eq hdb hda h).symm
  disks_disjoint := by
    intro a _ b _ hwa hwb hla hlb hne
    rw [Set.disjoint_left]
    intro s hsa hsb
    rcases Chain.total hsa hsb with h | h
    · exact hne (h.eq_of_last (next_eq_none hwa hla))
    · exact hne (h.eq_of_last (next_eq_none hwb hlb)).symm
  stacked_subset := by
    intro q hq hs s hsq
    obtain ⟨c, hc, hslave⟩ := next_of_stacked hq hs
    exact ⟨c, hslave, hsq.tail hc⟩

theorem LeafBelow.under {p q : SysPath} (h : T.sysfs.LeafBelow p q) :
    Relation.ReflTransGen T.Under p q :=
  Relation.ReflTransGen.mono (fun _ _ h => .inr h) _ _ h.reach

/-- 積まれた device の partition と、その下の葉とは path で関わらない。 -/
theorem Layered.not_pathsOverlap (hT : T.Layered) {p d c y : SysPath} (hp : p ∈ T.devices)
    (hd : T.disk p = some d) (hc : T.sysfs.SlaveOf d c) (hcy : Relation.ReflTransGen T.Under c y)
    (hy : y ∈ T.devices) : pathsOverlap p y = false := by
  have hdc : Relation.TransGen T.Under d y := .head' (.inr hc) hcy
  rw [← Bool.not_eq_true, pathsOverlap_iff]
  rintro (rfl | ⟨-, -, hpre | hpre⟩)
  · exact hT.acyclic d (hdc.tail (.inl hd))
  · -- partition の下に path を持つ device はない。
    rcases hT.nested p hp y hy hpre with rfl | hpy
    · exact hT.acyclic d (hdc.tail (.inl hd))
    · have := T.disk_whole y hy p hpy
      rw [hd] at this
      cases this
  · -- partition の上に path を持つのは、その disk だけである。
    rcases hT.nested y hy p hp hpre with rfl | hpy
    · exact hT.acyclic d (hdc.tail (.inl hd))
    · rw [hd] at hpy
      cases hpy
      exact hT.acyclic d hdc

/-- **積まれた device が分割されていれば、その partition と slave の重なりは見逃される。** -/
theorem Layered.stackedWhole (hT : T.Layered) (h : T.RefusesOverlaps) : T.StackedWhole := by
  intro p hp d hd
  by_contra hs
  have hdm := T.disk_mem p hp d hd
  obtain ⟨c, hnext, hc⟩ := next_of_stacked hdm hs
  have hcm := slaveOf_mem hdm hc
  obtain ⟨n, hn⟩ := T.resolves p hp
  obtain ⟨m, hm⟩ := T.resolves c hcm
  have hleaf := T.partition_slaves p hp d hd
  have hsc : () ∈ (hT.sectors p).of c := .tail (.single (next_of_partition hd)) hnext
  obtain ⟨e, he⟩ := h Unit (hT.sectors p) ⟨0, 0, true, n⟩ ⟨0, 1, true, m⟩ p c ⟨hp, rfl, hn⟩
    ⟨hcm, rfl, hm⟩ ⟨(), .refl, hsc⟩
  have hpc := hT.not_pathsOverlap hp hd hc .refl hcm
  have hne : p ≠ c := by
    rintro rfl
    simp [pathsOverlap] at hpc
  have hok : requireNonoverlappingDevices T.sysfs ⟨0, 0, true, n⟩ ⟨0, 1, true, m⟩ = .ok () := by
    rw [requireNonoverlappingDevices_eq_ok_iff rfl rfl hn hm]
    refine ⟨by simp, ?_, ?_, ?_, ?_⟩
    · rintro rfl
      exact hne (Option.some.inj (hn.symm.trans hm))
    · simp only [pathsOverlap, Bool.or_eq_false_iff] at hpc
      simp [hpc]
    · obtain ⟨q, hq, -⟩ := exists_leaf_of_mem (hT.sectors p) hcm hsc
      rintro (h | h)
      · have := (mem_backingSet_of_leaf T.acyclic hn hleaf p).mpr rfl
        simp only [h, Finset.notMem_empty] at this
      · have := (mem_backingSet T.acyclic hm q).mpr hq
        simp only [h, Finset.notMem_empty] at this
    · rintro ⟨a, ha, b, hb, hab⟩
      rw [mem_backingSet_of_leaf T.acyclic hn hleaf] at ha
      rw [mem_backingSet T.acyclic hm] at hb
      rw [ha, hT.not_pathsOverlap hp hd hc (LeafBelow.under hb) (reach_mem hcm hb.reach)] at hab
      cases hab
  rw [hok] at he
  cases he

end Topology

/-! ## 例となる構成 -/

namespace Raid

/-- `sda1` と `sdb` から成る `md0`。 -/
def sda : SysPath := ["/", "sys", "devices", "pci0", "block", "sda"]
def sda1 : SysPath := sda ++ ["sda1"]
def sdb : SysPath := ["/", "sys", "devices", "pci1", "block", "sdb"]
def md0 : SysPath := ["/", "sys", "devices", "virtual", "block", "md0"]
def md0p1 : SysPath := md0 ++ ["md0p1"]

def sysfs : Sysfs where
  devBlock := fun n => [((8, 0), sda), ((8, 1), sda1), ((8, 16), sdb), ((9, 0), md0),
    ((259, 0), md0p1)].lookup n
  slavesDirs := [(sda, []), (sdb, []), (md0, [some sda1, some sdb])]

/-- `md0` を分割しない構成と、`md0p1` に分割した構成。 -/
def devices (partitioned : Bool) : Finset SysPath :=
  if partitioned then {sda, sda1, sdb, md0, md0p1} else {sda, sda1, sdb, md0}

def disk (p : SysPath) : Option SysPath :=
  if p = sda1 then some sda else if p = md0p1 then some md0 else none

theorem mem_devices {b : Bool} {p : SysPath} (h : p ∈ devices b) :
    p = sda ∨ p = sda1 ∨ p = sdb ∨ p = md0 ∨ (p = md0p1 ∧ b = true) := by
  cases b <;> simp [devices] at h ⊢ <;> tauto

theorem slaves_eq (p : SysPath) :
    sysfs.slaves p = if p = md0 then [some sda1, some sdb] else [] := by
  by_cases ha : p = sda
  · subst ha; decide
  by_cases hb : p = sdb
  · subst hb; decide
  by_cases hm : p = md0
  · subst hm; decide
  simp [Sysfs.slaves, sysfs, List.lookup_cons, hm, beq_eq_false_iff_ne.mpr ha,
    beq_eq_false_iff_ne.mpr hb, beq_eq_false_iff_ne.mpr hm]

theorem slaveOf_iff {p q : SysPath} : sysfs.SlaveOf p q ↔ p = md0 ∧ (q = sda1 ∨ q = sdb) := by
  unfold Sysfs.SlaveOf
  rw [slaves_eq]
  by_cases hp : p = md0 <;> simp [hp]

theorem disk_eq_some {p d : SysPath} (h : disk p = some d) :
    (p = sda1 ∧ d = sda) ∨ (p = md0p1 ∧ d = md0) := by
  unfold disk at h
  split at h
  · next hp => cases h; exact .inl ⟨hp, rfl⟩
  · split at h
    · next hp => cases h; exact .inr ⟨hp, rfl⟩
    · cases h

/-- `md0` の slave はどれも slave を持たない。 -/
theorem acyclic (p : SysPath) : ¬ Relation.TransGen sysfs.SlaveOf p p := by
  intro h
  obtain ⟨c, hpc, hcp⟩ := Relation.TransGen.head'_iff.mp h
  obtain ⟨rfl, hc⟩ := slaveOf_iff.mp hpc
  rcases Relation.ReflTransGen.cases_head hcp with rfl | ⟨x, hx, -⟩
  · revert hc; decide
  · obtain ⟨rfl, -⟩ := slaveOf_iff.mp hx
    revert hc; decide

theorem disk_without_slaves {b : Bool} {p : SysPath} (hp : p ∈ devices b) (hw : disk p = none)
    (hl : sysfs.slaves p = []) : p = sda ∨ p = sdb := by
  rcases mem_devices hp with rfl | rfl | rfl | rfl | ⟨rfl, -⟩
  · exact .inl rfl
  · revert hw; decide
  · exact .inr rfl
  · revert hl; decide
  · revert hw; decide

def topology (partitioned : Bool) : Topology where
  sysfs := sysfs
  devices := devices partitioned
  disk := disk
  path_ne_nil := by
    intro p hp
    rcases mem_devices hp with rfl | rfl | rfl | rfl | ⟨rfl, -⟩ <;> decide
  resolves := by
    intro p hp
    rcases mem_devices hp with rfl | rfl | rfl | rfl | ⟨rfl, -⟩
    exacts [⟨(8, 0), by decide⟩, ⟨(8, 1), by decide⟩, ⟨(8, 16), by decide⟩, ⟨(9, 0), by decide⟩,
      ⟨(259, 0), by decide⟩]
  disk_mem := by
    intro p _ d hd
    rcases disk_eq_some hd with ⟨-, rfl⟩ | ⟨-, rfl⟩ <;> cases partitioned <;> simp [devices]
  disk_whole := by
    intro p _ d hd
    rcases disk_eq_some hd with ⟨-, rfl⟩ | ⟨-, rfl⟩ <;> decide
  partition_path := by
    intro p _ d hd
    rcases disk_eq_some hd with ⟨rfl, rfl⟩ | ⟨rfl, rfl⟩ <;> exact ⟨_, rfl⟩
  partition_slaves := by
    intro p _ d hd
    rcases disk_eq_some hd with ⟨rfl, -⟩ | ⟨rfl, -⟩ <;> decide
  slaves_mem := by
    intro p _ e he
    rw [slaves_eq] at he
    by_cases hp : p = md0
    · rw [if_pos hp] at he
      rcases List.mem_cons.mp he with rfl | he
      · exact ⟨sda1, by cases partitioned <;> simp [devices], rfl⟩
      · rw [List.mem_singleton.mp he]
        exact ⟨sdb, by cases partitioned <;> simp [devices], rfl⟩
    · rw [if_neg hp] at he
      cases he
  acyclic := acyclic

/-- 各 device の sector。`md0p1` は `md0` を通して `sda1` の 0 番を含む。 -/
def sectorTable : List (SysPath × Nat) :=
  [(sda, 0), (sda, 1), (sda, 2), (sda1, 0), (sda1, 1), (sdb, 10), (sdb, 11),
    (md0, 0), (md0, 1), (md0, 10), (md0, 11), (md0p1, 0)]

def sectors : Sectors (topology true) Nat where
  of p := {n | (p, n) ∈ sectorTable}
  partition_subset := by
    intro p _ d hd n hn
    rcases disk_eq_some hd with ⟨rfl, rfl⟩ | ⟨rfl, rfl⟩
    · exact (by decide : ∀ e ∈ sectorTable, e.1 = sda1 → (sda, e.2) ∈ sectorTable) _ hn rfl
    · exact (by decide : ∀ e ∈ sectorTable, e.1 = md0p1 → (md0, e.2) ∈ sectorTable) _ hn rfl
  siblings_disjoint := by
    intro p _ q _ d hp hq hne
    rcases disk_eq_some hp with ⟨rfl, rfl⟩ | ⟨rfl, rfl⟩ <;>
      rcases disk_eq_some hq with ⟨rfl, h⟩ | ⟨rfl, h⟩
    · exact absurd rfl hne
    · exact absurd h (by decide)
    · exact absurd h (by decide)
    · exact absurd rfl hne
  disks_disjoint := by
    intro p hp q hq hwp hwq hlp hlq hne
    have hdisj : ∀ n, (sda, n) ∈ sectorTable → (sdb, n) ∈ sectorTable → False :=
      fun n ha hb => (by decide : ∀ e ∈ sectorTable, e.1 = sda → (sdb, e.2) ∉ sectorTable)
        _ ha rfl hb
    rw [Set.disjoint_left]
    intro n hnp hnq
    rcases disk_without_slaves hp hwp hlp with rfl | rfl <;>
      rcases disk_without_slaves hq hwq hlq with rfl | rfl
    · exact hne rfl
    · exact hdisj n hnp hnq
    · exact hdisj n hnq hnp
    · exact hne rfl
  stacked_subset := by
    intro p _ hs n hn
    obtain rfl : p = md0 := by
      by_contra hne
      exact hs ((slaves_eq p).trans (if_neg hne))
    rcases (by decide : ∀ e ∈ sectorTable, e.1 = md0 →
      (sda1, e.2) ∈ sectorTable ∨ (sdb, e.2) ∈ sectorTable) _ hn rfl with h | h
    · exact ⟨sda1, slaveOf_iff.mpr ⟨rfl, .inl rfl⟩, h⟩
    · exact ⟨sdb, slaveOf_iff.mpr ⟨rfl, .inr rfl⟩, h⟩

end Raid

namespace Topology

/--
**clone の判定が重なりを見逃さないのは、積まれた device が partition に分かれていないときである。**

`collect_backing_devices` は partition を葉とみなして、その disk の `slaves` をたどらない。
-/
theorem refusesOverlaps_iff (T : Topology) :
    (T.StackedWhole → T.RefusesOverlaps) ∧
    (T.Layered → (T.RefusesOverlaps ↔ T.StackedWhole)) :=
  ⟨StackedWhole.refusesOverlaps,
    fun hT => ⟨hT.stackedWhole, StackedWhole.refusesOverlaps⟩⟩

/-- 分割していない `md0` では、どの重なりも拒否される。 -/
theorem refusesOverlaps_unpartitioned : (Raid.topology false).RefusesOverlaps := by
  refine (refusesOverlaps_iff (Raid.topology false)).1 ?_
  intro p hp d hd
  rcases Raid.disk_eq_some hd with ⟨-, rfl⟩ | ⟨rfl, -⟩
  · exact (by decide : Raid.sysfs.slaves Raid.sda = [])
  · exact absurd hp (by decide)

/-- `md0p1` を `sda` に複写しても拒否されない。sector 0 は両方に含まれる。 -/
theorem overlap_missed :
    ∃ source target : Stat, (Raid.topology true).IsDevice source Raid.md0p1 ∧
      (Raid.topology true).IsDevice target Raid.sda ∧
      (Raid.sectors.of Raid.md0p1 ∩ Raid.sectors.of Raid.sda).Nonempty ∧
      requireNonoverlappingDevices (Raid.topology true).sysfs source target = .ok () := by
  have hsp : Raid.sysfs.devBlock (259, 0) = some Raid.md0p1 := by decide
  have htp : Raid.sysfs.devBlock (8, 0) = some Raid.sda := by decide
  have hs := mem_backingSet_of_leaf Raid.acyclic hsp (by decide)
  have ht := mem_backingSet_of_leaf Raid.acyclic htp (by decide)
  refine ⟨⟨5, 1, true, (259, 0)⟩, ⟨5, 2, true, (8, 0)⟩, ⟨by decide, rfl, hsp⟩,
    ⟨by decide, rfl, htp⟩, ⟨0, ?_, ?_⟩, ?_⟩
  · exact (by decide : (Raid.md0p1, 0) ∈ Raid.sectorTable)
  · exact (by decide : (Raid.sda, 0) ∈ Raid.sectorTable)
  refine (requireNonoverlappingDevices_eq_ok_iff rfl rfl hsp htp).mpr
    ⟨by decide, by decide, by decide, ?_, ?_⟩
  · rintro (h | h)
    · exact absurd (h ▸ (hs _).mpr rfl) (Finset.notMem_empty _)
    · exact absurd (h ▸ (ht _).mpr rfl) (Finset.notMem_empty _)
  · rintro ⟨a, ha, b, hb, hab⟩
    rw [(hs a).mp ha, (ht b).mp hb] at hab
    exact absurd hab (by decide)

end Topology

end Fsx
