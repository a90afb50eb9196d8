import Fsx.Exfat.Bounds

/-!
# exFAT の読み出しの正しさ

受け入れた volume では、`parse` の計算はあふれず、読み出しは許された範囲にある（`parse_kept`）。
FAT の entry と cluster の鎖の読み出しは、記録によらない結果を返す（`readFatEntry_runs`,
`chainLoop_runs`）。

鎖の読み出しは、要るだけの cluster が heap の中で繰り返さずに続くときに限って成功し、
それらを並べた列のはじめの `length` byte を返す。
-/

namespace Fsx.Exfat

open Machine

/-! ## `parse` -/

section Parse

variable {d : Disk} {v : Volume}

/-- 寸法と root directory の番号が同じである。 -/
def Volume.Same (v v' : Volume) : Prop :=
  v'.geometry = v.geometry ∧ v'.rootDirCluster = v.rootDirCluster

theorem Volume.Same.trans {v v' v'' : Volume} (h : v.Same v') (h' : v'.Same v'') : v.Same v'' :=
  ⟨h'.1.trans h.1, h'.2.trans h.2⟩

theorem readBootRegion_kept (h : v.geometry.Valid d.sizeBytes) {first : Nat} (hf : first ≤ 12) :
    Kept v.geometry.inside (readBootRegion d v.bytesPerSector first) fun _ => True := by
  have hsector : v.bytesPerSector ≤ 2 ^ 12 := h.sector_le
  have hmul : first * v.bytesPerSector ≤ 12 * 2 ^ 12 := Nat.mul_le_mul hf hsector
  unfold readBootRegion
  refine Kept.bind (Kept.mul (by omega)) fun len hlen => ?_
  subst hlen
  refine Kept.guard fun _ => Kept.bind (Kept.mul (by omega)) fun off hoff => ?_
  subst hoff
  refine (Kept.read ?_).mono fun _ _ => trivial
  have hboot := h.boot_le (n := first + 12) (by omega)
  rw [Nat.add_mul, Nat.mul_comm 12] at hboot
  exact hboot

theorem checkBoot_kept (h : v.geometry.Valid d.sizeBytes) :
    Kept v.geometry.inside (checkBoot d v) v.Same := by
  have hsector : v.bytesPerSector ≤ 2 ^ 12 := h.sector_le
  have hsum : ∀ data, Kept v.geometry.inside (bootChecksum data v.bytesPerSector) fun _ => True :=
    fun data => Kept.bind (Kept.mul (by omega)) fun _ _ => Kept.pure trivial
  unfold checkBoot
  refine Kept.bind (readBootRegion_kept h (by omega)) fun main _ =>
    Kept.bind (readBootRegion_kept h (by omega)) fun backup _ => Kept.bind (hsum main) fun _ _ =>
    Kept.bind (hsum backup) fun _ _ => ?_
  refine Kept.bind (Kept.mul (by omega)) fun _ _ => Kept.bind (Kept.mul (by omega)) fun _ _ =>
    Kept.bind (Kept.mul (by omega)) fun _ _ => Kept.pure ⟨rfl, rfl⟩

theorem rootEntry_kept {inside : Region → Nat → Nat → Prop} (root : Bytes) {off type : Nat}
    (v : Volume) (hoff : off < 2 ^ 32) : Kept inside (rootEntry root off type v) v.Same := by
  unfold rootEntry
  by_cases h1 : type = 0x83
  · rw [if_pos h1]
    exact Kept.pure ⟨rfl, rfl⟩
  · rw [if_neg h1]
    by_cases h2 : type = 0x81
    · rw [if_pos h2]
      exact Kept.bind (Kept.add (by omega)) fun _ _ => Kept.bind (Kept.add (by omega)) fun _ _ =>
        Kept.pure ⟨rfl, rfl⟩
    · rw [if_neg h2]
      by_cases h3 : type = 0x82
      · rw [if_pos h3]
        exact Kept.bind (Kept.add (by omega)) fun _ _ => Kept.bind (Kept.add (by omega)) fun _ _ =>
          Kept.bind (Kept.add (by omega)) fun _ _ => Kept.pure ⟨rfl, rfl⟩
      · rw [if_neg h3]
        exact Kept.pure ⟨rfl, rfl⟩

/-- root directory のループの位置は、読んだ cluster を超えない。 -/
theorem rootLoop_kept {inside : Region → Nat → Nat → Prop} {root : Bytes}
    (hroot : root.length < 2 ^ 32) : ∀ {fuel off : Nat} {v : Volume}, off ≤ root.length →
    Kept inside (rootLoop root fuel off v) v.Same := by
  intro fuel
  induction fuel with
  | zero =>
    intro off v _
    exact Kept.pure ⟨rfl, rfl⟩
  | succ fuel ih =>
    intro off v hoff
    unfold rootLoop
    refine Kept.bind (Kept.add (by omega)) fun entryEnd hend => ?_
    subst hend
    by_cases hle : off + 32 ≤ root.length
    · rw [if_pos hle]
      dsimp only
      by_cases htype : readLe 1 root off = 0
      · rw [if_pos htype]
        exact Kept.pure ⟨rfl, rfl⟩
      · rw [if_neg htype]
        refine Kept.bind (rootEntry_kept root v (by omega)) fun v' hv' =>
          Kept.bind (Kept.add (by omega)) fun next hnext => ?_
        subst hnext
        exact (ih hle).mono fun v'' hv'' => hv'.trans hv''
    · rw [if_neg hle]
      exact Kept.pure ⟨rfl, rfl⟩

theorem clusterSector_runs (h : v.geometry.Valid d.sizeBytes) {c : Nat}
    (hc : v.geometry.InHeap c) : Runs v.geometry.inside (clusterSector v c)
      (.ok (v.clusterHeapOffset + (c - 2) * v.sectorsPerCluster)) := by
  have hcount : v.clusterCount ≤ 0xfffffff5 := h.count_le
  have hhigh : c < v.clusterCount + 2 := hc.2
  obtain ⟨hrel, hsector, -⟩ := h.offsets_lt d.size_lt hc
  exact Runs.bind (Runs.sub hc.1 (by omega)) (Runs.bind (Runs.mul hrel) (Runs.add hsector))

theorem readRoot_kept (h : v.geometry.Valid d.sizeBytes)
    (hroot : v.geometry.InHeap v.rootDirCluster) :
    Kept v.geometry.inside (readRoot d v) v.Same := by
  have hbytes : v.bytesPerSector * v.sectorsPerCluster ≤ 2 ^ 25 := h.clusterBytes_le
  have hoff := (h.offsets_lt d.size_lt hroot).2.2
  unfold readRoot
  refine Kept.bind (Kept.mul (by omega)) fun clusterBytes hcb => ?_
  subst hcb
  by_cases hc : v.bytesPerSector * v.sectorsPerCluster ≤ 16 * 1024 * 1024
  · rw [if_pos hc]
    refine Kept.bind (clusterSector_runs h hroot).kept fun sector hsector => ?_
    cases hsector
    refine Kept.bind (Kept.mul hoff) fun off hoffEq => ?_
    subst hoffEq
    refine Kept.bind (Kept.attempt (Kept.read (hroot.cluster (Nat.le_refl _)))) fun r hr => ?_
    cases r with
    | error e => exact Kept.pure ⟨rfl, rfl⟩
    | ok root =>
      obtain ⟨-, hb⟩ := hr root rfl
      refine rootLoop_kept ?_ (Nat.zero_le _)
      rw [hb, Image.length_read]
      omega
  · rw [if_neg hc]
    exact Kept.pure ⟨rfl, rfl⟩

end Parse

/-! ## FAT の entry -/

section Entry

variable {d : Disk} {v : Volume}

/-- FAT に書かれた次の cluster。 -/
def fatEntry (d : Disk) (g : Geometry) (c : Nat) : Nat := readLe 4 (d.data.read (g.entryOff c) 4) 0

/-- **FAT の entry の読み出しは、番号の範囲でちょうど成功する。** -/
theorem readFatEntry_runs (h : v.geometry.Valid d.sizeBytes) (c : Nat) :
    Runs v.geometry.inside (readFatEntry d v c)
      (if c < v.clusterCount + 2 then .ok (fatEntry d v.geometry c)
        else .error { code := .corrupt, message := "exFAT cluster index exceeds FAT range" }) := by
  have hcount : v.clusterCount ≤ 0xfffffff5 := h.count_le
  unfold readFatEntry
  refine Runs.bind (Runs.add (by omega)) ?_
  by_cases hc : c < v.clusterCount + 2
  · rw [if_pos hc]
    obtain ⟨hbase, hrel⟩ := h.entries_lt hc
    have hin := h.entry hc
    have hsize := le_trans (h.within hin) h.volume
    refine Runs.guard (by omega) (Runs.bind (Runs.mul (lt_trans hbase (by omega))) ?_)
    refine Runs.bind (Runs.mul (by omega)) (Runs.bind (Runs.add ?_) ?_)
    · show v.geometry.fatOffset * v.geometry.bytesPerSector + c * 4 < _
      omega
    · exact Runs.bind (Runs.read hsize hin) (Runs.pure _)
  · rw [if_neg hc]
    exact Runs.guard_error (by omega)

/-- `parse` の全体。 -/
theorem parse_kept {tr : List (Touch Region)} (h : Proc.run (readVolume d) [] = (.ok v, tr)) :
    AllPermitted v.geometry.inside tr ∧ v.geometry.Valid d.sizeBytes ∧
      v.geometry.InHeap v.rootDirCluster := by
  obtain ⟨v₀, tr₀, hhead, hrest⟩ := Proc.run_bind_eq_ok h
  obtain ⟨hall, hvalid, hroot⟩ := (header_kept d).ok (fun t ht => by cases ht) hhead
  -- はじめの sector も volume の中にある
  have hall₀ : AllPermitted v₀.geometry.inside tr₀ := hall.mono fun what off len hin => by
    obtain ⟨rfl, rfl, rfl⟩ := hin
    have hboot := hvalid.boot_le (n := 1) (by omega)
    have := hvalid.sector_ge
    show 0 + 512 ≤ _
    omega
  have hsettled : ∀ {p : ExfatM Volume}, Kept v₀.geometry.inside p v₀.Same →
      Proc.run p tr₀ = (.ok v, tr) → AllPermitted v.geometry.inside tr ∧
        v.geometry.Valid d.sizeBytes ∧ v.geometry.InHeap v.rootDirCluster := by
    intro p hkept hp
    obtain ⟨htr, hgeo, hcluster⟩ := hkept.ok hall₀ hp
    rw [hgeo, hcluster]
    exact ⟨htr, hvalid, hroot⟩
  refine hsettled ?_ hrest
  refine Kept.bind (checkBoot_kept hvalid) fun v₁ h₁ => ?_
  rw [← h₁.1] at hvalid hroot ⊢
  rw [← h₁.2] at hroot
  refine Kept.bind (readRoot_kept hvalid hroot) fun v₂ h₂ => ?_
  rw [← h₂.1] at hvalid ⊢
  refine Kept.bind (Kept.attempt (readFatEntry_runs hvalid _).kept) fun r _ => ?_
  cases r with
  | error e => exact Kept.pure (h₁.trans h₂)
  | ok e => exact Kept.pure ⟨(h₁.trans h₂).1, (h₁.trans h₂).2⟩

end Entry

/-! ## 鎖 -/

section Follow

variable {next : Nat → Nat} {inHeap : Nat → Prop}

/-- `c` から `next` で `k` 個たどった列。 -/
def chainFrom (next : Nat → Nat) : Nat → Nat → List Nat
  | _, 0 => []
  | c, k + 1 => c :: chainFrom next (next c) k

/-- `c` から `k` 個、範囲の中で、`seen` にも互いにも重ならずにたどれる。 -/
def Follows (next : Nat → Nat) (inHeap : Nat → Prop) : List Nat → Nat → Nat → Prop
  | _, _, 0 => True
  | seen, c, k + 1 => inHeap c ∧ c ∉ seen ∧ Follows next inHeap (seen ++ [c]) (next c) k

theorem follows_iff : ∀ {k c : Nat} {seen : List Nat}, Follows next inHeap seen c k ↔
    (∀ x ∈ chainFrom next c k, inHeap x ∧ x ∉ seen) ∧ (chainFrom next c k).Nodup
  | 0, c, seen => ⟨fun _ => ⟨fun x hx => (by cases hx), List.nodup_nil⟩, fun _ => trivial⟩
  | k + 1, c, seen => by
    rw [Follows, chainFrom, follows_iff (k := k), List.forall_mem_cons, List.nodup_cons]
    constructor
    · rintro ⟨hin, hseen, hall, hnodup⟩
      refine ⟨⟨⟨hin, hseen⟩, fun x hx => ⟨(hall x hx).1, fun hs => ?_⟩⟩, fun hc => ?_, hnodup⟩
      · exact (hall x hx).2 (List.mem_append_left _ hs)
      · exact (hall c hc).2 (List.mem_append_right _ List.mem_cons_self)
    · rintro ⟨⟨⟨hin, hseen⟩, hall⟩, hc, hnodup⟩
      refine ⟨hin, hseen, fun x hx => ⟨(hall x hx).1, fun hs => ?_⟩, hnodup⟩
      rcases List.mem_append.mp hs with hs | hs
      · exact (hall x hx).2 hs
      · rw [List.mem_singleton.mp hs] at hx
        exact hc hx

/-- はじめから `k` 個たどれるのは、列が範囲の中にあって繰り返さないときである。 -/
theorem follows_nil_iff {k c : Nat} : Follows next inHeap [] c k ↔
    (∀ x ∈ chainFrom next c k, inHeap x) ∧ (chainFrom next c k).Nodup := by
  rw [follows_iff]
  simp

end Follow

/-- `m` byte に要る大きさ `k` の区画の数。 -/
def needed (k m : Nat) : Nat := (m + k - 1) / k

theorem needed_zero {k : Nat} (hk : 0 < k) : needed k 0 = 0 :=
  Nat.div_eq_of_lt (by omega)

theorem needed_of_le {k m : Nat} (hm : 0 < m) (h : m ≤ k) : needed k m = 1 :=
  Nat.div_eq_of_lt_le (by omega) (by omega)

theorem needed_of_lt {k m : Nat} (hk : 0 < k) (h : k < m) : needed k m = needed k (m - k) + 1 := by
  unfold needed
  rw [show m + k - 1 = m - k + k - 1 + k by omega, Nat.add_div_right _ hk]

theorem needed_pos {k m : Nat} (hk : 0 < k) (hm : 0 < m) : ∃ n, needed k m = n + 1 := by
  rcases Nat.lt_or_ge k m with h | h
  · exact ⟨_, needed_of_lt hk h⟩
  · exact ⟨0, needed_of_le hm h⟩

/-- 前から埋めた buffer の、次の範囲への上書き。 -/
theorem patch_append_zeros {acc b : Bytes} {m : Nat} (h : b.length ≤ m) :
    patch (acc ++ zeros m) acc.length b = (acc ++ b) ++ zeros (m - b.length) := by
  unfold patch zeros
  rw [List.take_left, List.length_append, List.length_replicate, Nat.add_sub_cancel_left,
    List.take_of_length_le h, List.drop_append, List.drop_eq_nil_of_le (by omega), List.nil_append,
    List.drop_replicate, Nat.add_sub_cancel_left]

section Chain

variable {d : Disk} {v : Volume}

/-- cluster 一つの内容。 -/
def clusterData (d : Disk) (g : Geometry) (c : Nat) : Bytes :=
  d.data.read (g.clusterOff c) (g.bytesPerSector * g.sectorsPerCluster)

theorem length_clusterData (d : Disk) (g : Geometry) (c : Nat) :
    (clusterData d g c).length = g.bytesPerSector * g.sectorsPerCluster := Image.length_read _ _ _

/-- cluster のはじめの読み出し。 -/
theorem read_clusterOff {d : Disk} {g : Geometry} {c cb m : Nat}
    (h : g.bytesPerSector * g.sectorsPerCluster = cb) :
    d.data.read (g.clusterOff c) (min cb m) = (clusterData d g c).take m := by
  have hslice := Image.slice_read d.data (g.clusterOff c) cb 0 (min cb m) (by omega)
  unfold slice at hslice
  rw [List.drop_zero, Nat.add_zero] at hslice
  rw [← hslice]
  unfold clusterData
  rw [h, ← List.take_take, List.take_of_length_le (l := List.take m _)]
  rw [List.length_take, Image.length_read]
  exact Nat.min_le_right _ _

theorem checkCluster_runs {inside : Region → Nat → Nat → Prop}
    (hcount : v.clusterCount ≤ 0xfffffff5) (c : Nat) (seen : List Nat) :
    (v.geometry.InHeap c ∧ c ∉ seen → Runs inside (checkCluster v c seen) (.ok ())) ∧
    (¬ (v.geometry.InHeap c ∧ c ∉ seen) →
      ∃ e, e ≠ unfinished ∧ Runs inside (checkCluster v c seen) (.error e)) := by
  have hend : (v.clusterCount + 2 : Nat) < 2 ^ 32 := by omega
  unfold checkCluster
  constructor
  · rintro ⟨⟨hlow, hhigh⟩, hseen⟩
    have hhigh : c < v.clusterCount + 2 := hhigh
    exact Runs.guard (by omega) (Runs.bind (Runs.add hend)
      (Runs.guard (by omega) (Runs.last_guard hseen)))
  · intro hbad
    by_cases hlow : c < 2
    · exact ⟨_, by decide, Runs.guard_error hlow⟩
    · by_cases hhigh : c ≥ v.clusterCount + 2
      · exact ⟨_, by decide, Runs.guard hlow (Runs.bind (Runs.add hend) (Runs.guard_error hhigh))⟩
      · have hseen : c ∈ seen := by
          by_contra hns
          exact hbad ⟨⟨by omega, by show c < v.clusterCount + 2; omega⟩, hns⟩
        exact ⟨_, by decide, Runs.guard hlow (Runs.bind (Runs.add hend)
          (Runs.guard hhigh (Runs.last_guard_error hseen)))⟩

/-- 次の cluster は、heap の中にあれば必ず読める。読めないのは heap の外を指すときに限る。 -/
theorem nextCluster_runs (h : v.geometry.Valid d.sizeBytes) {c : Nat} (hc : v.geometry.InHeap c) :
    Runs v.geometry.inside (nextCluster d v c) (.ok (fatEntry d v.geometry c)) ∨
    ¬ v.geometry.InHeap (fatEntry d v.geometry c) ∧
      ∃ e, e ≠ unfinished ∧ Runs v.geometry.inside (nextCluster d v c) (.error e) := by
  have hcount : v.geometry.clusterCount ≤ 0xfffffff5 := h.count_le
  have hread := readFatEntry_runs h c
  rw [if_pos (show c < v.clusterCount + 2 from hc.2)] at hread
  unfold nextCluster
  generalize fatEntry d v.geometry c = next at hread ⊢
  by_cases hend : next ≥ 0xfffffff8
  · refine Or.inr ⟨fun hin => ?_, _, by decide, Runs.bind hread (Runs.guard_error hend)⟩
    have := hin.2
    omega
  · by_cases hmark : next = 0xfffffff7 ∨ next = 0
    · refine Or.inr ⟨fun hin => ?_, _, by decide,
        Runs.bind hread (Runs.guard hend (Runs.guard_error hmark))⟩
      have := hin.1
      have := hin.2
      omega
    · exact Or.inl (Runs.bind hread (Runs.guard hend (Runs.guard hmark (Runs.pure _))))

/-- 鎖の読み出しの結果。たどれれば `bytes` を返し、たどれなければ失敗する。 -/
def Settles (v : Volume) (p : ExfatM Bytes) (good : Prop) (bytes : Bytes) : Prop :=
  (good → Runs v.geometry.inside p (.ok bytes)) ∧
    (¬ good → ∃ e, e ≠ unfinished ∧ Runs v.geometry.inside p (.error e))

theorem Settles.bind {α : Type} {p : ExfatM α} {k : α → ExfatM Bytes} {a : α} {good : Prop}
    {bytes : Bytes} (hp : Runs v.geometry.inside p (.ok a)) (hk : Settles v (k a) good bytes) :
    Settles v (p >>= k) good bytes := by
  refine ⟨fun hg => Runs.bind hp (hk.1 hg), fun hb => ?_⟩
  obtain ⟨e, hne, hrun⟩ := hk.2 hb
  exact ⟨e, hne, Runs.bind hp hrun⟩

theorem Settles.failed {p : ExfatM Bytes} {good : Prop} {bytes : Bytes} {e : Error}
    (hne : e ≠ unfinished) (hp : Runs v.geometry.inside p (.error e)) (hbad : ¬ good) :
    Settles v p good bytes :=
  ⟨fun hg => absurd hg hbad, fun _ => ⟨e, hne, hp⟩⟩

/--
**鎖の残りの読み出し。** `acc` まで読み終え、残りは `m` byte である。
要る数の cluster がたどれれば残りを読み切り、たどれなければ失敗する。
-/
theorem chainLoop_runs (h : v.geometry.Valid d.sizeBytes) {length cb : Nat}
    (hlength : length < 2 ^ 64) (hcb : v.geometry.bytesPerSector * v.geometry.sectorsPerCluster = cb) :
    ∀ {fuel m c : Nat} {seen : List Nat} {acc : Bytes}, m < fuel → acc.length + m = length →
    Settles v (chainLoop d v cb length fuel acc.length c seen (acc ++ zeros m))
      (Follows (fatEntry d v.geometry) v.geometry.InHeap seen c (needed cb m))
      (acc ++ ((chainFrom (fatEntry d v.geometry) c (needed cb m)).flatMap
        (clusterData d v.geometry)).take m) := by
  have hcount : v.clusterCount ≤ 0xfffffff5 := h.count_le
  have hpos : 0 < cb := by
    rw [← hcb]
    exact Nat.mul_pos (lt_of_lt_of_le (by decide) h.sector_ge) h.cluster_pos
  have hdata : ∀ c, (clusterData d v.geometry c).length = cb := fun c => by
    rw [length_clusterData, hcb]
  intro fuel
  induction fuel with
  | zero =>
    intro m c seen acc hm
    omega
  | succ fuel ih =>
    intro m c seen acc hfuel hlen
    unfold chainLoop
    rcases Nat.eq_zero_or_pos m with rfl | hm
    · -- 残りがなければ、すでに読み終えている
      rw [if_neg (by omega), needed_zero hpos]
      exact ⟨fun _ => Runs.pure _, fun hn => absurd trivial hn⟩
    rw [if_pos (by omega)]
    obtain ⟨hok, hbad⟩ := @checkCluster_runs v v.geometry.inside hcount c seen
    by_cases hc : v.geometry.InHeap c ∧ c ∉ seen
    · -- cluster 一つを読む
      have hoff : (v.clusterHeapOffset + (c - 2) * v.sectorsPerCluster) * v.bytesPerSector < 2 ^ 64 :=
        (h.offsets_lt d.size_lt hc.1).2.2
      have hleft : length - acc.length = m := by omega
      have hin := hc.1.cluster (n := min cb m) (by rw [hcb]; exact Nat.min_le_left cb m)
      have hwithin := le_trans (@Geometry.Valid.within _ _ h .cluster _ _ hin) h.volume
      refine Settles.bind (hok hc) (Settles.bind (clusterSector_runs h hc.1)
        (Settles.bind (Runs.sub (by omega) hlength) ?_))
      rw [hleft]
      refine Settles.bind (Runs.mul hoff) (Settles.bind (Runs.read hwithin hin)
        (Settles.bind (Runs.add (by omega)) ?_))
      have hread : d.data.read
          ((v.clusterHeapOffset + (c - 2) * v.sectorsPerCluster) * v.bytesPerSector) (min cb m) =
          (clusterData d v.geometry c).take m := read_clusterOff hcb
      rw [hread]
      by_cases hlast : m ≤ cb
      · -- 最後の cluster
        rw [if_pos (by omega), needed_of_le hm hlast,
          patch_append_zeros (by rw [List.length_take]; omega), List.length_take, hdata,
          Nat.min_eq_left hlast, Nat.sub_self]
        refine ⟨fun _ => ?_, fun hn => absurd ⟨hc.1, hc.2, trivial⟩ hn⟩
        simp only [chainFrom, List.flatMap_cons, List.flatMap_nil, List.append_nil]
        rw [show zeros 0 = [] from rfl, List.append_nil]
        exact Runs.pure _
      · -- 途中の cluster。残りは次の cluster から続く
        have hlt : cb < m := Nat.lt_of_not_le hlast
        have hwhole : (clusterData d v.geometry c).take m = clusterData d v.geometry c :=
          List.take_of_length_le (by rw [hdata]; exact le_of_lt hlt)
        rw [hwhole, Nat.min_eq_left (le_of_lt hlt), if_neg (by omega), needed_of_lt hpos hlt,
          patch_append_zeros (by rw [hdata]; exact le_of_lt hlt), hdata, chainFrom,
          List.flatMap_cons, List.take_append, hwhole, hdata, ← List.append_assoc]
        rcases nextCluster_runs h hc.1 with hnext | ⟨hout, e, hne, hnext⟩
        · have hrest := @ih (m - cb) (fatEntry d v.geometry c) (seen ++ [c])
            (acc ++ clusterData d v.geometry c) (by omega)
            (by rw [List.length_append, hdata]; omega)
          rw [List.length_append, hdata] at hrest
          exact Settles.bind hnext
            ⟨fun hf => hrest.1 hf.2.2, fun hn => hrest.2 fun hf => hn ⟨hc.1, hc.2, hf⟩⟩
        · obtain ⟨k, hk⟩ := needed_pos hpos (show 0 < m - cb by omega)
          rw [hk]
          exact Settles.failed hne (Runs.bind_error hnext) fun hf => hout hf.2.2.1
    · obtain ⟨e, hne, hrun⟩ := hbad hc
      obtain ⟨k, hk⟩ := needed_pos hpos hm
      rw [hk]
      exact Settles.failed hne (Runs.bind_error hrun) fun hf => hc ⟨hf.1, hf.2.1⟩

/-- **鎖の読み出しは、要る数の cluster がたどれるときにちょうど成功する。** -/
theorem readChain_settles (h : v.geometry.Valid d.sizeBytes) {first length limit : Nat}
    (hlength : length < 2 ^ 64) (hlimit : length ≤ limit) :
    Settles v (readChain d v first length limit)
      (Follows (fatEntry d v.geometry) v.geometry.InHeap [] first
        (needed (v.bytesPerSector * v.sectorsPerCluster) length))
      (((chainFrom (fatEntry d v.geometry) first
        (needed (v.bytesPerSector * v.sectorsPerCluster) length)).flatMap
          (clusterData d v.geometry)).take length) := by
  have hbytes : v.bytesPerSector * v.sectorsPerCluster ≤ 2 ^ 25 := h.clusterBytes_le
  have hpos : 0 < v.bytesPerSector * v.sectorsPerCluster :=
    Nat.mul_pos (lt_of_lt_of_le (by decide) h.sector_ge) h.cluster_pos
  obtain ⟨hgood, hbad⟩ := @chainLoop_runs d v h length _ hlength rfl (length + 1) length first [] []
    (by omega) (Nat.zero_add length)
  unfold readChain
  rw [if_neg (by omega)]
  refine Settles.bind (Runs.mul (by omega)) ?_
  rw [if_neg (by unfold u64Max; omega)]
  exact ⟨hgood, hbad⟩

/-- 上限を超える長さは断られる。 -/
theorem readChain_over {first length limit : Nat} (hlimit : limit < length) :
    ∃ e, e ≠ unfinished ∧ Runs v.geometry.inside (readChain d v first length limit) (.error e) :=
  ⟨_, by decide, Runs.guard_error hlimit⟩

end Chain

/-! ## 主結果 -/

/--
**受け入れた volume では、計算はあふれず、読み出しは範囲にあり、鎖は正確に読まれる。**
`Runs` と `Settles` は、どの記録の後でも新しい記録が許されることを含む。失敗の値が `unfinished` で
ないことは、鎖のループが必ず終わることを言う。
-/
theorem accesses_exact {d : Disk} {v : Volume} {tr : List (Touch Region)}
    (h : Proc.run (readVolume d) [] = (.ok v, tr)) :
    AllPermitted v.geometry.inside tr ∧
    (∀ what off len, v.geometry.inside what off len →
      off + len ≤ v.volumeLength * v.bytesPerSector) ∧
    v.volumeLength * v.bytesPerSector ≤ d.sizeBytes ∧
    (∀ c, Runs v.geometry.inside (readFatEntry d v c)
      (if c < v.clusterCount + 2 then .ok (fatEntry d v.geometry c)
        else .error { code := .corrupt, message := "exFAT cluster index exceeds FAT range" })) ∧
    ∀ first length limit, length < 2 ^ 64 →
      (length ≤ limit → Settles v (readChain d v first length limit)
        ((∀ c ∈ chainFrom (fatEntry d v.geometry) first
            (needed (v.bytesPerSector * v.sectorsPerCluster) length), v.geometry.InHeap c) ∧
          (chainFrom (fatEntry d v.geometry) first
            (needed (v.bytesPerSector * v.sectorsPerCluster) length)).Nodup)
        (((chainFrom (fatEntry d v.geometry) first
          (needed (v.bytesPerSector * v.sectorsPerCluster) length)).flatMap
            (clusterData d v.geometry)).take length)) ∧
      (limit < length → ∃ e, e ≠ unfinished ∧
        Runs v.geometry.inside (readChain d v first length limit) (.error e)) := by
  obtain ⟨htr, hvalid, -⟩ := parse_kept h
  refine ⟨htr, fun what off len hin => hvalid.within hin, hvalid.volume, readFatEntry_runs hvalid,
    fun first length limit hlength => ⟨fun hlimit => ?_, readChain_over⟩⟩
  rw [← follows_nil_iff]
  exact readChain_settles hvalid hlength hlimit

namespace Card

/-- cluster が 8 個の volume。 -/
def disk : Disk where
  sizeBytes := 16896
  logicalSector := 512
  isBlockDevice := false
  writable := false
  data := fun i => match i with
    | 3 => 0x45
    | 4 => 0x58
    | 5 => 0x46
    | 6 => 0x41
    | 7 => 0x54
    | 8 => 0x20
    | 9 => 0x20
    | 10 => 0x20
    | 72 => 33
    | 80 => 24
    | 84 => 1
    | 88 => 25
    | 92 => 8
    | 96 => 2
    | 108 => 9
    | 110 => 1
    | 510 => 0x55
    | 511 => 0xaa
    | _ => 0
  events := []
  size_lt := by decide

theorem accepted : (Proc.run (readVolume disk) []).1.isOk = true := by decide +kernel

end Card

theorem accesses_exact_card : ∃ v tr, Proc.run (readVolume Card.disk) [] = (.ok v, tr) ∧
    AllPermitted v.geometry.inside tr ∧ v.volumeLength * v.bytesPerSector ≤ 16896 := by
  have hok := Card.accepted
  cases hrun : Proc.run (readVolume Card.disk) [] with
  | mk r tr =>
    rw [hrun] at hok
    cases r with
    | error e => cases hok
    | ok v =>
      obtain ⟨htr, -, hsize, -⟩ := accesses_exact hrun
      exact ⟨v, tr, rfl, htr, hsize⟩

end Fsx.Exfat
