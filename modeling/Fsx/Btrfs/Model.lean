import Fsx.Core.Crc
import Fsx.Hash.Model
import Fsx.Io.Disk
import Mathlib.Data.List.MinMax

/-!
# Btrfs の superblock（`src/fs/btrfs.cpp`）

superblock は三つの番地に写しを持つ。`read_best_superblock` は、checksum と寸法の正しい写しのうちで
最も新しいものを選び、`check` は checksum の正しい写しのうちで最も新しいものを選んでから寸法を検査する。

`std::max_element` は、最大の要素のうち先頭に近いものを返す。`List.argmax` も同じである。
-/

namespace Fsx.Btrfs

def magic : Nat := 0x4D5F53665248425F

/-- `MIRRORS`。 -/
def mirrors : List Nat := [64 * 1024, 64 * 1024 * 1024, 256 * 1024 * 1024 * 1024]

/-- `SB_SIZE`。 -/
def sbSize : Nat := 4096

/-- `ChecksumType`。四つのほかの値も、読んだままの番号として持てる。 -/
inductive ChecksumType where
  | crc32c | xxhash64 | sha256 | blake2b
  | other (raw : Nat)
  deriving DecidableEq

def ChecksumType.ofRaw : Nat → ChecksumType
  | 0 => .crc32c
  | 1 => .xxhash64
  | 2 => .sha256
  | 3 => .blake2b
  | raw => .other raw

structure Superblock where
  mirrorOffset : Nat
  fsid : Bytes
  metadataUuid : Bytes
  bytenr : Nat
  flags : Nat
  generation : Nat
  root : Nat
  chunkRoot : Nat
  logRoot : Nat
  totalBytes : Nat
  bytesUsed : Nat
  numDevices : Nat
  deviceId : Nat
  deviceTotalBytes : Nat
  deviceBytesUsed : Nat
  sectorsize : Nat
  nodesize : Nat
  stripesize : Nat
  sysChunkArraySize : Nat
  compatFlags : Nat
  compatRoFlags : Nat
  incompatFlags : Nat
  checksumType : ChecksumType
  rootLevel : Nat
  chunkRootLevel : Nat
  logRootLevel : Nat
  label : Bytes
  checksumSupported : Bool := false
  checksumValid : Bool := false
  deriving DecidableEq

structure CheckReport where
  clean : Bool := true
  mirrorsPresent : Nat := 0
  mirrorsValid : Nat := 0
  selectedGeneration : Nat := 0
  warnings : List String := []
  errors : List String := []
  deriving DecidableEq

def power2 (x : Nat) : Bool := x != 0 && x &&& (x - 1) == 0

/-! ## 写し一つの解釈 -/

/-- `label_from`。NUL までを取り、印字できない byte は `?` にする。 -/
def labelFrom (b : Bytes) : Bytes :=
  ((slice b 299 256).takeWhile (· != 0)).map fun c => if 0x20 ≤ c ∧ c ≤ 0x7e then c else 0x3f

/-- `checksum_bytes`。 -/
def checksumBytes : ChecksumType → Nat
  | .crc32c => 4
  | .xxhash64 => 8
  | .sha256 => 32
  | .blake2b => 32
  | .other _ => 0

/-- `checksum_supported`。 -/
def checksumSupported (raw : Nat) : Bool := decide (raw ≤ 3)

/-- `calculated_checksum`。はじめの 32 byte の後を計算する。 -/
def calculatedChecksum (sb : Bytes) (t : ChecksumType) : Bytes :=
  let body := sb.drop 32
  match t with
  | .crc32c => patch (zeros 32) 0 (leBytes 4 (crc32cFinal body).toNat)
  | .xxhash64 => patch (zeros 32) 0 (leBytes 8 (xxhash64 body 0).toNat)
  | .sha256 => sha256 body
  | .blake2b => blake2b256 body
  | .other _ => zeros 32

/-- `parse` が欄を取り出すところ。checksum はまだ照合していない。 -/
def fields (off : Nat) (b : Bytes) : Superblock where
  mirrorOffset := off
  fsid := slice b 32 16
  bytenr := readLe 8 b 48
  flags := readLe 8 b 56
  generation := readLe 8 b 72
  root := readLe 8 b 80
  chunkRoot := readLe 8 b 88
  logRoot := readLe 8 b 96
  totalBytes := readLe 8 b 112
  bytesUsed := readLe 8 b 120
  numDevices := readLe 8 b 136
  sectorsize := readLe 4 b 144
  nodesize := readLe 4 b 148
  stripesize := readLe 4 b 156
  sysChunkArraySize := readLe 4 b 160
  compatFlags := readLe 8 b 172
  compatRoFlags := readLe 8 b 180
  incompatFlags := readLe 8 b 188
  checksumType := .ofRaw (readLe 2 b 196)
  rootLevel := readLe 1 b 198
  chunkRootLevel := readLe 1 b 199
  logRootLevel := readLe 1 b 200
  deviceId := readLe 8 b 201
  deviceTotalBytes := readLe 8 b 209
  deviceBytesUsed := readLe 8 b 217
  label := labelFrom b
  metadataUuid := slice b 571 16
  checksumSupported := checksumSupported (readLe 2 b 196)

/-- 保存された checksum が計算した値に等しい。 -/
def checksumMatches (b : Bytes) (t : ChecksumType) : Bool :=
  (calculatedChecksum b t).take (checksumBytes t) == b.take (checksumBytes t)

/-- `parse` の、読んだ後の部分。 -/
def decode (off : Nat) (b : Bytes) : Superblock :=
  let s := fields off b
  if s.checksumSupported then { s with checksumValid := checksumMatches b s.checksumType } else s

/-- 写しが device の外にはみ出す。 -/
def outside (d : Disk) (off : Nat) : Bool := decide (off > d.sizeBytes ∨ sbSize > d.sizeBytes - off)

/-- `parse`。 -/
def parse (d : Disk) (off : Nat) : Result Superblock := do
  if outside d off then
    throw { code := .notFound, message := "Btrfs superblock mirror lies outside device" }
  let b ← d.readExact off sbSize
  if readLe 8 b 64 ≠ magic then
    throw { code := .unsupported, message := "Btrfs magic is absent" }
  return decode off b

/-- `sane_geometry`。 -/
def saneGeometry (d : Disk) (s : Superblock) : Bool :=
  if s.bytenr ≠ s.mirrorOffset ∨ ¬ power2 s.sectorsize ∨ s.sectorsize < 4096
      ∨ s.sectorsize > 65536 then false
  else if ¬ power2 s.nodesize ∨ s.nodesize < s.sectorsize ∨ s.nodesize > 65536 then false
  else if s.stripesize = 0 ∨ ¬ power2 s.stripesize ∨ s.totalBytes = 0
      ∨ s.bytesUsed > s.totalBytes ∨ s.numDevices = 0 then false
  else if s.deviceId = 0 ∨ s.deviceTotalBytes = 0 ∨ s.deviceTotalBytes > d.sizeBytes
      ∨ s.deviceBytesUsed > s.deviceTotalBytes then false
  else if s.numDevices = 1 ∧ s.totalBytes > d.sizeBytes then false
  else if s.rootLevel > 8 ∨ s.chunkRootLevel > 8 ∨ s.logRootLevel > 8
      ∨ s.sysChunkArraySize > 2048 then false
  else true

/-! ## `read_best_superblock` -/

/-- 読めない写しのうち、飛ばしてよいもの。 -/
def skippable (e : Error) : Bool := e.code = .unsupported ∨ e.code = .notFound

/-- 候補を集める loop。 -/
def collectCandidates (d : Disk) : List Nat → List Superblock → Result (List Superblock)
  | [], candidates => .ok candidates
  | off :: rest, candidates =>
    if outside d off then collectCandidates d rest candidates
    else
      match parse d off with
      | .error e => if skippable e then collectCandidates d rest candidates else .error e
      | .ok s =>
        collectCandidates d rest
          (if s.checksumSupported && s.checksumValid && saneGeometry d s then candidates ++ [s]
          else candidates)

/-- `read_best_superblock`。 -/
def readBestSuperblock (d : Disk) : Result Superblock := do
  let candidates ← collectCandidates d mirrors []
  match candidates.argmax Superblock.generation with
  | none =>
    throw { code := .corrupt
            message := "no checksum-valid, geometrically sane Btrfs superblock mirror found" }
  | some best => return best

/-! ## `check` -/

namespace CheckReport

/-- `fail`。 -/
def fail (r : CheckReport) (s : String) : CheckReport :=
  { r with clean := false, errors := r.errors ++ [s] }

/-- 条件が成り立つなら失敗を記録する。 -/
def failIf (r : CheckReport) (c : Prop) [Decidable c] (s : String) : CheckReport :=
  if c then r.fail s else r

def warnIf (r : CheckReport) (c : Prop) [Decidable c] (s : String) : CheckReport :=
  if c then { r with warnings := r.warnings ++ [s] } else r

end CheckReport

/-- 写しを読む loop の状態。変数 `r`・`all`・`valid` である。 -/
structure Survey where
  report : CheckReport := {}
  all : List Superblock := []
  valid : List Superblock := []

/-- 読めた写しを加える。 -/
def Survey.add (v : Survey) (off : Nat) (s : Superblock) : Survey :=
  let r := { v.report with mirrorsPresent := v.report.mirrorsPresent + 1 }
  let all := v.all ++ [s]
  if ¬ s.checksumSupported then
    { v with report := r.fail "Btrfs superblock uses unsupported checksum type", all }
  else if ¬ s.checksumValid then
    { v with
      report := r.fail ("Btrfs superblock checksum is invalid at mirror offset " ++ toString off)
      all }
  else { report := { r with mirrorsValid := r.mirrorsValid + 1 }, all, valid := v.valid ++ [s] }

/-- 写しを読む loop。 -/
def survey (d : Disk) : List Nat → Survey → Result Survey
  | [], v => .ok v
  | off :: rest, v =>
    if outside d off then survey d rest v
    else
      match parse d off with
      | .error e => if skippable e then survey d rest v else .error e
      | .ok s => survey d rest (v.add off s)

/-- 選んだ写しの寸法の検査。 -/
def checkBest (d : Disk) (best : Superblock) (r : CheckReport) : CheckReport :=
  let r := r.failIf (best.bytenr ≠ best.mirrorOffset)
    "selected Btrfs superblock bytenr does not match mirror location"
  let r := r.failIf (¬ power2 best.sectorsize ∨ best.sectorsize < 4096 ∨ best.sectorsize > 65536)
    "invalid Btrfs sector size"
  let r := r.failIf (¬ power2 best.nodesize ∨ best.nodesize < best.sectorsize
    ∨ best.nodesize > 65536) "invalid Btrfs node size"
  let r := r.failIf (best.stripesize = 0 ∨ ¬ power2 best.stripesize) "invalid Btrfs stripe size"
  let r := r.failIf (best.totalBytes = 0) "Btrfs total_bytes is zero"
  let r := r.failIf (best.bytesUsed > best.totalBytes) "Btrfs bytes_used exceeds total_bytes"
  let r := r.failIf (best.numDevices = 0) "Btrfs num_devices is zero"
  let r := r.failIf (best.deviceId = 0) "Btrfs embedded device id is zero"
  let r := r.failIf (best.deviceTotalBytes = 0 ∨ best.deviceTotalBytes > d.sizeBytes)
    "Btrfs embedded device geometry exceeds containing device or is zero"
  let r := r.failIf (best.deviceBytesUsed > best.deviceTotalBytes)
    "Btrfs embedded device bytes_used exceeds device total_bytes"
  let r := r.failIf (best.numDevices = 1 ∧ best.totalBytes > d.sizeBytes)
    "single-device Btrfs total_bytes exceeds containing device"
  let r := r.failIf (best.rootLevel > 8 ∨ best.chunkRootLevel > 8 ∨ best.logRootLevel > 8)
    "Btrfs tree level is outside supported on-disk range"
  r.failIf (best.sysChunkArraySize > 2048) "Btrfs system chunk array size is invalid"

/-- 選んだ写しと、ほかの写しとの照合。 -/
def compareMirror (best : Superblock) (r : CheckReport) (s : Superblock) : CheckReport :=
  let r := r.failIf (s.fsid ≠ best.fsid)
    "checksum-valid Btrfs mirrors disagree on filesystem UUID"
  let r := r.failIf (s.totalBytes ≠ best.totalBytes ∨ s.sectorsize ≠ best.sectorsize
    ∨ s.nodesize ≠ best.nodesize) "checksum-valid Btrfs mirrors disagree on filesystem geometry"
  let r := r.failIf (s.bytenr ≠ s.mirrorOffset)
    "Btrfs mirror bytenr does not match its physical offset"
  r.warnIf (s.generation < best.generation ∧ best.generation - s.generation > 1)
    "a Btrfs superblock mirror is more than one generation behind the newest mirror"

/-- `check` の終わり。 -/
def conclude (r : CheckReport) : CheckReport :=
  let r := r.warnIf (r.mirrorsValid < r.mirrorsPresent)
    "one or more Btrfs superblock mirrors are unusable"
  { r with clean := r.errors.isEmpty }

/-- `check` が選ぶ写し。checksum の正しい写しのうち最も新しいもので、寸法はまだ見ない。 -/
def Survey.selected (v : Survey) : Option Superblock := v.valid.argmax Superblock.generation

/-- `check`。 -/
def check (d : Disk) : Result CheckReport := do
  let v ← survey d mirrors {}
  if v.all = [] then
    throw { code := .unsupported, message := "not a Btrfs filesystem" }
  match v.selected with
  | none => return v.report.fail "no checksum-valid Btrfs superblock mirrors remain"
  | some best =>
    let r := checkBest d best { v.report with selectedGeneration := best.generation }
    return conclude (v.valid.foldl (compareMirror best) r)

end Fsx.Btrfs
