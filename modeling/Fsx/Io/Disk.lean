import Fsx.Core.Error
import Fsx.Io.Crash

/-!
# block device（`src/io/device.cpp`）

`BlockDevice` の read / write / flush。媒体の像のほかに、操作の記録 `events` を持つ。
crash の意味論（`Fsx/Io/Crash.lean`）はこの記録から像を作る。

大きさは kernel の `loff_t` に収まるので、`2 ^ 63` より小さいことを field に持つ。
`off_t` を超える範囲の拒否はそのために起きないが、検査は source のとおりに残す。
-/

namespace Fsx

/-- `std::numeric_limits<off_t>::max()`。 -/
def offMax : Nat := 2 ^ 63 - 1

/-- `std::numeric_limits<std::uint64_t>::max()`。 -/
def u64Max : Nat := 2 ^ 64 - 1

/-- `std::uint64_t` への切り詰め。 -/
def u64 (n : Nat) : Nat := n % 2 ^ 64

theorem u64_of_lt {n : Nat} (h : n < 2 ^ 64) : u64 n = n := Nat.mod_eq_of_lt h

structure Disk where
  sizeBytes : Nat
  logicalSector : Nat
  isBlockDevice : Bool
  writable : Bool
  data : Image
  events : List Event
  size_lt : sizeBytes < 2 ^ 63

abbrev DevM := Proc Disk

namespace Disk

/-- `BlockDevice::read_exact`。 -/
def readExact (d : Disk) (off len : Nat) : Result Bytes :=
  if off > d.sizeBytes ∨ len > d.sizeBytes - off then
    .error { code := .shortIo, message := "read range exceeds device geometry" }
  else if off > offMax ∨ len > offMax - off then
    .error { code := .unsupported, message := "read range exceeds host off_t" }
  else .ok (d.data.read off len)

/-- 操作を施し、記録する。 -/
def emit (d : Disk) (es : List Event) : Disk :=
  { d with data := replay d.data es, events := d.events ++ es }

/-- `BlockDevice::write_exact`。 -/
def writeExact (d : Disk) (off : Nat) (bytes : Bytes) : Result Disk :=
  if d.writable = false then .error { code := .permission, message := "device is read-only" }
  else if off > d.sizeBytes ∨ bytes.length > d.sizeBytes - off then
    .error { code := .shortIo, message := "write range exceeds device geometry" }
  else if off > offMax ∨ bytes.length > offMax - off then
    .error { code := .unsupported, message := "write range exceeds host off_t" }
  else .ok (d.emit [.write ⟨off, bytes⟩])

/-- `BlockDevice::flush`。 -/
def flush (d : Disk) : Result Disk := .ok (d.emit [.flush])

/-- 像だけが `img` で、記録の空な device。crash の後に開き直した状態である。 -/
def reboot (d : Disk) (img : Image) : Disk := { d with data := img, events := [] }

/-- 像だけを `img` に差し替えた device。 -/
def withData (d : Disk) (img : Image) : Disk := { d with data := img }

/-! ## read と write が成り立つ条件 -/

theorem readExact_ok {d : Disk} {off len : Nat} (h : off + len ≤ d.sizeBytes) :
    d.readExact off len = .ok (d.data.read off len) := by
  have hlt := d.size_lt
  unfold readExact offMax
  rw [if_neg (by omega), if_neg (by omega)]

theorem readExact_error {d : Disk} {off len : Nat} (h : d.sizeBytes < off + len) :
    d.readExact off len =
      .error { code := .shortIo, message := "read range exceeds device geometry" } := by
  unfold readExact
  rw [if_pos (by omega)]

theorem readExact_eq_ok_iff {d : Disk} {off len : Nat} {b : Bytes} :
    d.readExact off len = .ok b ↔ off + len ≤ d.sizeBytes ∧ b = d.data.read off len := by
  rcases Nat.lt_or_ge d.sizeBytes (off + len) with h | h
  · rw [readExact_error h]
    constructor
    · intro hc; cases hc
    · rintro ⟨hle, _⟩; omega
  · rw [readExact_ok h]
    constructor
    · intro hc; cases hc; exact ⟨h, rfl⟩
    · rintro ⟨_, rfl⟩; rfl

theorem writeExact_ok {d : Disk} {off : Nat} {bytes : Bytes} (hw : d.writable = true)
    (h : off + bytes.length ≤ d.sizeBytes) :
    d.writeExact off bytes = .ok (d.emit [.write ⟨off, bytes⟩]) := by
  have hlt := d.size_lt
  unfold writeExact offMax
  rw [if_neg (by rw [hw]; decide), if_neg (by omega), if_neg (by omega)]

theorem writeExact_eq_ok_iff {d d' : Disk} {off : Nat} {bytes : Bytes} :
    d.writeExact off bytes = .ok d' ↔
      d.writable = true ∧ off + bytes.length ≤ d.sizeBytes ∧ d' = d.emit [.write ⟨off, bytes⟩] := by
  constructor
  · intro h
    unfold writeExact at h
    split at h
    · cases h
    · next hw =>
      split at h
      · cases h
      · next hs =>
        split at h
        · cases h
        · cases h
          exact ⟨by simpa using hw, by omega, rfl⟩
  · rintro ⟨hw, hs, rfl⟩
    exact writeExact_ok hw hs

@[simp] theorem emit_sizeBytes (d : Disk) (es : List Event) :
    (d.emit es).sizeBytes = d.sizeBytes := rfl
@[simp] theorem emit_logicalSector (d : Disk) (es : List Event) :
    (d.emit es).logicalSector = d.logicalSector := rfl
@[simp] theorem emit_isBlockDevice (d : Disk) (es : List Event) :
    (d.emit es).isBlockDevice = d.isBlockDevice := rfl
@[simp] theorem emit_writable (d : Disk) (es : List Event) :
    (d.emit es).writable = d.writable := rfl
@[simp] theorem emit_data (d : Disk) (es : List Event) : (d.emit es).data = replay d.data es := rfl
@[simp] theorem emit_events (d : Disk) (es : List Event) :
    (d.emit es).events = d.events ++ es := rfl

@[simp] theorem reboot_data (d : Disk) (img : Image) : (d.reboot img).data = img := rfl
@[simp] theorem reboot_sizeBytes (d : Disk) (img : Image) :
    (d.reboot img).sizeBytes = d.sizeBytes := rfl

@[simp] theorem emit_nil (d : Disk) : d.emit [] = d := by
  unfold emit
  rw [List.append_nil]
  rfl

theorem emit_emit (d : Disk) (es fs : List Event) : (d.emit es).emit fs = d.emit (es ++ fs) := by
  unfold emit
  simp only [replay_append, List.append_assoc]

end Disk

namespace DevM

/-- device から読む。 -/
def read (off len : Nat) : DevM Bytes := Proc.reading fun d => d.readExact off len

/-- device に書く。 -/
def write (off : Nat) (bytes : Bytes) : DevM Unit := Proc.stepping fun d => d.writeExact off bytes

/-- device を flush する。 -/
def flush : DevM Unit := Proc.stepping Disk.flush

theorem run_write_ok {d : Disk} {off : Nat} {bytes : Bytes} (hw : d.writable = true)
    (h : off + bytes.length ≤ d.sizeBytes) :
    Proc.run (write off bytes) d = (.ok (), d.emit [.write ⟨off, bytes⟩]) :=
  Proc.run_stepping_ok (Disk.writeExact_ok hw h)

theorem run_flush (d : Disk) :
    Proc.run flush d = (.ok (), d.emit [.flush]) :=
  Proc.run_stepping_ok rfl

end DevM

end Fsx
