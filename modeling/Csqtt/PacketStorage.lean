/-
The storage of a packet buffer.

A buffer is one storage of fixed length and a range of it.  Six operations move the ends of
the range, each with its own check; the callers write into the slices that they are given.

* `range_of_ops` — after any operations the range lies in the storage, and an operation that
  fails has changed nothing;
* `view_prepend`, `view_extendTail`, ... — what the operations do to the bytes in the range is
  what `PacketBuf` says.
-/
import Csqtt.PacketBuf

namespace Csqtt

/-- `PacketBuf` as it lies in memory. -/
structure StoredPacket where
  storage : Packet
  /-- `range.start` and `range.end`. -/
  start : ℕ
  stop : ℕ
  deriving DecidableEq

namespace StoredPacket

/-- The result of an operation and the buffer after it; a slice is given by its ends. -/
abbrev Outcome (α : Type) := Except String α × StoredPacket

/-- `len`. -/
def len (b : StoredPacket) : ℕ := b.stop - b.start

/-- `as_slice`. -/
def asSlice (b : StoredPacket) : Packet := (b.storage.drop b.start).take b.len

def setReadLen (b : StoredPacket) (len : ℕ) : Outcome Unit :=
  if packetCapacity - packetHeadroom < len then (.error "packet read length exceeds capacity", b)
  else (.ok (), { b with start := packetHeadroom, stop := packetHeadroom + len })

def prepend (b : StoredPacket) (len : ℕ) : Outcome (ℕ × ℕ) :=
  if b.start < len then (.error "packet prepend exceeds headroom", b)
  else (.ok (b.start - len, b.start), { b with start := b.start - len })

def extendTail (b : StoredPacket) (len : ℕ) : Outcome (ℕ × ℕ) :=
  if 2 ^ 64 ≤ b.stop + len then (.error "packet tail length overflow", b)
  else if packetCapacity < b.stop + len then (.error "packet tail exceeds capacity", b)
  else (.ok (b.stop, b.stop + len), { b with stop := b.stop + len })

def trimFront (b : StoredPacket) (len : ℕ) : Outcome Unit :=
  if b.len < len then (.error "packet trim exceeds length", b)
  else (.ok (), { b with start := b.start + len })

def truncate (b : StoredPacket) (len : ℕ) : Outcome Unit :=
  if b.len < len then (.error "packet truncate exceeds length", b)
  else (.ok (), { b with stop := b.start + len })

def setRange (b : StoredPacket) (start stop : ℕ) : Outcome Unit :=
  if stop < start ∨ packetCapacity < stop then (.error "packet range is invalid", b)
  else (.ok (), { b with start, stop })

/-- What a caller writes into a slice of the storage. -/
def write (b : StoredPacket) (offset : ℕ) (bytes : Packet) : StoredPacket :=
  if offset + bytes.length ≤ b.storage.length then
    { b with
      storage := b.storage.take offset ++ bytes ++ b.storage.drop (offset + bytes.length) }
  else b

/-- What the owner of a buffer does to it. -/
inductive Op where
  | setReadLen (len : ℕ)
  | prepend (len : ℕ)
  | extendTail (len : ℕ)
  | trimFront (len : ℕ)
  | truncate (len : ℕ)
  | setRange (start stop : ℕ)
  | write (offset : ℕ) (bytes : Packet)

def apply (b : StoredPacket) : Op → Outcome Unit
  | .setReadLen len => b.setReadLen len
  | .prepend len => ((b.prepend len).1.map fun _ => (), (b.prepend len).2)
  | .extendTail len => ((b.extendTail len).1.map fun _ => (), (b.extendTail len).2)
  | .trimFront len => b.trimFront len
  | .truncate len => b.truncate len
  | .setRange start stop => b.setRange start stop
  | .write offset bytes => (.ok (), b.write offset bytes)

/-- A buffer of the pool, with what is in its storage. -/
def acquired (storage : Packet) : StoredPacket := ⟨storage, packetHeadroom, packetHeadroom⟩

def runOps (b : StoredPacket) (ops : List Op) : StoredPacket :=
  ops.foldl (fun b op => (b.apply op).2) b

/-! ### The range -/

structure Valid (b : StoredPacket) : Prop where
  le : b.start ≤ b.stop
  fits : b.stop ≤ packetCapacity
  full : b.storage.length = packetCapacity

theorem valid_acquired {storage : Packet} (h : storage.length = packetCapacity) :
    Valid (acquired storage) :=
  ⟨Nat.le_refl _, Nat.le_of_ble_eq_true rfl, h⟩

theorem length_write (b : StoredPacket) (offset : ℕ) (bytes : Packet) :
    (b.write offset bytes).storage.length = b.storage.length := by
  rw [write]
  split_ifs with hfits
  · rw [List.length_append, List.length_append, List.length_take, List.length_drop]
    omega
  · rfl

theorem write_start (b : StoredPacket) (offset : ℕ) (bytes : Packet) :
    (b.write offset bytes).start = b.start := by
  rw [write]
  split_ifs
  · rfl
  · rfl

theorem write_stop (b : StoredPacket) (offset : ℕ) (bytes : Packet) :
    (b.write offset bytes).stop = b.stop := by
  rw [write]
  split_ifs
  · rfl
  · rfl

variable {b : StoredPacket}

theorem Valid.write (h : Valid b) (offset : ℕ) (bytes : Packet) : Valid (b.write offset bytes) := by
  constructor
  · rw [write_start, write_stop]
    exact h.le
  · rw [write_stop]
    exact h.fits
  · rw [length_write]
    exact h.full

theorem Valid.apply (h : Valid b) (op : Op) : Valid (b.apply op).2 := by
  have hle := h.le
  have hfits := h.fits
  cases op with
  | setReadLen len =>
    rw [StoredPacket.apply, setReadLen]
    split_ifs with hlong
    · exact h
    · have hroom : packetHeadroom ≤ packetCapacity := by decide
      exact ⟨Nat.le_add_right _ _, by show packetHeadroom + len ≤ _; omega, h.full⟩
  | prepend len =>
    rw [StoredPacket.apply, prepend]
    split_ifs
    · exact h
    · exact ⟨(Nat.sub_le _ _).trans hle, hfits, h.full⟩
  | extendTail len =>
    rw [StoredPacket.apply, extendTail]
    split_ifs with hover hlong
    · exact h
    · exact h
    · exact ⟨hle.trans (Nat.le_add_right _ _), Nat.le_of_not_lt hlong, h.full⟩
  | trimFront len =>
    rw [StoredPacket.apply, trimFront]
    split_ifs with hlong
    · exact h
    · rw [StoredPacket.len] at hlong
      exact ⟨by show b.start + len ≤ b.stop; omega, hfits, h.full⟩
  | truncate len =>
    rw [StoredPacket.apply, truncate]
    split_ifs with hlong
    · exact h
    · rw [StoredPacket.len] at hlong
      exact ⟨Nat.le_add_right _ _, by show b.start + len ≤ _; omega, h.full⟩
  | setRange start stop =>
    rw [StoredPacket.apply, setRange]
    split_ifs with hbad
    · exact h
    · rw [not_or, Nat.not_lt, Nat.not_lt] at hbad
      exact ⟨hbad.1, hbad.2, h.full⟩
  | write offset bytes => exact h.write offset bytes

/-- An operation that fails has changed nothing. -/
theorem apply_of_error {op : Op} {error : String} (h : (b.apply op).1 = .error error) :
    (b.apply op).2 = b := by
  cases op with
  | setReadLen len =>
    rw [apply, setReadLen] at h ⊢
    split_ifs at h ⊢
    rfl
  | prepend len =>
    rw [apply, prepend] at h ⊢
    split_ifs at h ⊢
    · rfl
    · exact nomatch h
  | extendTail len =>
    rw [apply, extendTail] at h ⊢
    split_ifs at h ⊢
    · rfl
    · rfl
    · exact nomatch h
  | trimFront len =>
    rw [apply, trimFront] at h ⊢
    split_ifs at h ⊢
    rfl
  | truncate len =>
    rw [apply, truncate] at h ⊢
    split_ifs at h ⊢
    rfl
  | setRange start stop =>
    rw [apply, setRange] at h ⊢
    split_ifs at h ⊢
    rfl
  | write offset bytes => exact nomatch h

theorem Valid.runOps (h : Valid b) (ops : List Op) : Valid (b.runOps ops) := by
  induction ops generalizing b with
  | nil => exact h
  | cons op ops ih => exact ih (h.apply op)

theorem range_of_ops {storage : Packet} (h : storage.length = packetCapacity) (ops : List Op) :
    let b := (acquired storage).runOps ops
    b.start ≤ b.stop ∧ b.stop ≤ packetCapacity ∧
      ∀ op error, (b.apply op).1 = .error error → (b.apply op).2 = b :=
  have hvalid := (valid_acquired h).runOps ops
  ⟨hvalid.le, hvalid.fits, fun _ _ => apply_of_error⟩

/-! ### The bytes in the range -/

theorem length_asSlice (h : Valid b) : b.asSlice.length = b.stop - b.start := by
  have hfits := h.fits
  rw [asSlice, len, List.length_take, List.length_drop, h.full]
  omega

/-- The bytes in the range, with the start of the range. -/
def view (b : StoredPacket) (h : Valid b) : PacketBuf where
  start := b.start
  bytes := b.asSlice
  fits := by
    have hle := h.le
    have hfits := h.fits
    rw [length_asSlice h]
    omega

theorem view_stop (h : Valid b) : (b.view h).stop = b.stop := by
  have hle := h.le
  show b.start + b.asSlice.length = b.stop
  rw [length_asSlice h]
  omega

/-- The storage after a write that fits. -/
theorem storage_write {offset : ℕ} {bytes : Packet} (h : offset + bytes.length ≤ b.storage.length) :
    (b.write offset bytes).storage =
      b.storage.take offset ++ bytes ++ b.storage.drop (offset + bytes.length) := by
  rw [write, if_pos h]

/-- What was written is what stands there. -/
theorem drop_write {offset : ℕ} {bytes : Packet} (h : offset + bytes.length ≤ b.storage.length) :
    (b.write offset bytes).storage.drop offset =
      bytes ++ b.storage.drop (offset + bytes.length) := by
  rw [storage_write h, List.append_assoc]
  refine List.drop_left' ?_
  rw [List.length_take]
  omega

theorem view_trimFront (h : Valid b) {len : ℕ} (hlen : len ≤ b.len) :
    (b.view h).trimFront len = some ((b.trimFront len).2.view (h.apply (.trimFront len))) := by
  have hshort : len ≤ (b.view h).bytes.length := (length_asSlice h).symm ▸ hlen
  rw [PacketBuf.trimFront, dif_pos hshort, Option.some_inj]
  simp only [trimFront, if_neg (Nat.not_lt.mpr hlen)]
  ext1
  · rfl
  · show b.asSlice.drop len = asSlice _
    rw [asSlice, asSlice, List.drop_take, List.drop_drop]
    congr 1
    exact Nat.sub_sub _ _ _

theorem view_truncate (h : Valid b) {len : ℕ} (hlen : len ≤ b.len) :
    (b.view h).truncate len = some ((b.truncate len).2.view (h.apply (.truncate len))) := by
  have hshort : len ≤ (b.view h).bytes.length := (length_asSlice h).symm ▸ hlen
  rw [PacketBuf.truncate, if_pos hshort, Option.some_inj]
  simp only [truncate, if_neg (Nat.not_lt.mpr hlen)]
  ext1
  · rfl
  · show b.asSlice.take len = asSlice _
    rw [asSlice, asSlice, List.take_take, Nat.min_eq_left hlen]
    congr 1
    exact (Nat.add_sub_cancel_left b.start len).symm

/-- Bytes that are written at the start of the range come first in it. -/
theorem asSlice_write_start {bytes : Packet} (h : b.start + bytes.length ≤ b.storage.length)
    (hlen : bytes.length ≤ b.len) :
    (b.write b.start bytes).asSlice =
      bytes ++ (b.storage.drop (b.start + bytes.length)).take (b.len - bytes.length) := by
  rw [asSlice, len, write_start, write_stop, drop_write h, ← len, List.take_append,
    List.take_of_length_le hlen]

/-- Bytes that are written up to the end of the range come last in it. -/
theorem asSlice_write_stop {offset : ℕ} {bytes : Packet} (h : b.stop ≤ b.storage.length)
    (hstart : b.start ≤ offset) (hstop : b.stop = offset + bytes.length) :
    (b.write offset bytes).asSlice = (b.storage.drop b.start).take (offset - b.start) ++ bytes := by
  have hwrite : offset + bytes.length ≤ b.storage.length := by omega
  have hinit : (b.storage.take offset).length = offset := by
    rw [List.length_take]
    omega
  have hlength : ((b.storage.take offset).drop b.start ++ bytes).length = b.len := by
    rw [List.length_append, List.length_drop, hinit, len]
    omega
  rw [asSlice, write_start, storage_write hwrite, List.append_assoc,
    List.drop_append_of_le_length (by rw [hinit]; exact hstart), ← List.append_assoc, len,
    write_start, write_stop, ← len, List.take_left' hlength, List.drop_take]

/-- `prepend`, and the header that the caller writes into the slice. -/
theorem view_prepend (h : Valid b) {header : Packet} (hroom : header.length ≤ b.start) :
    (b.view h).prepend header = some (((b.prepend header.length).2.write
      (b.start - header.length) header).view ((h.apply (.prepend header.length)).write _ _)) := by
  have hle := h.le
  have hfits := h.fits
  have hfull := h.full
  rw [PacketBuf.prepend, dif_pos (show header.length ≤ (b.view h).start from hroom),
    Option.some_inj]
  -- the buffer before the header is written
  obtain ⟨c, hc⟩ : ∃ c : StoredPacket, c = { b with start := b.start - header.length } := ⟨_, rfl⟩
  have hmoved : (b.prepend header.length).2 = c := by
    rw [prepend, if_neg (Nat.not_lt.mpr hroom), hc]
  have hstart : c.start = b.start - header.length := by rw [hc]
  have hlen : c.len = header.length + b.len := by
    rw [hc, len, len]
    show b.stop - (b.start - header.length) = _
    omega
  have hwrite : c.start + header.length ≤ c.storage.length := by
    rw [hc]
    show b.start - header.length + header.length ≤ b.storage.length
    omega
  ext1
  · show b.start - header.length = StoredPacket.start _
    rw [write_start, hmoved, hstart]
  · show header ++ b.asSlice = asSlice _
    rw [hmoved, ← hstart, asSlice_write_start hwrite (by omega), hlen, Nat.add_sub_cancel_left,
      hstart, Nat.sub_add_cancel hroom, hc]
    rfl

/-- `extend_tail`, and the tail that the caller writes into the slice. -/
theorem view_extendTail (h : Valid b) {tail : Packet}
    (hroom : b.stop + tail.length ≤ packetCapacity) :
    (b.view h).extendTail tail = some (((b.extendTail tail.length).2.write b.stop tail).view
      ((h.apply (.extendTail tail.length)).write _ _)) := by
  have hfull := h.full
  rw [PacketBuf.extendTail, dif_pos ((view_stop h).symm ▸ hroom), Option.some_inj]
  have hcapacity : packetCapacity < 2 ^ 64 := by decide
  obtain ⟨c, hc⟩ : ∃ c : StoredPacket, c = { b with stop := b.stop + tail.length } := ⟨_, rfl⟩
  have hmoved : (b.extendTail tail.length).2 = c := by
    rw [extendTail, if_neg (by omega), if_neg (Nat.not_lt.mpr hroom), hc]
  have hstop : c.stop ≤ c.storage.length := by
    rw [hc]
    show b.stop + tail.length ≤ b.storage.length
    omega
  ext1
  · show b.start = StoredPacket.start _
    rw [write_start, hmoved, hc]
  · show b.asSlice ++ tail = asSlice _
    rw [hmoved, asSlice_write_stop hstop (by rw [hc]; exact h.le) (by rw [hc]), hc]
    rfl

theorem view_setReadLen (h : Valid b) {bytes : Packet}
    (hroom : bytes.length ≤ packetCapacity - packetHeadroom) :
    PacketBuf.setReadLen bytes = some (((b.write packetHeadroom bytes).setReadLen
      bytes.length).2.view ((h.write _ _).apply (.setReadLen bytes.length))) := by
  rw [PacketBuf.setReadLen, dif_pos hroom, Option.some_inj]
  have hheadroom : packetHeadroom ≤ packetCapacity := Nat.le_of_ble_eq_true rfl
  have hwrite : packetHeadroom + bytes.length ≤ b.storage.length := by
    rw [h.full]
    omega
  simp only [setReadLen, if_neg (Nat.not_lt.mpr hroom)]
  ext1
  · rfl
  · show bytes = List.take (packetHeadroom + bytes.length - packetHeadroom)
      ((b.write packetHeadroom bytes).storage.drop packetHeadroom)
    rw [drop_write hwrite, Nat.add_sub_cancel_left, List.take_left]

theorem view_setRange (h : Valid b) {start stop : ℕ} (hrange : start ≤ stop)
    (hroom : stop ≤ packetCapacity) :
    PacketBuf.setRange start ((b.storage.drop start).take (stop - start)) =
      some ((b.setRange start stop).2.view (h.apply (.setRange start stop))) := by
  have hfull := h.full
  have hfits : start + ((b.storage.drop start).take (stop - start)).length ≤ packetCapacity := by
    rw [List.length_take, List.length_drop]
    omega
  have hok : ¬ (stop < start ∨ packetCapacity < stop) := by omega
  rw [PacketBuf.setRange, dif_pos hfits, Option.some_inj]
  simp only [setRange, if_neg hok]
  rfl

end StoredPacket

end Csqtt
