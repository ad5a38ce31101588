/-
The packet buffer.

A buffer has a fixed capacity; `bytes` is the part in use, which starts at
`start`.  What lies outside is never read before it is written, so it is not
kept here.
-/
import Mathlib.Data.BitVec

namespace Csqtt

abbrev Packet := List (BitVec 8)

/-- `PACKET_HEADROOM`. -/
def packetHeadroom : ℕ := 64

/-- `PACKET_CAPACITY`. -/
def packetCapacity : ℕ := 2304

@[ext] structure PacketBuf where
  start : ℕ
  bytes : Packet
  fits : start + bytes.length ≤ packetCapacity
  deriving DecidableEq

namespace PacketBuf

/-- `range.end`. -/
def stop (p : PacketBuf) : ℕ := p.start + p.bytes.length

/-- `prepend`, with the bytes that the caller writes there. -/
def prepend (p : PacketBuf) (header : Packet) : Option PacketBuf :=
  if h : header.length ≤ p.start then
    some
      { start := p.start - header.length
        bytes := header ++ p.bytes
        fits := by
          have := p.fits
          rw [List.length_append]
          omega }
  else none

/-- `trim_front`. -/
def trimFront (p : PacketBuf) (length : ℕ) : Option PacketBuf :=
  if h : length ≤ p.bytes.length then
    some
      { start := p.start + length
        bytes := p.bytes.drop length
        fits := by
          have := p.fits
          rw [List.length_drop]
          omega }
  else none

/-- `extend_tail`, with the bytes that the caller writes there. -/
def extendTail (p : PacketBuf) (tail : Packet) : Option PacketBuf :=
  if h : p.stop + tail.length ≤ packetCapacity then
    some
      { p with
        bytes := p.bytes ++ tail
        fits := by
          rw [List.length_append, ← Nat.add_assoc]
          exact h }
  else none

/-- `truncate`. -/
def truncate (p : PacketBuf) (length : ℕ) : Option PacketBuf :=
  if length ≤ p.bytes.length then
    some
      { p with
        bytes := p.bytes.take length
        fits := by
          have := p.fits
          rw [List.length_take]
          omega }
  else none

/-- `set_read_len`, with the bytes that the caller has put into the read area. -/
def setReadLen (bytes : Packet) : Option PacketBuf :=
  if h : bytes.length ≤ packetCapacity - packetHeadroom then
    some
      { start := packetHeadroom
        bytes
        fits := by
          rw [packetCapacity, packetHeadroom] at *
          omega }
  else none

/-- `set_range`, with the bytes that the range holds. -/
def setRange (start : ℕ) (bytes : Packet) : Option PacketBuf :=
  if h : start + bytes.length ≤ packetCapacity then some { start, bytes, fits := h } else none

/-- What was put in front can be taken off again. -/
theorem trimFront_prepend {p q : PacketBuf} {header : Packet} (h : p.prepend header = some q) :
    q.trimFront header.length = some p := by
  rw [prepend] at h
  split_ifs at h with hroom
  rw [← Option.some.inj h, trimFront, dif_pos (by rw [List.length_append]; omega), Option.some_inj]
  ext1
  · exact Nat.sub_add_cancel hroom
  · exact List.drop_left

theorem prepend_bytes {p q : PacketBuf} {header : Packet} (h : p.prepend header = some q) :
    q.bytes = header ++ p.bytes := by
  rw [prepend] at h
  split_ifs at h
  rw [← Option.some.inj h]

theorem prepend_stop {p q : PacketBuf} {header : Packet} (h : p.prepend header = some q) :
    q.stop = p.stop := by
  rw [prepend] at h
  split_ifs at h with hroom
  rw [← Option.some.inj h]
  show p.start - header.length + (header ++ p.bytes).length = p.start + p.bytes.length
  rw [List.length_append]
  omega

theorem prepend_start {p q : PacketBuf} {header : Packet} (h : p.prepend header = some q) :
    q.start + header.length = p.start := by
  rw [prepend] at h
  split_ifs at h with hroom
  rw [← Option.some.inj h]
  exact Nat.sub_add_cancel hroom

theorem extendTail_eq_some {p q : PacketBuf} {tail : Packet} (h : p.extendTail tail = some q) :
    q.start = p.start ∧ q.bytes = p.bytes ++ tail := by
  rw [extendTail] at h
  split_ifs at h
  rw [← Option.some.inj h]
  exact ⟨rfl, rfl⟩

theorem prepend_isSome {p : PacketBuf} {header : Packet} :
    (p.prepend header).isSome ↔ header.length ≤ p.start := by
  rw [prepend]
  split_ifs with hroom
  · exact iff_of_true rfl hroom
  · exact iff_of_false Bool.false_ne_true hroom

theorem extendTail_isSome {p : PacketBuf} {tail : Packet} :
    (p.extendTail tail).isSome ↔ p.stop + tail.length ≤ packetCapacity := by
  rw [extendTail]
  split_ifs with hroom
  · exact iff_of_true rfl hroom
  · exact iff_of_false Bool.false_ne_true hroom

end PacketBuf

end Csqtt
