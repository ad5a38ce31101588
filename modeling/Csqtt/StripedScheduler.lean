/-
Packet classes.

A packet is classified by what it carries: DNS, ICMP and TCP control are small
whatever their length, and UDP is never bulk.  A flow header is looked through.
An offset stays far below `2 ^ 64`, so the checked additions of the source are
plain ones here.

* `packetClass_of_no_transport`, `keepUnderPressure_of_no_transport` — what does not
  look like IP is classified by its length alone.
-/
import Csqtt.FlowSequence

namespace Csqtt.StripedScheduler

open FlowFrame

/-- `SMALL_PACKET_MAX`. -/
def smallPacketMax : ℕ := 164

/-- `MEDIUM_PACKET_MAX`. -/
def mediumPacketMax : ℕ := 999

inductive PacketClass where
  | small
  | medium
  | bulk
  deriving DecidableEq, Repr

namespace PacketClass

def index : PacketClass → ℕ
  | small => 0
  | medium => 1
  | bulk => 2

def streamChunk : PacketClass → ℕ
  | small => 4
  | medium => 16
  | bulk => 32

end PacketClass

/-- `flow_frame::payload`. -/
def payload (packet : Packet) : Packet :=
  match FrameHeader.decode packet with
  | none => packet
  | some (_, payload) => payload

/-- `packet.get(offset..offset + length)`. -/
def slice (packet : Packet) (offset length : ℕ) : Option Packet :=
  if offset + length ≤ packet.length then some ((packet.drop offset).take length) else none

/-- A big-endian pair. -/
def u16 (high low : BitVec 8) : BitVec 16 := high ++ low

/-! ### The transport of an IP packet -/

/-- The next header after this extension header and where it starts; `some none` when
there is no extension header here, and `none` when the packet is cut off or is a later
fragment. -/
def ipv6Next (packet : Packet) (protocol : BitVec 8) (offset : ℕ) :
    Option (Option (BitVec 8 × ℕ)) :=
  if protocol = 0 ∨ protocol = 43 ∨ protocol = 60 then
    (slice packet offset 2).map fun header =>
      some (header.getD 0 0, offset + ((header.getD 1 0).toNat + 1) * 8)
  else if protocol = 44 then
    (slice packet offset 8).bind fun header =>
      if u16 (header.getD 2 0) (header.getD 3 0) &&& 0xfff8 ≠ 0 then none
      else some (some (header.getD 0 0, offset + 8))
  else if protocol = 51 then
    (slice packet offset 2).map fun header =>
      some (header.getD 0 0, offset + ((header.getD 1 0).toNat + 2) * 4)
  else some none

/-- The loop of `ipv6_transport`, with the rounds it has left. -/
def ipv6Walk (packet : Packet) : ℕ → BitVec 8 → ℕ → Option (BitVec 8 × ℕ)
  | 0, protocol, offset => some (protocol, offset)
  | rounds + 1, protocol, offset =>
    match ipv6Next packet protocol offset with
    | none => none
    | some none => some (protocol, offset)
    | some (some (protocol, offset)) =>
      if packet.length < offset then none else ipv6Walk packet rounds protocol offset

def ipv6Transport (packet : Packet) : Option (BitVec 8 × ℕ) :=
  ipv6Walk packet 8 (packet.getD 6 0) 40

/-- The protocol, and where its header starts. -/
def internetTransport (packet : Packet) : Option (BitVec 8 × ℕ) :=
  match packet with
  | [] => none
  | first :: _ =>
    if first >>> 4 = 4 then
      let headerLen := (first &&& 0x0f).toNat * 4
      if 20 ≤ headerLen ∧ headerLen ≤ packet.length then some (packet.getD 9 0, headerLen)
      else none
    else if first >>> 4 = 6 ∧ 40 ≤ packet.length then ipv6Transport packet
    else none

/-! ### The class -/

def sizeClass (length : ℕ) : PacketClass :=
  if length ≤ smallPacketMax then .small
  else if length ≤ mediumPacketMax then .medium
  else .bulk

def isDns (packet : Packet) (transport : BitVec 8) (offset : ℕ) : Bool :=
  if transport = 6 ∨ transport = 17 then
    match slice packet offset 4 with
    | none => false
    | some ports =>
      u16 (ports.getD 0 0) (ports.getD 1 0) = 53 || u16 (ports.getD 2 0) (ports.getD 3 0) = 53
  else false

/-- A segment that opens, ends or resets a connection, or acknowledges without data. -/
def isTcpControl (packet : Packet) (offset : ℕ) : Bool :=
  match slice packet offset 14 with
  | none => false
  | some header =>
    let flags := header.getD 13 0
    if flags &&& (0x02 ||| 0x01 ||| 0x04) ≠ 0 then true
    else if flags &&& 0x10 = 0 then false
    else
      let headerLen := (header.getD 12 0 >>> 4).toNat * 4
      20 ≤ headerLen && packet.length ≤ offset + headerLen

/-- `packet_class` of what no flow header precedes. -/
def payloadClass (packet : Packet) : PacketClass :=
  match internetTransport packet with
  | none => sizeClass packet.length
  | some (transport, offset) =>
    if transport = 1 ∨ transport = 58 ∨ isDns packet transport offset then .small
    else if transport = 6 ∧ isTcpControl packet offset then .small
    else if transport = 17 then
      match sizeClass packet.length with
      | .bulk => .medium
      | c => c
    else sizeClass packet.length

def packetClass (packet : Packet) : PacketClass := payloadClass (payload packet)

def keepUnderPressure (packet : Packet) : Bool :=
  let packet := payload packet
  if packetClass packet = .small then true
  else (internetTransport packet).any fun (protocol, _) => protocol = 17

example : keepUnderPressure (0x45 :: List.replicate 8 0 ++ 17 :: List.replicate 1190 0) := by
  decide +kernel

/-! ### What does not look like IP -/

theorem payload_of_not_prefix {packet : Packet} (h : ¬ frameMagic <+: packet) :
    payload packet = packet := by
  rw [payload, decode_of_not_prefix h]

theorem internetTransport_of_version {first : BitVec 8} (rest : Packet) (h4 : first >>> 4 ≠ 4)
    (h6 : first >>> 4 ≠ 6) : internetTransport (first :: rest) = none := by
  have h6' : ¬ (first >>> 4 = 6 ∧ 40 ≤ (first :: rest).length) := fun h => h6 h.1
  simp only [internetTransport, if_neg h4, if_neg h6']

theorem packetClass_of_no_transport {packet : Packet} (hmagic : ¬ frameMagic <+: packet)
    (h : internetTransport packet = none) : packetClass packet = sizeClass packet.length := by
  simp only [packetClass, payload_of_not_prefix hmagic, payloadClass, h]

theorem keepUnderPressure_of_no_transport {packet : Packet} (hmagic : ¬ frameMagic <+: packet)
    (h : internetTransport packet = none) :
    keepUnderPressure packet ↔ packet.length ≤ smallPacketMax := by
  have hsmall : sizeClass packet.length = .small ↔ packet.length ≤ smallPacketMax := by
    rw [sizeClass]
    split_ifs with hlen hmedium
    · exact iff_of_true rfl hlen
    · exact iff_of_false (nomatch ·) hlen
    · exact iff_of_false (nomatch ·) hlen
  simp only [keepUnderPressure, payload_of_not_prefix hmagic,
    packetClass_of_no_transport hmagic h, h, Option.any_none]
  rw [← hsmall]
  split_ifs with hclass
  · exact iff_of_true rfl hclass
  · exact iff_of_false id hclass

/-! ### What does -/

theorem internetTransport_ipv4 {first : BitVec 8} {rest : Packet} (h4 : first >>> 4 = 4)
    (hheader : 20 ≤ (first &&& 0x0f).toNat * 4)
    (hlength : (first &&& 0x0f).toNat * 4 ≤ (first :: rest).length) :
    internetTransport (first :: rest) =
      some ((first :: rest).getD 9 0, (first &&& 0x0f).toNat * 4) := by
  simp only [internetTransport, if_pos h4, if_pos (And.intro hheader hlength)]

/-- UDP is kept whatever its length. -/
theorem keepUnderPressure_of_udp {packet : Packet} {offset : ℕ} (hmagic : ¬ frameMagic <+: packet)
    (h : internetTransport packet = some (17, offset)) : keepUnderPressure packet := by
  simp only [keepUnderPressure, payload_of_not_prefix hmagic, h, Option.any_some, decide_true,
    ite_self]

end Csqtt.StripedScheduler
