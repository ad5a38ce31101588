/-
What arrives on the TURN transport.

ChannelData on the bound channel goes into a bounded queue.  When the queue is full
the packet is stashed if the classifier would keep it under pressure; but what it
classifies is still obfuscated, an RTP packet that carries no flow header and does
not look like IP.  So only its length counts.

* `keepUnderPressure_wrapped` — an obfuscated packet is kept exactly when it is short;
* `wrapped_protected_iff` — and it is stashed exactly then.
-/
import Csqtt.ChannelData
import Csqtt.Obfs
import Csqtt.StripedScheduler
import Csqtt.TurnMaintenance

namespace Csqtt.TurnIngress

open ByteOrder ChannelData FlowFrame Obfs StripedScheduler

/-- `PROTECTED_INCOMING`. -/
def protectedIncoming : ℕ := 32

inductive PacketAction where
  | wait
  | pump
  | ownerClosed
  deriving DecidableEq

/-- The bounded channel to the owner; `closed` when its receiver is gone. -/
structure Incoming where
  capacity : ℕ
  queue : List PacketBuf
  closed : Bool

/-- The driver of an allocation, as far as an arriving packet is concerned. -/
structure Driver where
  core : Turn.Inner
  channel : BitVec 16
  incoming : Incoming
  /-- `protected`. -/
  protectedPackets : List PacketBuf
  /-- The permit of `protected_notify`. -/
  protectedNotify : Bool
  queueFullDrops : BitVec 64

def isStun (wire : Packet) : Bool :=
  20 ≤ wire.length && wire.getD 0 0 &&& 0xc0 = 0 &&
    (wire.drop 4).take 4 = Stun.bytes32 Stun.magicCookie

namespace Driver

/-- A full stash gives its oldest packet up. -/
def stashProtected (d : Driver) (packet : PacketBuf) : Driver :=
  { d with
    protectedPackets :=
      (if protectedIncoming ≤ d.protectedPackets.length then d.protectedPackets.tail
        else d.protectedPackets) ++ [packet]
    protectedNotify := true }

/-- `try_send` into `incoming`, and what is done with a packet that is handed back. -/
def deliver (d : Driver) (packet : PacketBuf) : PacketAction × Driver :=
  if d.incoming.closed then (.ownerClosed, d)
  else if d.incoming.queue.length < d.incoming.capacity then
    (.wait, { d with incoming := { d.incoming with queue := d.incoming.queue ++ [packet] } })
  else if keepUnderPressure packet.bytes then (.wait, d.stashProtected packet)
  else (.wait, { d with queueFullDrops := d.queueFullDrops + 1 })

end Driver

/-- `process_packet_measured`. -/
def processPacket (P : Stun.Primitives) (env : Turn.Env) (d : Driver) (packet : PacketBuf) :
    PacketAction × Driver :=
  match channelDataHeader packet.bytes with
  | some (channel, payloadLength) =>
    if channel ≠ d.channel then (.wait, d)
    else
      match packet.trimFront 4 with
      | none => (.wait, d)
      | some packet =>
        match packet.truncate payloadLength with
        | none => (.wait, d)
        | some packet => d.deliver packet
  | none =>
    if isStun packet.bytes then
      (.pump, { d with core := (Turn.NativeCore.inputStun P env d.core packet.bytes).2 })
    else (.wait, d)

/-! ### A message on the bound channel -/

/-- The queue takes no more, and its receiver is still there. -/
def Incoming.Full (i : Incoming) : Prop := i.closed = false ∧ i.capacity ≤ i.queue.length

/-- The packet is a ChannelData message with this payload, and at most three bytes
behind it. -/
def Carries (packet : PacketBuf) (channel : BitVec 16) (payload : Packet) : Prop :=
  ∃ pad : Packet, pad.length ≤ 3 ∧
    packet.bytes = channelHeader channel payload.length ++ payload ++ pad

/-- The call has put the payload into the stash, and counted no drop. -/
def Protects (d : Driver) (r : PacketAction × Driver) (payload : Packet) : Prop :=
  r.1 = .wait ∧ r.2.queueFullDrops = d.queueFullDrops ∧
    ∃ packet, r.2.protectedPackets.getLast? = some packet ∧ packet.bytes = payload

variable {P : Stun.Primitives} {env : Turn.Env} {d : Driver} {packet : PacketBuf}
  {payload : Packet}

/-- Header and padding are taken off before the payload is delivered. -/
theorem processPacket_carried (hchannel : ValidChannel d.channel)
    (hcarries : Carries packet d.channel payload) :
    ∃ inner, inner.bytes = payload ∧ processPacket P env d packet = d.deliver inner := by
  obtain ⟨pad, hpad, hbytes⟩ := hcarries
  have hlength : packet.bytes.length = 4 + payload.length + pad.length := by
    rw [hbytes, List.length_append, List.length_append, channelHeader_length]
  have hshort : payload.length < 2 ^ 16 := by
    have hfits := packet.fits
    rw [packetCapacity] at hfits
    omega
  have hheader : channelDataHeader packet.bytes = some (d.channel, payload.length) := by
    rw [hbytes]
    exact channelDataHeader_framed hchannel hshort hpad
  have hdrop : packet.bytes.drop 4 = payload ++ pad := by
    rw [hbytes, List.append_assoc]
    exact List.drop_left' (channelHeader_length _ _)
  obtain ⟨trimmed, htrimmed, htrim⟩ : ∃ trimmed, packet.trimFront 4 = some trimmed ∧
      trimmed.bytes = payload ++ pad :=
    ⟨_, dif_pos (by omega), hdrop⟩
  have hroom : payload.length ≤ trimmed.bytes.length := by
    rw [htrim, List.length_append]
    omega
  obtain ⟨inner, hinner, htake⟩ : ∃ inner, trimmed.truncate payload.length = some inner ∧
      inner.bytes = payload :=
    ⟨_, if_pos hroom, by simp only [htrim, List.take_left']⟩
  refine ⟨inner, htake, ?_⟩
  simp only [processPacket, hheader, htrimmed, hinner]
  exact if_neg (not_not.mpr rfl)

/-- In front of a full queue the classifier decides. -/
theorem deliver_full (hfull : d.incoming.Full) :
    d.deliver packet =
      (.wait, if keepUnderPressure packet.bytes then d.stashProtected packet
        else { d with queueFullDrops := d.queueFullDrops + 1 }) := by
  rw [Driver.deliver, hfull.1, if_neg Bool.false_ne_true, if_neg (Nat.not_lt.mpr hfull.2)]
  split_ifs
  · rfl
  · rfl

theorem protects_deliver_iff (hfull : d.incoming.Full) :
    Protects d (d.deliver packet) packet.bytes ↔ keepUnderPressure packet.bytes := by
  rw [deliver_full hfull]
  by_cases hkeep : keepUnderPressure packet.bytes
  · simp only [if_pos hkeep]
    exact iff_of_true ⟨rfl, rfl, packet, List.getLast?_concat, rfl⟩ hkeep
  · simp only [if_neg hkeep]
    refine iff_of_false (fun ⟨_, hdrops, _⟩ => ?_) hkeep
    -- the drop was counted
    have hone : d.queueFullDrops + 1 = d.queueFullDrops := hdrops
    bv_omega

/-! ### An obfuscated payload -/

variable {cipher : ObfsCipher} {config : ObfsConfig} {s : ObfsState} {plain : PacketBuf}
  {elapsed : Duration} {draws : Draws} {w : Wrapped}

/-- The first byte of an obfuscated packet is that of no IP packet. -/
theorem wrapped_first (h : (wrap cipher config s plain elapsed draws).1 = .ok w) :
    ∃ rest, w.packet.bytes = 0xb0 :: rest := by
  obtain ⟨_, _, body, trailer, _, _, hbytes⟩ := wrap_written h
  exact ⟨_, hbytes⟩

theorem wrapped_length (h : (wrap cipher config s plain elapsed draws).1 = .ok w) :
    w.packet.bytes.length = plain.bytes.length + 24 + tail config draws := by
  obtain ⟨_, _, body, trailer, hbody, hencrypted, hbytes⟩ := wrap_written h
  rw [hbytes, List.length_append, List.length_append, hbody, hencrypted.trailer_length, headerOf,
    header_length]
  omega

theorem keepUnderPressure_wrapped (h : (wrap cipher config s plain elapsed draws).1 = .ok w) :
    keepUnderPressure w.packet.bytes ↔
      plain.bytes.length + 24 + tail config draws ≤ smallPacketMax := by
  obtain ⟨rest, hrest⟩ := wrapped_first h
  have hmagic : ¬ frameMagic <+: w.packet.bytes := by
    rw [hrest]
    intro hpre
    exact absurd (List.cons_prefix_cons.mp hpre).1 (by decide)
  have htransport : internetTransport w.packet.bytes = none := by
    rw [hrest]
    exact internetTransport_of_version rest (by decide) (by decide)
  rw [keepUnderPressure_of_no_transport hmagic htransport, wrapped_length h]

theorem processPacket_wrapped (h : (wrap cipher config s plain elapsed draws).1 = .ok w)
    (hchannel : ValidChannel d.channel) (hfull : d.incoming.Full)
    (hcarries : Carries packet d.channel w.packet.bytes) :
    Protects d (processPacket P env d packet) w.packet.bytes ↔
      plain.bytes.length + 24 + tail config draws ≤ smallPacketMax := by
  obtain ⟨inner, hinner, hprocess⟩ := processPacket_carried hchannel hcarries
  rw [hprocess, ← hinner, protects_deliver_iff hfull, hinner, keepUnderPressure_wrapped h]

/-- **Which packets of the peer the stash protects.**  In front of a full queue an
obfuscated packet is stashed exactly when it is short, whatever it carries; any other is
counted as dropped. -/
theorem wrapped_protected_iff (h : (wrap cipher config s plain elapsed draws).1 = .ok w)
    (hchannel : ValidChannel d.channel) (hfull : d.incoming.Full)
    (hcarries : Carries packet d.channel w.packet.bytes) :
    (Protects d (processPacket P env d packet) w.packet.bytes ↔
      plain.bytes.length + 24 + tail config draws ≤ smallPacketMax) ∧
    (smallPacketMax < plain.bytes.length + 24 + tail config draws →
      processPacket P env d packet =
        (.wait, { d with queueFullDrops := d.queueFullDrops + 1 })) := by
  refine ⟨processPacket_wrapped h hchannel hfull hcarries, fun hlong => ?_⟩
  obtain ⟨inner, hinner, hprocess⟩ := processPacket_carried hchannel hcarries
  have hkeep : ¬ keepUnderPressure inner.bytes := by
    rw [hinner, keepUnderPressure_wrapped h]
    exact Nat.not_le.mpr hlong
  rw [hprocess, deliver_full hfull, if_neg hkeep]

/-! ### A UDP datagram -/

/-- An IPv4 packet of `28 + n` bytes with a UDP header, from port 40000 to port 443. -/
def udpDatagram (n : ℕ) : Packet :=
  [0x45, 0] ++ toBytes 2 (28 + n) ++ [0, 0, 0, 0, 64, 17, 0, 0, 10, 0, 0, 2, 10, 0, 0, 1] ++
    [0x9c, 0x40, 0x01, 0xbb] ++ toBytes 2 (8 + n) ++ [0, 0] ++ List.replicate n 0

theorem udpDatagram_length (n : ℕ) : (udpDatagram n).length = 28 + n := by
  simp only [udpDatagram, List.length_append, toBytes_length, List.length_replicate,
    List.length_cons, List.length_nil]

theorem udpDatagram_kept (n : ℕ) : keepUnderPressure (udpDatagram n) := by
  have hlength := udpDatagram_length n
  rw [udpDatagram, toBytes_two, toBytes_two] at hlength ⊢
  have hmagic (rest : Packet) : ¬ frameMagic <+: 0x45 :: rest := fun hpre =>
    absurd (List.cons_prefix_cons.mp hpre).1 (by decide)
  refine keepUnderPressure_of_udp (hmagic _) (show internetTransport _ = some (17, 20) from ?_)
  refine internetTransport_ipv4 (by decide) (by decide) ?_
  refine Nat.le_trans ?_ (Nat.le_of_eq hlength.symm)
  exact Nat.le_trans (show 20 ≤ 28 by decide) (Nat.le_add_right 28 n)

/-- A buffer with these bytes read into it. -/
def received (bytes : Packet) (h : bytes.length ≤ 2240) : PacketBuf where
  start := packetHeadroom
  bytes := bytes
  fits := by
    rw [packetCapacity, packetHeadroom]
    omega

/-- A driver whose queue is full. -/
def backlogged (core : Turn.Inner) : Driver where
  core := core
  channel := 0x4000
  incoming := { capacity := 256, queue := List.replicate 256 (received [0x80] (by decide)), closed := false }
  protectedPackets := []
  protectedNotify := false
  queueFullDrops := 0

theorem backlogged_full (core : Turn.Inner) : (backlogged core).incoming.Full :=
  ⟨rfl, Nat.le_of_eq (List.length_replicate).symm⟩

/-- A wrapped packet of up to 2000 bytes can arrive as ChannelData. -/
theorem carried (h : w.packet.bytes.length ≤ 2000) :
    ∃ packet, Carries packet 0x4000 w.packet.bytes := by
  refine ⟨received (channelHeader 0x4000 w.packet.bytes.length ++ w.packet.bytes) ?_, [],
    Nat.zero_le 3, (List.append_nil _).symm⟩
  rw [List.length_append, channelHeader_length]
  omega

def firstState : ObfsState := ⟨0, 0, 0, 0, 0⟩

def noPadding : Draws := ⟨0, 1, fun _ => 0⟩

/-- A datagram with a payload of up to 1500 bytes, wrapped without random padding. -/
theorem datagram_wrapped (cipher : ObfsCipher) {n : ℕ} (hn : n ≤ 1500) :
    ∃ plain w packet, plain.bytes = udpDatagram n ∧
      (wrap cipher (.new .audio 7) firstState plain ⟨0, 0, by decide⟩ noPadding).1 = .ok w ∧
      Carries packet 0x4000 w.packet.bytes := by
  have hlength := udpDatagram_length n
  have htail : tail (.new .audio 7) noPadding = 17 := by decide
  have hadmitted : Admitted (.new .audio 7) (received (udpDatagram n) (by omega)) noPadding := by
    refine ⟨List.ne_nil_of_length_pos ?_, show 24 ≤ 64 by decide, ?_⟩
    · show 0 < (udpDatagram n).length
      omega
    · show 64 + (udpDatagram n).length + tail (.new .audio 7) noPadding ≤ 2304
      omega
  obtain ⟨w, hwrap, _⟩ := wrap_admitted cipher firstState ⟨0, 0, by decide⟩ hadmitted
  have hshort : w.packet.bytes.length ≤ 2000 := by
    rw [wrapped_length hwrap, htail]
    show (udpDatagram n).length + 24 + 17 ≤ 2000
    omega
  obtain ⟨packet, hcarries⟩ := carried hshort
  exact ⟨_, w, packet, rfl, hwrap, hcarries⟩

/-- A datagram of 60 bytes survives. -/
theorem short_datagram_protected :
    ∃ (plain : PacketBuf) (w : Wrapped) (packet : PacketBuf),
      plain.bytes = udpDatagram 32 ∧ keepUnderPressure plain.bytes ∧
      (wrap default (.new .audio 7) firstState plain ⟨0, 0, by decide⟩ noPadding).1 = .ok w ∧
      Carries packet 0x4000 w.packet.bytes ∧
      Protects (backlogged Turn.Inner.freshCore) (processPacket Turn.Inner.zeroDigests
        (Turn.Inner.moment 0 0) (backlogged Turn.Inner.freshCore) packet) w.packet.bytes := by
  obtain ⟨plain, w, packet, hplain, hwrap, hcarries⟩ :=
    datagram_wrapped default (show 32 ≤ 1500 by decide)
  have hlength : plain.bytes.length = 60 := by rw [hplain, udpDatagram_length]
  refine ⟨plain, w, packet, hplain, hplain ▸ udpDatagram_kept 32, hwrap, hcarries, ?_⟩
  refine (wrapped_protected_iff hwrap (by decide) (backlogged_full _) hcarries).1.mpr ?_
  rw [hlength]
  decide

/-- A datagram of 200 bytes is dropped, whatever the keys. -/
theorem long_datagram_dropped :
    ¬ ∃ (P : Stun.Primitives) (env : Turn.Env) (core : Turn.Inner) (cipher : ObfsCipher),
      ∀ (config : ObfsConfig) (s : ObfsState) (plain : PacketBuf) (elapsed : Duration)
        (draws : Draws) (w : Wrapped) (d : Driver) (packet : PacketBuf),
        d.core = core → keepUnderPressure plain.bytes →
        (wrap cipher config s plain elapsed draws).1 = .ok w →
        ValidChannel d.channel → d.incoming.Full → Carries packet d.channel w.packet.bytes →
        Protects d (processPacket P env d packet) w.packet.bytes := by
  rintro ⟨P, env, core, cipher, hclaim⟩
  obtain ⟨plain, w, packet, hplain, hwrap, hcarries⟩ :=
    datagram_wrapped cipher (show 172 ≤ 1500 by decide)
  have hlength : plain.bytes.length = 200 := by rw [hplain, udpDatagram_length]
  have hchannel : ValidChannel (backlogged core).channel :=
    show ValidChannel 0x4000 by decide
  have hprotects := hclaim _ _ plain _ _ w (backlogged core) packet rfl
    (hplain ▸ udpDatagram_kept 172) hwrap hchannel (backlogged_full core) hcarries
  rw [processPacket_wrapped hwrap hchannel (backlogged_full core) hcarries, hlength] at hprotects
  exact absurd hprotects (by decide)

end Csqtt.TurnIngress
