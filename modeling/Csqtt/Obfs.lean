/-
Obfuscation: a packet leaves as the payload of an RTP packet.

The wire keeps 16 bits of the packet count (`sequence`) and 32 bits of the media
clock (`timestamp`); with the stream's `ssrc` they make the nonce.  The ciphers
come from libraries and are parameters, and so are the clock and the draws of the
random generator.  A successful `wrap` reports, beside the packet, the nonce that
the packet was encrypted with.

* `wrap_admitted`, `wrap_refused` — what `wrap` does, in two cases;
* `wrap_written` — what a successful `wrap` leaves in the buffer;
* `durationTicks_toNat` — the clock of the wire is the media clock modulo `2 ^ 32`.
-/
import Csqtt.ByteOrder
import Csqtt.PacketBuf
import Mathlib.Data.Nat.ModEq

open ByteOrder

namespace Csqtt.Obfs

inductive ObfsMode where
  | audio
  | video
  deriving DecidableEq, Repr

structure ObfsConfig where
  paddingMax : ℕ
  ssrc : BitVec 32
  payloadType : BitVec 8
  mode : ObfsMode
  deriving DecidableEq, Repr

/-- `ObfsConfig::new`, with the `ssrc` it draws. -/
def ObfsConfig.new (mode : ObfsMode) (ssrc : BitVec 32) : ObfsConfig :=
  match mode with
  | .audio => { paddingMax := 24, ssrc, payloadType := 111, mode }
  | .video => { paddingMax := 60, ssrc, payloadType := 96, mode }

structure ObfsState where
  count : BitVec 64
  initialTimestamp : BitVec 32
  initialAbsSendTime : BitVec 32
  initialSequence : BitVec 16
  transportSequence : BitVec 16
  deriving DecidableEq, Repr

/-- `[u8; n]`. -/
abbrev Block (n : ℕ) := { bytes : Packet // bytes.length = n }

/-- What the keyed ciphers do.  AWS-LC seals whatever is not too long for it, and a
packet is not. -/
structure ObfsCipher where
  applyKeystream : Block 16 → (data : Packet) → Block data.length
  hmacSha1 : Packet → Block 20
  sealInPlace : Block 12 → Packet → (data : Packet) → Option (Block data.length × Block 16)
  seal_isSome : ∀ nonce aad data, data.length ≤ packetCapacity →
    (sealInPlace nonce aad data).isSome

def Block.zero (n : ℕ) : Block n := ⟨List.replicate n 0, List.length_replicate⟩

/-- A cipher that changes nothing. -/
instance : Inhabited ObfsCipher where
  default :=
    { applyKeystream := fun _ data => ⟨data, rfl⟩
      hmacSha1 := fun _ => Block.zero 20
      sealInPlace := fun _ _ data => some (⟨data, rfl⟩, Block.zero 16)
      seal_isSome := fun _ _ _ _ => rfl }

/-- Bytes, as a block of their own length. -/
def Block.whole (data : Packet) : Block data.length := ⟨data, rfl⟩

/-- `Duration`. -/
structure Duration where
  secs : BitVec 64
  subsecNanos : ℕ
  subsec_lt : subsecNanos < 1000000000

/-- What `random_range(0..padding_max)`, `random_range(0..5)` and `fill_bytes` give. -/
structure Draws where
  padding : ℕ
  marker : ℕ
  fill : ℕ → BitVec 8

structure Wrapped where
  packet : PacketBuf
  nonce : Packet

def ObfsState.next (s : ObfsState) : (BitVec 64 × BitVec 16) × ObfsState :=
  ((s.count, s.transportSequence),
    { s with count := s.count + 1, transportSequence := s.transportSequence + 1 })

def ObfsConfig.initialSequence (s : ObfsState) (count : BitVec 64) : BitVec 16 :=
  s.initialSequence + count.setWidth 16

def rtpClockRate (payloadType : BitVec 8) : BitVec 32 := if payloadType = 96 then 90000 else 48000

def durationTicks (elapsed : Duration) (clockRate : BitVec 32) : BitVec 32 :=
  let rate := clockRate.setWidth 64
  (elapsed.secs * rate + BitVec.ofNat 64 elapsed.subsecNanos * rate / 1000000000).setWidth 32

def nonce (ssrc : BitVec 32) (sequence : BitVec 16) (timestamp : BitVec 32) : Block 12 :=
  ⟨toBytes 4 ssrc.toNat ++ toBytes 2 sequence.toNat ++ [0, 0] ++ toBytes 4 timestamp.toNat, by
    simp only [List.length_append, toBytes_length]
    rfl⟩

def srtpIv (ssrc : BitVec 32) (sequence : BitVec 16) (timestamp : BitVec 32) : Block 16 :=
  ⟨(nonce ssrc sequence timestamp).val ++ [0, 0, 0, 0], by
    rw [List.length_append, (nonce ssrc sequence timestamp).property]
    rfl⟩

/-- Put other bytes in place of the packet's. -/
def overwrite (packet : PacketBuf) (bytes : Block packet.bytes.length) : PacketBuf where
  start := packet.start
  bytes := bytes.val
  fits := by
    rw [bytes.property]
    exact packet.fits

/-- `padding_random`. -/
def Draws.paddingRandom (draws : Draws) (config : ObfsConfig) : ℕ :=
  if config.paddingMax = 0 then 0 else draws.padding

/-- The bytes that follow the payload beside the tag: the padding, and its length. -/
def Draws.paddingBytes (draws : Draws) (config : ObfsConfig) : Packet :=
  (List.range (draws.paddingRandom config)).map draws.fill ++
    [BitVec.ofNat 8 (draws.paddingRandom config + 1)]

/-- `tail`. -/
def tail (config : ObfsConfig) (draws : Draws) : ℕ :=
  draws.paddingRandom config + 1 + if config.mode = .video then 10 else 16

def header (config : ObfsConfig) (marker : ℕ) (sequence : BitVec 16)
    (timestamp absoluteSendTime : BitVec 32) (transportSequence : BitVec 16) : Packet :=
  let second := config.payloadType &&& 0x7f
  [0xb0 ||| 0x20, if config.payloadType = 96 ∧ marker = 0 then second ||| 0x80 else second] ++
    toBytes 2 sequence.toNat ++ toBytes 4 timestamp.toNat ++ toBytes 4 config.ssrc.toNat ++
    toBytes 2 0xbede ++ toBytes 2 2 ++ [0x32] ++ toBytes 3 absoluteSendTime.toNat ++ [0x51] ++
    toBytes 2 transportSequence.toNat ++ [0]

/-- The end of `wrap`, once it knows what to write around the payload. -/
def finish (packet : PacketBuf) (header : Packet) (body : Block packet.bytes.length)
    (tail : Packet) (nonce : Packet) : Except String Wrapped :=
  match (overwrite packet body).prepend header with
  | none => .error "packet prepend exceeds headroom"
  | some packet =>
    match packet.extendTail tail with
    | none => .error "packet tail exceeds capacity"
    | some packet => .ok ⟨packet, nonce⟩

/-- `wrap` after `state.next`, with what that returned. -/
def wrapNext (cipher : ObfsCipher) (config : ObfsConfig) (s : ObfsState) (count : BitVec 64)
    (transportSequence : BitVec 16) (packet : PacketBuf) (elapsed : Duration) (draws : Draws) :
    Except String Wrapped :=
  let sequence := ObfsConfig.initialSequence s count
  let timestamp := s.initialTimestamp + durationTicks elapsed (rtpClockRate config.payloadType)
  if packet.start < 24 ∨ packetCapacity < packet.stop + tail config draws then
    .error "obfs: packet exceeds buffer capacity"
  else
    let absoluteSendTime := (s.initialAbsSendTime + durationTicks elapsed 262144) &&& 0x00ffffff
    let header := header config draws.marker sequence timestamp absoluteSendTime transportSequence
    let padding := draws.paddingBytes config
    match config.mode with
    | .video =>
      let iv := srtpIv config.ssrc sequence timestamp
      let body := cipher.applyKeystream iv packet.bytes
      let tag := (cipher.hmacSha1 (header ++ body.val ++ padding)).val.take 10
      finish packet header body (padding ++ tag) iv.val
    | .audio =>
      let nonce := nonce config.ssrc sequence timestamp
      match cipher.sealInPlace nonce header packet.bytes with
      | none => .error "obfs: chacha encrypt"
      | some (body, tag) => finish packet header body (tag.val ++ padding) nonce.val

def wrap (cipher : ObfsCipher) (config : ObfsConfig) (s : ObfsState) (packet : PacketBuf)
    (elapsed : Duration) (draws : Draws) : Except String Wrapped × ObfsState :=
  if packet.bytes = [] then (.error "obfs: empty payload", s)
  else
    let ((count, transportSequence), t) := s.next
    (wrapNext cipher config t count transportSequence packet elapsed draws, t)

/-! ### What a call does -/

/-- The call whose packet has a payload, and room for what goes around it. -/
def Admitted (config : ObfsConfig) (packet : PacketBuf) (draws : Draws) : Prop :=
  packet.bytes ≠ [] ∧ 24 ≤ packet.start ∧ packet.stop + tail config draws ≤ packetCapacity

/-- The nonce, or the IV, of the `count`-th packet. -/
def nonceOf (config : ObfsConfig) (s : ObfsState) (count : BitVec 64) (elapsed : Duration) :
    Packet :=
  let sequence := ObfsConfig.initialSequence s count
  let timestamp := s.initialTimestamp + durationTicks elapsed (rtpClockRate config.payloadType)
  match config.mode with
  | .video => (srtpIv config.ssrc sequence timestamp).val
  | .audio => (nonce config.ssrc sequence timestamp).val

theorem header_length (config : ObfsConfig) (marker : ℕ) (sequence : BitVec 16)
    (timestamp absoluteSendTime : BitVec 32) (transportSequence : BitVec 16) :
    (header config marker sequence timestamp absoluteSendTime transportSequence).length = 24 := by
  simp only [header, List.length_append, toBytes_length]
  rfl

theorem paddingBytes_length (config : ObfsConfig) (draws : Draws) :
    (draws.paddingBytes config).length = draws.paddingRandom config + 1 := by
  rw [Draws.paddingBytes, List.length_append, List.length_map, List.length_range]
  rfl

theorem finish_ok {packet : PacketBuf} {header tail : Packet} (body : Block packet.bytes.length)
    (nonce : Packet) (hheader : header.length ≤ packet.start)
    (htail : packet.stop + tail.length ≤ packetCapacity) :
    ∃ w, finish packet header body tail nonce = .ok w ∧ w.nonce = nonce := by
  obtain ⟨framed, hframed⟩ : ∃ framed, (overwrite packet body).prepend header = some framed :=
    ⟨_, dif_pos hheader⟩
  have hstop : framed.stop = packet.stop := by
    rw [PacketBuf.prepend_stop hframed]
    show packet.start + body.val.length = packet.start + packet.bytes.length
    rw [body.property]
  obtain ⟨wrapped, hwrapped⟩ : ∃ wrapped, framed.extendTail tail = some wrapped :=
    ⟨_, dif_pos (by rw [hstop]; exact htail)⟩
  refine ⟨⟨wrapped, nonce⟩, ?_, rfl⟩
  rw [finish, hframed]
  simp only [hwrapped]

theorem wrap_admitted (cipher : ObfsCipher) {config : ObfsConfig} (s : ObfsState)
    {packet : PacketBuf} (elapsed : Duration) {draws : Draws} (h : Admitted config packet draws) :
    ∃ w, (wrap cipher config s packet elapsed draws).1 = .ok w ∧
      w.nonce = nonceOf config s s.count elapsed := by
  obtain ⟨hpayload, hstart, hstop⟩ := h
  rw [wrap, if_neg hpayload]
  show ∃ w, wrapNext cipher config s.next.2 s.count s.transportSequence packet elapsed draws =
    .ok w ∧ w.nonce = nonceOf config s s.count elapsed
  have hroom : ¬ (packet.start < 24 ∨ packetCapacity < packet.stop + tail config draws) := by omega
  rw [tail] at hstop
  -- the tail is as long as was checked for, whichever way it is put together
  rcases hmode : config.mode with _ | _
  · rw [hmode, if_neg (by decide)] at hstop
    simp only [wrapNext, if_neg hroom, hmode, nonceOf]
    have hlength : packet.bytes.length ≤ packetCapacity := by
      have hfits := packet.fits
      omega
    obtain ⟨⟨body, tag⟩, hseal⟩ :=
      Option.isSome_iff_exists.mp (cipher.seal_isSome (nonce _ _ _) (header _ _ _ _ _ _) _ hlength)
    rw [hseal]
    refine finish_ok body _ ?_ ?_
    · rw [header_length]
      exact hstart
    · rw [List.length_append, tag.property, paddingBytes_length]
      omega
  · rw [hmode, if_pos rfl] at hstop
    simp only [wrapNext, if_neg hroom, hmode, nonceOf]
    refine finish_ok _ _ ?_ ?_
    · rw [header_length]
      exact hstart
    · rw [List.length_append, List.length_take, (cipher.hmacSha1 _).property, paddingBytes_length]
      omega

theorem wrap_refused (cipher : ObfsCipher) {config : ObfsConfig} (s : ObfsState)
    {packet : PacketBuf} (elapsed : Duration) {draws : Draws} (h : ¬ Admitted config packet draws)
    (w : Wrapped) : (wrap cipher config s packet elapsed draws).1 ≠ .ok w := by
  rw [wrap]
  split_ifs with hpayload
  · exact fun h => nomatch h
  · show wrapNext cipher config s.next.2 s.count s.transportSequence packet elapsed draws ≠ .ok w
    rw [wrapNext, if_pos (by by_contra hroom; exact h ⟨hpayload, by omega, by omega⟩)]
    exact fun h => nomatch h

/-- Only a call with a payload counts. -/
theorem wrap_state (cipher : ObfsCipher) (config : ObfsConfig) (s : ObfsState)
    (packet : PacketBuf) (elapsed : Duration) (draws : Draws) :
    (wrap cipher config s packet elapsed draws).2 = if packet.bytes = [] then s else s.next.2 := by
  rw [wrap]
  split_ifs with hpayload
  · rfl
  · rfl

/-! ### What a success leaves -/

/-- The header that `wrap` writes. -/
def headerOf (config : ObfsConfig) (s : ObfsState) (elapsed : Duration) (draws : Draws) : Packet :=
  header config draws.marker (ObfsConfig.initialSequence s s.count)
    (s.initialTimestamp + durationTicks elapsed (rtpClockRate config.payloadType))
    ((s.initialAbsSendTime + durationTicks elapsed 262144) &&& 0x00ffffff) s.transportSequence

/-- `body` is the payload after encryption, and `trailer` what follows it: the padding and
the tag in one order or the other. -/
def Encrypted (cipher : ObfsCipher) (config : ObfsConfig) (s : ObfsState) (payload : Packet)
    (elapsed : Duration) (draws : Draws) (body trailer : Packet) : Prop :=
  let sequence := ObfsConfig.initialSequence s s.count
  let timestamp := s.initialTimestamp + durationTicks elapsed (rtpClockRate config.payloadType)
  let header := headerOf config s elapsed draws
  let padding := draws.paddingBytes config
  match config.mode with
  | .video =>
    body = (cipher.applyKeystream (srtpIv config.ssrc sequence timestamp) payload).val ∧
      trailer = padding ++ (cipher.hmacSha1 (header ++ body ++ padding)).val.take 10
  | .audio =>
    ∃ (sealed : Block payload.length) (tag : Block 16),
      cipher.sealInPlace (nonce config.ssrc sequence timestamp) header payload =
        some (sealed, tag) ∧ body = sealed.val ∧ trailer = tag.val ++ padding

theorem finish_written {packet : PacketBuf} {header tail nonce : Packet}
    {body : Block packet.bytes.length} {w : Wrapped}
    (h : finish packet header body tail nonce = .ok w) :
    w.packet.start + header.length = packet.start ∧
      w.packet.bytes = header ++ body.val ++ tail := by
  rw [finish] at h
  split at h
  · exact nomatch h
  next framed hframed =>
    split at h
    · exact nomatch h
    next extended hextended =>
      have hstart := PacketBuf.prepend_start hframed
      have hbytes := PacketBuf.prepend_bytes hframed
      obtain ⟨hstart', hbytes'⟩ := PacketBuf.extendTail_eq_some hextended
      rw [← Except.ok.inj h]
      refine ⟨?_, ?_⟩
      · show extended.start + header.length = packet.start
        rw [hstart', hstart]
        rfl
      · show extended.bytes = _
        rw [hbytes', hbytes]
        rfl

theorem wrap_written {cipher : ObfsCipher} {config : ObfsConfig} {s : ObfsState}
    {packet : PacketBuf} {elapsed : Duration} {draws : Draws} {w : Wrapped}
    (h : (wrap cipher config s packet elapsed draws).1 = .ok w) :
    Admitted config packet draws ∧ w.packet.start + 24 = packet.start ∧
      ∃ body trailer, body.length = packet.bytes.length ∧
        Encrypted cipher config s packet.bytes elapsed draws body trailer ∧
        w.packet.bytes = headerOf config s elapsed draws ++ body ++ trailer := by
  have hadmitted : Admitted config packet draws := by
    by_contra hrefused
    exact wrap_refused cipher s elapsed hrefused w h
  obtain ⟨hpayload, hstart, hstop⟩ := id hadmitted
  refine ⟨hadmitted, ?_⟩
  rw [wrap, if_neg hpayload] at h
  have h : wrapNext cipher config s.next.2 s.count s.transportSequence packet elapsed draws =
    .ok w := h
  have hroom : ¬ (packet.start < 24 ∨ packetCapacity < packet.stop + tail config draws) := by omega
  simp only [wrapNext, if_neg hroom] at h
  rcases hmode : config.mode with _ | _
  · rw [hmode] at h
    simp only at h
    split at h
    · exact nomatch h
    next sealed tag hseal =>
      obtain ⟨hfirst, hbytes⟩ := finish_written h
      rw [header_length] at hfirst
      refine ⟨hfirst, sealed.val, tag.val ++ draws.paddingBytes config, sealed.property, ?_, hbytes⟩
      simp only [Encrypted, hmode]
      exact ⟨sealed, tag, hseal, rfl, rfl⟩
  · rw [hmode] at h
    obtain ⟨hfirst, hbytes⟩ := finish_written h
    rw [header_length] at hfirst
    refine ⟨hfirst, _, _, (cipher.applyKeystream _ packet.bytes).property, ?_, hbytes⟩
    simp only [Encrypted, hmode]
    exact ⟨rfl, rfl⟩

theorem Encrypted.trailer_length {cipher : ObfsCipher} {config : ObfsConfig} {s : ObfsState}
    {payload : Packet} {elapsed : Duration} {draws : Draws} {body trailer : Packet}
    (h : Encrypted cipher config s payload elapsed draws body trailer) :
    trailer.length = tail config draws := by
  rw [tail]
  rcases hmode : config.mode with _ | _
  · simp only [Encrypted, hmode] at h
    obtain ⟨_, tag, _, _, rfl⟩ := h
    rw [List.length_append, tag.property, paddingBytes_length, if_neg (by decide)]
    omega
  · simp only [Encrypted, hmode] at h
    obtain ⟨_, rfl⟩ := h
    rw [List.length_append, List.length_take, (cipher.hmacSha1 _).property, paddingBytes_length,
      if_pos rfl]
    omega

/-! ### The clock -/

def Duration.nanos (d : Duration) : ℕ := d.secs.toNat * 1000000000 + d.subsecNanos

/-- The ticks of a clock since the start, before the wire cuts them. -/
def Duration.ticks (d : Duration) (clockRate : BitVec 32) : ℕ :=
  d.nanos * clockRate.toNat / 1000000000

theorem Duration.ticks_mono {d e : Duration} (h : d.nanos ≤ e.nanos) (clockRate : BitVec 32) :
    d.ticks clockRate ≤ e.ticks clockRate :=
  Nat.div_le_div_right (Nat.mul_le_mul_right _ h)

theorem durationTicks_toNat (d : Duration) (clockRate : BitVec 32) :
    (durationTicks d clockRate).toNat = d.ticks clockRate % 2 ^ 32 := by
  have hrate : (clockRate.setWidth 64).toNat = clockRate.toNat := by
    rw [BitVec.toNat_setWidth]
    exact Nat.mod_eq_of_lt (Nat.lt_trans clockRate.isLt (by decide))
  -- the part below a second does not overflow
  have hbound : d.subsecNanos * clockRate.toNat < 2 ^ 64 := by
    calc d.subsecNanos * clockRate.toNat < 1000000000 * 2 ^ 32 :=
          Nat.mul_lt_mul'' d.subsec_lt clockRate.isLt
      _ ≤ 2 ^ 64 := by decide
  have hnanos : (BitVec.ofNat 64 d.subsecNanos).toNat = d.subsecNanos := by
    rw [BitVec.toNat_ofNat]
    exact Nat.mod_eq_of_lt (Nat.lt_trans d.subsec_lt (by decide))
  have hpart : (BitVec.ofNat 64 d.subsecNanos * clockRate.setWidth 64 / 1000000000).toNat =
      d.subsecNanos * clockRate.toNat / 1000000000 := by
    rw [BitVec.toNat_udiv, BitVec.toNat_mul, hrate, hnanos, Nat.mod_eq_of_lt hbound]
    rfl
  have hticks : d.ticks clockRate =
      d.secs.toNat * clockRate.toNat + d.subsecNanos * clockRate.toNat / 1000000000 := by
    rw [Duration.ticks, Duration.nanos, Nat.add_mul, Nat.mul_right_comm, Nat.add_comm,
      Nat.add_mul_div_right _ _ (by decide), Nat.add_comm]
  rw [durationTicks, BitVec.toNat_setWidth, BitVec.toNat_add, BitVec.toNat_mul, hrate, hpart,
    hticks, Nat.mod_mod_of_dvd _ (by decide), Nat.add_mod, Nat.mod_mod_of_dvd _ (by decide),
    ← Nat.add_mod]

end Csqtt.Obfs
