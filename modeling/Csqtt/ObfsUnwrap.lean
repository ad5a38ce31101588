/-
Reading an obfuscated packet.

`unwrap` finds the end of the RTP header from its extension words and the end of the
payload from the last byte of the padding.  In the video mode the tag is the last thing
on the wire, in the audio mode the padding is.  The libraries' `open` is a parameter
like their other ciphers, and `Lawful` is what they promise of it.

* `unwrap_wrap` — what `wrap` has written, `unwrap` restores.
-/
import Csqtt.Obfs

open ByteOrder

namespace Csqtt.Obfs

/-- The ciphers with `open_in_place_separate_tag`. -/
structure OpeningCipher extends ObfsCipher where
  openInPlace : Block 12 → Packet → (data : Packet) → Block 16 → Option (Block data.length)

/-- Decryption inverts encryption. -/
structure OpeningCipher.Lawful (c : OpeningCipher) : Prop where
  keystream : ∀ iv data, (c.applyKeystream iv (c.applyKeystream iv data).val).val = data
  open_seal : ∀ nonce aad data sealed tag, c.sealInPlace nonce aad data = some (sealed, tag) →
    ∃ opened, c.openInPlace nonce aad sealed.val tag = some opened ∧ opened.val = data

/-- `verify_truncated_left`. -/
def verifyTruncatedLeft (c : ObfsCipher) (data tag : Packet) : Bool :=
  tag ≠ [] && tag.length ≤ 20 && (c.hmacSha1 data).val.take tag.length = tag

/-- `matches!(payload_type, 111 | 96 | 6)`. -/
def SupportedType (payloadType : BitVec 8) : Prop :=
  payloadType = 111 ∨ payloadType = 96 ∨ payloadType = 6

instance (payloadType : BitVec 8) : Decidable (SupportedType payloadType) :=
  inferInstanceAs (Decidable (_ ∨ _ ∨ _))

def isRtpPacket (wire : Packet) : Bool :=
  13 ≤ wire.length && wire.getD 0 0 >>> 6 = 2 && SupportedType (wire.getD 1 0 &&& 0x7f)

structure RtpHeader where
  payloadType : BitVec 8
  sequence : BitVec 16
  timestamp : BitVec 32
  ssrc : BitVec 32
  /-- `header_len`. -/
  length : ℕ
  padded : Bool

/-- `header_len`, with the extension. -/
def headerLength (wire : Packet) : Except String ℕ :=
  if wire.getD 0 0 &&& 0x10 ≠ 0 then
    if wire.length < 16 then .error "obfs: packet too short for extension header"
    else .ok (12 + (4 + ofBytes ((wire.drop 14).take 2) * 4))
  else .ok 12

/-- The checks of `unwrap` that do not depend on the mode. -/
def readHeader (wire : Packet) : Except String RtpHeader :=
  if wire.length < 13 ∨ wire.getD 0 0 >>> 6 ≠ 2 then .error "obfs: not RTP v2"
  else
    let payloadType := wire.getD 1 0 &&& 0x7f
    if ¬ SupportedType payloadType then
      .error s!"obfs: unsupported payload type {payloadType.toNat}"
    else
      match headerLength wire with
      | .error e => .error e
      | .ok length =>
        if wire.length < length then .error "obfs: packet too short for calculated RTP header"
        else
          .ok
            { payloadType
              sequence := BitVec.ofNat 16 (ofBytes ((wire.drop 2).take 2))
              timestamp := BitVec.ofNat 32 (ofBytes ((wire.drop 4).take 4))
              ssrc := BitVec.ofNat 32 (ofBytes ((wire.drop 8).take 4))
              length
              padded := wire.getD 0 0 &&& 0x20 ≠ 0 }

/-- What precedes the padding, whose length is its last byte; that length if it is
impossible. -/
def unpadded (header : RtpHeader) (bytes : Packet) : Except ℕ Packet :=
  if header.padded then
    let padding := (bytes.getLastD 0).toNat
    if padding = 0 ∨ bytes.length - header.length < padding then .error padding
    else .ok (bytes.take (bytes.length - padding))
  else .ok bytes

/-- The end of `unwrap`: the range of the payload. -/
def opened (packet : PacketBuf) (header : RtpHeader) (payload : Packet) :
    Except String (BitVec 16 × PacketBuf) :=
  match PacketBuf.setRange (packet.start + header.length) payload with
  | none => .error "packet range is invalid"
  | some packet => .ok (header.sequence, packet)

/-- What the payload is when the tag is right. -/
def openBytes (c : OpeningCipher) (nonce : Block 12) (aad data tag : Packet) : Option Packet :=
  if htag : tag.length = 16 then (c.openInPlace nonce aad data ⟨tag, htag⟩).map Subtype.val
  else none

/-- `unwrap` in the video mode. -/
def unwrapVideo (c : OpeningCipher) (packet : PacketBuf) (header : RtpHeader) :
    Except String (BitVec 16 × PacketBuf) :=
  let wire := packet.bytes
  if wire.length < header.length + 10 then .error "obfs srtp: missing authentication tag"
  else
    let signed := wire.take (wire.length - 10)
    if ¬ verifyTruncatedLeft c.toObfsCipher signed (wire.drop (wire.length - 10)) then
      .error "obfs srtp: authentication failed"
    else
      match unpadded header signed with
      | .error padding => .error s!"obfs srtp: invalid padding length {padding}"
      | .ok bytes =>
        let iv := srtpIv header.ssrc header.sequence header.timestamp
        opened packet header (c.applyKeystream iv (bytes.drop header.length)).val

/-- `unwrap` in the audio mode. -/
def unwrapAudio (c : OpeningCipher) (packet : PacketBuf) (header : RtpHeader) :
    Except String (BitVec 16 × PacketBuf) :=
  if header.payloadType ≠ 111 then .error "obfs audio: expected payload type 111"
  else
    match unpadded header packet.bytes with
    | .error padding => .error s!"obfs: invalid padding length {padding}"
    | .ok bytes =>
      if bytes.length ≤ header.length + 16 then
        .error "obfs: empty encrypted payload or missing tag"
      else
        let nonce := nonce header.ssrc header.sequence header.timestamp
        let sealed := (bytes.take (bytes.length - 16)).drop header.length
        match openBytes c nonce (bytes.take header.length) sealed
            (bytes.drop (bytes.length - 16)) with
        | none => .error "obfs: auth (ChaCha20-Poly1305)"
        | some payload => opened packet header payload

def unwrap (c : OpeningCipher) (packet : PacketBuf) (mode : ObfsMode) :
    Except String (BitVec 16 × PacketBuf) :=
  match readHeader packet.bytes with
  | .error e => .error e
  | .ok header =>
    match mode with
    | .video => unwrapVideo c packet header
    | .audio => unwrapAudio c packet header

/-! ### The header -/

section Header

variable (config : ObfsConfig) (marker : ℕ) (sequence : BitVec 16)
  (timestamp absoluteSendTime : BitVec 32) (transportSequence : BitVec 16) (rest : Packet)

/-- The second byte of the header. -/
def secondByte (config : ObfsConfig) (marker : ℕ) : BitVec 8 :=
  if config.payloadType = 96 ∧ marker = 0 then config.payloadType &&& 0x7f ||| 0x80
  else config.payloadType &&& 0x7f

theorem secondByte_new (mode : ObfsMode) (ssrc : BitVec 32) (marker : ℕ) :
    secondByte (.new mode ssrc) marker &&& 0x7f = (ObfsConfig.new mode ssrc).payloadType := by
  cases mode with
  | audio =>
    have hother : ¬ ((ObfsConfig.new .audio ssrc).payloadType = 96 ∧ marker = 0) := fun h =>
      absurd h.1 (show ¬ (111 : BitVec 8) = 96 by decide)
    rw [secondByte, if_neg hother]
    show (111 : BitVec 8) &&& 0x7f &&& 0x7f = 111
    decide
  | video =>
    rw [secondByte]
    split_ifs
    · show ((96 : BitVec 8) &&& 0x7f ||| 0x80) &&& 0x7f = 96
      decide
    · show (96 : BitVec 8) &&& 0x7f &&& 0x7f = 96
      decide

/-- What the reader looks at in the header that `wrap` has written. -/
theorem header_reads :
    let wire := header config marker sequence timestamp absoluteSendTime transportSequence ++ rest
    wire.getD 0 0 = 0xb0 ∧ wire.getD 1 0 = secondByte config marker ∧
      (wire.drop 2).take 2 = toBytes 2 sequence.toNat ∧
      (wire.drop 4).take 4 = toBytes 4 timestamp.toNat ∧
      (wire.drop 8).take 4 = toBytes 4 config.ssrc.toNat ∧ (wire.drop 14).take 2 = [0, 2] :=
  ⟨rfl, rfl, rfl, rfl, rfl, rfl⟩

end Header

/-- The extension that `wrap` writes has two words. -/
theorem readHeader_header {mode : ObfsMode} {ssrc : BitVec 32} (marker : ℕ) (sequence : BitVec 16)
    (timestamp absoluteSendTime : BitVec 32) (transportSequence : BitVec 16) (rest : Packet) :
    readHeader (header (.new mode ssrc) marker sequence timestamp absoluteSendTime
        transportSequence ++ rest) =
      .ok
        { payloadType := (ObfsConfig.new mode ssrc).payloadType
          sequence, timestamp, ssrc, length := 24, padded := true } := by
  obtain ⟨hfirst, hsecond, hsequence, htimestamp, hssrc, hwords⟩ := header_reads (.new mode ssrc)
    marker sequence timestamp absoluteSendTime transportSequence rest
  have hlength : (header (.new mode ssrc) marker sequence timestamp absoluteSendTime
      transportSequence ++ rest).length = 24 + rest.length := by
    rw [List.length_append, header_length]
  have hssrc' : (ObfsConfig.new mode ssrc).ssrc = ssrc := by cases mode <;> rfl
  have hsupported : SupportedType (ObfsConfig.new mode ssrc).payloadType := by
    cases mode with
    | audio => exact .inl rfl
    | video => exact .inr (.inl rfl)
  generalize header (.new mode ssrc) marker sequence timestamp absoluteSendTime
    transportSequence ++ rest = wire at *
  have hv2 : ¬ (wire.length < 13 ∨ wire.getD 0 0 >>> 6 ≠ 2) := by
    rw [hfirst, hlength]
    rintro (hshort | hversion)
    · omega
    · exact hversion (by decide)
  have hend : headerLength wire = .ok 24 := by
    rw [headerLength, hfirst, if_pos (by decide), if_neg (by omega), hwords]
    rfl
  rw [readHeader, if_neg hv2, hsecond, secondByte_new]
  simp only [if_neg (not_not.mpr hsupported), hend]
  rw [if_neg (by omega), hsequence, htimestamp, hssrc, hfirst, hssrc',
    ofBytes_toBytes_word _ (by norm_num), ofBytes_toBytes_word _ (by norm_num),
    ofBytes_toBytes_word _ (by norm_num)]
  rfl

/-- What the reader makes of the header that `wrap` has written. -/
def rtpHeaderOf (mode : ObfsMode) (ssrc : BitVec 32) (s : ObfsState) (elapsed : Duration) :
    RtpHeader :=
  let config := ObfsConfig.new mode ssrc
  { payloadType := config.payloadType
    sequence := ObfsConfig.initialSequence s s.count
    timestamp := s.initialTimestamp + durationTicks elapsed (rtpClockRate config.payloadType)
    ssrc
    length := 24
    padded := true }

theorem readHeader_headerOf (mode : ObfsMode) (ssrc : BitVec 32) (s : ObfsState)
    (elapsed : Duration) (draws : Draws) (rest : Packet) :
    readHeader (headerOf (.new mode ssrc) s elapsed draws ++ rest) =
      .ok (rtpHeaderOf mode ssrc s elapsed) :=
  readHeader_header draws.marker _ _ _ _ rest

theorem isRtpPacket_headerOf (mode : ObfsMode) (ssrc : BitVec 32) (s : ObfsState)
    (elapsed : Duration) (draws : Draws) (rest : Packet) :
    isRtpPacket (headerOf (.new mode ssrc) s elapsed draws ++ rest) := by
  obtain ⟨hfirst, hsecond, _⟩ := header_reads (.new mode ssrc) draws.marker
    (ObfsConfig.initialSequence s s.count)
    (s.initialTimestamp + durationTicks elapsed (rtpClockRate (ObfsConfig.new mode ssrc).payloadType))
    ((s.initialAbsSendTime + durationTicks elapsed 262144) &&& 0x00ffffff) s.transportSequence rest
  have hlength : 13 ≤ (headerOf (.new mode ssrc) s elapsed draws ++ rest).length := by
    rw [List.length_append, headerOf, header_length]
    omega
  have hsupported : SupportedType (ObfsConfig.new mode ssrc).payloadType := by
    cases mode with
    | audio => exact .inl rfl
    | video => exact .inr (.inl rfl)
  rw [isRtpPacket, decide_eq_true hlength, headerOf, hfirst, hsecond, secondByte_new,
    decide_eq_true hsupported]
  rfl

/-! ### The round trip -/

variable {c : OpeningCipher} {config : ObfsConfig} {s : ObfsState} {packet : PacketBuf}
  {elapsed : Duration} {draws : Draws} {w : Wrapped}

theorem openBytes_seal (hlaw : c.Lawful) {nonce : Block 12} {aad data : Packet}
    {sealed : Block data.length} {tag : Block 16}
    (h : c.sealInPlace nonce aad data = some (sealed, tag)) :
    openBytes c nonce aad sealed.val tag.val = some data := by
  obtain ⟨payload, hopen, hpayload⟩ := hlaw.open_seal nonce aad data sealed tag h
  rw [openBytes, dif_pos tag.property, hopen, Option.map_some, hpayload]

theorem verifyTruncatedLeft_own (c : ObfsCipher) (data : Packet) :
    verifyTruncatedLeft c data ((c.hmacSha1 data).val.take 10) := by
  have hlength : ((c.hmacSha1 data).val.take 10).length = 10 := by
    rw [List.length_take, (c.hmacSha1 data).property]
    rfl
  have hne : (c.hmacSha1 data).val.take 10 ≠ [] := List.ne_nil_of_length_pos (by omega)
  rw [verifyTruncatedLeft, hlength]
  simp [hne]

/-- The last byte tells where the padding starts. -/
theorem unpadded_paddingBytes {header : RtpHeader} (hpadded : header.padded) {bytes : Packet}
    (hbytes : header.length ≤ bytes.length) (hshort : draws.paddingRandom config + 1 < 256) :
    unpadded header (bytes ++ draws.paddingBytes config) = .ok bytes := by
  have hlast : (bytes ++ draws.paddingBytes config).getLastD 0 =
      BitVec.ofNat 8 (draws.paddingRandom config + 1) := by
    rw [Draws.paddingBytes, ← List.append_assoc]
    exact List.getLastD_concat
  have hcount : (BitVec.ofNat 8 (draws.paddingRandom config + 1)).toNat =
      draws.paddingRandom config + 1 := by
    rw [BitVec.toNat_ofNat]
    exact Nat.mod_eq_of_lt hshort
  have hlength : (bytes ++ draws.paddingBytes config).length =
      bytes.length + (draws.paddingRandom config + 1) := by
    rw [List.length_append, paddingBytes_length]
  rw [unpadded, if_pos hpadded, hlast, hcount, hlength]
  simp only
  rw [if_neg (by omega), Nat.add_sub_cancel, List.take_left' rfl]

theorem opened_of_start {header : RtpHeader} {wrapped : PacketBuf}
    (hstart : wrapped.start + header.length = packet.start) :
    opened wrapped header packet.bytes = .ok (header.sequence, packet) := by
  rw [opened, PacketBuf.setRange, hstart, dif_pos packet.fits]

/-- The padding of a stream fits its length byte. -/
theorem paddingRandom_lt {mode : ObfsMode} {ssrc : BitVec 32}
    (h : draws.padding < (ObfsConfig.new mode ssrc).paddingMax) :
    draws.paddingRandom (.new mode ssrc) + 1 < 256 := by
  have hmax : (ObfsConfig.new mode ssrc).paddingMax ≤ 60 := by
    cases mode with
    | audio => exact (show 24 ≤ 60 by decide)
    | video => exact Nat.le_refl 60
  rw [Draws.paddingRandom]
  split_ifs
  · decide
  · omega

/-- The tag lies at the end, behind the padding. -/
theorem unwrapVideo_restores (hlaw : c.Lawful) {header : RtpHeader} {wrapped : PacketBuf}
    {front : Packet} (hfront : front.length = header.length) (hpadded : header.padded)
    (hstart : wrapped.start + header.length = packet.start)
    (hshort : draws.paddingRandom config + 1 < 256)
    (hbytes : wrapped.bytes = front ++ (c.applyKeystream (srtpIv header.ssrc header.sequence
      header.timestamp) packet.bytes).val ++ draws.paddingBytes config ++
        (c.hmacSha1 (front ++ (c.applyKeystream (srtpIv header.ssrc header.sequence
          header.timestamp) packet.bytes).val ++ draws.paddingBytes config)).val.take 10) :
    unwrapVideo c wrapped header = .ok (header.sequence, packet) := by
  set body := c.applyKeystream (srtpIv header.ssrc header.sequence header.timestamp) packet.bytes
    with hbody
  set signed := front ++ body.val ++ draws.paddingBytes config with hsigned
  have htag : ((c.hmacSha1 signed).val.take 10).length = 10 := by
    rw [List.length_take, (c.hmacSha1 signed).property]
    rfl
  have hlength : wrapped.bytes.length = signed.length + 10 := by
    rw [hbytes, List.length_append, htag]
  have hlong : header.length ≤ signed.length := by
    rw [hsigned, List.length_append, List.length_append, hfront]
    omega
  have htake : wrapped.bytes.take (wrapped.bytes.length - 10) = signed := by
    rw [hlength, Nat.add_sub_cancel, hbytes, List.take_left' rfl]
  have hdrop : wrapped.bytes.drop (wrapped.bytes.length - 10) =
      (c.hmacSha1 signed).val.take 10 := by
    rw [hlength, Nat.add_sub_cancel, hbytes, List.drop_left' rfl]
  have hpayload : unpadded header signed = .ok (front ++ body.val) :=
    unpadded_paddingBytes hpadded (by rw [List.length_append]; omega) hshort
  have hverified := verifyTruncatedLeft_own c.toObfsCipher signed
  have hclear : (c.applyKeystream (srtpIv header.ssrc header.sequence header.timestamp)
      ((front ++ body.val).drop header.length)).val = packet.bytes := by
    rw [List.drop_left' hfront, hbody]
    exact hlaw.keystream _ _
  simp only [unwrapVideo]
  rw [if_neg (by omega), htake, hdrop, if_neg (not_not.mpr hverified), hpayload]
  simp only [hclear]
  exact opened_of_start hstart

/-- The padding lies at the end, behind the tag. -/
theorem unwrapAudio_restores (hlaw : c.Lawful) {header : RtpHeader} {wrapped : PacketBuf}
    {front : Packet} (htype : header.payloadType = 111) (hfront : front.length = header.length)
    (hpadded : header.padded) (hstart : wrapped.start + header.length = packet.start)
    (hshort : draws.paddingRandom config + 1 < 256) (hpacket : packet.bytes ≠ [])
    {sealed : Block packet.bytes.length} {tag : Block 16}
    (hseal : c.sealInPlace (nonce header.ssrc header.sequence header.timestamp) front
      packet.bytes = some (sealed, tag))
    (hbytes : wrapped.bytes = front ++ sealed.val ++ tag.val ++ draws.paddingBytes config) :
    unwrapAudio c wrapped header = .ok (header.sequence, packet) := by
  set bytes := front ++ sealed.val ++ tag.val with hdef
  have hpositive : 0 < packet.bytes.length := List.length_pos_of_ne_nil hpacket
  have hinner : (front ++ sealed.val).length = header.length + packet.bytes.length := by
    rw [List.length_append, hfront, sealed.property]
  have hlength : bytes.length = (front ++ sealed.val).length + 16 := by
    rw [hdef, List.length_append, tag.property]
  have hpayload : unpadded header wrapped.bytes = .ok bytes := by
    rw [hbytes]
    exact unpadded_paddingBytes hpadded (by omega) hshort
  have htake : bytes.take (bytes.length - 16) = front ++ sealed.val := by
    rw [hlength, Nat.add_sub_cancel, hdef, List.take_left' rfl]
  have hdrop : bytes.drop (bytes.length - 16) = tag.val := by
    rw [hlength, Nat.add_sub_cancel, hdef, List.drop_left' rfl]
  have hfirst : bytes.take header.length = front := by
    rw [hdef, List.append_assoc, List.take_left' hfront]
  rw [unwrapAudio, if_neg (not_not.mpr htype), hpayload]
  simp only
  rw [if_neg (by omega), htake, hdrop, hfirst, List.drop_left' hfront, openBytes_seal hlaw hseal]
  exact opened_of_start hstart

/-- **The obfuscation is undone.**  Whatever `wrap` succeeds on is an RTP packet, and
`unwrap` in the same mode gives the packet back, with the sequence number that was written. -/
theorem unwrap_wrap (hlaw : c.Lawful) {mode : ObfsMode} {ssrc : BitVec 32}
    (hdraws : draws.padding < (ObfsConfig.new mode ssrc).paddingMax)
    (h : (wrap c.toObfsCipher (.new mode ssrc) s packet elapsed draws).1 = .ok w) :
    isRtpPacket w.packet.bytes ∧
      (w.packet.bytes.drop 2).take 2 = toBytes 2 (ObfsConfig.initialSequence s s.count).toNat ∧
      unwrap c w.packet mode = .ok (ObfsConfig.initialSequence s s.count, packet) := by
  obtain ⟨⟨hpacket, _, _⟩, hstart, body, trailer, _, hencrypted, hbytes⟩ := wrap_written h
  have hshort := paddingRandom_lt hdraws
  have hfront : (headerOf (.new mode ssrc) s elapsed draws).length =
    (rtpHeaderOf mode ssrc s elapsed).length := header_length ..
  rw [List.append_assoc] at hbytes
  have hsequence : (w.packet.bytes.drop 2).take 2 =
      toBytes 2 (ObfsConfig.initialSequence s s.count).toNat := by
    rw [hbytes, headerOf]
    exact (header_reads _ _ _ _ _ _ _).2.2.1
  refine ⟨hbytes ▸ isRtpPacket_headerOf mode ssrc s elapsed draws _, hsequence, ?_⟩
  rw [unwrap, hbytes, readHeader_headerOf]
  cases mode with
  | video =>
    obtain ⟨rfl, rfl⟩ := hencrypted
    refine unwrapVideo_restores hlaw hfront rfl hstart hshort ?_
    rw [hbytes]
    simp only [List.append_assoc, rtpHeaderOf]
    rfl
  | audio =>
    obtain ⟨sealed, tag, hseal, rfl, rfl⟩ := hencrypted
    refine unwrapAudio_restores hlaw rfl hfront rfl hstart hshort hpacket hseal ?_
    rw [hbytes, List.append_assoc, List.append_assoc]

/-! ### The first packet of an audio stream -/

/-- A keystream of ChaCha20 under the key of bytes 0 to 31, as far as the packet below needs
it. -/
def sampleKeystream (nonce : Packet) : Packet :=
  if nonce = [0, 0, 0, 7, 0x77, 0x88, 0, 0, 0, 0, 0, 0] then [0x41, 0x36] else []

def sampleHeader : Packet :=
  [0xb0, 0x6f, 0x77, 0x88, 0, 0, 0, 0, 0, 0, 0, 7, 0xbe, 0xde, 0, 2, 0x32, 0, 0, 0, 0x51, 0, 0, 0]

/-- And the tag of Poly1305. -/
def sampleTag (aad sealed : Packet) : Block 16 :=
  if aad = sampleHeader ∧ sealed = [0x04, 0x36] then
    ⟨[0x23, 0xc3, 0xac, 0x47, 0xcc, 0xc3, 0x8d, 0x71, 0x66, 0x95, 0x71, 0xd7, 0xa9, 0xea, 0x0b,
      0xf7], rfl⟩
  else Block.zero 16

def mask (keystream data : Packet) : Block data.length :=
  ⟨data.mapIdx fun i x => x ^^^ keystream.getD i 0, List.length_mapIdx⟩

def sampleCipher : OpeningCipher where
  applyKeystream _ data := ⟨data.map (~~~ ·), List.length_map _⟩
  hmacSha1 _ := Block.zero 20
  sealInPlace nonce aad data :=
    let sealed := mask (sampleKeystream nonce.val) data
    some (sealed, sampleTag aad sealed.val)
  seal_isSome _ _ _ _ := rfl
  openInPlace nonce aad data tag :=
    if tag = sampleTag aad data then some (mask (sampleKeystream nonce.val) data) else none

theorem mask_mask (keystream data : Packet) : (mask keystream (mask keystream data).val).val = data := by
  have htwice (i : ℕ) (x : BitVec 8) :
      x ^^^ keystream.getD i 0 ^^^ keystream.getD i 0 = x := by
    rw [BitVec.xor_assoc, BitVec.xor_self, BitVec.xor_zero]
  show (data.mapIdx fun i x => x ^^^ keystream.getD i 0).mapIdx
    (fun i x => x ^^^ keystream.getD i 0) = data
  rw [List.mapIdx_mapIdx]
  refine List.ext_getElem List.length_mapIdx fun i hi hi' => ?_
  rw [List.getElem_mapIdx]
  exact htwice i _

theorem sampleCipher_lawful : sampleCipher.Lawful where
  keystream _ data := by
    show (data.map (~~~ ·)).map (~~~ ·) = data
    rw [List.map_map]
    exact (List.map_congr_left fun x _ => BitVec.not_not).trans (List.map_id data)
  open_seal nonce aad data sealed tag h := by
    obtain ⟨rfl, rfl⟩ := Prod.mk.inj (Option.some.inj h)
    exact ⟨mask (sampleKeystream nonce.val) (mask (sampleKeystream nonce.val) data).val,
      if_pos (e := none) rfl, mask_mask _ data⟩

theorem unwrap_first_packet :
    ∃ (packet : PacketBuf) (w : Wrapped), packet.bytes = [0x45, 0x00] ∧
      (wrap sampleCipher.toObfsCipher (.new .audio 7) ⟨0, 0, 0, 0x7788, 0⟩ packet
        ⟨0, 0, by decide⟩ ⟨23, 0, fun _ => 0⟩).1 = .ok w ∧
      isRtpPacket w.packet.bytes ∧ (w.packet.bytes.drop 2).take 2 = toBytes 2 0x7788 ∧
      unwrap sampleCipher w.packet .audio = .ok (0x7788, packet) := by
  have hadmitted : Admitted (.new .audio 7) ⟨64, [0x45, 0x00], by decide⟩ ⟨23, 0, fun _ => 0⟩ :=
    ⟨by decide, by decide, by decide⟩
  obtain ⟨w, hwrap, _⟩ := wrap_admitted sampleCipher.toObfsCipher ⟨0, 0, 0, 0x7788, 0⟩
    ⟨0, 0, by decide⟩ hadmitted
  exact ⟨_, w, rfl, hwrap, unwrap_wrap sampleCipher_lawful (by decide) hwrap⟩

example : sampleCipher.sealInPlace (nonce 7 0x7788 0) sampleHeader [0x45, 0x00] =
    some (⟨[0x04, 0x36], rfl⟩, sampleTag sampleHeader [0x04, 0x36]) := by
  decide

end Csqtt.Obfs
