/-
ChannelData messages.

The message starts with the channel and the length of its payload; what follows the
payload is at most three bytes long.

* `encodeChannelData_isOk_iff` — a buffer takes the message around its contents
  exactly when it has the room for the header and for the padding;
* `channelDataHeader_framed` — and the header reads back.
-/
import Csqtt.ByteOrder
import Csqtt.PacketBuf
import Mathlib.Tactic.IntervalCases

open ByteOrder

namespace Csqtt.ChannelData

/-- `(0x4000..=0x7fff).contains(&channel)`. -/
def ValidChannel (channel : BitVec 16) : Prop := 0x4000 ≤ channel ∧ channel ≤ 0x7fff

instance (channel : BitVec 16) : Decidable (ValidChannel channel) :=
  inferInstanceAs (Decidable (_ ∧ _))

/-- The channel, and the length of the payload. -/
def channelDataHeader (wire : Packet) : Option (BitVec 16 × ℕ) :=
  match wire with
  | c₀ :: c₁ :: l₀ :: l₁ :: rest =>
    if c₀ &&& 0xc0 ≠ 0x40 then none
    else
      let channel := BitVec.ofNat 16 (ofBytes [c₀, c₁])
      if ¬ ValidChannel channel then none
      else
        let payloadLength := ofBytes [l₀, l₁]
        if rest.length < payloadLength then none
        else if 3 < rest.length - payloadLength then none
        else some (channel, payloadLength)
  | _ => none

/-- `channel_data_padding`. -/
def channelDataPadding (packet : PacketBuf) (channel : BitVec 16) : Except String ℕ :=
  if ¬ ValidChannel channel then .error "TURN channel is invalid"
  else if 2 ^ 16 - 1 < packet.bytes.length then .error "TURN payload too large"
  else
    let padding := (4 - packet.bytes.length % 4) % 4
    if packet.start < 4 ∨ packetCapacity < packet.stop + padding then
      .error "TURN ChannelData exceeds packet buffer"
    else .ok padding

/-- The four bytes before the payload. -/
def channelHeader (channel : BitVec 16) (payloadLength : ℕ) : Packet :=
  toBytes 2 channel.toNat ++ toBytes 2 payloadLength

def encodeChannelData (packet : PacketBuf) (channel : BitVec 16) : Except String PacketBuf :=
  match channelDataPadding packet channel with
  | .error e => .error e
  | .ok padding =>
    match packet.extendTail (List.replicate padding 0) with
    | none => .error "packet tail exceeds capacity"
    | some extended =>
      match extended.prepend (channelHeader channel packet.bytes.length) with
      | none => .error "packet prepend exceeds headroom"
      | some packet => .ok packet

/-! ### Room -/

theorem channelHeader_length (channel : BitVec 16) (payloadLength : ℕ) :
    (channelHeader channel payloadLength).length = 4 := by
  rw [channelHeader, List.length_append, toBytes_length, toBytes_length]

theorem encodeChannelData_isOk_iff {packet : PacketBuf} {channel : BitVec 16}
    (hchannel : ValidChannel channel) :
    (∃ framed, encodeChannelData packet channel = .ok framed) ↔
      4 ≤ packet.start ∧ packet.stop + (4 - packet.bytes.length % 4) % 4 ≤ packetCapacity := by
  have hlength : ¬ 2 ^ 16 - 1 < packet.bytes.length := by
    have hfits := packet.fits
    rw [packetCapacity] at hfits
    omega
  rw [encodeChannelData, channelDataPadding, if_neg (not_not.mpr hchannel), if_neg hlength]
  by_cases hroom : packet.start < 4 ∨
      packetCapacity < packet.stop + (4 - packet.bytes.length % 4) % 4
  · simp only [if_pos hroom]
    exact iff_of_false (fun ⟨_, h⟩ => nomatch h) fun ⟨hstart, hstop⟩ => by omega
  · simp only [if_neg hroom]
    refine iff_of_true ?_ (by omega)
    have htail : (packet.extendTail
        (List.replicate ((4 - packet.bytes.length % 4) % 4) 0)).isSome :=
      PacketBuf.extendTail_isSome.mpr (by rw [List.length_replicate]; omega)
    obtain ⟨extended, hextended⟩ := Option.isSome_iff_exists.mp htail
    have hstart := (PacketBuf.extendTail_eq_some hextended).1
    have hfront : (extended.prepend (channelHeader channel packet.bytes.length)).isSome :=
      PacketBuf.prepend_isSome.mpr (by rw [channelHeader_length]; omega)
    obtain ⟨framed, hframed⟩ := Option.isSome_iff_exists.mp hfront
    refine ⟨framed, ?_⟩
    rw [hextended]
    simp only [hframed]

/-! ### Reading back -/

/-- The two highest bits tell a channel from a STUN message. -/
theorem ValidChannel.high {channel : BitVec 16} (h : ValidChannel channel) :
    BitVec.ofNat 8 (channel.toNat / 256) &&& 0xc0 = 0x40 := by
  have hlow : 0x4000 ≤ channel.toNat := h.1
  have hhigh : channel.toNat ≤ 0x7fff := h.2
  have hfirst : 0x40 ≤ channel.toNat / 256 := by omega
  have hlast : channel.toNat / 256 ≤ 0x7f := by omega
  generalize channel.toNat / 256 = n at hfirst hlast
  interval_cases n <;> rfl

theorem channelDataHeader_framed {channel : BitVec 16} (hchannel : ValidChannel channel)
    {payload pad : Packet} (hpayload : payload.length < 2 ^ 16) (hpad : pad.length ≤ 3) :
    channelDataHeader (channelHeader channel payload.length ++ payload ++ pad) =
      some (channel, payload.length) := by
  have hword : BitVec.ofNat 16 (ofBytes (toBytes 2 channel.toNat)) = channel :=
    ofBytes_toBytes_word channel (by norm_num)
  have hlength : ofBytes (toBytes 2 payload.length) = payload.length := by
    rw [ofBytes_toBytes]
    exact Nat.mod_eq_of_lt hpayload
  rw [toBytes_two] at hword hlength
  have hrest : (payload ++ pad).length = payload.length + pad.length := List.length_append
  have hshort : ¬ (payload ++ pad).length < payload.length := by omega
  have hlong : ¬ 3 < (payload ++ pad).length - payload.length := by omega
  rw [channelHeader, toBytes_two, toBytes_two]
  show channelDataHeader (BitVec.ofNat 8 (channel.toNat / 256) :: BitVec.ofNat 8 channel.toNat ::
    BitVec.ofNat 8 (payload.length / 256) :: BitVec.ofNat 8 payload.length :: (payload ++ pad)) = _
  simp only [channelDataHeader, hword, hlength]
  rw [if_neg (not_not.mpr hchannel.high), if_neg (not_not.mpr hchannel), if_neg hshort,
    if_neg hlong]

end Csqtt.ChannelData
