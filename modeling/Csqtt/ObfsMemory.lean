/-
Reading an obfuscated packet in its storage.

`unwrap` works on the storage of the buffer with absolute positions: every one of them is
the start or the end of the range, moved by a length that the wire has chosen.  Here each
index, each slice and each subtraction is checked, and `none` is the panic.

* `unwrap_runs` — no check fails, whatever the bytes are; a refused packet keeps its range,
  and the range of a payload lies strictly inside that of its packet;
* `view_unwrap` — what comes out is what `Obfs.unwrap` says of the bytes.
-/
import Csqtt.Checked
import Csqtt.ObfsUnwrap
import Csqtt.PacketStorage

open ByteOrder Checked

namespace Csqtt.Obfs

/-- The ciphers on a buffer in place: what a failed `open_in_place_separate_tag` leaves of the
data is the library's business. -/
structure InPlaceCipher extends OpeningCipher where
  openFailed : Block 12 → Packet → (data : Packet) → Block 16 → Block data.length

/-- `usize`. -/
def usizeBound : ℕ := 2 ^ 64

/-- `header_len`, with the extension. -/
def headerLengthAt (wire : Packet) : Option (Except String ℕ) := do
  let first : BitVec 8 ← wire[0]?
  if first &&& 0x10 ≠ 0 then
    if wire.length < 16 then return .error "obfs: packet too short for extension header"
    else
      let words ← mul usizeBound (ofBytes (← slice wire 14 16)) 4
      return .ok (← add usizeBound 12 (← add usizeBound 4 words))
  else return .ok 12

/-- The checks that do not depend on the mode. -/
def readHeaderAt (wire : Packet) : Option (Except String RtpHeader) :=
  if wire.length < 13 then some (.error "obfs: not RTP v2")
  else do
    let first : BitVec 8 ← wire[0]?
    if first >>> 6 ≠ 2 then return .error "obfs: not RTP v2"
    else
      let payloadType := (← wire[1]?) &&& 0x7f
      if ¬ SupportedType payloadType then
        return .error s!"obfs: unsupported payload type {payloadType.toNat}"
      else
        let sequence ← slice wire 2 4
        let timestamp ← slice wire 4 8
        let ssrc ← slice wire 8 12
        match ← headerLengthAt wire with
        | .error e => return .error e
        | .ok length =>
          if wire.length < length then
            return .error "obfs: packet too short for calculated RTP header"
          else
            return .ok
              { payloadType
                sequence := BitVec.ofNat 16 (ofBytes sequence)
                timestamp := BitVec.ofNat 32 (ofBytes timestamp)
                ssrc := BitVec.ofNat 32 (ofBytes ssrc)
                length
                padded := first &&& 0x20 ≠ 0 }

/-- Where the payload ends: the padding before `stop` ends with its own length. -/
def payloadEndAt (storage : Packet) (start stop headerLen : ℕ) : Option (Except ℕ ℕ) := do
  let first : BitVec 8 ← storage[start]?
  if first &&& 0x20 ≠ 0 then
    let last ← sub stop 1
    let padding := (← storage[last]?).toNat
    if padding = 0 then return .error padding
    else
      let room ← sub (← sub stop start) headerLen
      if room < padding then return .error padding
      else return .ok (← sub stop padding)
  else return .ok stop

/-- `set_range` and the number of the packet. -/
def opening (b : StoredPacket) (sequence : BitVec 16) (start stop : ℕ) :
    StoredPacket.Outcome (BitVec 16) :=
  ((b.setRange start stop).1.map fun _ => sequence, (b.setRange start stop).2)

def unwrapVideoAt (c : InPlaceCipher) (b : StoredPacket) (header : RtpHeader) :
    Option (StoredPacket.Outcome (BitVec 16)) := do
  if b.len < header.length + 10 then return (.error "obfs srtp: missing authentication tag", b)
  else
    let tagStart ← sub b.stop 10
    let signed ← slice b.storage b.start tagStart
    let tag ← slice b.storage tagStart b.stop
    if ¬ verifyTruncatedLeft c.toObfsCipher signed tag then
      return (.error "obfs srtp: authentication failed", b)
    else
      match ← payloadEndAt b.storage b.start tagStart header.length with
      | .error padding => return (.error s!"obfs srtp: invalid padding length {padding}", b)
      | .ok payloadEnd =>
        let payloadStart ← add usizeBound b.start header.length
        let iv := srtpIv header.ssrc header.sequence header.timestamp
        let payload ← slice b.storage payloadStart payloadEnd
        return opening (b.write payloadStart (c.applyKeystream iv payload).val) header.sequence
          payloadStart payloadEnd

def unwrapAudioAt (c : InPlaceCipher) (b : StoredPacket) (header : RtpHeader) :
    Option (StoredPacket.Outcome (BitVec 16)) := do
  if header.payloadType ≠ 111 then return (.error "obfs audio: expected payload type 111", b)
  else
    match ← payloadEndAt b.storage b.start b.stop header.length with
    | .error padding => return (.error s!"obfs: invalid padding length {padding}", b)
    | .ok payloadEnd =>
      let payloadStart ← add usizeBound b.start header.length
      if payloadEnd ≤ (← add usizeBound payloadStart 16) then
        return (.error "obfs: empty encrypted payload or missing tag", b)
      else
        let tagStart ← sub payloadEnd 16
        let tag ← slice b.storage tagStart payloadEnd
        let nonce := nonce header.ssrc header.sequence header.timestamp
        -- `split_at_mut`
        let front ← slice b.storage 0 payloadStart
        let payloadAndTail ← slice b.storage payloadStart b.storage.length
        let aad ← slice front b.start payloadStart
        let data ← slice payloadAndTail 0 (← sub tagStart payloadStart)
        if htag : tag.length = 16 then
          match c.openInPlace nonce aad data ⟨tag, htag⟩ with
          | none =>
            return (.error "obfs: auth (ChaCha20-Poly1305)",
              b.write payloadStart (c.openFailed nonce aad data ⟨tag, htag⟩).val)
          | some payload =>
            return opening (b.write payloadStart payload.val) header.sequence payloadStart tagStart
        else return (.error "could not convert slice to array", b)

def unwrapAt (c : InPlaceCipher) (b : StoredPacket) (mode : ObfsMode) :
    Option (StoredPacket.Outcome (BitVec 16)) := do
  match ← readHeaderAt (← slice b.storage b.start b.stop) with
  | .error e => return (.error e, b)
  | .ok header =>
    match mode with
    | .video => unwrapVideoAt c b header
    | .audio => unwrapAudioAt c b header

/-! ### The header -/

theorem ofBytes_two_lt (bytes : Packet) (h : bytes.length ≤ 2) : ofBytes bytes < 65536 :=
  (ofBytes_lt bytes).trans_le (Nat.pow_le_pow_right (show 0 < 256 by omega) h)

theorem headerLengthAt_eq {wire : Packet} (h : 13 ≤ wire.length) :
    headerLengthAt wire = some (headerLength wire) := by
  have hfirst : wire[0]? = some (wire.getD 0 0) := index_eq (by omega) 0
  rw [headerLengthAt, headerLength, hfirst]
  simp only [Option.bind_eq_bind, Option.bind_some]
  by_cases hext : wire.getD 0 0 &&& 0x10 ≠ 0
  · rw [if_pos hext, if_pos hext]
    by_cases hshort : wire.length < 16
    · rw [if_pos hshort, if_pos hshort]
      rfl
    · rw [if_neg hshort, if_neg hshort, slice_eq (by omega) (by omega), Option.bind_some]
      have hwords := ofBytes_two_lt ((wire.drop 14).take (16 - 14)) (List.length_take_le _ _)
      have husize : usizeBound = 2 ^ 64 := rfl
      rw [mul_eq (by omega), Option.bind_some, add_eq (by omega), Option.bind_some,
        add_eq (by omega), Option.bind_some]
      rfl
  · rw [if_neg hext, if_neg hext]
    rfl

/-- The checks of the header are those of the bytes, and none of its reads leaves the packet. -/
theorem readHeaderAt_eq (wire : Packet) : readHeaderAt wire = some (readHeader wire) := by
  rw [readHeaderAt, readHeader]
  by_cases hshort : wire.length < 13
  · rw [if_pos hshort, if_pos (.inl hshort)]
  have hfirst : wire[0]? = some (wire.getD 0 0) := index_eq (by omega) 0
  have hsecond : wire[1]? = some (wire.getD 1 0) := index_eq (by omega) 0
  rw [if_neg hshort, hfirst]
  simp only [Option.bind_eq_bind, Option.bind_some]
  by_cases hversion : wire.getD 0 0 >>> 6 ≠ 2
  · rw [if_pos hversion, if_pos (.inr hversion)]
    rfl
  rw [if_neg hversion, if_neg (by rintro (h | h) <;> contradiction), hsecond, Option.bind_some]
  by_cases htype : SupportedType (wire.getD 1 0 &&& 0x7f)
  · rw [if_neg (not_not.mpr htype), if_neg (not_not.mpr htype), slice_eq (by omega) (by omega),
      Option.bind_some, slice_eq (by omega) (by omega), Option.bind_some,
      slice_eq (by omega) (by omega), Option.bind_some, headerLengthAt_eq (by omega),
      Option.bind_some]
    cases headerLength wire with
    | error e => rfl
    | ok length =>
      simp only
      split
      · rfl
      · rfl
  · rw [if_pos htype, if_pos htype]
    rfl

/-- A header that is read lies in the packet and is not empty. -/
theorem readHeader_length {wire : Packet} {header : RtpHeader} (h : readHeader wire = .ok header) :
    0 < header.length ∧ header.length ≤ wire.length ∧
      header.padded = (wire.getD 0 0 &&& 0x20 ≠ 0) := by
  rw [readHeader] at h
  split at h
  · cases h
  simp only at h
  split at h
  · cases h
  cases hlen : headerLength wire with
  | error e =>
    rw [hlen] at h
    cases h
  | ok length =>
    rw [hlen] at h
    simp only at h
    split at h
    · cases h
    next hroom =>
      have hpos : 0 < length := by
        rw [headerLength] at hlen
        split at hlen
        · split at hlen
          · cases hlen
          · cases hlen
            omega
        · cases hlen
          omega
      obtain rfl := Except.ok.inj h
      exact ⟨hpos, Nat.le_of_not_lt hroom, by simp⟩

/-! ### The payload -/

/-- The bytes of a range, taken from the storage. -/
theorem getD_zero_range {storage : Packet} {start len : ℕ} (hpos : 0 < len) :
    ((storage.drop start).take len).getD 0 0 = storage.getD start 0 := by
  rw [List.getD_eq_getElem?_getD, List.getElem?_take_of_lt hpos, List.getElem?_drop,
    Nat.add_zero, List.getD_eq_getElem?_getD]

theorem getLastD_range {storage : Packet} {start stop : ℕ} (hlt : start < stop)
    (hstop : stop ≤ storage.length) :
    ((storage.drop start).take (stop - start)).getLastD 0 = storage.getD (stop - 1) 0 := by
  have hlen : ((storage.drop start).take (stop - start)).length = stop - start := by
    rw [List.length_take, List.length_drop]
    omega
  rw [List.getLastD_eq_getLast?, List.getLast?_eq_getElem?, hlen,
    List.getElem?_take_of_lt (by omega), List.getElem?_drop, List.getD_eq_getElem?_getD]
  congr 2
  omega

/-- The end of the payload is found without leaving the range, where `unpadded` finds it. -/
theorem payloadEndAt_eq {storage : Packet} {start stop : ℕ} {header : RtpHeader}
    (hpos : 0 < header.length) (hroom : start + header.length ≤ stop)
    (hstop : stop ≤ storage.length)
    (hpadded : header.padded = (storage.getD start 0 &&& 0x20 ≠ 0)) :
    ∃ found, payloadEndAt storage start stop header.length = some found ∧
      match found with
      | .error padding =>
        unpadded header ((storage.drop start).take (stop - start)) = .error padding
      | .ok payloadEnd => start + header.length ≤ payloadEnd ∧ payloadEnd ≤ stop ∧
        unpadded header ((storage.drop start).take (stop - start)) =
          .ok ((storage.drop start).take (payloadEnd - start)) := by
  have hfirst : storage[start]? = some (storage.getD start 0) := index_eq (by omega) 0
  have hlast : storage[stop - 1]? = some (storage.getD (stop - 1) 0) := index_eq (by omega) 0
  have hlen : ((storage.drop start).take (stop - start)).length = stop - start := by
    rw [List.length_take, List.length_drop]
    omega
  rw [payloadEndAt, hfirst, unpadded, getLastD_range (by omega) hstop, hlen]
  simp only [Option.bind_eq_bind, Option.bind_some]
  by_cases hpad : storage.getD start 0 &&& 0x20 ≠ 0
  · rw [if_pos hpad, if_pos (by simpa only [hpadded, decide_eq_true_eq] using hpad),
      sub_eq (by omega), Option.bind_some, hlast, Option.bind_some]
    by_cases hzero : (storage.getD (stop - 1) 0).toNat = 0
    · rw [if_pos hzero, if_pos (.inl hzero)]
      exact ⟨_, rfl, rfl⟩
    rw [if_neg hzero, sub_eq (by omega), Option.bind_some, sub_eq (by omega), Option.bind_some]
    by_cases hlong : stop - start - header.length < (storage.getD (stop - 1) 0).toNat
    · rw [if_pos hlong, if_pos (.inr hlong)]
      exact ⟨_, rfl, rfl⟩
    rw [if_neg hlong, if_neg (by omega), sub_eq (by omega), Option.bind_some]
    refine ⟨_, rfl, by omega, by omega, ?_⟩
    rw [List.take_take]
    congr 2
    omega
  · rw [if_neg hpad, if_neg (by simpa only [hpadded, decide_eq_true_eq] using hpad)]
    exact ⟨_, rfl, hroom, Nat.le_refl stop, rfl⟩

/-- A result in place, beside the result on the bytes. -/
structure InPlace (b b' : StoredPacket) (out : Except String (BitVec 16))
    (result : Except String (BitVec 16 × PacketBuf)) : Prop where
  valid : b'.Valid
  kept : ∀ e, out = .error e → b'.start = b.start ∧ b'.stop = b.stop
  inside : ∀ sequence, out = .ok sequence →
    b.start < b'.start ∧ b'.start ≤ b'.stop ∧ b'.stop < b.stop
  same : result = out.map fun sequence => (sequence, b'.view valid)

variable {b : StoredPacket}

theorem InPlace.refused (h : b.Valid) (e : String) : InPlace b b (.error e) (.error e) :=
  ⟨h, fun _ _ => ⟨rfl, rfl⟩, fun _ hok => (by cases hok), rfl⟩

/-- A refusal after the data has been overwritten. -/
theorem InPlace.spoiled (h : b.Valid) (offset : ℕ) (bytes : Packet) (e : String) :
    InPlace b (b.write offset bytes) (.error e) (.error e) :=
  ⟨h.write offset bytes, fun _ _ => ⟨StoredPacket.write_start b offset bytes,
    StoredPacket.write_stop b offset bytes⟩, fun _ hok => (by cases hok), rfl⟩

/-- A payload that lies strictly inside the packet. -/
theorem InPlace.opening (h : b.Valid) {header : RtpHeader} {payload : Packet} {stop : ℕ}
    (hpos : 0 < header.length) (hle : b.start + header.length ≤ stop) (hlt : stop < b.stop)
    (hlen : payload.length = stop - (b.start + header.length)) :
    InPlace b
      (Obfs.opening (b.write (b.start + header.length) payload) header.sequence
        (b.start + header.length) stop).2
      (Obfs.opening (b.write (b.start + header.length) payload) header.sequence
        (b.start + header.length) stop).1
      (opened (b.view h) header payload) := by
  have hfits := h.fits
  have hfull := h.full
  have hok : ¬ (stop < b.start + header.length ∨ packetCapacity < stop) := by omega
  have hw := h.write (b.start + header.length) payload
  have hbytes : ((b.write (b.start + header.length) payload).storage.drop
      (b.start + header.length)).take (stop - (b.start + header.length)) = payload := by
    rw [StoredPacket.drop_write (by omega), List.take_left' hlen]
  have hview := StoredPacket.view_setRange hw hle (by omega)
  rw [hbytes] at hview
  have hset : (b.write (b.start + header.length) payload).setRange (b.start + header.length) stop =
      (.ok (), { b.write (b.start + header.length) payload with
        start := b.start + header.length, stop }) := if_neg hok
  refine ⟨hw.apply (.setRange _ _), fun e he => ?_, fun sequence _ => ?_, ?_⟩
  · rw [Obfs.opening, hset] at he
    cases he
  · rw [Obfs.opening, hset]
    exact ⟨Nat.lt_add_of_pos_right hpos, hle, hlt⟩
  · rw [opened]
    simp only [StoredPacket.view, hview, Obfs.opening, hset]
    rfl

/-! ### The two modes -/

variable {c : InPlaceCipher} {header : RtpHeader}

/-- The header as it was read from the storage. -/
structure HeaderOf (b : StoredPacket) (header : RtpHeader) : Prop where
  pos : 0 < header.length
  fits : b.start + header.length ≤ b.stop
  padded : header.padded = (b.storage.getD b.start 0 &&& 0x20 ≠ 0)

theorem unwrapVideoAt_runs (h : b.Valid) (hh : HeaderOf b header) :
    ∃ out b', unwrapVideoAt c b header = some (out, b') ∧
      InPlace b b' out (unwrapVideo c.toOpeningCipher (b.view h) header) := by
  have hle := h.le
  have hfits := h.fits
  have hfull := h.full
  have hpos := hh.pos
  have hcap : packetCapacity = 2304 := rfl
  have husize : usizeBound = 2 ^ 64 := rfl
  have hlen : (b.view h).bytes.length = b.stop - b.start := StoredPacket.length_asSlice h
  have hb : b.len = b.stop - b.start := rfl
  have hbytes : (b.view h).bytes = (b.storage.drop b.start).take (b.stop - b.start) := rfl
  rw [unwrapVideoAt, unwrapVideo]
  simp only [Option.bind_eq_bind]
  by_cases hshort : b.stop - b.start < header.length + 10
  · rw [if_pos (hb ▸ hshort), if_pos (hlen ▸ hshort)]
    exact ⟨_, _, rfl, .refused h _⟩
  have hstart : (b.storage.drop b.start).take (b.stop - 10 - b.start) =
      (b.view h).bytes.take ((b.view h).bytes.length - 10) := by
    rw [hlen, hbytes, List.take_take]
    congr 1
    omega
  have htag : (b.storage.drop (b.stop - 10)).take (b.stop - (b.stop - 10)) =
      (b.view h).bytes.drop ((b.view h).bytes.length - 10) := by
    rw [hlen, hbytes, List.drop_take, List.drop_drop]
    congr 1
    · omega
    · congr 1
      omega
  rw [if_neg (hb ▸ hshort), if_neg (hlen ▸ hshort), sub_eq (by omega), Option.bind_some,
    slice_eq (by omega) (by omega), Option.bind_some, slice_eq (by omega) (by omega),
    Option.bind_some, hstart, htag]
  by_cases hverify : verifyTruncatedLeft c.toObfsCipher
      ((b.view h).bytes.take ((b.view h).bytes.length - 10))
      ((b.view h).bytes.drop ((b.view h).bytes.length - 10))
  · rw [if_neg (not_not.mpr hverify), if_neg (not_not.mpr hverify), ← hstart]
    obtain ⟨found, hfound, hspec⟩ := payloadEndAt_eq hpos
      (show b.start + header.length ≤ b.stop - 10 by omega)
      (show b.stop - 10 ≤ b.storage.length by omega) hh.padded
    rw [hfound, Option.bind_some]
    cases found with
    | error padding =>
      rw [hspec]
      exact ⟨_, _, rfl, .refused h _⟩
    | ok payloadEnd =>
      obtain ⟨hlo, hhi, hspec⟩ := hspec
      simp only [hspec]
      rw [add_eq (by omega), Option.bind_some, slice_eq hlo (by omega), Option.bind_some]
      have hpayload : ((b.storage.drop b.start).take (payloadEnd - b.start)).drop header.length =
          (b.storage.drop (b.start + header.length)).take
            (payloadEnd - (b.start + header.length)) := by
        rw [List.drop_take, List.drop_drop]
        congr 1
        omega
      rw [hpayload]
      refine ⟨_, _, rfl, .opening h hpos hlo (by omega) ?_⟩
      rw [(c.applyKeystream _ _).property, List.length_take, List.length_drop]
      omega
  · rw [if_pos hverify, if_pos hverify]
    exact ⟨_, _, rfl, .refused h _⟩

theorem unwrapAudioAt_runs (h : b.Valid) (hh : HeaderOf b header) :
    ∃ out b', unwrapAudioAt c b header = some (out, b') ∧
      InPlace b b' out (unwrapAudio c.toOpeningCipher (b.view h) header) := by
  have hle := h.le
  have hfits := h.fits
  have hfull := h.full
  have hpos := hh.pos
  have hcap : packetCapacity = 2304 := rfl
  have husize : usizeBound = 2 ^ 64 := rfl
  have hbytes : (b.view h).bytes = (b.storage.drop b.start).take (b.stop - b.start) := rfl
  rw [unwrapAudioAt, unwrapAudio]
  simp only [Option.bind_eq_bind]
  by_cases htype : header.payloadType ≠ 111
  · rw [if_pos htype, if_pos htype]
    exact ⟨_, _, rfl, .refused h _⟩
  obtain ⟨found, hfound, hspec⟩ := payloadEndAt_eq hpos hh.fits (by omega) hh.padded
  rw [if_neg htype, if_neg htype, hfound, Option.bind_some, hbytes]
  cases found with
  | error padding =>
    rw [hspec]
    exact ⟨_, _, rfl, .refused h _⟩
  | ok payloadEnd =>
    obtain ⟨hlo, hhi, hspec⟩ := hspec
    have hlen : ((b.storage.drop b.start).take (payloadEnd - b.start)).length =
        payloadEnd - b.start := by
      rw [List.length_take, List.length_drop]
      omega
    simp only [hspec, hlen]
    rw [add_eq (by omega), Option.bind_some, add_eq (by omega), Option.bind_some]
    by_cases hshort : payloadEnd ≤ b.start + header.length + 16
    · rw [if_pos hshort, if_pos (by omega)]
      exact ⟨_, _, rfl, .refused h _⟩
    rw [if_neg hshort, if_neg (by omega), sub_eq (by omega), Option.bind_some,
      slice_eq (by omega) (by omega), Option.bind_some, slice_eq (by omega) (by omega),
      Option.bind_some, slice_eq (by omega) (by omega), Option.bind_some,
      slice_eq (by omega) (by rw [List.length_take, List.length_drop]; omega), Option.bind_some,
      sub_eq (by omega), Option.bind_some,
      slice_eq (by omega) (by rw [List.length_take, List.length_drop]; omega), Option.bind_some]
    -- the slices of the storage are those of the bytes
    have htag : (b.storage.drop (payloadEnd - 16)).take (payloadEnd - (payloadEnd - 16)) =
        ((b.storage.drop b.start).take (payloadEnd - b.start)).drop
          (payloadEnd - b.start - 16) := by
      rw [List.drop_take, List.drop_drop]
      congr 1
      · omega
      · congr 1
        omega
    have haad : (((b.storage.drop 0).take (b.start + header.length - 0)).drop b.start).take
        (b.start + header.length - b.start) =
          ((b.storage.drop b.start).take (payloadEnd - b.start)).take header.length := by
      rw [List.drop_zero, Nat.sub_zero, List.drop_take, List.take_take, List.take_take]
      congr 1
      omega
    have hdata : (((b.storage.drop (b.start + header.length)).take
        (b.storage.length - (b.start + header.length))).drop 0).take
          (payloadEnd - 16 - (b.start + header.length) - 0) =
        (((b.storage.drop b.start).take (payloadEnd - b.start)).take
          (payloadEnd - b.start - 16)).drop header.length := by
      rw [List.drop_zero, Nat.sub_zero, List.take_take, List.take_take, List.drop_take,
        List.drop_drop]
      congr 1
      omega
    rw [htag, haad, hdata]
    have htaglen : (((b.storage.drop b.start).take (payloadEnd - b.start)).drop
        (payloadEnd - b.start - 16)).length = 16 := by
      rw [List.length_drop, hlen]
      omega
    have hdatalen : ((((b.storage.drop b.start).take (payloadEnd - b.start)).take
        (payloadEnd - b.start - 16)).drop header.length).length =
          payloadEnd - 16 - (b.start + header.length) := by
      rw [List.length_drop, List.length_take, hlen]
      omega
    rw [openBytes, dif_pos htaglen, dif_pos htaglen]
    generalize (((b.storage.drop b.start).take (payloadEnd - b.start)).take
      (payloadEnd - b.start - 16)).drop header.length = data at hdatalen ⊢
    cases c.openInPlace (nonce header.ssrc header.sequence header.timestamp)
        (((b.storage.drop b.start).take (payloadEnd - b.start)).take header.length) data
        ⟨_, htaglen⟩ with
    | none => exact ⟨_, _, rfl, .spoiled h _ _ _⟩
    | some payload =>
      refine ⟨_, _, rfl, .opening h hpos (by omega) (by omega) ?_⟩
      rw [payload.property, hdatalen]

/-- Every packet of arbitrary bytes is read without a failed check, in place as on the bytes. -/
theorem view_unwrap (c : InPlaceCipher) (h : b.Valid) (mode : ObfsMode) :
    ∃ out b', unwrapAt c b mode = some (out, b') ∧
      InPlace b b' out (unwrap c.toOpeningCipher (b.view h) mode) := by
  have hle := h.le
  have hfits := h.fits
  have hfull := h.full
  have hbytes : (b.view h).bytes = (b.storage.drop b.start).take (b.stop - b.start) := rfl
  have hlen : (b.view h).bytes.length = b.stop - b.start := StoredPacket.length_asSlice h
  rw [unwrapAt, unwrap]
  simp only [Option.bind_eq_bind]
  rw [slice_eq hle (by omega), Option.bind_some, readHeaderAt_eq, Option.bind_some, ← hbytes]
  cases hread : readHeader (b.view h).bytes with
  | error e => exact ⟨_, _, rfl, .refused h e⟩
  | ok header =>
    obtain ⟨hpos, hroom, hpadded⟩ := readHeader_length hread
    have hh : HeaderOf b header := by
      refine ⟨hpos, by omega, ?_⟩
      rw [hpadded, hbytes, getD_zero_range (by omega)]
    cases mode with
    | video => exact unwrapVideoAt_runs h hh
    | audio => exact unwrapAudioAt_runs h hh

/-- Whatever the bytes, the keys and the mode are, no index or length of `unwrap` leaves the
packet; an error leaves the range as it was, a payload lies strictly inside it. -/
theorem unwrap_runs (c : InPlaceCipher) (b : StoredPacket) (h : b.Valid) (mode : ObfsMode) :
    ∃ out b', unwrapAt c b mode = some (out, b') ∧
      (∀ e, out = .error e → b'.start = b.start ∧ b'.stop = b.stop) ∧
      ∀ sequence, out = .ok sequence →
        b.start < b'.start ∧ b'.start ≤ b'.stop ∧ b'.stop < b.stop := by
  obtain ⟨out, b', hrun, hplace⟩ := view_unwrap c h mode
  exact ⟨out, b', hrun, hplace.kept, hplace.inside⟩

/-- A cipher whose tags are all `0x86`. -/
def constantCipher : InPlaceCipher where
  toObfsCipher := { (default : ObfsCipher) with
    hmacSha1 := fun _ => ⟨List.replicate 20 0x86, List.length_replicate⟩ }
  openInPlace := fun _ _ data _ => some (Block.whole data)
  openFailed := fun _ _ data _ => Block.whole data

/-- Forty bytes `0x86`: version 2, payload type 6, neither extension nor padding. -/
def constantPacket : StoredPacket := ⟨List.replicate packetCapacity 0x86, 64, 104⟩

theorem unwrap_runs_constant : constantPacket.Valid ∧
    ∃ out b', unwrapAt constantCipher constantPacket .video = some (out, b') ∧
      (∀ e, out = .error e → b'.start = 64 ∧ b'.stop = 104) ∧
      ∀ sequence, out = .ok sequence → 64 < b'.start ∧ b'.start ≤ b'.stop ∧ b'.stop < 104 := by
  have hvalid : constantPacket.Valid :=
    ⟨show 64 ≤ 104 by omega, show 104 ≤ 2304 by omega, List.length_replicate⟩
  exact ⟨hvalid, unwrap_runs constantCipher constantPacket hvalid .video⟩

end Csqtt.Obfs
