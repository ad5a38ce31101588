/-
Building STUN messages, and checking MESSAGE-INTEGRITY.

A builder always holds a header and a list of attributes (`Spells`), so what it
finishes can be written down and read back:

* `Spells.finish` — a finished message is spelled out, with its FINGERPRINT;
* `verifyIntegrity_signed` — and one that was signed verifies with the same key.
-/
import Csqtt.StunCodec

namespace Csqtt.Stun

/-- `ATTR_MESSAGE_INTEGRITY`. -/
def attrMessageIntegrity : BitVec 16 := 0x0008

structure MessageBuilder where
  bytes : Bytes
  transaction : Octets 12

/-- `set_message_length`. -/
def setMessageLength (bytes : Bytes) (trailing : ℕ) : Except String Bytes :=
  let length := bytes.length - headerSize + trailing
  if length < 2 ^ 16 then
    .ok (bytes.take 2 ++ bytes16 (BitVec.ofNat 16 length) ++ bytes.drop 4)
  else .error "STUN message too large for u16 length"

namespace MessageBuilder

def withTransaction (kind : BitVec 16) (t : Octets 12) : MessageBuilder :=
  { bytes := header kind 0 t, transaction := t }

/-- `MessageBuilder::attribute`: the zeros go up to the next multiple of four. -/
def addAttribute (b : MessageBuilder) (kind : BitVec 16) (value : Bytes) : MessageBuilder :=
  let bytes := b.bytes ++ bytes16 kind ++ bytes16 (BitVec.ofNat 16 value.length) ++ value
  { b with bytes := bytes ++ List.replicate (padded bytes.length - bytes.length) 0 }

def finish (P : Primitives) (b : MessageBuilder) : Except String Bytes :=
  (setMessageLength b.bytes 8).map fun bytes =>
    ({ b with bytes }.addAttribute attrFingerprint
      (bytes32 (P.crc32 bytes ^^^ fingerprintXor))).bytes

def finishAuthenticated (P : Primitives) (key : Octets 16) (b : MessageBuilder) :
    Except String Bytes :=
  (setMessageLength b.bytes 24).bind fun bytes =>
    ({ b with bytes }.addAttribute attrMessageIntegrity (P.hmacSha1 key bytes).val).finish P

end MessageBuilder

/-- `verify_integrity`: the header's length is taken to end after MESSAGE-INTEGRITY. -/
def verifyIntegrity (P : Primitives) (packet : Bytes) (m : Message) (key : Option (Octets 16)) :
    Bool :=
  match key, m.findAttribute attrMessageIntegrity with
  | some key, some integrity =>
    if integrity.value.length ≠ 20 ∨ integrity.headerStart < 20 then false
    else
      let signed := packet.take integrity.headerStart
      let length := integrity.headerStart + 24 - 20
      if length < 2 ^ 16 then
        (P.hmacSha1 key
          (signed.take 2 ++ bytes16 (BitVec.ofNat 16 length) ++ signed.drop 4)).val =
            integrity.value
      else false
  | _, _ => false

/-- The bytes before MESSAGE-INTEGRITY, without the length in the header. -/
def signedBytes (packet : Bytes) (m : Message) : Option (Bytes × Bytes) :=
  (m.findAttribute attrMessageIntegrity).map fun a =>
    ((packet.take a.headerStart).take 2, (packet.take a.headerStart).drop 4)

/-- What is verified has a MESSAGE-INTEGRITY behind the header. -/
theorem verifyIntegrity_start {P : Primitives} {packet : Bytes} {m : Message}
    {key : Option (Octets 16)} (h : verifyIntegrity P packet m key) :
    ∃ a, m.findAttribute attrMessageIntegrity = some a ∧ 20 ≤ a.headerStart := by
  rw [verifyIntegrity.eq_def] at h
  split at h
  · next key a ha =>
    refine ⟨a, ha, ?_⟩
    by_contra hlt
    rw [if_pos (.inr (Nat.not_le.mp hlt))] at h
    exact Bool.false_ne_true h
  · exact absurd h Bool.false_ne_true

/-! ### What a builder holds -/

/-- The builder holds a header and these attributes. -/
def Spells (b : MessageBuilder) (kind length : BitVec 16) (t : Octets 12)
    (attrs : List (BitVec 16 × Bytes)) : Prop :=
  b.bytes = header kind length t ++ fields attrs

/-- A whole message. -/
def spelled (kind : BitVec 16) (t : Octets 12) (attrs : List (BitVec 16 × Bytes)) : Bytes :=
  header kind (BitVec.ofNat 16 (fields attrs).length) t ++ fields attrs

/-- The attributes of a finished message. -/
def fingerprinted (P : Primitives) (kind : BitVec 16) (t : Octets 12)
    (attrs : List (BitVec 16 × Bytes)) : List (BitVec 16 × Bytes) :=
  attrs ++ [(attrFingerprint, bytes32 (P.crc32
    (header kind (BitVec.ofNat 16 ((fields attrs).length + 8)) t ++ fields attrs) ^^^
      fingerprintXor))]

/-- The attributes with their MESSAGE-INTEGRITY. -/
def signed (P : Primitives) (key : Octets 16) (kind : BitVec 16) (t : Octets 12)
    (attrs : List (BitVec 16 × Bytes)) : List (BitVec 16 × Bytes) :=
  attrs ++ [(attrMessageIntegrity, (P.hmacSha1 key
    (header kind (BitVec.ofNat 16 ((fields attrs).length + 24)) t ++ fields attrs)).val)]

section Builder

variable {P : Primitives} {key : Octets 16} {b : MessageBuilder} {kind length : BitVec 16}
  {t : Octets 12} {attrs : List (BitVec 16 × Bytes)} {trailing : ℕ}

theorem spells_withTransaction (kind : BitVec 16) (t : Octets 12) :
    Spells (.withTransaction kind t) kind 0 t [] :=
  (List.append_nil _).symm

theorem Spells.length_eq (h : Spells b kind length t attrs) :
    b.bytes.length = headerSize + (fields attrs).length := by
  rw [h, List.length_append, header_length]

theorem Spells.addAttribute (h : Spells b kind length t attrs) (k : BitVec 16) (v : Bytes) :
    Spells (b.addAttribute k v) kind length t (attrs ++ [(k, v)]) := by
  have hlen := h.length_eq
  have hmod := fields_length_mod attrs
  -- what precedes the value is a multiple of four, so the value alone sets the padding
  have hpad : ∀ n, n = b.bytes.length + 4 + v.length →
      padded n - n = padded v.length - v.length := by
    intro n hn
    rw [hlen, headerSize] at hn
    rw [padded, padded]
    omega
  rw [Spells, MessageBuilder.addAttribute]
  simp only
  rw [hpad _ (by simp only [bytes16, List.length_append, List.length_cons, List.length_nil]),
    fields_append, fields_cons, fields_nil, List.append_nil, field, h]
  simp only [List.append_assoc]

theorem setMessageLength_spells (h : Spells b kind length t attrs) :
    setMessageLength b.bytes trailing =
      if (fields attrs).length + trailing < 2 ^ 16 then
        .ok (header kind (BitVec.ofNat 16 ((fields attrs).length + trailing)) t ++ fields attrs)
      else .error "STUN message too large for u16 length" := by
  have hlen : b.bytes.length - headerSize + trailing = (fields attrs).length + trailing := by
    rw [h.length_eq]
    omega
  rw [setMessageLength]
  simp only [hlen]
  rw [h]
  rfl

theorem fields_snoc_length (k : BitVec 16) (v : Bytes) :
    (fields (attrs ++ [(k, v)])).length = (fields attrs).length + (4 + padded v.length) := by
  rw [fields_append, List.length_append, fields_cons, fields_nil, List.append_nil, field_length]

theorem fingerprinted_length :
    (fields (fingerprinted P kind t attrs)).length = (fields attrs).length + 8 := by
  rw [fingerprinted, fields_snoc_length]
  show _ + (4 + padded 4) = _
  rfl

theorem signed_length :
    (fields (signed P key kind t attrs)).length = (fields attrs).length + 24 := by
  rw [signed, fields_snoc_length, Subtype.property (P.hmacSha1 key _)]
  rfl

theorem Spells.finish (h : Spells b kind length t attrs) :
    b.finish P =
      if (fields attrs).length + 8 < 2 ^ 16 then .ok (spelled kind t (fingerprinted P kind t attrs))
      else .error "STUN message too large for u16 length" := by
  rw [MessageBuilder.finish, setMessageLength_spells h]
  split_ifs with hfits
  · have hs : Spells { b with
          bytes := header kind (BitVec.ofNat 16 ((fields attrs).length + 8)) t ++ fields attrs }
        kind (BitVec.ofNat 16 ((fields attrs).length + 8)) t attrs := rfl
    rw [Except.map, spelled, fingerprinted_length]
    exact congrArg Except.ok (hs.addAttribute _ _)
  · rfl

theorem Spells.finishAuthenticated (P : Primitives) (key : Octets 16)
    (h : Spells b kind length t attrs) :
    b.finishAuthenticated P key =
      if (fields attrs).length + 32 < 2 ^ 16 then
        .ok (spelled kind t (fingerprinted P kind t (signed P key kind t attrs)))
      else .error "STUN message too large for u16 length" := by
  rw [MessageBuilder.finishAuthenticated, setMessageLength_spells h]
  have hs : Spells { b with
        bytes := header kind (BitVec.ofNat 16 ((fields attrs).length + 24)) t ++ fields attrs }
      kind (BitVec.ofNat 16 ((fields attrs).length + 24)) t attrs := rfl
  have hfin := (hs.addAttribute attrMessageIntegrity (P.hmacSha1 key
    (header kind (BitVec.ofNat 16 ((fields attrs).length + 24)) t ++ fields attrs)).val).finish
    (P := P)
  have hsum : (fields attrs).length + 24 + 8 = (fields attrs).length + 32 := rfl
  rw [← signed, signed_length, hsum] at hfin
  by_cases hfits : (fields attrs).length + 24 < 2 ^ 16
  · rw [if_pos hfits, Except.bind]
    exact hfin
  · rw [if_neg hfits, if_neg (by omega)]
    rfl

/-! ### Reading it back -/

/-- What a whole message decodes to. -/
def messageOf (kind : BitVec 16) (t : Octets 12) (attrs : List (BitVec 16 × Bytes)) : Message :=
  { raw := spelled kind t attrs, kind, transaction := t, attributes := locate headerSize attrs }

/-- The first attribute of a kind, wherever it stands. -/
theorem find_locate {position : ℕ} {target k : BitVec 16} {v : Bytes}
    {rest : List (BitVec 16 × Bytes)} (hattrs : ∀ a ∈ attrs, canonical a.1 ≠ target)
    (hk : canonical k = target) :
    (locate position (attrs ++ (k, v) :: rest)).find? (·.kind = target) =
      some { kind := target, value := v, headerStart := position + (fields attrs).length } := by
  induction attrs generalizing position with
  | nil => rw [List.nil_append, locate, List.find?_cons_of_pos (by simpa using hk), hk]; rfl
  | cons a attrs ih =>
    have ha : canonical a.1 ≠ target := hattrs a List.mem_cons_self
    rw [List.cons_append, locate, List.find?_cons_of_neg (by simpa using ha),
      ih fun a ha => hattrs a (List.mem_cons_of_mem _ ha), fields_cons, List.length_append,
      field_length]
    simp only [Nat.add_assoc]

theorem findAttribute_signed (rest : List (BitVec 16 × Bytes))
    (hattrs : ∀ a ∈ attrs, canonical a.1 ≠ attrMessageIntegrity) :
    (messageOf kind t (signed P key kind t attrs ++ rest)).findAttribute attrMessageIntegrity =
      some { kind := attrMessageIntegrity
             value := (P.hmacSha1 key
              (header kind (BitVec.ofNat 16 ((fields attrs).length + 24)) t ++ fields attrs)).val
             headerStart := headerSize + (fields attrs).length } := by
  rw [signed, List.append_assoc]
  exact find_locate hattrs rfl

/-- What stands before MESSAGE-INTEGRITY. -/
theorem take_signed (rest : List (BitVec 16 × Bytes)) :
    (spelled kind t (signed P key kind t attrs ++ rest)).take (headerSize + (fields attrs).length) =
      header kind (BitVec.ofNat 16 (fields (signed P key kind t attrs ++ rest)).length) t ++
        fields attrs := by
  rw [spelled, signed, List.append_assoc, fields_append, ← List.append_assoc]
  apply List.take_left'
  rw [List.length_append, header_length]

theorem signedBytes_signed (rest : List (BitVec 16 × Bytes))
    (hattrs : ∀ a ∈ attrs, canonical a.1 ≠ attrMessageIntegrity) :
    signedBytes (spelled kind t (signed P key kind t attrs ++ rest))
      (messageOf kind t (signed P key kind t attrs ++ rest)) =
        some (bytes16 kind, bytes32 magicCookie ++ t.val ++ fields attrs) := by
  rw [signedBytes, findAttribute_signed rest hattrs, Option.map_some, take_signed]
  rfl

theorem verifyIntegrity_signed (P : Primitives) (key : Octets 16) (kind : BitVec 16)
    (t : Octets 12) {attrs : List (BitVec 16 × Bytes)} (rest : List (BitVec 16 × Bytes))
    (hattrs : ∀ a ∈ attrs, canonical a.1 ≠ attrMessageIntegrity)
    (hfits : (fields attrs).length + 24 < 2 ^ 16) :
    verifyIntegrity P (spelled kind t (signed P key kind t attrs ++ rest))
      (messageOf kind t (signed P key kind t attrs ++ rest)) (some key) = true := by
  have hfind : (messageOf kind t (signed P key kind t attrs ++ rest)).findAttribute
      attrMessageIntegrity = _ := findAttribute_signed rest hattrs
  set mac := P.hmacSha1 key
    (header kind (BitVec.ofNat 16 ((fields attrs).length + 24)) t ++ fields attrs) with hmac
  have hlen : headerSize + (fields attrs).length + 24 - 20 = (fields attrs).length + 24 := by
    rw [headerSize]
    omega
  -- the length field is put right before the digest is taken
  have hsigned : (header kind (BitVec.ofNat 16
      (fields (signed P key kind t attrs ++ rest)).length) t ++ fields attrs).take 2 ++
      bytes16 (BitVec.ofNat 16 ((fields attrs).length + 24)) ++
      (header kind (BitVec.ofNat 16 (fields (signed P key kind t attrs ++ rest)).length) t ++
        fields attrs).drop 4 =
      header kind (BitVec.ofNat 16 ((fields attrs).length + 24)) t ++ fields attrs := rfl
  have hshort : ¬ headerSize + (fields attrs).length < 20 := by
    rw [headerSize]
    omega
  unfold verifyIntegrity
  simp only [hfind, mac.property, hlen, take_signed, hsigned, hfits, hshort, ← hmac, ne_eq,
    not_true_eq_false, or_self, if_true, if_false, decide_true]

theorem fingerprintValid_fingerprinted
    (hattrs : ∀ a ∈ attrs, canonical a.1 ≠ attrFingerprint) :
    (messageOf kind t (fingerprinted P kind t attrs)).fingerprintValid P = some true := by
  set crc := bytes32 (P.crc32 (header kind (BitVec.ofNat 16 ((fields attrs).length + 8)) t ++
    fields attrs) ^^^ fingerprintXor) with hcrc
  have hfind : (messageOf kind t (fingerprinted P kind t attrs)).findAttribute attrFingerprint =
      some { kind := attrFingerprint, value := crc,
             headerStart := headerSize + (fields attrs).length } :=
    find_locate hattrs rfl
  have htake : (spelled kind t (fingerprinted P kind t attrs)).take
      (headerSize + (fields attrs).length) =
        header kind (BitVec.ofNat 16 ((fields attrs).length + 8)) t ++ fields attrs := by
    rw [spelled, fingerprinted_length, fingerprinted, fields_append, ← List.append_assoc]
    apply List.take_left'
    rw [List.length_append, header_length]
  have hraw : (spelled kind t (fingerprinted P kind t attrs)).length =
      headerSize + (fields attrs).length + 8 := by
    rw [spelled, List.length_append, header_length, fingerprinted_length]
    rfl
  rw [Message.fingerprintValid, hfind]
  simp only [messageOf, htake, hraw, ← hcrc, Option.map_some]
  rfl

end Builder

end Csqtt.Stun
