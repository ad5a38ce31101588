/-
STUN messages: decoding, looking attributes up, and writing them down.

`decode` walks the attributes once to check them and `Attributes` walks them
again to read them; the two walks visit the same places, so here the decoded
message carries the list of its attributes.  The digests come from libraries and
are parameters.

* `decode_spelled` — a header followed by its attributes decodes to them.
-/
import Mathlib.Data.BitVec

namespace Csqtt.Stun

abbrev Bytes := List (BitVec 8)

/-- `[u8; n]`. -/
abbrev Octets (n : ℕ) := { bytes : Bytes // bytes.length = n }

/-- `crc32fast::hash`, `Md5` and `Hmac<Sha1>`. -/
structure Primitives where
  crc32 : Bytes → BitVec 32
  md5 : Bytes → Octets 16
  hmacSha1 : Octets 16 → Bytes → Octets 20

/-- `u16::from_be_bytes`. -/
def be16 (b₀ b₁ : BitVec 8) : BitVec 16 := b₀ ++ b₁

/-- `u32::from_be_bytes`. -/
def be32 (b₀ b₁ b₂ b₃ : BitVec 8) : BitVec 32 := b₀ ++ b₁ ++ b₂ ++ b₃

/-- `u16::to_be_bytes`. -/
def bytes16 (x : BitVec 16) : Bytes := [x.extractLsb' 8 8, x.extractLsb' 0 8]

/-- `u32::to_be_bytes`. -/
def bytes32 (x : BitVec 32) : Bytes :=
  [x.extractLsb' 24 8, x.extractLsb' 16 8, x.extractLsb' 8 8, x.extractLsb' 0 8]

/-- `HEADER_SIZE`. -/
def headerSize : ℕ := 20

/-- `MAGIC_COOKIE`. -/
def magicCookie : BitVec 32 := 0x2112a442

/-- `ATTR_FINGERPRINT`. -/
def attrFingerprint : BitVec 16 := 0x8028

/-- `FINGERPRINT_XOR`. -/
def fingerprintXor : BitVec 32 := 0x5354554e

inductive Class where
  | request
  | indication
  | success
  | error
  deriving DecidableEq, Repr

structure Attribute where
  kind : BitVec 16
  value : Bytes
  headerStart : ℕ
  deriving DecidableEq, Repr

structure Message where
  raw : Bytes
  kind : BitVec 16
  transaction : Octets 12
  attributes : List Attribute

/-- `(length + 3) & !3`. -/
def padded (length : ℕ) : ℕ := (length + 3) / 4 * 4

/-- The draft's number of XOR-MAPPED-ADDRESS is read as the final one. -/
def canonical (kind : BitVec 16) : BitVec 16 := if kind = 0x8020 then 0x0020 else kind

/-- The attributes from `position` on, where `rest` are the bytes left. -/
def parseAttributes (position : ℕ) (rest : Bytes) : Except String (List Attribute) :=
  match rest with
  | [] => .ok []
  | k₀ :: k₁ :: l₀ :: l₁ :: body =>
    let length := (be16 l₀ l₁).toNat
    if body.length < padded length then .error "STUN attribute value truncated"
    else
      (parseAttributes (position + 4 + padded length) (body.drop (padded length))).map
        fun attributes =>
          { kind := canonical (be16 k₀ k₁)
            value := body.take length
            headerStart := position } :: attributes
  | _ => .error "STUN attribute header truncated"
termination_by rest.length
decreasing_by
  rw [List.length_drop]
  simp only [List.length_cons]
  omega

/-- The two bits of the message type that hold the class. -/
def kindClass (kind : BitVec 16) : Class :=
  let bits := (kind >>> 4 &&& 1) ||| (kind >>> 7 &&& 2)
  if bits = 0 then .request
  else if bits = 1 then .indication
  else if bits = 2 then .success
  else .error

/-- The other bits of the message type. -/
def kindMethod (kind : BitVec 16) : BitVec 16 :=
  (kind &&& 0x000f) ||| (kind >>> 1 &&& 0x0070) ||| (kind >>> 2 &&& 0x0f80)

namespace Message

/-- `Message::decode`; an offset below `2 ^ 17` does not overflow `usize`. -/
def decode (raw : Bytes) : Except String Message :=
  match raw with
  | k₀ :: k₁ :: l₀ :: l₁ :: c₀ :: c₁ :: c₂ :: c₃ :: rest =>
    if h : rest.length < 12 then .error "STUN header truncated"
    else
      let kind := be16 k₀ k₁
      if kind &&& 0xc000 ≠ 0 then .error "STUN type has non-zero leading bits"
      else if kind = 0 then .error "STUN type zero is reserved"
      else if [c₀, c₁, c₂, c₃] ≠ bytes32 magicCookie then .error "STUN magic cookie mismatch"
      else if (be16 l₀ l₁).toNat % 4 ≠ 0 then .error "STUN message length is not aligned"
      else if raw.length ≠ headerSize + (be16 l₀ l₁).toNat then
        .error "STUN datagram length mismatch"
      else
        (parseAttributes headerSize (rest.drop 12)).map fun attributes =>
          { raw, kind, attributes
            transaction := ⟨rest.take 12, by rw [List.length_take]; omega⟩ }
  | _ => .error "STUN header truncated"

def «class» (m : Message) : Class := kindClass m.kind

def method (m : Message) : BitVec 16 := kindMethod m.kind

/-- `Message::attribute`: the first one of this kind. -/
def findAttribute (m : Message) (target : BitVec 16) : Option Attribute :=
  m.attributes.find? (·.kind = target)

/-- `fingerprint_valid`: nothing without a FINGERPRINT, which must come last. -/
def fingerprintValid (P : Primitives) (m : Message) : Option Bool :=
  (m.findAttribute attrFingerprint).map fun a =>
    a.value.length = 4 && a.headerStart + 8 = m.raw.length &&
      a.value = bytes32 (P.crc32 (m.raw.take a.headerStart) ^^^ fingerprintXor)

end Message

/-- A value is a part of the bytes that were parsed. -/
theorem parseAttributes_value_length {position : ℕ} {bytes : Bytes} {attributes : List Attribute}
    (h : parseAttributes position bytes = .ok attributes) :
    ∀ a ∈ attributes, a.value.length ≤ bytes.length := by
  fun_induction parseAttributes position bytes generalizing attributes with
  | case1 =>
    rw [← Except.ok.inj h]
    exact fun a ha => absurd ha List.not_mem_nil
  | case2 => exact nomatch h
  | case3 position k₀ k₁ l₀ l₁ body length hlong =>
    rename_i ih
    rcases hrest : parseAttributes (position + 4 + padded length) (body.drop (padded length)) with
      e | rest
    · rw [hrest] at h
      exact nomatch h
    rw [hrest] at h
    rw [← Except.ok.inj h]
    intro a ha
    rcases List.mem_cons.mp ha with rfl | ha
    · simp only [List.length_take, List.length_cons]
      omega
    · have hle := ih hrest a ha
      rw [List.length_drop] at hle
      simp only [List.length_cons]
      omega
  | case4 => exact nomatch h

/-- What `decode` has checked, and where the parts of the message come from. -/
theorem decode_eq_ok {raw : Bytes} {m : Message} (h : Message.decode raw = .ok m) :
    m.raw = raw ∧ headerSize ≤ raw.length ∧
      (∃ k₀ k₁, raw.take 2 = [k₀, k₁] ∧ m.kind = be16 k₀ k₁) ∧
      m.transaction.val = (raw.drop 8).take 12 ∧
      parseAttributes headerSize (raw.drop headerSize) = .ok m.attributes := by
  rw [Message.decode.eq_def] at h
  split at h
  · next k₀ k₁ l₀ l₁ c₀ c₁ c₂ c₃ rest =>
    simp only at h
    split_ifs at h with hshort
    rcases hparse : parseAttributes headerSize (rest.drop 12) with e | attributes
    · rw [hparse] at h
      exact nomatch h
    rw [hparse] at h
    rw [← Except.ok.inj h]
    refine ⟨rfl, ?_, ⟨k₀, k₁, rfl, rfl⟩, rfl, hparse⟩
    simp only [List.length_cons, headerSize]
    omega
  · exact nomatch h

theorem decode_value_length {raw : Bytes} {m : Message} (h : Message.decode raw = .ok m) :
    ∀ a ∈ m.attributes, a.value.length ≤ raw.length := by
  obtain ⟨_, _, _, _, hparse⟩ := decode_eq_ok h
  intro a ha
  have hle := parseAttributes_value_length hparse a ha
  rw [List.length_drop] at hle
  omega

/-! ### Writing down -/

theorem be16_extract (x : BitVec 16) : be16 (x.extractLsb' 8 8) (x.extractLsb' 0 8) = x := by
  show x.extractLsb' 8 8 ++ x.extractLsb' 0 8 = x
  apply BitVec.eq_of_getLsbD_eq
  intro i hi
  rw [BitVec.getLsbD_append]
  by_cases h8 : i < 8
  · simp [h8]
  · simp [h8, show 8 + (i - 8) = i by omega, show i - 8 < 8 by omega]

def header (kind length : BitVec 16) (t : Octets 12) : Bytes :=
  bytes16 kind ++ bytes16 length ++ bytes32 magicCookie ++ t.val

/-- One attribute with its padding. -/
def field (kind : BitVec 16) (value : Bytes) : Bytes :=
  bytes16 kind ++ bytes16 (BitVec.ofNat 16 value.length) ++ value ++
    List.replicate (padded value.length - value.length) 0

def fields (attrs : List (BitVec 16 × Bytes)) : Bytes := attrs.flatMap fun a => field a.1 a.2

/-- The attributes as `parseAttributes` finds them. -/
def locate (position : ℕ) : List (BitVec 16 × Bytes) → List Attribute
  | [] => []
  | (kind, value) :: attrs =>
    { kind := canonical kind, value, headerStart := position } ::
      locate (position + 4 + padded value.length) attrs

@[simp] theorem header_length (kind length : BitVec 16) (t : Octets 12) :
    (header kind length t).length = headerSize := by
  simp only [header, List.length_append, t.property]
  rfl

theorem le_padded (n : ℕ) : n ≤ padded n := by
  rw [padded]
  omega

@[simp] theorem field_length (kind : BitVec 16) (value : Bytes) :
    (field kind value).length = 4 + padded value.length := by
  have hle := le_padded value.length
  simp only [field, bytes16, List.length_append, List.length_cons, List.length_nil,
    List.length_replicate]
  omega

@[simp] theorem fields_nil : fields [] = [] := rfl

theorem fields_cons (kind : BitVec 16) (value : Bytes) (attrs : List (BitVec 16 × Bytes)) :
    fields ((kind, value) :: attrs) = field kind value ++ fields attrs := rfl

theorem fields_append (as bs : List (BitVec 16 × Bytes)) :
    fields (as ++ bs) = fields as ++ fields bs := List.flatMap_append

theorem fields_length_mod (attrs : List (BitVec 16 × Bytes)) : (fields attrs).length % 4 = 0 := by
  induction attrs with
  | nil => rfl
  | cons a attrs ih =>
    rw [fields_cons, List.length_append, field_length, padded]
    omega

/-- The padding is skipped and the value comes back, whatever follows. -/
theorem parseAttributes_field {kind : BitVec 16} {value rest : Bytes} {position : ℕ}
    (hv : value.length < 2 ^ 16) :
    parseAttributes position (field kind value ++ rest) =
      (parseAttributes (position + 4 + padded value.length) rest).map
        ({ kind := canonical kind, value, headerStart := position } :: ·) := by
  have hlen : (BitVec.ofNat 16 value.length).toNat = value.length := by
    rw [BitVec.toNat_ofNat, Nat.mod_eq_of_lt hv]
  have hle := le_padded value.length
  -- the bytes after the four of the attribute's header
  set body := value ++ (List.replicate (padded value.length - value.length) 0 ++ rest) with hbody
  have hsplit : field kind value ++ rest =
      kind.extractLsb' 8 8 :: kind.extractLsb' 0 8 ::
        (BitVec.ofNat 16 value.length).extractLsb' 8 8 ::
        (BitVec.ofNat 16 value.length).extractLsb' 0 8 :: body := by
    simp only [field, bytes16, List.append_assoc, List.cons_append, List.nil_append, hbody]
  have htake : body.take value.length = value := List.take_left
  have hdrop : body.drop (padded value.length) = rest := by
    rw [hbody, ← List.append_assoc]
    apply List.drop_left'
    rw [List.length_append, List.length_replicate]
    omega
  have hfits : ¬ body.length < padded value.length := by
    simp only [hbody, List.length_append, List.length_replicate]
    omega
  rw [hsplit, parseAttributes]
  simp only [be16_extract, hlen, htake, hdrop, hfits, if_false]

theorem parseAttributes_fields {attrs : List (BitVec 16 × Bytes)} {position : ℕ}
    (h : (fields attrs).length < 2 ^ 16) :
    parseAttributes position (fields attrs) = .ok (locate position attrs) := by
  induction attrs generalizing position with
  | nil => rw [fields_nil, parseAttributes, locate]
  | cons a attrs ih =>
    obtain ⟨kind, value⟩ := a
    rw [fields_cons, List.length_append, field_length] at h
    have hle := le_padded value.length
    rw [fields_cons, parseAttributes_field (by omega), ih (by omega), locate]
    rfl

/-- A header with the right length, followed by its attributes, decodes to them. -/
theorem decode_spelled {kind : BitVec 16} {t : Octets 12} {attrs : List (BitVec 16 × Bytes)}
    (hkind : kind &&& 0xc000 = 0) (hzero : kind ≠ 0) (h : (fields attrs).length < 2 ^ 16) :
    Message.decode (header kind (BitVec.ofNat 16 (fields attrs).length) t ++ fields attrs) =
      .ok { raw := header kind (BitVec.ofNat 16 (fields attrs).length) t ++ fields attrs
            kind
            transaction := t
            attributes := locate headerSize attrs } := by
  have hlen : (BitVec.ofNat 16 (fields attrs).length).toNat = (fields attrs).length := by
    rw [BitVec.toNat_ofNat, Nat.mod_eq_of_lt h]
  have hmod := fields_length_mod attrs
  have htotal := header_length kind (BitVec.ofNat 16 (fields attrs).length) t
  have ht := t.property
  set raw := header kind (BitVec.ofNat 16 (fields attrs).length) t ++ fields attrs with hraw
  have hsplit : raw = kind.extractLsb' 8 8 :: kind.extractLsb' 0 8 ::
      (BitVec.ofNat 16 (fields attrs).length).extractLsb' 8 8 ::
      (BitVec.ofNat 16 (fields attrs).length).extractLsb' 0 8 ::
      magicCookie.extractLsb' 24 8 :: magicCookie.extractLsb' 16 8 ::
      magicCookie.extractLsb' 8 8 :: magicCookie.extractLsb' 0 8 :: (t.val ++ fields attrs) := by
    simp only [hraw, header, bytes16, bytes32, List.cons_append, List.nil_append]
  have htake : (t.val ++ fields attrs).take 12 = t.val := List.take_left' ht
  have hdrop : (t.val ++ fields attrs).drop 12 = fields attrs := List.drop_left' ht
  have hlong : ¬ (t.val ++ fields attrs).length < 12 := by
    rw [List.length_append]
    omega
  have hrawlen : raw.length = headerSize + (fields attrs).length := by
    rw [hraw, List.length_append, htotal]
  rw [Message.decode.eq_def, hsplit]
  simp only [← hsplit, be16_extract, hlen, hmod, hrawlen, hlong, hkind, hzero, hdrop, htake,
    parseAttributes_fields h, dif_neg, ne_eq, not_true_eq_false, not_false_eq_true, if_false,
    bytes32, Except.map, Subtype.coe_eta]

end Csqtt.Stun
