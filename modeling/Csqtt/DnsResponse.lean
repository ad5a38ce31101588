/-
What the resolver accepts as a DNS response.

`parse_response` walks over the names, the questions and the records with offsets and counts
that come from the packet.  Here a read outside of the packet is a panic, `get` and the length
checks refuse, and the messages of the protocol are data: labels, pointers, questions, records,
and their bytes.

* `parse_iff` — no packet makes it panic, and it returns addresses exactly when the packet is
  a message's bytes with the right number and flags: those of its answers, without repetition.
-/
import Csqtt.ByteOrder
import Csqtt.Checked
import Csqtt.PacketBuf
import Mathlib

open ByteOrder Checked

namespace Csqtt.DnsResponse

/-- `IpAddr`. -/
inductive IpAddr where
  | v4 (a b c d : BitVec 8)
  | v6 (octets : { bytes : Packet // bytes.length = 16 })
  deriving DecidableEq

/-- `DNS_A_RECORD` and `DNS_AAAA_RECORD`. -/
def dnsARecord : BitVec 16 := 1
def dnsAaaaRecord : BitVec 16 := 28

/-- `get` of two bytes. -/
def readU16 (message : Packet) (offset : ℕ) : Except String (BitVec 16) :=
  match slice message offset (offset + 2) with
  | none => .error "обрезанный DNS-заголовок"
  | some bytes => .ok (BitVec.ofNat 16 (ofBytes bytes))

/-- `checked_add` with the bound of the message. -/
def within (message : Packet) (offset : ℕ) (refusal : String) : Except String ℕ :=
  if offset ≤ message.length then .ok offset else .error refusal

/-- The loop of `skip_name`; every turn moves on by a length byte and its label. -/
def skipName (message : Packet) (offset : ℕ) : Except String ℕ :=
  match h : message[offset]? with
  | none => .error "повреждён DNS name"
  | some length =>
    if length &&& 0xc0 = 0xc0 then
      within message (offset + 2) "повреждён DNS compression pointer"
    else if length &&& 0xc0 ≠ 0 then .error "некорректный DNS name"
    else if length = 0 then .ok (offset + 1)
    else if offset + 1 + length.toNat ≤ message.length then
      skipName message (offset + 1 + length.toNat)
    else .error "обрезанный DNS name"
termination_by message.length - offset
decreasing_by
  have := List.getElem?_eq_some_iff.mp h
  omega

/-- The loop over the questions. -/
def skipQuestions (message : Packet) : ℕ → ℕ → Except String ℕ
  | 0, offset => .ok offset
  | questions + 1, offset =>
    match skipName message offset with
    | .error e => .error e
    | .ok offset =>
      match within message (offset + 4) "повреждён DNS-вопрос" with
      | .error e => .error e
      | .ok offset => skipQuestions message questions offset

/-- An address joins those that have been found, unless it is one of them. -/
def found (addresses : List IpAddr) (address : IpAddr) : List IpAddr :=
  if address ∈ addresses then addresses else addresses ++ [address]

/-- The address of an A record; its bytes are read by index. -/
def collectA (message : Packet) (recordType recordClass : BitVec 16) (dataLength dataOffset : ℕ)
    (addresses : List IpAddr) : Option (List IpAddr) :=
  if recordClass = 1 ∧ recordType = dnsARecord ∧ dataLength = 4 then do
    let a ← message[dataOffset]?
    let b ← message[dataOffset + 1]?
    let c ← message[dataOffset + 2]?
    let d ← message[dataOffset + 3]?
    return found addresses (.v4 a b c d)
  else some addresses

/-- The address of an AAAA record, which is copied from a slice. -/
def collectAaaa (message : Packet) (recordType recordClass : BitVec 16)
    (dataLength dataOffset nextOffset : ℕ) (addresses : List IpAddr) : Option (List IpAddr) :=
  if recordClass = 1 ∧ recordType = dnsAaaaRecord ∧ dataLength = 16 then do
    let octets ← slice message dataOffset nextOffset
    -- `copy_from_slice` panics for another length
    if h : octets.length = 16 then return found addresses (.v6 ⟨octets, h⟩) else none
  else some addresses

def collect (message : Packet) (recordType recordClass : BitVec 16)
    (dataLength dataOffset nextOffset : ℕ) (addresses : List IpAddr) : Option (List IpAddr) := do
  let addresses ← collectA message recordType recordClass dataLength dataOffset addresses
  collectAaaa message recordType recordClass dataLength dataOffset nextOffset addresses

/-- One turn of the loop over the answers. -/
def readAnswer (message : Packet) (offset : ℕ) (addresses : List IpAddr) :
    ExceptT String Option (ℕ × List IpAddr) := do
  let offset ← refuse (skipName message offset)
  let recordType ← refuse (readU16 message offset)
  let recordClass ← refuse (readU16 message (offset + 2))
  let dataLength ← refuse (readU16 message (offset + 8))
  let dataOffset ← refuse (within message (offset + 10) "повреждён DNS-ответ")
  let nextOffset ← refuse
    (within message (dataOffset + dataLength.toNat) "повреждён DNS resource record")
  let addresses ← demand
    (collect message recordType recordClass dataLength.toNat dataOffset nextOffset addresses)
  return (nextOffset, addresses)

def readAnswers (message : Packet) : ℕ → ℕ → List IpAddr → ExceptT String Option (List IpAddr)
  | 0, _, addresses => pure addresses
  | answers + 1, offset, addresses => do
    let r ← readAnswer message offset addresses
    readAnswers message answers r.1 r.2

/-- The checks of the flags. -/
def checkFlags (flags : BitVec 16) : Except String Unit :=
  if flags &&& 0x8000 = 0 then .error "DNS-ответ без флага response"
  else if flags &&& 0x0200 ≠ 0 then .error "DNS-ответ требует TCP-повторения"
  else
    let status := flags &&& 0x000f
    if status ≠ 0 then .error s!"DNS-ответ с кодом {status.toNat}" else .ok ()

/-- The checks of the first two words. -/
def checkHeader (response : Packet) (queryId : BitVec 16) : Except String Unit :=
  if response.length < 12 then .error "слишком короткий DNS-ответ"
  else
    match readU16 response 0 with
    | .error e => .error e
    | .ok id =>
      if id ≠ queryId then .error "DNS-ответ с чужим идентификатором"
      else
        match readU16 response 2 with
        | .error e => .error e
        | .ok flags => checkFlags flags

def parseResponse (response : Packet) (queryId : BitVec 16) :
    ExceptT String Option (List IpAddr) := do
  refuse (checkHeader response queryId)
  let questions ← refuse (readU16 response 4)
  let answers ← refuse (readU16 response 6)
  let offset ← refuse (skipQuestions response questions.toNat 12)
  readAnswers response answers.toNat offset []

/-! ### Messages -/

/-- A label of one to sixty-three bytes. -/
structure Label where
  bytes : Packet
  pos : 0 < bytes.length
  short : bytes.length ≤ 63

/-- A name ends at the root, or with a pointer to another place of the message. -/
inductive Ending where
  | root
  | pointer (high : BitVec 6) (low : BitVec 8)

structure DomainName where
  labels : List Label
  ending : Ending

structure Question where
  name : DomainName
  type : BitVec 16
  cls : BitVec 16

structure Record where
  name : DomainName
  type : BitVec 16
  cls : BitVec 16
  ttl : BitVec 32
  data : Packet
  short : data.length < 2 ^ 16

structure Message where
  id : BitVec 16
  flags : BitVec 16
  questions : List Question
  answers : List Record
  /-- The counts of the sections that are not read, and their bytes. -/
  counts : BitVec 32
  rest : Packet
  fewQuestions : questions.length < 2 ^ 16
  fewAnswers : answers.length < 2 ^ 16

def Label.encode (l : Label) : Packet := BitVec.ofNat 8 l.bytes.length :: l.bytes

def Ending.encode : Ending → Packet
  | root => [0]
  | pointer high low => [3#2 ++ high, low]

def DomainName.encode (n : DomainName) : Packet := n.labels.flatMap Label.encode ++ n.ending.encode

def Question.encode (q : Question) : Packet :=
  q.name.encode ++ toBytes 2 q.type.toNat ++ toBytes 2 q.cls.toNat

def Record.encode (r : Record) : Packet :=
  r.name.encode ++ toBytes 2 r.type.toNat ++ toBytes 2 r.cls.toNat ++ toBytes 4 r.ttl.toNat ++
    toBytes 2 r.data.length ++ r.data

/-- The header, the questions and the answers. -/
def Message.sections (m : Message) : Packet :=
  toBytes 2 m.id.toNat ++ toBytes 2 m.flags.toNat ++ toBytes 2 m.questions.length ++
    toBytes 2 m.answers.length ++ toBytes 4 m.counts.toNat ++
      m.questions.flatMap Question.encode ++ m.answers.flatMap Record.encode

def Message.encode (m : Message) : Packet := m.sections ++ m.rest

def v4Of : Packet → Option IpAddr
  | [a, b, c, d] => some (.v4 a b c d)
  | _ => none

def v6Of (data : Packet) : Option IpAddr :=
  if h : data.length = 16 then some (.v6 ⟨data, h⟩) else none

/-- The address in a record: of class IN, A with four bytes or AAAA with sixteen. -/
def Record.address (r : Record) : Option IpAddr :=
  if r.cls ≠ 1 then none
  else if r.type = dnsARecord then v4Of r.data
  else if r.type = dnsAaaaRecord then v6Of r.data
  else none

/-- The addresses of the answers, each where it first occurs. -/
def Message.addresses (m : Message) : List IpAddr := (m.answers.filterMap Record.address).eraseDups

/-- A response to this query: QR set, TC clear, RCODE 0. -/
structure Message.Answers (m : Message) (queryId : BitVec 16) : Prop where
  id : m.id = queryId
  response : m.flags &&& 0x8000 ≠ 0
  whole : m.flags &&& 0x0200 = 0
  success : m.flags &&& 0x000f = 0

/-! ### Reading at an offset -/

section Offsets

variable {message a rest : Packet} {offset next : ℕ}

/-- What stands behind a piece of the message. -/
theorem drop_behind (h : message.drop offset = a ++ rest) :
    message.drop (offset + a.length) = rest := by
  rw [← List.drop_drop, h, List.drop_left]

theorem length_ahead (h : message.drop offset = a ++ rest) (hpos : 0 < a.length) :
    offset + a.length + rest.length = message.length := by
  have hlen := congrArg List.length h
  rw [List.length_drop, List.length_append] at hlen
  omega

/-- The piece stands in the message at this offset. -/
def At (message : Packet) (offset : ℕ) (piece : Packet) : Prop := piece <+: message.drop offset

/-- Two pieces stand one behind the other. -/
theorem at_append {b : Packet} :
    At message offset (a ++ b) ↔ At message offset a ∧ At message (offset + a.length) b := by
  constructor
  · rintro ⟨rest, h⟩
    rw [List.append_assoc] at h
    exact ⟨⟨_, h⟩, rest, (drop_behind h.symm).symm⟩
  · rintro ⟨⟨rest, h⟩, rest', h'⟩
    rw [drop_behind h.symm] at h'
    exact ⟨rest', by rw [List.append_assoc, h', h]⟩

theorem At.length_le (h : At message offset a) (hpos : 0 < a.length) :
    offset + a.length ≤ message.length := by
  obtain ⟨rest, h⟩ := h
  have := length_ahead h.symm hpos
  omega

/-- Where there is room for a word there is one. -/
theorem exists_word_at {n w : ℕ} (hw : 2 ^ w = 256 ^ n) (h : offset + n ≤ message.length) :
    ∃ v : BitVec w, At message offset (toBytes n v.toNat) :=
  ⟨_, _, (exists_word hw (show n ≤ (message.drop offset).length by
    rw [List.length_drop]; omega)).symm⟩

theorem within_eq_ok {refusal : String} :
    within message offset refusal = .ok next ↔ offset ≤ message.length ∧ next = offset := by
  unfold within
  split
  case isTrue h => simp [h, eq_comm]
  case isFalse h => simp [h]

/-- The two bytes at an offset. -/
theorem readU16_eq_ok {v : BitVec 16} :
    readU16 message offset = .ok v ↔ At message offset (toBytes 2 v.toNat) := by
  unfold readU16
  constructor
  · intro h
    split at h
    · cases h
    next bytes hslice =>
      obtain ⟨⟨-, hlong⟩, rfl⟩ := slice_eq_some.mp hslice
      obtain rfl := Except.ok.inj h
      rw [Nat.add_sub_cancel_left]
      exact ⟨_, (exists_word (by norm_num) (by rw [List.length_drop]; omega)).symm⟩
  · intro h
    have hlen := h.length_le (by rw [toBytes_length]; omega)
    rw [toBytes_length] at hlen
    obtain ⟨rest, h⟩ := h
    rw [slice_eq (by omega) (by omega), Nat.add_sub_cancel_left, ← h,
      List.take_left' (toBytes_length _ _)]
    have hword : BitVec.ofNat 16 (ofBytes (toBytes 2 v.toNat)) = v :=
      ofBytes_toBytes_word v (by norm_num)
    simp only [hword]

end Offsets

/-! ### Names -/

/-- The two upper bits of a length byte. -/
theorem and_c0_eq_zero_iff : ∀ b : BitVec 8, b &&& 0xc0 = 0 ↔ b.toNat ≤ 63 := by decide

theorem pointer_byte : ∀ b : BitVec 8, b &&& 0xc0 = 0xc0 → 3#2 ++ b.setWidth 6 = b := by decide

theorem pointer_and : ∀ high : BitVec 6, (3#2 ++ high) &&& 0xc0 = 0xc0 := by decide

theorem DomainName.encode_pos (n : DomainName) : 0 < n.encode.length := by
  rw [DomainName.encode, List.length_append]
  cases n.ending with
  | root => exact Nat.lt_of_lt_of_le Nat.one_pos (Nat.le_add_left _ _)
  | pointer high low => exact Nat.lt_of_lt_of_le Nat.two_pos (Nat.le_add_left _ _)

theorem DomainName.encode_cons (l : Label) (ls : List Label) (e : Ending) :
    DomainName.encode ⟨l :: ls, e⟩ =
      (BitVec.ofNat 8 l.bytes.length :: l.bytes) ++ DomainName.encode ⟨ls, e⟩ := by
  rw [DomainName.encode, DomainName.encode, List.flatMap_cons, List.append_assoc]
  rfl

/-- The byte at an offset and what follows it. -/
theorem drop_of_getElem? {message : Packet} {offset : ℕ} {b : BitVec 8}
    (h : message[offset]? = some b) :
    offset < message.length ∧ message.drop offset = b :: message.drop (offset + 1) := by
  obtain ⟨hlt, rfl⟩ := List.getElem?_eq_some_iff.mp h
  exact ⟨hlt, List.drop_eq_getElem_cons hlt⟩

/-- A name is skipped when there is one, and the offset is then the one behind it. -/
theorem name_of_skipName {message : Packet} {offset next : ℕ}
    (h : skipName message offset = .ok next) :
    ∃ (n : DomainName) (rest : Packet),
      message.drop offset = n.encode ++ rest ∧ next = offset + n.encode.length := by
  fun_induction skipName message offset with
  | case1 offset => cases h
  | case2 offset b hb hpointer =>
    obtain ⟨hle, rfl⟩ := within_eq_ok.mp h
    obtain ⟨hlt, hdrop⟩ := drop_of_getElem? hb
    have hlow : message.drop (offset + 1) = message[offset + 1] :: message.drop (offset + 2) :=
      List.drop_eq_getElem_cons (by omega)
    refine ⟨⟨[], .pointer (b.setWidth 6) message[offset + 1]⟩, message.drop (offset + 2), ?_, rfl⟩
    rw [hdrop, hlow, DomainName.encode, Ending.encode, pointer_byte b hpointer]
    rfl
  | case3 offset b hb hpointer hupper => cases h
  | case4 offset hb hpointer hupper =>
    obtain rfl := Except.ok.inj h
    obtain ⟨-, hdrop⟩ := drop_of_getElem? hb
    exact ⟨⟨[], .root⟩, message.drop (offset + 1), hdrop, rfl⟩
  | case5 offset b hb hpointer hupper hzero hroom ih =>
    obtain ⟨n, rest, hrest, rfl⟩ := ih h
    obtain ⟨hlt, hdrop⟩ := drop_of_getElem? hb
    have hshort := (and_c0_eq_zero_iff b).mp (not_not.mp hupper)
    have hpos : 0 < b.toNat := Nat.pos_of_ne_zero fun h0 => hzero (BitVec.eq_of_toNat_eq h0)
    have hlen : ((message.drop (offset + 1)).take b.toNat).length = b.toNat := by
      rw [List.length_take, List.length_drop]
      omega
    obtain ⟨l, hl⟩ : ∃ l : Label, l.bytes = (message.drop (offset + 1)).take b.toNat :=
      ⟨⟨_, by omega, by omega⟩, rfl⟩
    have hbytes : l.bytes.length = b.toNat := by rw [hl, hlen]
    have hbyte : BitVec.ofNat 8 l.bytes.length = b := by
      rw [hbytes, BitVec.ofNat_toNat, BitVec.setWidth_eq]
    have htail : message.drop (offset + 1) =
        (message.drop (offset + 1)).take b.toNat ++ message.drop (offset + 1 + b.toNat) := by
      rw [← List.drop_drop (i := b.toNat), List.take_append_drop]
    obtain ⟨labels, ending⟩ := n
    refine ⟨⟨l :: labels, ending⟩, rest, ?_, ?_⟩
    · rw [DomainName.encode_cons, hbyte, hdrop, List.append_assoc, ← hrest, hl, List.cons_append,
        ← htail]
    · rw [DomainName.encode_cons, List.length_append, List.length_cons, hbytes]
      omega
  | case6 offset b hb hpointer hupper hzero hroom => cases h

theorem skipName_of_name {message rest : Packet} {offset : ℕ} (n : DomainName)
    (h : message.drop offset = n.encode ++ rest) :
    skipName message offset = .ok (offset + n.encode.length) := by
  obtain ⟨labels, ending⟩ := n
  induction labels generalizing offset with
  | nil =>
    cases ending with
    | root =>
      have hget : message[offset]? = some 0 := by
        rw [← List.head?_drop, h]
        rfl
      rw [skipName]
      split
      next hnone => exact absurd (hnone.symm.trans hget) (by simp)
      next b hb =>
        obtain rfl := Option.some_inj.mp (hget.symm.trans hb)
        rw [if_neg (by decide), if_neg (by decide), if_pos rfl]
        rfl
    | pointer high low =>
      have hget : message[offset]? = some (3#2 ++ high) := by
        rw [← List.head?_drop, h]
        rfl
      have hlen := length_ahead h (DomainName.encode_pos _)
      have htwo : (DomainName.encode ⟨[], .pointer high low⟩).length = 2 := rfl
      rw [skipName]
      split
      next hnone => exact absurd (hnone.symm.trans hget) (by simp)
      next b hb =>
        obtain rfl := Option.some_inj.mp (hget.symm.trans hb)
        rw [if_pos (pointer_and high), within, if_pos (by omega), htwo]
  | cons l labels ih =>
    rw [DomainName.encode_cons, List.append_assoc] at h
    have hpos := l.pos
    have hshort := l.short
    have hlabel : (BitVec.ofNat 8 l.bytes.length).toNat = l.bytes.length := by
      rw [BitVec.toNat_ofNat, Nat.mod_eq_of_lt (by omega)]
    have hget : message[offset]? = some (BitVec.ofNat 8 l.bytes.length) := by
      rw [← List.head?_drop, h]
      rfl
    have hbehind := drop_behind h
    have hlen := length_ahead h (by rw [List.length_cons]; omega)
    rw [List.length_cons] at hbehind hlen
    have hupper : BitVec.ofNat 8 l.bytes.length &&& 0xc0 = 0 :=
      (and_c0_eq_zero_iff _).mpr (by omega)
    have hne : BitVec.ofNat 8 l.bytes.length ≠ 0 := by
      intro hzero
      rw [hzero] at hlabel
      exact absurd hlabel (by simp; omega)
    have hnext : offset + 1 + l.bytes.length = offset + (l.bytes.length + 1) := by omega
    rw [skipName]
    split
    next hnone => exact absurd (hnone.symm.trans hget) (by simp)
    next b hb =>
      obtain rfl := Option.some_inj.mp (hget.symm.trans hb)
      rw [if_neg (by rw [hupper]; decide), if_neg (not_not.mpr hupper), if_neg hne, hlabel,
        if_pos (by omega), hnext, ih hbehind, DomainName.encode_cons, List.length_append,
        List.length_cons, Nat.add_assoc]

theorem skipName_eq_ok {message : Packet} {offset next : ℕ} : skipName message offset = .ok next ↔
    ∃ n : DomainName, At message offset n.encode ∧ next = offset + n.encode.length := by
  constructor
  · intro h
    obtain ⟨n, rest, hdrop, hnext⟩ := name_of_skipName h
    exact ⟨n, ⟨rest, hdrop.symm⟩, hnext⟩
  · rintro ⟨n, ⟨rest, hdrop⟩, rfl⟩
    exact skipName_of_name n hdrop.symm

/-! ### Questions -/

theorem question_at {message : Packet} {offset : ℕ} {q : Question} :
    At message offset q.encode ↔ At message offset q.name.encode ∧
      At message (offset + q.name.encode.length) (toBytes 2 q.type.toNat) ∧
        At message (offset + q.name.encode.length + 2) (toBytes 2 q.cls.toNat) := by
  rw [Question.encode, List.append_assoc, at_append, at_append, toBytes_length]

theorem Question.encode_length (q : Question) : q.encode.length = q.name.encode.length + 4 := by
  rw [Question.encode, List.length_append, List.length_append, toBytes_length, toBytes_length]

theorem skipQuestions_eq_ok {message : Packet} (count : ℕ) {offset next : ℕ} :
    skipQuestions message count offset = .ok next ↔
      ∃ qs : List Question, qs.length = count ∧ At message offset (qs.flatMap Question.encode) ∧
        next = offset + (qs.flatMap Question.encode).length := by
  induction count generalizing offset with
  | zero =>
    constructor
    · intro h
      obtain rfl := Except.ok.inj h
      exact ⟨[], rfl, List.nil_prefix, rfl⟩
    · rintro ⟨qs, hnone, -, rfl⟩
      obtain rfl := List.length_eq_zero_iff.mp hnone
      rfl
  | succ count ih =>
    rw [skipQuestions]
    constructor
    · intro h
      split at h
      · cases h
      next behind hname =>
        obtain ⟨n, hn, rfl⟩ := skipName_eq_ok.mp hname
        split at h
        · cases h
        next after hwithin =>
          obtain ⟨hroom, rfl⟩ := within_eq_ok.mp hwithin
          obtain ⟨qs, hqs, hrest, rfl⟩ := ih.mp h
          obtain ⟨type, htype⟩ := exists_word_at (n := 2) (w := 16) (by norm_num)
            (show offset + n.encode.length + 2 ≤ message.length by omega)
          obtain ⟨cls, hcls⟩ := exists_word_at (n := 2) (w := 16) (by norm_num)
            (show offset + n.encode.length + 2 + 2 ≤ message.length by omega)
          have hlen := Question.encode_length ⟨n, type, cls⟩
          refine ⟨⟨n, type, cls⟩ :: qs, by rw [List.length_cons, hqs], ?_, ?_⟩
          · rw [List.flatMap_cons, at_append, hlen, ← Nat.add_assoc]
            exact ⟨question_at.mpr ⟨hn, htype, hcls⟩, hrest⟩
          · rw [List.flatMap_cons, List.length_append, hlen, ← Nat.add_assoc, ← Nat.add_assoc]
    · rintro ⟨qs, hcount, hat, rfl⟩
      cases qs with
      | nil => cases hcount
      | cons q qs =>
        rw [List.flatMap_cons, at_append] at hat
        obtain ⟨hn, htype, hcls⟩ := question_at.mp hat.1
        have hlen := q.encode_length
        have hroom := hcls.length_le (by rw [toBytes_length]; omega)
        rw [toBytes_length] at hroom
        have hwithin : within message (offset + q.name.encode.length + 4) "повреждён DNS-вопрос" =
            .ok (offset + q.encode.length) :=
          within_eq_ok.mpr ⟨by omega, by omega⟩
        rw [skipName_eq_ok.mpr ⟨q.name, hn, rfl⟩]
        simp only [hwithin]
        rw [ih]
        refine ⟨qs, Nat.succ_inj.mp hcount, hat.2, ?_⟩
        rw [List.flatMap_cons, List.length_append, Nat.add_assoc]

/-! ### Answers -/

theorem Record.encode_length (r : Record) :
    r.encode.length = r.name.encode.length + 10 + r.data.length := by
  rw [Record.encode]
  simp only [List.length_append, toBytes_length]

/-- Where the fields of a record stand. -/
theorem record_at {message : Packet} {offset : ℕ} {r : Record} :
    At message offset r.encode ↔ At message offset r.name.encode ∧
      At message (offset + r.name.encode.length) (toBytes 2 r.type.toNat) ∧
      At message (offset + r.name.encode.length + 2) (toBytes 2 r.cls.toNat) ∧
      At message (offset + r.name.encode.length + 4) (toBytes 4 r.ttl.toNat) ∧
      At message (offset + r.name.encode.length + 8) (toBytes 2 r.data.length) ∧
        At message (offset + r.name.encode.length + 10) r.data := by
  rw [Record.encode]
  simp only [List.append_assoc, at_append, toBytes_length, Nat.add_assoc, Nat.reduceAdd]

theorem v4Of_eq_none {data : Packet} (h : data.length ≠ 4) : v4Of data = none := by
  unfold v4Of
  split
  · exact absurd rfl h
  · rfl

/-- The bytes of a piece, read where it stands. -/
theorem At.getElem? {message piece : Packet} {offset i : ℕ} (h : At message offset piece)
    (hi : i < piece.length) : message[offset + i]? = piece[i]? := by
  obtain ⟨rest, h⟩ := h
  rw [← List.getElem?_drop, ← h, List.getElem?_append_left hi]

theorem collectA_eq {message : Packet} {offset : ℕ} {r : Record} (h : At message offset r.data)
    (hcls : r.cls = 1) (htype : r.type = dnsARecord) (addresses : List IpAddr) :
    collectA message r.type r.cls r.data.length offset addresses =
      some ((v4Of r.data).elim addresses (found addresses)) := by
  unfold collectA
  by_cases hlen : r.data.length = 4
  · rw [if_pos ⟨hcls, htype, hlen⟩]
    rcases hdata : r.data with _ | ⟨a, _ | ⟨b, _ | ⟨c, _ | ⟨d, _ | ⟨e, data⟩⟩⟩⟩⟩
    case cons.cons.cons.cons.nil =>
      rw [hdata] at h
      have ha : message[offset]? = some a := h.getElem? (i := 0) (by simp)
      have hb : message[offset + 1]? = some b := h.getElem? (by simp)
      have hc : message[offset + 2]? = some c := h.getElem? (by simp)
      have hd : message[offset + 3]? = some d := h.getElem? (by simp)
      rw [ha, hb, hc, hd]
      rfl
    all_goals simp [hdata] at hlen
  · rw [if_neg fun hall => hlen hall.2.2, v4Of_eq_none hlen, Option.elim_none]

theorem collectAaaa_eq {message : Packet} {offset : ℕ} {r : Record} (h : At message offset r.data)
    (hcls : r.cls = 1) (htype : r.type = dnsAaaaRecord) (addresses : List IpAddr) :
    collectAaaa message r.type r.cls r.data.length offset (offset + r.data.length) addresses =
      some ((v6Of r.data).elim addresses (found addresses)) := by
  unfold collectAaaa v6Of
  by_cases hlen : r.data.length = 16
  · have hroom := h.length_le (by omega)
    have hdata : (message.drop offset).take r.data.length = r.data := by
      obtain ⟨rest, h⟩ := h
      rw [← h, List.take_left' rfl]
    rw [if_pos ⟨hcls, htype, hlen⟩, slice_eq (by omega) hroom, Nat.add_sub_cancel_left, hdata,
      dif_pos hlen]
    simp only [Option.bind_eq_bind, Option.bind_some, dif_pos hlen]
    rfl
  · rw [if_neg fun hall => hlen hall.2.2, dif_neg hlen, Option.elim_none]

/-- The address of a record is found, and none of the reads fails. -/
theorem collect_eq {message : Packet} {offset : ℕ} {r : Record} (h : At message offset r.data)
    (addresses : List IpAddr) :
    collect message r.type r.cls r.data.length offset (offset + r.data.length) addresses =
      some (r.address.elim addresses (found addresses)) := by
  have hdiffer : dnsARecord ≠ dnsAaaaRecord := by decide
  rw [collect, Option.bind_eq_bind, Record.address]
  by_cases hcls : r.cls = 1
  · rw [if_neg (not_not.mpr hcls)]
    by_cases ha : r.type = dnsARecord
    · rw [if_pos ha, collectA_eq h hcls ha, Option.bind_some, collectAaaa,
        if_neg fun hall => hdiffer (ha.symm.trans hall.2.1)]
    · rw [if_neg ha, collectA, if_neg fun hall => ha hall.2.1, Option.bind_some]
      by_cases haaaa : r.type = dnsAaaaRecord
      · rw [if_pos haaaa, collectAaaa_eq h hcls haaaa]
      · rw [if_neg haaaa, collectAaaa, if_neg fun hall => haaaa hall.2.1, Option.elim_none]
  · rw [if_pos hcls, collectA, if_neg fun hall => hcls hall.1, Option.bind_some, collectAaaa,
      if_neg fun hall => hcls hall.1, Option.elim_none]

/-- Where a name, the fixed fields and the data have room, there is a record. -/
theorem exists_record {message : Packet} {offset : ℕ} {n : DomainName}
    {type cls dataLength : BitVec 16} (hn : At message offset n.encode)
    (htype : At message (offset + n.encode.length) (toBytes 2 type.toNat))
    (hcls : At message (offset + n.encode.length + 2) (toBytes 2 cls.toNat))
    (hlength : At message (offset + n.encode.length + 8) (toBytes 2 dataLength.toNat))
    (hroom : offset + n.encode.length + 10 + dataLength.toNat ≤ message.length) :
    ∃ r : Record, At message offset r.encode ∧ r.name = n ∧ r.type = type ∧ r.cls = cls ∧
      r.data.length = dataLength.toNat := by
  obtain ⟨ttl, httl⟩ := exists_word_at (n := 4) (w := 32) (by norm_num)
    (show offset + n.encode.length + 4 + 4 ≤ message.length by omega)
  obtain ⟨data, hdata, hlen⟩ : ∃ data, At message (offset + n.encode.length + 10) data ∧
      data.length = dataLength.toNat := by
    refine ⟨_, List.take_prefix dataLength.toNat _, ?_⟩
    rw [List.length_take, List.length_drop]
    omega
  rw [← hlen] at hlength
  have hshort : data.length < 2 ^ 16 := hlen ▸ dataLength.isLt
  exact ⟨⟨n, type, cls, ttl, data, hshort⟩,
    record_at.mpr ⟨hn, htype, hcls, httl, hlength, hdata⟩, rfl, rfl, rfl, hlen⟩

/-- A turn of the loop takes a record that stands at its offset. -/
theorem readAnswer_eq_ok {message : Packet} {offset : ℕ} {addresses : List IpAddr}
    {next : ℕ × List IpAddr} :
    (readAnswer message offset addresses).run = some (.ok next) ↔
      ∃ r : Record, At message offset r.encode ∧
        next = (offset + r.encode.length, r.address.elim addresses (found addresses)) := by
  rw [readAnswer]
  constructor
  · intro h
    obtain ⟨o, hname, h⟩ := bind_eq_ok.mp h
    obtain ⟨n, hn, rfl⟩ := skipName_eq_ok.mp (Option.some_inj.mp hname)
    obtain ⟨type, htype, h⟩ := bind_eq_ok.mp h
    obtain ⟨cls, hcls, h⟩ := bind_eq_ok.mp h
    obtain ⟨dataLength, hlength, h⟩ := bind_eq_ok.mp h
    obtain ⟨dataOffset, hdata, h⟩ := bind_eq_ok.mp h
    obtain ⟨-, rfl⟩ := within_eq_ok.mp (Option.some_inj.mp hdata)
    obtain ⟨nextOffset, hnext, h⟩ := bind_eq_ok.mp h
    obtain ⟨hroom, rfl⟩ := within_eq_ok.mp (Option.some_inj.mp hnext)
    obtain ⟨found', hfound, h⟩ := bind_eq_ok.mp h
    obtain ⟨r, hr, rfl, rfl, rfl, hlen⟩ := exists_record hn
      (readU16_eq_ok.mp (Option.some_inj.mp htype)) (readU16_eq_ok.mp (Option.some_inj.mp hcls))
      (readU16_eq_ok.mp (Option.some_inj.mp hlength)) hroom
    have hcollect := collect_eq (record_at.mp hr).2.2.2.2.2 addresses
    rw [hlen] at hcollect
    obtain rfl := Option.some_inj.mp (hcollect.symm.trans (demand_eq_ok.mp hfound))
    obtain rfl := Except.ok.inj (Option.some_inj.mp h)
    refine ⟨r, hr, ?_⟩
    rw [r.encode_length, hlen]
    simp only [Nat.add_assoc]
  · rintro ⟨r, hr, rfl⟩
    have hlen := r.encode_length
    have hroom := hr.length_le (by omega)
    have hdatalen : (BitVec.ofNat 16 r.data.length).toNat = r.data.length := by
      rw [BitVec.toNat_ofNat, Nat.mod_eq_of_lt r.short]
    obtain ⟨hn, htype, hcls, -, hlength, hdata⟩ := record_at.mp hr
    rw [← hdatalen] at hlength
    refine bind_eq_ok.mpr ⟨_, congrArg some (skipName_eq_ok.mpr ⟨r.name, hn, rfl⟩), ?_⟩
    refine bind_eq_ok.mpr ⟨_, congrArg some (readU16_eq_ok.mpr htype), ?_⟩
    refine bind_eq_ok.mpr ⟨_, congrArg some (readU16_eq_ok.mpr hcls), ?_⟩
    refine bind_eq_ok.mpr ⟨_, congrArg some (readU16_eq_ok.mpr hlength), ?_⟩
    refine bind_eq_ok.mpr ⟨_, congrArg some (within_eq_ok.mpr ⟨by omega, rfl⟩), ?_⟩
    rw [hdatalen]
    refine bind_eq_ok.mpr ⟨_, congrArg some (within_eq_ok.mpr ⟨by omega, rfl⟩), ?_⟩
    refine bind_eq_ok.mpr ⟨_, demand_eq_ok.mpr (collect_eq hdata addresses), ?_⟩
    rw [hlen]
    simp only [Nat.add_assoc]
    rfl

theorem run_refuse_ne_none {α : Type} (x : Except String α) : (refuse x).run ≠ none :=
  Option.some_ne_none x

theorem readAnswer_ne_none (message : Packet) (offset : ℕ) (addresses : List IpAddr) :
    (readAnswer message offset addresses).run ≠ none := by
  rw [readAnswer]
  refine bind_ne_none (run_refuse_ne_none _) fun o hname => ?_
  refine bind_ne_none (run_refuse_ne_none _) fun type htype => ?_
  refine bind_ne_none (run_refuse_ne_none _) fun cls hcls => ?_
  refine bind_ne_none (run_refuse_ne_none _) fun dataLength hlength => ?_
  refine bind_ne_none (run_refuse_ne_none _) fun dataOffset hdata => ?_
  refine bind_ne_none (run_refuse_ne_none _) fun nextOffset hnext => ?_
  obtain ⟨n, hn, rfl⟩ := skipName_eq_ok.mp (Option.some_inj.mp hname)
  obtain ⟨-, rfl⟩ := within_eq_ok.mp (Option.some_inj.mp hdata)
  obtain ⟨hroom, rfl⟩ := within_eq_ok.mp (Option.some_inj.mp hnext)
  -- all the checks have passed: there is a record, and its address is read
  obtain ⟨r, hr, rfl, rfl, rfl, hlen⟩ := exists_record hn
    (readU16_eq_ok.mp (Option.some_inj.mp htype)) (readU16_eq_ok.mp (Option.some_inj.mp hcls))
    (readU16_eq_ok.mp (Option.some_inj.mp hlength)) hroom
  have hcollect := collect_eq (record_at.mp hr).2.2.2.2.2 addresses
  rw [hlen] at hcollect
  refine bind_ne_none ?_ fun found' _ => Option.some_ne_none _
  rw [run_demand, hcollect]
  exact Option.some_ne_none _

theorem readAnswers_eq_ok {message : Packet} (count : ℕ) {offset : ℕ}
    {addresses result : List IpAddr} :
    (readAnswers message count offset addresses).run = some (.ok result) ↔
      ∃ rs : List Record, rs.length = count ∧ At message offset (rs.flatMap Record.encode) ∧
        result = (rs.filterMap Record.address).foldl found addresses := by
  induction count generalizing offset addresses with
  | zero =>
    constructor
    · intro h
      obtain rfl := Except.ok.inj (Option.some_inj.mp h)
      exact ⟨[], rfl, List.nil_prefix, rfl⟩
    · rintro ⟨rs, hnone, -, rfl⟩
      obtain rfl := List.length_eq_zero_iff.mp hnone
      rfl
  | succ count ih =>
    have hstep : ∀ (r : Record) (rs : List Record),
        (rs.filterMap Record.address).foldl found (r.address.elim addresses (found addresses)) =
          ((r :: rs).filterMap Record.address).foldl found addresses := by
      intro r rs
      rw [List.filterMap_cons]
      cases r.address with
      | none => rfl
      | some address => rfl
    rw [readAnswers]
    constructor
    · intro h
      obtain ⟨next, hanswer, h⟩ := bind_eq_ok.mp h
      obtain ⟨r, hr, rfl⟩ := readAnswer_eq_ok.mp hanswer
      obtain ⟨rs, hrs, hat, rfl⟩ := ih.mp h
      exact ⟨r :: rs, by rw [List.length_cons, hrs],
        by rw [List.flatMap_cons, at_append]; exact ⟨hr, hat⟩, hstep r rs⟩
    · rintro ⟨rs, hcount, hat, rfl⟩
      cases rs with
      | nil => cases hcount
      | cons r rs =>
        rw [List.flatMap_cons, at_append] at hat
        refine bind_eq_ok.mpr ⟨_, readAnswer_eq_ok.mpr ⟨r, hat.1, rfl⟩, ?_⟩
        exact ih.mpr ⟨rs, Nat.succ_inj.mp hcount, hat.2, (hstep r rs).symm⟩

theorem readAnswers_ne_none {message : Packet} (count : ℕ) (offset : ℕ) (addresses : List IpAddr) :
    (readAnswers message count offset addresses).run ≠ none := by
  induction count generalizing offset addresses with
  | zero => exact Option.some_ne_none _
  | succ count ih =>
    rw [readAnswers]
    exact bind_ne_none (readAnswer_ne_none _ _ _) fun r _ => ih r.1 r.2

/-! ### The whole message -/

/-- What is found one after the other is what occurs, each address once and where it occurs first. -/
theorem foldl_found (addresses rest : List IpAddr) :
    rest.foldl found addresses =
      addresses ++ (rest.filter fun a => a ∉ addresses).eraseDups := by
  induction rest generalizing addresses with
  | nil => exact (List.append_nil _).symm
  | cons a rest ih =>
    rw [List.foldl_cons, ih, found]
    by_cases ha : a ∈ addresses
    · rw [if_pos ha, List.filter_cons_of_neg (by simpa using ha)]
    · rw [if_neg ha, List.filter_cons_of_pos (by simpa using ha), List.eraseDups_cons,
        List.filter_filter, List.append_assoc, List.singleton_append]
      congr 3
      refine List.filter_congr fun b _ => ?_
      by_cases hab : b = a
      · simp [hab]
      · simp [hab]

theorem Message.foldl_found (m : Message) :
    (m.answers.filterMap Record.address).foldl found [] = m.addresses := by
  rw [DnsResponse.foldl_found, Message.addresses]
  simp

theorem message_at {response : Packet} {m : Message} :
    At response 0 m.sections ↔ At response 0 (toBytes 2 m.id.toNat) ∧
      At response 2 (toBytes 2 m.flags.toNat) ∧ At response 4 (toBytes 2 m.questions.length) ∧
      At response 6 (toBytes 2 m.answers.length) ∧ At response 8 (toBytes 4 m.counts.toNat) ∧
      At response 12 (m.questions.flatMap Question.encode) ∧
        At response (12 + (m.questions.flatMap Question.encode).length)
          (m.answers.flatMap Record.encode) := by
  rw [Message.sections]
  simp only [List.append_assoc, at_append, toBytes_length, Nat.zero_add, Nat.reduceAdd]

/-- A packet is a message's bytes when the sections of the message stand at its beginning. -/
theorem eq_encode_of_at {response : Packet} {m : Message} (h : At response 0 m.sections) :
    ∃ m' : Message, response = m'.encode ∧ m'.id = m.id ∧ m'.flags = m.flags ∧
      m'.answers = m.answers := by
  rw [At, List.drop_zero, List.prefix_iff_eq_append] at h
  exact ⟨{ m with rest := response.drop m.sections.length }, h.symm, rfl, rfl, rfl⟩

theorem checkFlags_eq_ok {flags : BitVec 16} : checkFlags flags = .ok () ↔
    flags &&& 0x8000 ≠ 0 ∧ flags &&& 0x0200 = 0 ∧ flags &&& 0x000f = 0 := by
  rw [checkFlags]
  by_cases hqr : flags &&& 0x8000 = 0
  · rw [if_pos hqr]
    exact ⟨fun h => (by cases h), fun h => absurd hqr h.1⟩
  by_cases htc : flags &&& 0x0200 = 0
  · rw [if_neg hqr, if_neg (not_not.mpr htc)]
    by_cases hrcode : flags &&& 0x000f = 0
    · rw [if_neg (not_not.mpr hrcode)]
      exact ⟨fun _ => ⟨hqr, htc, hrcode⟩, fun _ => rfl⟩
    · rw [if_pos hrcode]
      exact ⟨fun h => (by cases h), fun h => absurd h.2.2 hrcode⟩
  · rw [if_neg hqr, if_pos htc]
    exact ⟨fun h => (by cases h), fun h => absurd h.2.1 htc⟩

theorem checkHeader_eq_ok {response : Packet} {queryId : BitVec 16} :
    checkHeader response queryId = .ok () ↔
      12 ≤ response.length ∧ At response 0 (toBytes 2 queryId.toNat) ∧
        ∃ flags : BitVec 16, At response 2 (toBytes 2 flags.toNat) ∧ flags &&& 0x8000 ≠ 0 ∧
          flags &&& 0x0200 = 0 ∧ flags &&& 0x000f = 0 := by
  rw [checkHeader]
  by_cases hshort : response.length < 12
  · rw [if_pos hshort]
    exact ⟨fun h => (by cases h), fun h => absurd h.1 (by omega)⟩
  rw [if_neg hshort]
  obtain ⟨id, hid⟩ := exists_word_at (n := 2) (w := 16) (by norm_num)
    (show 0 + 2 ≤ response.length by omega)
  obtain ⟨flags, hflags⟩ := exists_word_at (n := 2) (w := 16) (by norm_num)
    (show 2 + 2 ≤ response.length by omega)
  have hread0 := readU16_eq_ok.mpr hid
  have hread2 := readU16_eq_ok.mpr hflags
  have hid' : ∀ v : BitVec 16, At response 0 (toBytes 2 v.toNat) ↔ v = id := fun v =>
    ⟨fun h => Except.ok.inj ((readU16_eq_ok.mpr h).symm.trans hread0), fun h => h ▸ hid⟩
  have hflags' : ∀ v : BitVec 16, At response 2 (toBytes 2 v.toNat) ↔ v = flags := fun v =>
    ⟨fun h => Except.ok.inj ((readU16_eq_ok.mpr h).symm.trans hread2), fun h => h ▸ hflags⟩
  simp only [hid', hflags', exists_eq_left, hread0, hread2]
  by_cases hown : id = queryId
  · rw [if_neg (not_not.mpr hown), checkFlags_eq_ok]
    exact ⟨fun h => ⟨by omega, hown.symm, h⟩, fun h => h.2.2⟩
  · rw [if_pos hown]
    exact ⟨fun h => (by cases h), fun h => absurd h.2.1.symm hown⟩

/-- No packet makes `parse_response` read outside of it, and what it returns are the addresses of
the answers of a message with these bytes, an answer to the query. -/
theorem parse_iff (response : Packet) (queryId : BitVec 16) :
    (parseResponse response queryId).run ≠ none ∧
      ∀ addresses, (parseResponse response queryId).run = some (.ok addresses) ↔
        ∃ m : Message, response = m.encode ∧ m.Answers queryId ∧ addresses = m.addresses := by
  rw [parseResponse]
  constructor
  · refine bind_ne_none (run_refuse_ne_none _) fun _ _ => ?_
    refine bind_ne_none (run_refuse_ne_none _) fun questions _ => ?_
    refine bind_ne_none (run_refuse_ne_none _) fun answers _ => ?_
    refine bind_ne_none (run_refuse_ne_none _) fun offset _ => ?_
    exact readAnswers_ne_none _ _ _
  · intro addresses
    constructor
    · intro h
      obtain ⟨_, hheader, h⟩ := bind_eq_ok.mp h
      obtain ⟨hlong, hid, flags, hflags, hqr, htc, hrcode⟩ :=
        checkHeader_eq_ok.mp (Option.some_inj.mp hheader)
      obtain ⟨questions, hquestions, h⟩ := bind_eq_ok.mp h
      obtain ⟨answers, hanswers, h⟩ := bind_eq_ok.mp h
      obtain ⟨offset, hoffset, h⟩ := bind_eq_ok.mp h
      obtain ⟨qs, hqs, hqsat, rfl⟩ := (skipQuestions_eq_ok _).mp (Option.some_inj.mp hoffset)
      obtain ⟨rs, hrs, hrsat, rfl⟩ := (readAnswers_eq_ok _).mp h
      obtain ⟨counts, hcounts⟩ := exists_word_at (n := 4) (w := 32) (by norm_num)
        (show 8 + 4 ≤ response.length by omega)
      have hq := readU16_eq_ok.mp (Option.some_inj.mp hquestions)
      have ha := readU16_eq_ok.mp (Option.some_inj.mp hanswers)
      rw [← hqs] at hq
      rw [← hrs] at ha
      have hsections : At response 0 (Message.sections ⟨queryId, flags, qs, rs, counts, [],
          hqs ▸ questions.isLt, hrs ▸ answers.isLt⟩) :=
        message_at.mpr ⟨hid, hflags, hq, ha, hcounts, hqsat, hrsat⟩
      obtain ⟨m, hm, hmid, hmflags, hmanswers⟩ := eq_encode_of_at hsections
      refine ⟨m, hm, ⟨hmid, hmflags ▸ hqr, hmflags ▸ htc, hmflags ▸ hrcode⟩, ?_⟩
      rw [← m.foldl_found, hmanswers]
    · rintro ⟨m, rfl, hm, rfl⟩
      have hsections : At m.encode 0 m.sections := List.prefix_append _ _
      obtain ⟨hid, hflags, hq, ha, hcounts, hqs, hrs⟩ := message_at.mp hsections
      have hlong := hcounts.length_le (by rw [toBytes_length]; omega)
      rw [toBytes_length] at hlong
      have hqlen : (BitVec.ofNat 16 m.questions.length).toNat = m.questions.length := by
        rw [BitVec.toNat_ofNat, Nat.mod_eq_of_lt m.fewQuestions]
      have halen : (BitVec.ofNat 16 m.answers.length).toNat = m.answers.length := by
        rw [BitVec.toNat_ofNat, Nat.mod_eq_of_lt m.fewAnswers]
      rw [← hqlen] at hq
      rw [← halen] at ha
      rw [hm.id] at hid
      refine bind_eq_ok.mpr ⟨(), congrArg some (checkHeader_eq_ok.mpr
        ⟨hlong, hid, m.flags, hflags, hm.response, hm.whole, hm.success⟩), ?_⟩
      refine bind_eq_ok.mpr ⟨_, congrArg some (readU16_eq_ok.mpr hq), ?_⟩
      refine bind_eq_ok.mpr ⟨_, congrArg some (readU16_eq_ok.mpr ha), ?_⟩
      rw [hqlen, halen]
      refine bind_eq_ok.mpr ⟨_, congrArg some
        ((skipQuestions_eq_ok _).mpr ⟨m.questions, rfl, hqs, rfl⟩), ?_⟩
      exact (readAnswers_eq_ok _).mpr ⟨m.answers, rfl, hrs, m.foldl_found.symm⟩

end Csqtt.DnsResponse
