/-
Selective FEC: which packets a worker sends twice on its socket.

The headers of an IP packet are walked here a second time, apart from the walk that
`packet_class` makes.  Both look through a flow header first.  They differ in one check:
for IPv4 only this one looks at the fragment offset.

* `parsers_agree_iff` — the two walks find the same transport header, or both none,
  except in a later fragment of an IPv4 packet;
* `ports_agree` — where they agree, both read the same bytes as ports and flags.
-/
import Csqtt.Demux

namespace Csqtt.SelectiveFec

open FlowFrame StripedScheduler

/-- `MAX_SMALL_UDP_PAYLOAD`. -/
def maxSmallUdpPayload : ℕ := 256

/-- `QUIC_INITIAL_UDP_MIN`. -/
def quicInitialUdpMin : ℕ := 1200

/-- `QUIC_INITIAL_UDP_MAX`. -/
def quicInitialUdpMax : ℕ := 1280

structure Transport where
  protocol : BitVec 8
  bytes : Packet
  deriving DecidableEq, Repr

/-! ### The transport of an IP packet -/

def ipv4Transport (packet : Packet) : Option Transport :=
  if packet.length < 20 ∨ packet.getD 0 0 >>> 4 ≠ 4 then none
  else
    let headerLen := (packet.getD 0 0 &&& 0x0f).toNat * 4
    if headerLen < 20 ∨ packet.length < headerLen then none
    else if u16 (packet.getD 6 0) (packet.getD 7 0) &&& 0x1fff ≠ 0 then none
    else some { protocol := packet.getD 9 0, bytes := packet.drop headerLen }

/-- `packet.get(offset..)`. -/
def suffix (packet : Packet) (offset : ℕ) : Option Packet :=
  if offset ≤ packet.length then some (packet.drop offset) else none

/-- The loop of `ipv6_transport`, with the rounds it has left: the protocol and the offset
at its end. -/
def ipv6Headers (packet : Packet) : ℕ → BitVec 8 → ℕ → Option (BitVec 8 × ℕ)
  | 0, protocol, offset => some (protocol, offset)
  | rounds + 1, protocol, offset =>
    -- what follows a header: the check at the end of the round, and the next one
    let resume (protocol : BitVec 8) (offset : ℕ) : Option (BitVec 8 × ℕ) :=
      if packet.length < offset then none else ipv6Headers packet rounds protocol offset
    if protocol = 0 ∨ protocol = 43 ∨ protocol = 60 then
      match slice packet offset 2 with
      | none => none
      | some header => resume (header.getD 0 0) (offset + ((header.getD 1 0).toNat + 1) * 8)
    else if protocol = 44 then
      match slice packet offset 8 with
      | none => none
      | some header =>
        if u16 (header.getD 2 0) (header.getD 3 0) &&& 0xfff8 ≠ 0 then none
        else resume (header.getD 0 0) (offset + 8)
    else if protocol = 51 then
      match slice packet offset 2 with
      | none => none
      | some header => resume (header.getD 0 0) (offset + ((header.getD 1 0).toNat + 2) * 4)
    else some (protocol, offset)

def ipv6Transport (packet : Packet) : Option Transport :=
  if packet.length < 40 ∨ packet.getD 0 0 >>> 4 ≠ 6 then none
  else
    match ipv6Headers packet 8 (packet.getD 6 0) 40 with
    | none => none
    | some (protocol, offset) => (suffix packet offset).map fun bytes => { protocol, bytes }

/-- The transport that the callers look at, by the version of the packet. -/
def transport (packet : Packet) : Option Transport :=
  match packet with
  | [] => none
  | first :: _ =>
    if first >>> 4 = 4 then ipv4Transport packet
    else if first >>> 4 = 6 then ipv6Transport packet
    else none

/-! ### What is sent twice -/

def classifyTransport (t : Transport) : Bool :=
  let source := u16 (t.bytes.getD 0 0) (t.bytes.getD 1 0)
  let destination := u16 (t.bytes.getD 2 0) (t.bytes.getD 3 0)
  if t.protocol = 6 ∧ 14 ≤ t.bytes.length then
    source = 53 || destination = 53 || t.bytes.getD 13 0 &&& 0x02 ≠ 0
  else if t.protocol = 17 ∧ 8 ≤ t.bytes.length then
    source = 53 || destination = 53 || t.bytes.length - 8 ≤ maxSmallUdpPayload
  else false

def quicInitialTransport (t : Transport) : Bool :=
  if t.protocol ≠ 17 ∨ t.bytes.length < 8 then false
  else if u16 (t.bytes.getD 2 0) (t.bytes.getD 3 0) ≠ 443 then false
  else quicInitialUdpMin ≤ t.bytes.length - 8 && t.bytes.length - 8 ≤ quicInitialUdpMax

def shouldDuplicate (packet : Packet) : Bool :=
  let packet := payload packet
  Demux.isControl packet || (transport packet).any classifyTransport

def isQuicInitialSized (packet : Packet) : Bool :=
  (transport (payload packet)).any quicInitialTransport

/-! ### The two walks -/

/-- Both walks find no transport header, or the same protocol at the same offset. -/
def Agree (packet : Packet) : Prop :=
  transport packet =
      (internetTransport packet).map (fun (protocol, offset) =>
        { protocol, bytes := packet.drop offset }) ∧
    ∀ found ∈ internetTransport packet, found.2 ≤ packet.length

instance (packet : Packet) : Decidable (Agree packet) := inferInstanceAs (Decidable (_ ∧ _))

/-- A fragment of an IPv4 packet, and not its first one. -/
def LaterFragment (packet : Packet) : Prop :=
  packet.getD 0 0 >>> 4 = 4 ∧ 20 ≤ (packet.getD 0 0 &&& 0x0f).toNat * 4 ∧
    (packet.getD 0 0 &&& 0x0f).toNat * 4 ≤ packet.length ∧
    u16 (packet.getD 6 0) (packet.getD 7 0) &&& 0x1fff ≠ 0

instance (packet : Packet) : Decidable (LaterFragment packet) :=
  inferInstanceAs (Decidable (_ ∧ _ ∧ _ ∧ _))

variable {packet : Packet}

/-- The two loops over the extension headers are one. -/
theorem ipv6Headers_eq_ipv6Walk (packet : Packet) (rounds : ℕ) :
    ∀ protocol offset,
      ipv6Headers packet rounds protocol offset = ipv6Walk packet rounds protocol offset := by
  induction rounds with
  | zero =>
    intro protocol offset
    rfl
  | succ rounds ih =>
    intro protocol offset
    simp only [ipv6Headers, ipv6Walk, ipv6Next, ih]
    -- one branch for each kind of extension header, in the order both loops ask for them
    by_cases hoptions : protocol = 0 ∨ protocol = 43 ∨ protocol = 60
    · simp only [if_pos hoptions]
      cases slice packet offset 2 with
      | none => rfl
      | some header => rfl
    · simp only [if_neg hoptions]
      by_cases hfragment : protocol = 44
      · simp only [if_pos hfragment]
        cases slice packet offset 8 with
        | none => rfl
        | some header =>
          by_cases hlater : u16 (header.getD 2 0) (header.getD 3 0) &&& 0xfff8 ≠ 0
          · simp only [if_pos hlater, Option.bind_some]
          · simp only [if_neg hlater, Option.bind_some]
      · simp only [if_neg hfragment]
        by_cases hauth : protocol = 51
        · simp only [if_pos hauth]
          cases slice packet offset 2 with
          | none => rfl
          | some header => rfl
        · simp only [if_neg hauth]

/-- The walk stays inside the packet. -/
theorem ipv6Walk_le (rounds : ℕ) :
    ∀ {protocol : BitVec 8} {offset : ℕ} {found : BitVec 8 × ℕ}, offset ≤ packet.length →
      ipv6Walk packet rounds protocol offset = some found → found.2 ≤ packet.length := by
  induction rounds with
  | zero =>
    intro protocol offset found hoffset h
    simp only [ipv6Walk, Option.some.injEq] at h
    rw [← h]
    exact hoffset
  | succ rounds ih =>
    intro protocol offset found hoffset h
    rw [ipv6Walk] at h
    split at h
    · exact absurd h (by simp)
    · rw [← Option.some.inj h]
      exact hoffset
    · split_ifs at h with hlength
      exact ih (Nat.le_of_not_lt hlength) h

/-- The walk that `should_duplicate` takes, by the outcome of the other one. -/
theorem ipv6Transport_eq (h6 : packet.getD 0 0 >>> 4 = 6) (hlength : 40 ≤ packet.length) :
    ipv6Transport packet =
      (StripedScheduler.ipv6Transport packet).map (fun (protocol, offset) =>
        { protocol, bytes := packet.drop offset }) := by
  have hheader : ¬ (packet.length < 40 ∨ packet.getD 0 0 >>> 4 ≠ 6) := by
    rintro (hshort | hversion)
    · omega
    · exact hversion h6
  rw [ipv6Transport, if_neg hheader, ipv6Headers_eq_ipv6Walk, StripedScheduler.ipv6Transport]
  -- the check of `get(offset..)` never fails, since the walk stays inside
  cases hwalk : ipv6Walk packet 8 (packet.getD 6 0) 40 with
  | none => rfl
  | some found =>
    have hfound : found.2 ≤ packet.length := ipv6Walk_le 8 hlength hwalk
    simp [suffix, hfound]

/-- The first bytes of IPv4 are looked at alike, but for the fragment offset. -/
theorem ipv4Transport_eq (h4 : packet.getD 0 0 >>> 4 = 4) :
    ipv4Transport packet =
      if 20 ≤ (packet.getD 0 0 &&& 0x0f).toNat * 4 ∧
          (packet.getD 0 0 &&& 0x0f).toNat * 4 ≤ packet.length then
        if u16 (packet.getD 6 0) (packet.getD 7 0) &&& 0x1fff ≠ 0 then none
        else some { protocol := packet.getD 9 0,
                    bytes := packet.drop ((packet.getD 0 0 &&& 0x0f).toNat * 4) }
      else none := by
  rw [ipv4Transport]
  by_cases hlen : 20 ≤ (packet.getD 0 0 &&& 0x0f).toNat * 4 ∧
      (packet.getD 0 0 &&& 0x0f).toNat * 4 ≤ packet.length
  · have hshort : ¬ (packet.length < 20 ∨ packet.getD 0 0 >>> 4 ≠ 4) := by
      rintro (hshort | hversion)
      · omega
      · exact hversion h4
    rw [if_neg hshort, if_neg (by omega), if_pos hlen]
  · -- a header length that neither walk takes
    rw [if_neg hlen]
    by_cases hshort : packet.length < 20 ∨ packet.getD 0 0 >>> 4 ≠ 4
    · rw [if_pos hshort]
    · rw [if_neg hshort]
      exact if_pos (by omega)

/-- The version is read off the first byte, when there is one. -/
theorem ne_nil_of_version {version : BitVec 8} (h : packet.getD 0 0 >>> 4 = version)
    (hversion : version ≠ 0) : packet ≠ [] := by
  rintro rfl
  exact hversion h.symm

theorem transport_of_ipv4 (h4 : packet.getD 0 0 >>> 4 = 4) :
    transport packet = ipv4Transport packet := by
  obtain ⟨first, rest, rfl⟩ := List.exists_cons_of_ne_nil (ne_nil_of_version h4 (by decide))
  exact if_pos h4

theorem internetTransport_of_ipv4 (h4 : packet.getD 0 0 >>> 4 = 4) :
    internetTransport packet =
      if 20 ≤ (packet.getD 0 0 &&& 0x0f).toNat * 4 ∧
          (packet.getD 0 0 &&& 0x0f).toNat * 4 ≤ packet.length then
        some (packet.getD 9 0, (packet.getD 0 0 &&& 0x0f).toNat * 4)
      else none := by
  obtain ⟨first, rest, rfl⟩ := List.exists_cons_of_ne_nil (ne_nil_of_version h4 (by decide))
  exact if_pos h4

theorem transport_of_ipv6 (h6 : packet.getD 0 0 >>> 4 = 6) :
    transport packet = ipv6Transport packet := by
  obtain ⟨first, rest, rfl⟩ := List.exists_cons_of_ne_nil (ne_nil_of_version h6 (by decide))
  have h4 : ¬ first >>> 4 = 4 := by
    rw [show first >>> 4 = 6 from h6]
    decide
  rw [transport, if_neg h4]
  exact if_pos h6

theorem internetTransport_of_ipv6 (h6 : packet.getD 0 0 >>> 4 = 6) :
    internetTransport packet =
      if 40 ≤ packet.length then StripedScheduler.ipv6Transport packet else none := by
  obtain ⟨first, rest, rfl⟩ := List.exists_cons_of_ne_nil (ne_nil_of_version h6 (by decide))
  have hfirst : first >>> 4 = 6 := h6
  have h4 : ¬ first >>> 4 = 4 := by
    rw [hfirst]
    decide
  rw [internetTransport, if_neg h4]
  simp only [hfirst, true_and]

theorem agree_of_none (h : transport packet = none) (h' : internetTransport packet = none) :
    Agree packet := by
  rw [Agree, h, h']
  refine ⟨rfl, ?_⟩
  intro found hfound
  exact absurd hfound (Option.not_mem_none found)

/-- For IPv4 the other walk finds the header of every fragment. -/
theorem agree_ipv4_iff (h4 : packet.getD 0 0 >>> 4 = 4) :
    Agree packet ↔ ¬ LaterFragment packet := by
  have htransport := (transport_of_ipv4 h4).trans (ipv4Transport_eq h4)
  have hinternet := internetTransport_of_ipv4 h4
  by_cases hlen : 20 ≤ (packet.getD 0 0 &&& 0x0f).toNat * 4 ∧
      (packet.getD 0 0 &&& 0x0f).toNat * 4 ≤ packet.length
  · rw [if_pos hlen] at htransport hinternet
    rw [Agree, htransport, hinternet]
    by_cases hlater : u16 (packet.getD 6 0) (packet.getD 7 0) &&& 0x1fff ≠ 0
    · rw [if_pos hlater]
      refine iff_of_false ?_ (not_not_intro ⟨h4, hlen.1, hlen.2, hlater⟩)
      intro h
      simp at h
    · rw [if_neg hlater]
      refine iff_of_true ⟨rfl, ?_⟩ (fun h => hlater h.2.2.2)
      intro found hfound
      rw [← Option.mem_some.mp hfound]
      exact hlen.2
  · rw [if_neg hlen] at htransport hinternet
    exact iff_of_true (agree_of_none htransport hinternet) fun h => hlen ⟨h.2.1, h.2.2.1⟩

/-- The loops over extension headers look at fragments alike, so for IPv6 the walks agree. -/
theorem agree_ipv6 (h6 : packet.getD 0 0 >>> 4 = 6) : Agree packet := by
  have htransport := transport_of_ipv6 h6
  have hinternet := internetTransport_of_ipv6 h6
  by_cases hlen : 40 ≤ packet.length
  · rw [if_pos hlen] at hinternet
    rw [Agree, htransport, hinternet]
    refine ⟨ipv6Transport_eq h6 hlen, ?_⟩
    intro found hfound
    exact ipv6Walk_le 8 hlen hfound
  · rw [if_neg hlen] at hinternet
    rw [ipv6Transport, if_pos (by omega)] at htransport
    exact agree_of_none htransport hinternet

theorem agree_of_version (h4 : packet.getD 0 0 >>> 4 ≠ 4) (h6 : packet.getD 0 0 >>> 4 ≠ 6) :
    Agree packet := by
  cases packet with
  | nil => exact agree_of_none rfl rfl
  | cons first rest =>
    have h4' : first >>> 4 ≠ 4 := h4
    have h6' : first >>> 4 ≠ 6 := h6
    refine agree_of_none ?_ (internetTransport_of_version rest h4' h6')
    rw [transport, if_neg h4', if_neg h6']

/-- The two walks agree on what a packet carries exactly when it is no later fragment. -/
theorem parsers_agree_iff (packet : Packet) :
    Agree (payload packet) ↔ ¬ LaterFragment (payload packet) := by
  by_cases h4 : (payload packet).getD 0 0 >>> 4 = 4
  · exact agree_ipv4_iff h4
  · refine iff_of_true ?_ (fun h => h4 h.1)
    by_cases h6 : (payload packet).getD 0 0 >>> 4 = 6
    · exact agree_ipv6 h6
    · exact agree_of_version h4 h6

/-- A fragment of a UDP datagram with nothing but payload in it: its first bytes are read as
ports, DNS here. -/
def laterFragment : Packet :=
  [0x45, 0, 0, 28, 0, 0, 0, 1, 64, 17, 0, 0, 10, 0, 0, 1, 10, 0, 0, 2, 0, 53, 0, 0, 0, 0, 0, 0]

theorem parsers_disagree : ¬ Agree (payload laterFragment) := by
  decide

/-! ### What the classes read -/

/-- Where the walks agree, both read the same bytes as ports and flags. -/
theorem ports_agree (h : Agree packet) {protocol : BitVec 8} {offset : ℕ}
    (hfound : internetTransport packet = some (protocol, offset)) (length : ℕ) :
    ∃ t, transport packet = some t ∧ t.protocol = protocol ∧
      offset + t.bytes.length = packet.length ∧
      slice packet offset length = slice t.bytes 0 length := by
  have hoffset : offset ≤ packet.length := h.2 (protocol, offset) hfound
  have ht := h.1
  rw [hfound] at ht
  refine ⟨_, ht, rfl, ?_, ?_⟩
  · simp only [List.length_drop]
    omega
  · simp only [slice, List.length_drop, List.drop_zero, Nat.zero_add]
    by_cases hlength : offset + length ≤ packet.length
    · rw [if_pos hlength, if_pos (by omega)]
    · rw [if_neg hlength, if_neg (by omega)]

end Csqtt.SelectiveFec
