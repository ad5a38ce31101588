/-
The spares of QUIC Initial datagrams.

The first datagrams of a QUIC flow go out twice, on two workers; a table that the whole
process shares counts the spares of each flow.  A flow is meant to be a 4-tuple, but the
table has 64 bits for it, in which the fields overlap.

* `spares_exact_iff` — each 4-tuple gets exactly its first two spares, whatever comes of the
  others, if and only if no key of several 4-tuples is met more than twice; and the table
  never holds more than `quicSpareFlowCap` flows;
* `shared_key_starves` — two datagrams of one flow leave none for another with its key.
-/
import Csqtt.FirstFew
import Csqtt.SelectiveFec

open Containers FirstFew

namespace Csqtt.Dispatcher

open FlowFrame StripedScheduler SelectiveFec

/-- `QUIC_SPARE_PER_FLOW`. -/
def quicSparePerFlow : ℕ := 2

/-- `QUIC_SPARE_FLOW_CAP`. -/
def quicSpareFlowCap : ℕ := 256

/-- The spares of each flow so far. -/
abbrev SpareTracker := AList fun _ : BitVec 64 => ℕ

/-- A big-endian word. -/
def u32 (packet : Packet) (offset : ℕ) : BitVec 32 :=
  packet.getD offset 0 ++ packet.getD (offset + 1) 0 ++ packet.getD (offset + 2) 0 ++
    packet.getD (offset + 3) 0

/-- `packet[0] & 0x0f`, in bytes. -/
def ihl (packet : Packet) : ℕ := (packet.getD 0 0 &&& 0x0f).toNat * 4

def ipv4UdpFlowKey (packet : Packet) : Option (BitVec 64) :=
  if packet.length < 28 ∨ packet.getD 0 0 >>> 4 ≠ 4 ∨ packet.getD 9 0 ≠ 17 then none
  else if ihl packet < 20 ∨ packet.length < ihl packet + 4 then none
  else
    let srcIp := u32 packet 12
    let dstIp := u32 packet 16
    let srcPort := u16 (packet.getD (ihl packet) 0) (packet.getD (ihl packet + 1) 0)
    let dstPort := u16 (packet.getD (ihl packet + 2) 0) (packet.getD (ihl packet + 3) 0)
    some (srcIp.setWidth 64 <<< 32 ^^^ dstIp.setWidth 64 <<< 16 ^^^ srcPort.setWidth 64 <<< 8 ^^^
      dstPort.setWidth 64)

/-- `HashMap::retain`, by the value. -/
def retain (map : SpareTracker) (keep : ℕ → Bool) : SpareTracker where
  entries := map.entries.filter fun e => keep e.2
  nodupKeys := map.nodupKeys.sublist List.filter_sublist

/-- `quic_initial_spare_allow`. Nothing panics under the lock, so it is never poisoned. -/
def quicInitialSpareAllow (map : SpareTracker) (packet : Packet) : Bool × SpareTracker :=
  match ipv4UdpFlowKey packet with
  | none => (false, map)
  | some key =>
    -- `entry(key).or_insert(0)`
    let count := (map.lookup key).getD 0
    if quicSparePerFlow ≤ count then (false, map.insert key count)
    else
      let map := map.insert key (min (count + 1) 255)
      if quicSpareFlowCap < map.keys.length then
        let map := retain map (· < quicSparePerFlow)
        if quicSpareFlowCap < map.keys.length then (true, (∅ : SpareTracker).insert key 1)
        else (true, map)
      else (true, map)

/-- `udp_spare`; `duplicate` is what `try_duplicate` has for the packet. -/
def udpSpare {δ : Type*} (map : SpareTracker) (packet : Packet) (duplicate : Option δ) :
    Option δ × SpareTracker :=
  if packet.length < 20 ∨ packet.getD 0 0 >>> 4 ≠ 4 ∨ packet.getD 9 0 ≠ 17 then (none, map)
  else if shouldDuplicate packet then (duplicate, map)
  else if isQuicInitialSized packet then
    let (allow, map) := quicInitialSpareAllow map packet
    (if allow then duplicate else none, map)
  else (none, map)

/-- The answers for a sequence of packets, and the table after it. -/
def spares (packets : List Packet) : List Bool × SpareTracker :=
  packets.foldl (fun (allowed, map) packet =>
    let (allow, map) := quicInitialSpareAllow map packet
    (allowed ++ [allow], map)) ([], ∅)

theorem spares_snoc (packets : List Packet) (packet : Packet) :
    spares (packets ++ [packet]) =
      ((spares packets).1 ++ [(quicInitialSpareAllow (spares packets).2 packet).1],
        (quicInitialSpareAllow (spares packets).2 packet).2) := by
  rw [spares, List.foldl_append]
  rfl

/-! ### The flows -/

structure FourTuple where
  srcIp : BitVec 32
  dstIp : BitVec 32
  srcPort : BitVec 16
  dstPort : BitVec 16
  deriving DecidableEq

/-- The addresses of an IPv4 packet, and the ports behind its header. -/
def fourTuple (packet : Packet) : FourTuple where
  srcIp := u32 packet 12
  dstIp := u32 packet 16
  srcPort := u16 (packet.getD (ihl packet) 0) (packet.getD (ihl packet + 1) 0)
  dstPort := u16 (packet.getD (ihl packet + 2) 0) (packet.getD (ihl packet + 3) 0)

/-- What the table has for a flow. -/
def FourTuple.key (t : FourTuple) : BitVec 64 :=
  t.srcIp.setWidth 64 <<< 32 ^^^ t.dstIp.setWidth 64 <<< 16 ^^^ t.srcPort.setWidth 64 <<< 8 ^^^
    t.dstPort.setWidth 64

/-- An IPv4 UDP datagram to port 443 of the size of an Initial. -/
def IsInitial (packet : Packet) : Prop := (ipv4Transport packet).any quicInitialTransport

instance (packet : Packet) : Decidable (IsInitial packet) := inferInstanceAs (Decidable (_ = true))

theorem IsInitial.transport {packet : Packet} (h : IsInitial packet) :
    ∃ t, ipv4Transport packet = some t ∧ quicInitialTransport t := by
  cases ht : ipv4Transport packet with
  | none => simp [IsInitial, ht] at h
  | some t => exact ⟨t, rfl, by simpa [IsInitial, ht] using h⟩

theorem ipv4UdpFlowKey_of_initial {packet : Packet} (h : IsInitial packet) :
    ipv4UdpFlowKey packet = some (fourTuple packet).key := by
  obtain ⟨t, ht, hinitial⟩ := h.transport
  simp only [ipv4Transport] at ht
  split_ifs at ht with hversion hheader
  obtain rfl := Option.some.inj ht
  simp only [quicInitialTransport] at hinitial
  split_ifs at hinitial with hudp hport
  simp only [Bool.and_eq_true, decide_eq_true_eq, quicInitialUdpMin, List.length_drop] at hinitial
  rw [not_or, not_not] at hversion hudp
  have hshort : ¬ (packet.length < 28 ∨ packet.getD 0 0 >>> 4 ≠ 4 ∨ packet.getD 9 0 ≠ 17) := by
    rw [not_or, not_or, not_not, not_not]
    exact ⟨by omega, hversion.2, hudp.1⟩
  have hheader' : ¬ (ihl packet < 20 ∨ packet.length < ihl packet + 4) := by
    rw [ihl]
    omega
  rw [ipv4UdpFlowKey, if_neg hshort, if_neg hheader']
  rfl

/-- An IPv4 header is not taken for a flow header: it would be shorter than five words. -/
theorem payload_of_initial {packet : Packet} (h : IsInitial packet) : payload packet = packet := by
  refine payload_of_not_prefix fun hmagic => ?_
  obtain ⟨rest, rfl⟩ := hmagic
  simp [IsInitial, ipv4Transport, frameMagic] at h

/-- An Initial that is not duplicated anyway is where the table is asked. -/
theorem udpSpare_of_initial {δ : Type*} {packet : Packet} (h : IsInitial packet)
    (hplain : shouldDuplicate packet = false) (map : SpareTracker) (duplicate : Option δ) :
    udpSpare map packet duplicate =
      (if (quicInitialSpareAllow map packet).1 then duplicate else none,
        (quicInitialSpareAllow map packet).2) := by
  obtain ⟨t, ht, hinitial⟩ := h.transport
  have hkey := ipv4UdpFlowKey_of_initial h
  rw [ipv4UdpFlowKey] at hkey
  split_ifs at hkey with hshort
  have hudp : ¬ (packet.length < 20 ∨ packet.getD 0 0 >>> 4 ≠ 4 ∨ packet.getD 9 0 ≠ 17) :=
    fun hbad => hshort (hbad.imp_left fun hlen => by omega)
  have hsized : isQuicInitialSized packet = true := by
    rw [not_or, not_or, not_not] at hudp
    rw [isQuicInitialSized, payload_of_initial h, transport_of_ipv4 hudp.2.1, ht]
    exact hinitial
  rw [udpSpare, if_neg hudp, if_neg (by rw [hplain]; exact Bool.false_ne_true), if_pos hsized]

/-! ### The table -/

/-- A flow that has its spares is in the table. -/
theorem mem_of_count {map : SpareTracker} {key : BitVec 64}
    (h : quicSparePerFlow ≤ (map.lookup key).getD 0) : key ∈ map := by
  rw [← AList.lookup_isSome]
  cases hlookup : map.lookup key with
  | none => simp [hlookup, quicSparePerFlow] at h
  | some count => rfl

/-- The table never grows beyond its cap. -/
theorem length_keys_allow {map : SpareTracker} (h : map.keys.length ≤ quicSpareFlowCap)
    (packet : Packet) :
    (quicInitialSpareAllow map packet).2.keys.length ≤ quicSpareFlowCap := by
  rw [quicInitialSpareAllow]
  cases ipv4UdpFlowKey packet with
  | none => exact h
  | some key =>
    simp only
    split_ifs with hspent hfull hstill
    · rw [length_keys_insert, if_pos (mem_of_count hspent)]
      exact h
    · rw [length_keys_insert, if_neg (AList.notMem_empty key)]
      decide
    · exact Nat.le_of_not_lt hstill
    · exact Nat.le_of_not_lt hfull

theorem length_keys_spares (packets : List Packet) :
    (spares packets).2.keys.length ≤ quicSpareFlowCap := by
  induction packets using List.reverseRecOn with
  | nil => exact Nat.zero_le _
  | append_singleton packets packet ih =>
    rw [spares_snoc]
    exact length_keys_allow ih packet

/-! ### Without pruning -/

/-- The table counts the spares of the keys `keys` that have been met. -/
def Counts (map : SpareTracker) (keys : List (BitVec 64)) : Prop :=
  ∀ key, map.lookup key =
    if keys.count key = 0 then none else some (min (keys.count key) quicSparePerFlow)

variable {map : SpareTracker} {keys : List (BitVec 64)} {key : BitVec 64}

theorem Counts.getD (h : Counts map keys) (key : BitVec 64) :
    (map.lookup key).getD 0 = min (keys.count key) quicSparePerFlow := by
  rw [h key]
  split_ifs with hzero
  · rw [hzero, Nat.zero_min]
    rfl
  · rfl

/-- The table has the keys that have been met. -/
theorem Counts.length_keys (h : Counts map keys) : map.keys.length = keys.toFinset.card := by
  have hmem : map.keys.toFinset = keys.toFinset := by
    ext key
    rw [List.mem_toFinset, List.mem_toFinset, ← AList.mem_keys, ← AList.lookup_isSome, h key,
      ← List.count_pos_iff]
    split_ifs with hzero
    · exact iff_of_false Bool.false_ne_true (by omega)
    · exact iff_of_true rfl (Nat.pos_of_ne_zero hzero)
  rw [← hmem, List.toFinset_card_of_nodup map.keys_nodup]

theorem Counts.insert (h : Counts map keys) {count : ℕ}
    (hcount : count = min (keys.count key + 1) quicSparePerFlow) :
    Counts (map.insert key count) (keys ++ [key]) := by
  intro other
  rw [List.count_append, List.count_singleton]
  by_cases hother : other = key
  · subst hother
    rw [AList.lookup_insert, hcount, beq_self_eq_true, if_pos rfl, if_neg (Nat.succ_ne_zero _)]
  · have hne : (key == other) = false := beq_false_of_ne (Ne.symm hother)
    rw [AList.lookup_insert_ne hother, hne, if_neg Bool.false_ne_true, Nat.add_zero]
    exact h other

/-- One datagram, with room in the table for every key that has been met. -/
theorem Counts.allow {packet : Packet} (h : Counts map keys)
    (hkey : ipv4UdpFlowKey packet = some key)
    (hroom : (keys ++ [key]).toFinset.card ≤ quicSpareFlowCap) :
    (quicInitialSpareAllow map packet).1 = decide (keys.count key < quicSparePerFlow) ∧
      Counts (quicInitialSpareAllow map packet).2 (keys ++ [key]) := by
  have hgetD := h.getD key
  simp only [quicInitialSpareAllow, hkey, hgetD]
  rw [quicSparePerFlow] at hgetD ⊢
  by_cases hspent : 2 ≤ keys.count key
  · rw [if_pos (Nat.le_min.mpr ⟨hspent, Nat.le_refl 2⟩)]
    refine ⟨(decide_eq_false (Nat.not_lt.mpr hspent)).symm, h.insert ?_⟩
    rw [quicSparePerFlow]
    omega
  · have hinsert : Counts (map.insert key (min (min (keys.count key) 2 + 1) 255))
        (keys ++ [key]) := by
      refine h.insert ?_
      rw [quicSparePerFlow]
      omega
    have hfits : ¬ quicSpareFlowCap <
        (map.insert key (min (min (keys.count key) 2 + 1) 255)).keys.length := by
      rw [hinsert.length_keys]
      exact Nat.not_lt.mpr hroom
    rw [if_neg (by omega), if_neg hfits]
    exact ⟨(decide_eq_true (Nat.lt_of_not_le hspent)).symm, hinsert⟩

/-- What the table has for the flow of a packet. -/
def flowKey (packet : Packet) : BitVec 64 := (fourTuple packet).key

theorem spares_of_few {packets : List Packet} (hinitial : ∀ packet ∈ packets, IsInitial packet)
    (hfew : (packets.map flowKey).toFinset.card ≤ quicSpareFlowCap) :
    (spares packets).1 = firstOf quicSparePerFlow flowKey packets ∧
      Counts (spares packets).2 (packets.map flowKey) := by
  induction packets using List.reverseRecOn with
  | nil => exact ⟨rfl, fun _ => rfl⟩
  | append_singleton packets packet ih =>
    have hkey := ipv4UdpFlowKey_of_initial
      (hinitial packet (List.mem_append_right _ (List.mem_singleton_self packet)))
    rw [List.map_append] at hfew ⊢
    have hfewer : (packets.map flowKey).toFinset.card ≤ quicSpareFlowCap := by
      refine (Finset.card_le_card ?_).trans hfew
      rw [List.toFinset_append]
      exact Finset.subset_union_left
    obtain ⟨hallowed, hcounts⟩ :=
      ih (fun p hp => hinitial p (List.mem_append_left _ hp)) hfewer
    obtain ⟨hallow, hcounts'⟩ := hcounts.allow hkey hfew
    rw [spares_snoc, firstOf_snoc, hallowed, hallow]
    refine ⟨?_, hcounts'⟩
    rw [List.count, List.countP_map]
    rfl

/-- **The spares of QUIC flows**: as long as there are no more flows than the table holds, each
4-tuple gets exactly its first two, whatever comes of the others, if and only if each key is
met at most twice or belongs to one 4-tuple only; and the table keeps its cap in any case. -/
theorem spares_exact_iff (packets : List Packet) :
    ((∀ packet ∈ packets, IsInitial packet) →
      (packets.map fourTuple).toFinset.card ≤ quicSpareFlowCap →
        ((spares packets).1 = firstOf quicSparePerFlow fourTuple packets ↔
          Apart quicSparePerFlow fourTuple flowKey packets)) ∧
      (spares packets).2.keys.length ≤ quicSpareFlowCap := by
  refine ⟨fun hinitial hfew => ?_, length_keys_spares packets⟩
  have hkeys : (packets.map flowKey).toFinset.card ≤ quicSpareFlowCap := by
    have himage : (packets.map flowKey).toFinset =
        (packets.map fourTuple).toFinset.image FourTuple.key := by
      ext key
      simp [flowKey]
    rw [himage]
    exact Finset.card_image_le.trans hfew
  rw [(spares_of_few hinitial hkeys).1]
  exact firstOf_key_iff (fun _ _ h => congrArg FourTuple.key h) Nat.two_pos

/-! ### Examples -/

/-- An Initial to a server in `1.1.1.0/24`. -/
def initialDatagram (dst : BitVec 8) (srcPort : BitVec 16) : Packet :=
  [0x45, 0, 0, 0, 0, 0, 0, 0, 64, 17, 0, 0, 10, 0, 0, 2, 1, 1, 1, dst] ++
    [srcPort.extractLsb' 8 8, srcPort.extractLsb' 0 8, 0x01, 0xbb, 0, 0, 0, 0] ++
    List.replicate 1200 0

theorem one_flow_exact :
    (spares (List.replicate 3 (initialDatagram 1 0x9c40))).1 =
      firstOf quicSparePerFlow fourTuple (List.replicate 3 (initialDatagram 1 0x9c40)) := by
  refine ((spares_exact_iff _).1 (by decide +kernel) (by decide +kernel)).mpr fun key => .inr ?_
  intro a ha b hb _ _
  rw [List.eq_of_mem_replicate ha, List.eq_of_mem_replicate hb]

/-- Two datagrams of one flow, then one of another to a server next to it. -/
def neighbours : List Packet :=
  [initialDatagram 1 0x9c40, initialDatagram 1 0x9c40, initialDatagram 0 0x9d40]

/-- The third datagram is the first one of its 4-tuple, and gets no spare. -/
theorem shared_key_starves :
    (∀ packet ∈ neighbours, IsInitial packet) ∧
      (neighbours.map fourTuple).toFinset.card ≤ quicSpareFlowCap ∧
      (spares neighbours).1 = [true, true, false] ∧
      firstOf quicSparePerFlow fourTuple neighbours = [true, true, true] := by
  refine ⟨?_, ?_, ?_, ?_⟩
  · decide +kernel
  · decide +kernel
  · decide +kernel
  · decide +kernel

end Csqtt.Dispatcher
