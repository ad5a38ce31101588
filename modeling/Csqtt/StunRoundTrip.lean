/-
What is written into a request is read back from it.

* `decodeXorAddress_encode` — the mask of a relayed or peer address comes off again;
* `locate_pairs` — the iterator finds the attributes that were added, in their order;
* `request_round_trip` — a request that can be built decodes to what it was built from, its
  FINGERPRINT is valid, and a signed one verifies with the key of the core.

The length in the header is written twice, before the MESSAGE-INTEGRITY for the digest and
before the FINGERPRINT for good; only the second one is in the packet, and the verification
puts the first one back.
-/
import Csqtt.TurnMaintenance

namespace Csqtt.Turn

open Stun

/-! ### Addresses -/

theorem be32_extract (x : BitVec 32) :
    be32 (x.extractLsb' 24 8) (x.extractLsb' 16 8) (x.extractLsb' 8 8) (x.extractLsb' 0 8) = x := by
  show x.extractLsb' 24 8 ++ x.extractLsb' 16 8 ++ x.extractLsb' 8 8 ++ x.extractLsb' 0 8 = x
  apply BitVec.eq_of_getLsbD_eq
  intro i hi
  simp only [BitVec.getLsbD_append, BitVec.getLsbD_extractLsb']
  by_cases h8 : i < 8
  · simp [h8]
  · by_cases h16 : i < 16
    · simp [h8, show i - 8 < 8 by omega, show 8 + (i - 8) = i by omega]
    · by_cases h24 : i < 24
      · simp [h8, show ¬ i - 8 < 8 by omega, show i - 8 - 8 < 8 by omega,
          show 16 + (i - 8 - 8) = i by omega]
      · simp [h8, show ¬ i - 8 < 8 by omega, show ¬ i - 8 - 8 < 8 by omega,
          show i - 8 - 8 - 8 < 8 by omega, show 24 + (i - 8 - 8 - 8) = i by omega]

theorem xor_cancel {w : ℕ} (x mask : BitVec w) : x ^^^ mask ^^^ mask = x := by
  rw [BitVec.xor_assoc, BitVec.xor_self, BitVec.xor_zero]

theorem zipWith_xor_cancel (a mask : Bytes) (h : a.length ≤ mask.length) :
    List.zipWith (· ^^^ ·) (List.zipWith (· ^^^ ·) a mask) mask = a := by
  induction a generalizing mask with
  | nil => rfl
  | cons x a ih =>
    cases mask with
    | nil => exact absurd h (Nat.not_succ_le_zero _)
    | cons y mask =>
      rw [List.zipWith_cons_cons, List.zipWith_cons_cons, xor_cancel,
        ih mask (Nat.le_of_succ_le_succ h)]

theorem xorOctets_cancel (octets mask : Octets 16) :
    xorOctets (xorOctets octets mask) mask = octets :=
  Subtype.ext (zipWith_xor_cancel _ _ (by rw [octets.property, mask.property]))

/-- Addresses of both families come back, whatever the transaction. -/
theorem decodeXorAddress_encode (address : SocketAddr) (transaction : Octets 12) :
    decodeXorAddress (encodeXorAddress address transaction) transaction = .ok address := by
  obtain ⟨ip, port⟩ := address
  have hport : be16 ((port ^^^ magicCookie.extractLsb' 16 16).extractLsb' 8 8)
      ((port ^^^ magicCookie.extractLsb' 16 16).extractLsb' 0 8) ^^^
        magicCookie.extractLsb' 16 16 = port := by
    rw [be16_extract, xor_cancel]
  cases ip with
  | v4 bits =>
    have hbits := be32_extract (bits ^^^ magicCookie)
    simp only [encodeXorAddress, bytes16, bytes32, List.cons_append, List.nil_append,
      decodeXorAddress, hport, hbits, xor_cancel, ne_eq, not_true_eq_false, if_false, if_true]
  | v6 octets =>
    set masked := xorOctets octets (xorMask transaction) with hmasked
    have hback : xorOctets ⟨masked.val, masked.property⟩ (xorMask transaction) = octets :=
      xorOctets_cancel octets (xorMask transaction)
    have hfamily : ¬ (2 : BitVec 8) = 1 := by decide
    simp only [encodeXorAddress, bytes16, List.cons_append, List.nil_append, decodeXorAddress,
      hport, hfamily, ← hmasked, masked.property, hback, ne_eq, not_true_eq_false, if_false,
      and_self, dif_pos]

/-! ### Attributes -/

/-- The iterator reads what was written, but for the one kind it renames. -/
theorem locate_pairs {attrs : List (BitVec 16 × Bytes)} (position : ℕ)
    (hattrs : ∀ a ∈ attrs, canonical a.1 = a.1) :
    (locate position attrs).map (fun a => (a.kind, a.value)) = attrs := by
  induction attrs generalizing position with
  | nil => rfl
  | cons a attrs ih =>
    obtain ⟨kind, value⟩ := a
    have hkind : canonical kind = kind := hattrs _ List.mem_cons_self
    rw [locate, List.map_cons, ih _ fun b hb => hattrs b (List.mem_cons_of_mem _ hb), hkind]

namespace Inner

variable {P : Primitives} {s : Inner} {operation : Operation} {transaction : Octets 12}
  {authenticated : Bool} {key : Octets 16}

/-- The attributes that `build_request` adds, the two digests included. -/
def addedAttributes (P : Primitives) (s : Inner) (operation : Operation)
    (transaction : Octets 12) (authenticated : Bool) : List (BitVec 16 × Bytes) :=
  let attrs := s.requestAttributes operation transaction
  match authenticated, s.key with
  | true, some key =>
    fingerprinted P operation.method transaction
      (signed P key operation.method transaction (attrs ++ s.credentials))
  | _, _ => fingerprinted P operation.method transaction attrs

/-- The kinds that a request has before the digests. -/
def requestKinds : List (BitVec 16) :=
  [attrRequestedTransport, attrRequestedAddressFamily, attrLifetime, attrXorPeerAddress,
    attrChannelNumber, attrUsername, attrRealm, attrNonce]

theorem requestKinds_canonical {kind : BitVec 16} (h : kind ∈ requestKinds) :
    canonical kind = kind ∧ kind ≠ attrMessageIntegrity ∧ kind ≠ attrFingerprint := by
  simp only [requestKinds, List.mem_cons, List.not_mem_nil, or_false] at h
  rcases h with rfl | rfl | rfl | rfl | rfl | rfl | rfl | rfl <;>
    exact ⟨if_neg (by decide), by decide, by decide⟩

theorem requestAttributes_kinds (s : Inner) (operation : Operation) (transaction : Octets 12) :
    ∀ a ∈ s.requestAttributes operation transaction, a.1 ∈ requestKinds := by
  cases operation <;> simp [requestAttributes, requestKinds]

theorem credentials_kinds (s : Inner) : ∀ a ∈ s.credentials, a.1 ∈ requestKinds := by
  simp [credentials, requestKinds]

/-- What the packet says about itself once it is read. -/
structure ReadsBack (P : Primitives) (s : Inner) (operation : Operation)
    (transaction : Octets 12) (authenticated : Bool) (packet : Bytes) (m : Message) : Prop where
  decodes : Message.decode packet = .ok m
  isRequest : m.class = .request
  method : m.method = operation.method
  attributes : m.attributes.map (fun a => (a.kind, a.value)) =
    s.addedAttributes P operation transaction authenticated
  transaction : m.transaction = transaction
  fingerprint : m.fingerprintValid P = some true
  integrity : authenticated → verifyIntegrity P packet m s.key = true

theorem method_request (operation : Operation) :
    operation.method &&& 0xc000 = 0 ∧ operation.method ≠ 0 ∧
      kindClass operation.method = .request ∧ kindMethod operation.method = operation.method := by
  cases operation <;> decide

/-- A packet with a FINGERPRINT behind attributes of other kinds. -/
theorem readsBack_fingerprinted {attrs : List (BitVec 16 × Bytes)}
    (hcanonical : ∀ a ∈ attrs, canonical a.1 = a.1 ∧ a.1 ≠ attrFingerprint)
    (hfits : (fields attrs).length + 8 < 2 ^ 16)
    (hadded : s.addedAttributes P operation transaction authenticated =
      fingerprinted P operation.method transaction attrs)
    (hsigned : authenticated → verifyIntegrity P
      (spelled operation.method transaction (fingerprinted P operation.method transaction attrs))
      (messageOf operation.method transaction
        (fingerprinted P operation.method transaction attrs)) s.key = true) :
    ReadsBack P s operation transaction authenticated
      (spelled operation.method transaction (fingerprinted P operation.method transaction attrs))
      (messageOf operation.method transaction
        (fingerprinted P operation.method transaction attrs)) := by
  obtain ⟨hlead, hzero, hclass, hmethod⟩ := method_request operation
  refine ⟨decode_spelled hlead hzero ?_, hclass, hmethod, ?_, rfl, ?_, hsigned⟩
  · rw [fingerprinted_length]
    exact hfits
  · rw [hadded]
    refine locate_pairs headerSize fun a ha => ?_
    rcases List.mem_append.mp ha with ha | ha
    · exact (hcanonical a ha).1
    · rw [List.mem_singleton.mp ha]
      rfl
  · refine fingerprintValid_fingerprinted fun a ha => ?_
    rw [(hcanonical a ha).1]
    exact (hcanonical a ha).2

theorem readsBack_plain (hfits : (fields (s.requestAttributes operation transaction)).length + 8 <
      2 ^ 16) :
    ReadsBack P s operation transaction false
      (spelled operation.method transaction (fingerprinted P operation.method transaction
        (s.requestAttributes operation transaction)))
      (messageOf operation.method transaction (fingerprinted P operation.method transaction
        (s.requestAttributes operation transaction))) := by
  refine readsBack_fingerprinted (fun a ha => ?_) hfits rfl nofun
  have hkind := requestKinds_canonical (requestAttributes_kinds s operation transaction a ha)
  exact ⟨hkind.1, hkind.2.2⟩

theorem readsBack_signed (hkey : s.key = some key)
    (hfits : (fields (s.requestAttributes operation transaction ++ s.credentials)).length + 32 <
      2 ^ 16) :
    ReadsBack P s operation transaction true
      (spelled operation.method transaction (fingerprinted P operation.method transaction
        (signed P key operation.method transaction
          (s.requestAttributes operation transaction ++ s.credentials))))
      (messageOf operation.method transaction (fingerprinted P operation.method transaction
        (signed P key operation.method transaction
          (s.requestAttributes operation transaction ++ s.credentials)))) := by
  have hkinds : ∀ a ∈ s.requestAttributes operation transaction ++ s.credentials,
      a.1 ∈ requestKinds := by
    intro a ha
    rcases List.mem_append.mp ha with ha | ha
    · exact requestAttributes_kinds s operation transaction a ha
    · exact credentials_kinds s a ha
  refine readsBack_fingerprinted (fun a ha => ?_) ?_ ?_ fun _ => ?_
  · rcases List.mem_append.mp ha with ha | ha
    · have hkind := requestKinds_canonical (hkinds a ha)
      exact ⟨hkind.1, hkind.2.2⟩
    · rw [List.mem_singleton.mp ha]
      exact ⟨if_neg (show ¬ attrMessageIntegrity = 0x8020 by decide),
        show attrMessageIntegrity ≠ attrFingerprint by decide⟩
  · rw [signed_length]
    exact hfits
  · simp only [addedAttributes, hkey]
  · rw [hkey]
    refine verifyIntegrity_signed P key operation.method transaction _ (fun a ha => ?_) (by omega)
    have hkind := requestKinds_canonical (hkinds a ha)
    rw [hkind.1]
    exact hkind.2.1

/-- Either a request cannot be built, or everything in it is read back; and the addresses in
it are those that were put in. -/
theorem request_round_trip (P : Primitives) (s : Inner) (operation : Operation)
    (transaction : Octets 12) (authenticated : Bool) :
    ((∃ e, s.buildRequest P operation transaction authenticated = .error e) ∨
      ∃ packet m, s.buildRequest P operation transaction authenticated = .ok packet ∧
        ReadsBack P s operation transaction authenticated packet m) ∧
    ∀ address, decodeXorAddress (encodeXorAddress address transaction) transaction =
      .ok address := by
  refine ⟨?_, fun address => decodeXorAddress_encode address transaction⟩
  cases authenticated with
  | false =>
    have hbuild := @buildRequest_plain P s operation transaction
    by_cases hfits : (fields (s.requestAttributes operation transaction)).length + 8 < 2 ^ 16
    · rw [if_pos hfits] at hbuild
      exact .inr ⟨_, _, hbuild, readsBack_plain hfits⟩
    · rw [if_neg hfits] at hbuild
      exact .inl ⟨_, hbuild⟩
  | true =>
    rcases hkey : s.key with _ | key
    · refine .inl ⟨"TURN authentication key missing", ?_⟩
      rw [buildRequest, if_pos rfl, hkey]
    · have hbuild := @buildRequest_authenticated P s operation key hkey transaction
      by_cases hfits : (fields (s.requestAttributes operation transaction ++
          s.credentials)).length + 32 < 2 ^ 16
      · rw [if_pos hfits] at hbuild
        exact .inr ⟨_, _, hbuild, readsBack_signed hkey hfits⟩
      · rw [if_neg hfits] at hbuild
        exact .inl ⟨_, hbuild⟩

end Inner

end Csqtt.Turn
