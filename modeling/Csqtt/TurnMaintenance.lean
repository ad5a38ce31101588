/-
The maintenance of a READY core is never lost.

As long as the packets are short enough for the realm and the nonce to fit into
a request, a READY core has its refresh scheduled or under way (`RefreshHeld`).
Between the removal of a transaction and the end of its operation that may fail
for the operation removed only (`HeldBut`).

* `buildRequest_authenticated` — when a request can be built at all.
* `maintenance_never_lost` — what a READY core has, after any run.
-/
import Csqtt.TurnInvariant

namespace Csqtt.Turn

open Stun

namespace Inner

variable {P : Primitives} {env : Env} {s t : Inner} {operation : Operation} {p : Pending}
  {rest : List Pending} {now : ℕ}

/-! ### The size of a request -/

/-- The attributes of a request before the credentials. -/
def requestAttributes (s : Inner) (operation : Operation) (transaction : Octets 12) :
    List (BitVec 16 × Bytes) :=
  match operation with
  | .allocate =>
    [(attrRequestedTransport, [17, 0, 0, 0]),
      (attrRequestedAddressFamily, [if s.peer.isIpv4 then 1 else 2, 0, 0, 0]),
      (attrLifetime, bytes32 requestedAllocationLifetime)]
  | .refresh => [(attrLifetime, bytes32 requestedAllocationLifetime)]
  | .deallocate => [(attrLifetime, bytes32 0)]
  | .permission => [(attrXorPeerAddress, encodeXorAddress s.peer transaction)]
  | .channel =>
    [(attrChannelNumber, [0x40, 0, 0, 0]),
      (attrXorPeerAddress, encodeXorAddress s.peer transaction)]

def credentials (s : Inner) : List (BitVec 16 × Bytes) :=
  [(attrUsername, s.username), (attrRealm, s.realm.getD []), (attrNonce, s.nonce.getD [])]

theorem requestBuilder_spells (s : Inner) (operation : Operation) (transaction : Octets 12) :
    Spells (s.requestBuilder operation transaction) operation.method 0 transaction
      (s.requestAttributes operation transaction) := by
  have h := spells_withTransaction operation.method transaction
  cases operation with
  | allocate => exact ((h.addAttribute _ _).addAttribute _ _).addAttribute _ _
  | refresh => exact h.addAttribute _ _
  | deallocate => exact h.addAttribute _ _
  | permission => exact h.addAttribute _ _
  | channel => exact (h.addAttribute _ _).addAttribute _ _

/-- A signed request can be built exactly when its length fits sixteen bits. -/
theorem buildRequest_authenticated {key : Octets 16} (hkey : s.key = some key)
    (transaction : Octets 12) :
    s.buildRequest P operation transaction true =
      if (fields (s.requestAttributes operation transaction ++ s.credentials)).length + 32 < 2 ^ 16
      then .ok (spelled operation.method transaction
        (fingerprinted P operation.method transaction
          (signed P key operation.method transaction
            (s.requestAttributes operation transaction ++ s.credentials))))
      else .error "STUN message too large for u16 length" := by
  have h := (((requestBuilder_spells s operation transaction).addAttribute attrUsername
    s.username).addAttribute attrRealm (s.realm.getD [])).addAttribute attrNonce (s.nonce.getD [])
  have hfin := h.finishAuthenticated P key
  simp only [List.append_assoc, List.cons_append, List.nil_append] at hfin
  rw [buildRequest, if_pos rfl, hkey]
  exact hfin

theorem buildRequest_plain (transaction : Octets 12) :
    s.buildRequest P operation transaction false =
      if (fields (s.requestAttributes operation transaction)).length + 8 < 2 ^ 16
      then .ok (spelled operation.method transaction
        (fingerprinted P operation.method transaction
          (s.requestAttributes operation transaction)))
      else .error "STUN message too large for u16 length" := by
  rw [buildRequest, if_neg Bool.false_ne_true]
  exact (requestBuilder_spells s operation transaction).finish

theorem encodeXorAddress_length (address : SocketAddr) (transaction : Octets 12) :
    (encodeXorAddress address transaction).length ≤ 20 := by
  obtain ⟨ip, port⟩ := address
  cases ip with
  | v4 bits =>
    show 8 ≤ 20
    decide
  | v6 octets =>
    show ([0, 2] ++ _ ++ _ : Bytes).length ≤ 20
    rw [List.length_append, (xorOctets octets (xorMask transaction)).property]
    rfl

theorem requestAttributes_length (s : Inner) (operation : Operation) (transaction : Octets 12) :
    (fields (s.requestAttributes operation transaction)).length ≤ 32 := by
  have hx := encodeXorAddress_length s.peer transaction
  have hpad : ∀ n, n ≤ 20 → padded n ≤ 20 := fun n hn => by rw [padded]; omega
  have hx' := hpad _ hx
  cases operation <;>
    simp only [requestAttributes, fields_cons, fields_nil, List.length_append, field_length,
      List.length_nil, List.length_cons, bytes32] <;>
    simp only [padded] at * <;> omega

def Fits (s : Inner) : Prop :=
  s.username.length ≤ 512 ∧ (s.realm.getD []).length ≤ 4096 ∧ (s.nonce.getD []).length ≤ 4096

theorem Fits.builds (h : Fits s) (transaction : Octets 12) :
    (fields (s.requestAttributes operation transaction ++ s.credentials)).length + 32 < 2 ^ 16 := by
  obtain ⟨hu, hr, hn⟩ := h
  have ha := requestAttributes_length s operation transaction
  have hpad : ∀ n, padded n ≤ n + 3 := fun n => by rw [padded]; omega
  have hpu := hpad s.username.length
  have hpr := hpad (s.realm.getD []).length
  have hpn := hpad (s.nonce.getD []).length
  simp only [fields_append, credentials, fields_cons, fields_nil, List.length_append, field_length,
    List.length_nil]
  omega

theorem Fits.buildRequest (P : Primitives) (operation : Operation) (h : Fits s)
    {authenticated : Bool} (transaction : Octets 12) (hauth : authenticated → s.AuthSet) :
    ∃ packet, s.buildRequest P operation transaction authenticated = .ok packet := by
  cases authenticated with
  | false =>
    have ha := requestAttributes_length s operation transaction
    rw [buildRequest_plain, if_pos (by omega)]
    exact ⟨_, rfl⟩
  | true =>
    obtain ⟨_, _, hk⟩ := hauth rfl
    obtain ⟨key, hkey⟩ := Option.isSome_iff_exists.mp hk
    rw [buildRequest_authenticated hkey, if_pos (h.builds _)]
    exact ⟨_, rfl⟩

/-- With short credentials an operation can always be started. -/
theorem Fits.startOperation (P : Primitives) (env : Env) (operation : Operation) (h : Fits s)
    {authenticated : Bool} (hauth : authenticated → s.AuthSet) (nonceRetries : ℕ) :
    (s.startOperation P env operation authenticated nonceRetries).1 = .ok () := by
  rcases hfind : s.pending.find? (·.operation = operation) with _ | q
  · obtain ⟨packet, hpacket⟩ := h.buildRequest P operation (env.transaction operation) hauth
    rw [startOperation_begins hfind hauth hpacket]
  · rw [Inner.startOperation, hfind]

/-! ### The refresh is held -/

def RefreshHeld (s : Inner) : Prop :=
  s.state = .ready → s.allocationRefresh.isSome ∨ s.hasOperation .refresh

/-- The same, but for an operation whose transaction has just been removed. -/
def HeldBut (operation : Operation) (s : Inner) : Prop :=
  Fits s ∧ (s.state = .ready →
    s.allocationRefresh.isSome ∨ s.hasOperation .refresh ∨ operation = .refresh)

def Held (s : Inner) : Prop := Fits s ∧ RefreshHeld s

theorem Held.quiet (h : Held s) (hst : Quiet s t) : Held t := by
  obtain ⟨controls, events, rfl⟩ := hst
  exact h

theorem HeldBut.quiet (h : HeldBut operation s) (hst : Quiet s t) : HeldBut operation t := by
  obtain ⟨controls, events, rfl⟩ := hst
  exact h

theorem Held.but (operation : Operation) (h : Held s) : HeldBut operation s :=
  ⟨h.1, fun hr => (h.2 hr).imp_right .inl⟩

theorem Held.remove (h : Held s) (hperm : (p :: rest).Perm s.pending) :
    HeldBut p.operation { s with pending := rest } := by
  refine ⟨h.1, fun hr => (h.2 hr).imp_right fun href => ?_⟩
  obtain ⟨q, hq, hop⟩ := List.any_eq_true.mp href
  rcases List.mem_cons.mp (hperm.mem_iff.mpr hq) with rfl | hq
  · exact .inr (of_decide_eq_true hop)
  · exact .inl (List.any_eq_true.mpr ⟨q, hq, hop⟩)

theorem HeldBut.destroyAllocation (h : HeldBut operation s) {operation' : Operation} (status : ℤ)
    (stunCode : ℕ) : Held (s.destroyAllocation operation' status stunCode) := by
  obtain ⟨events, heq⟩ := destroyAllocation_eq s operation' status stunCode
  rw [heq]
  refine ⟨h.1, fun hr => ?_⟩
  exfalso
  revert hr
  show (if operation' = Operation.deallocate then TurnState.deallocated else .destroying) ≠ .ready
  split_ifs <;> decide

/-- A failed refresh is scheduled again; the failure of another operation leaves
the refresh alone, unless it ends the allocation. -/
theorem HeldBut.completeFailure (h : HeldBut operation s) (status : ℤ) (stunCode now : ℕ) :
    Held (s.completeFailure operation status stunCode now) := by
  have hfailed := completeFailure_failed s operation status stunCode now
  generalize s.completeFailure operation status stunCode now = t at hfailed ⊢
  cases hfailed with
  | refresh => exact ⟨h.1, fun _ => .inl rfl⟩
  | permission | channel =>
    exact ⟨h.1, fun hr => (h.2 hr).imp_right fun h => h.resolve_right (by decide)⟩
  | exhausted => exact ⟨h.1, fun hr => nomatch hr⟩
  | destroyed => exact h.destroyAllocation status stunCode

theorem hasOperation_append (s : Inner) (ps : List Pending) (operation : Operation) :
    { s with pending := s.pending ++ ps }.hasOperation operation =
      (s.hasOperation operation || ps.any (·.operation = operation)) :=
  List.any_append

/-- Starting the operation that is missing makes up for it. -/
theorem HeldBut.startOperation (h : HeldBut operation s) {authenticated : Bool} {nonceRetries : ℕ}
    (hok : (s.startOperation P env operation authenticated nonceRetries).1 = .ok ()) :
    Held (s.startOperation P env operation authenticated nonceRetries).2 := by
  rcases startOperation_cases P env s operation authenticated nonceRetries with
    ⟨hhas, _, hquiet⟩ | ⟨_, ⟨e, he⟩, _⟩ | ⟨_, _, _, p, hop, _, _, _, hquiet⟩
  · refine Held.quiet ⟨h.1, fun hr => (h.2 hr).imp_right fun h => ?_⟩ hquiet
    rcases h with href | rfl
    · exact href
    · exact hhas
  · exact nomatch he.symm.trans hok
  · suffices hadded : Held { s with pending := s.pending ++ [p] } from hadded.quiet hquiet
    refine ⟨h.1, fun hr => (h.2 hr).imp_right fun h => ?_⟩
    rw [hasOperation_append, Bool.or_eq_true]
    rcases h with href | rfl
    · exact .inl href
    · exact .inr (List.any_eq_true.mpr ⟨p, List.mem_singleton_self p, decide_eq_true hop⟩)

/-- Starting another operation leaves the refresh alone, whether it works or not. -/
theorem Held.startOperation (h : Held s) (authenticated : Bool) (nonceRetries : ℕ) :
    Held (s.startOperation P env operation authenticated nonceRetries).2 := by
  rcases startOperation_cases P env s operation authenticated nonceRetries with
    ⟨_, _, hquiet⟩ | ⟨_, _, heq⟩ | ⟨_, _, _, p, _, _, _, _, hquiet⟩
  · exact h.quiet hquiet
  · rw [heq]
    exact h
  · suffices hadded : Held { s with pending := s.pending ++ [p] } from hadded.quiet hquiet
    refine ⟨h.1, fun hr => (h.2 hr).imp_right fun href => ?_⟩
    rw [hasOperation_append, href, Bool.true_or]

/-! ### `poll` -/

theorem Held.expire {index : ℕ} (h : Held s) (hi : index < s.pending.length) (now : ℕ) :
    Held (s.expire index s.pending[index] now) :=
  ((h.remove (List.getElem_cons_eraseIdx_perm hi)).quiet
    (removeQueuedTransaction_quiet _ _)).completeFailure _ _ _

theorem Held.retransmit {index : ℕ} (h : Held s) (hi : index < s.pending.length) (now : ℕ) :
    Held { s.queuePacket s.pending[index].packet with
      pending := s.pending.set index (s.pending[index].retransmitted now) } := by
  obtain ⟨controls, events, hq⟩ := queuePacket_quiet s s.pending[index].packet
  rw [hq]
  refine ⟨h.1, fun hr => (h.2 hr).imp_right fun href => ?_⟩
  obtain ⟨q, hq, hop⟩ := List.any_eq_true.mp href
  obtain ⟨j, hj, rfl⟩ := List.getElem_of_mem hq
  -- the refresh stays where it is, retransmitted or not
  have hj' : j < (s.pending.set index (s.pending[index].retransmitted now)).length := by
    rwa [List.length_set]
  refine List.any_eq_true.mpr ⟨_, List.getElem_mem hj', ?_⟩
  rw [List.getElem_set]
  split_ifs with hij
  · subst hij
    exact hop
  · exact hop

theorem Held.expireFrom (h : Held s) (now index : ℕ) : Held (s.expireFrom now index) := by
  fun_induction Inner.expireFrom s now index with
  | case1 s index hi p hlater ih => exact ih h
  | case2 s index hi p hcome hexhausted ih => exact ih (h.expire hi now)
  | case3 s index hi p hcome hmore ih => exact ih (h.retransmit hi now)
  | case4 s index hi => exact h

theorem Held.pollExpiry (h : Held s) : Held (s.pollExpiry env) := by
  rw [Inner.pollExpiry]
  split_ifs
  · exact (h.but .refresh).destroyAllocation _ _
  · exact h

theorem Held.pollRefresh (h : Held s) (hauth : s.AuthSet) : Held (s.pollRefresh P env).2 := by
  rw [Inner.pollRefresh]
  split_ifs
  · -- the schedule is cleared, and the request that replaces it can be built
    have hcleared : HeldBut .refresh { s with allocationRefresh := none } :=
      ⟨h.1, fun _ => .inr (.inr rfl)⟩
    exact hcleared.startOperation (hcleared.1.startOperation P env _ (fun _ => hauth) 0)
  · exact h

theorem Held.pollPermission (h : Held s) (permissionDue : Bool) :
    Held (s.pollPermission P env permissionDue).2 := by
  have hcleared : Held { s with permissionRetry := none } := h
  rw [Inner.pollPermission]
  split_ifs
  · exact hcleared.startOperation _ _
  · exact h

theorem Held.pollChannel (h : Held s) (channelDue : Bool) :
    Held (s.pollChannel P env channelDue).2 := by
  have hcleared : Held { s with channelRetry := none } := h
  rw [Inner.pollChannel]
  split_ifs
  · exact hcleared.startOperation _ _
  · exact h

theorem Held.pollMaintenance (h : Held s) (maintenanceDue : Bool) :
    Held (s.pollMaintenance env maintenanceDue) := by
  rw [Inner.pollMaintenance]
  split_ifs
  · exact h
  · exact h

theorem Held.pollKeepalive (h : Held s) : Held (s.pollKeepalive env) := by
  have hkept : Held { s with keepalive := some (env.now + s.profile.keepaliveInterval) } := h
  rw [Inner.pollKeepalive]
  split_ifs
  · exact hkept.quiet (queueKeepalive_quiet _)
  · exact h

theorem Held.pollReady (h : Held s) (hauth : s.AuthSet) : Held (s.pollReady P env).2 := by
  refine andThen_keeps (h.pollRefresh hauth) fun _ t ht => ?_
  refine andThen_keeps ((ht.pollMaintenance _).pollPermission _) fun _ t ht => ?_
  exact andThen_keeps (ht.pollChannel _) fun _ t ht => ht.pollKeepalive

theorem Held.poll (h : Held s) (hb : Base s) : Held (NativeCore.poll P env s).2 := by
  rw [NativeCore.poll]
  split_ifs
  · exact h
  · have hexpired : Held ((s.expireTransactions env.now).pollExpiry env) :=
      (h.expireFrom env.now 0).pollExpiry
    have hbase : Base ((s.expireTransactions env.now).pollExpiry env) :=
      (hb.expireTransactions env.now).pollExpiry
    refine andThen_keeps (Q := Held) ?_ fun _ t ht => ht
    rw [pollActive]
    split_ifs with hactive
    · have harmed := hbase.ready (active_iff.mp hactive).2
      exact hexpired.pollReady harmed.2.2.2.2.1
    · exact hexpired

/-! ### `input_stun` -/

theorem HeldBut.refuse (h : HeldBut operation s) (m : Message) (status : ℤ)
    (stunCode reported : ℕ) (state : TurnState) : Held ((s.reportError m status reported
      state).completeFailure operation resultProtocol stunCode env.now) :=
  (h.quiet (pushEvent_quiet s _)).completeFailure _ _ _

/-- A challenge in a short packet leaves short credentials. -/
theorem Fits.challenge {packet realm nonce : Bytes} {m : Message} {code : ℕ} (h : Fits s)
    (hdecode : Message.decode packet = .ok m) (hlen : packet.length ≤ 4096)
    (hc : s.challenge m code = some (realm, nonce)) : Fits (s.setAuth P realm nonce) := by
  have hvalue : ∀ {kind : BitVec 16} {value : Bytes},
      (m.findAttribute kind).map Attribute.value = some value → value.length ≤ 4096 := by
    intro kind value hv
    obtain ⟨a, ha, rfl⟩ := Option.map_eq_some_iff.mp hv
    exact (decode_value_length hdecode a (List.mem_of_find?_eq_some ha)).trans hlen
  rw [Inner.challenge] at hc
  rcases hn : (m.findAttribute attrNonce).map Attribute.value with _ | nonce'
  · rw [hn] at hc
    rcases hr : ((m.findAttribute attrRealm).map Attribute.value).or
        (if code = 438 then s.realm else none) with _ | realm'
    · rw [hr] at hc
      exact nomatch hc
    · rw [hr] at hc
      exact nomatch hc
  rcases hr : (m.findAttribute attrRealm).map Attribute.value with _ | realm'
  · rw [hn, hr, Option.none_or] at hc
    split_ifs at hc with hstale
    rcases hs : s.realm with _ | realm'
    · rw [hs] at hc
      exact nomatch hc
    · rw [hs] at hc
      obtain ⟨rfl, rfl⟩ := Prod.mk.inj (Option.some.inj hc)
      have hrealm := h.2.1
      rw [hs] at hrealm
      exact ⟨h.1, hrealm, hvalue hn⟩
  · rw [hn, hr] at hc
    obtain ⟨rfl, rfl⟩ := Prod.mk.inj (Option.some.inj hc)
    exact ⟨h.1, hvalue hr, hvalue hn⟩

theorem HeldBut.inputError {packet : Bytes} {m : Message} (h : HeldBut p.operation s)
    (hdecode : Message.decode packet = .ok m) (hlen : packet.length ≤ 4096) :
    Held (s.inputError P env p m) := by
  rw [Inner.inputError]
  split_ifs
  · exact h.refuse m _ _ _ _
  · exact (h.quiet (pushEvent_quiet s _)).destroyAllocation _ _
  · rcases hretried : s.retried P env p m ((errorCode m).getD 0) with _ | ⟨r, t⟩
    · exact h.refuse m _ _ _ _
    · obtain ⟨realm, nonce, hc, hr⟩ := retried_eq_some hretried
      have hfits : Fits (s.setAuth P realm nonce) := h.1.challenge hdecode hlen hc
      have hauth : HeldBut p.operation (s.setAuth P realm nonce) := ⟨hfits, h.2⟩
      have hset : true → (s.setAuth P realm nonce).AuthSet := fun _ => ⟨rfl, rfl, rfl⟩
      have hok := hfits.startOperation P env p.operation hset (p.nonceRetries + 1)
      have ht := hauth.startOperation hok
      rw [← hr] at hok ht
      obtain rfl : r = .ok () := hok
      exact ht

theorem Held.of_not_ready (h : Fits s) (hstate : s.state ≠ .ready) : Held s :=
  ⟨h, fun hr => absurd hr hstate⟩

theorem Held.enter {state : TurnState} (h : Fits s) (hstate : state ≠ .ready) :
    Held (s.setState state) := by
  obtain ⟨events, heq⟩ := setState_eq s state
  rw [heq]
  exact .of_not_ready h hstate

theorem HeldBut.allocated {m : Message} (h : HeldBut .allocate s) :
    let r := s.completeSuccess P env .allocate m
    Held r.2 ∨ r.2 = s ∧ r.1 ≠ .ok () := by
  intro r
  by_cases herror : (∃ e, s.relayed m = .error e) ∨
      (attributeU32 m attrLifetime).getD requestedAllocationLifetime = 0
  · obtain ⟨e, heq⟩ := completeSuccess_allocate_error P env herror
    right
    rw [show r = (.error e, s) from heq]
    exact ⟨rfl, fun hok => nomatch hok⟩
  left
  rw [not_or, not_exists] at herror
  obtain ⟨relay, hrelay⟩ : ∃ relay, s.relayed m = .ok relay := by
    rcases hr : s.relayed m with e | relay
    · exact absurd hr (herror.1 e)
    · exact ⟨relay, rfl⟩
  show Held (s.completeSuccess P env .allocate m).2
  set t := s.allocated env.now relay (attributeU32 m attrLifetime) with ht
  rw [completeSuccess_allocate hrelay herror.2]
  split_ifs with hshut
  · have hfits : Fits t := h.1
    exact (Held.enter hfits (by decide)).startOperation _ _
  · obtain ⟨events, heq⟩ := setState_eq t .ready
    rw [heq]
    refine Held.quiet ?_ (complete_quiet _ _ _ _)
    exact ⟨h.1, fun _ => .inl rfl⟩

/-- A success leaves the refresh held, unless it is not accepted. -/
theorem HeldBut.completeSuccess (P : Primitives) (env : Env) (m : Message)
    (h : HeldBut operation s) :
    let r := s.completeSuccess P env operation m
    Held r.2 ∨ r.2 = s ∧ r.1 ≠ .ok () := by
  cases operation with
  | allocate => exact h.allocated
  | refresh =>
    intro r
    by_cases hzero : (attributeU32 m attrLifetime).getD requestedAllocationLifetime = 0
    · right
      have hr : r = (.error "TURN Refresh response lifetime is zero", s) := by
        simp only [r, Inner.completeSuccess, hzero, if_true]
      rw [hr]
      exact ⟨rfl, by rintro ⟨⟩⟩
    · left
      have hr : r = (.ok (), (s.granted env.now (attributeU32 m attrLifetime)).complete
          .refresh 0 0) := by
        simp only [r, Inner.completeSuccess, hzero, if_false]
      rw [hr]
      refine Held.quiet ?_ (complete_quiet _ _ _ _)
      exact ⟨h.1, fun _ => .inl rfl⟩
  | deallocate =>
    intro r
    by_cases hzero : (attributeU32 m attrLifetime).getD 0 = 0
    · left
      have hr : r = (.ok (), ({ s with
          relay := none
          allocationRefresh := none
          allocationExpiresAt := none }.complete .deallocate 0 0).setState .deallocated) := by
        simp only [r, Inner.completeSuccess, hzero, ne_eq, not_true_eq_false, if_false]
      rw [hr]
      refine .enter ?_ (by decide)
      exact h.1
    · right
      have hr : r = (.error "TURN deallocation response lifetime is not zero", s) := by
        simp only [r, Inner.completeSuccess, hzero, ne_eq, not_false_eq_true, if_true]
      rw [hr]
      exact ⟨rfl, by rintro ⟨⟩⟩
  | permission =>
    left
    have hheld : Held { s with permissionFailures := 0 } :=
      ⟨h.1, fun hr => (h.2 hr).imp_right fun h => h.resolve_right (by decide)⟩
    exact hheld.quiet (complete_quiet _ _ _ _)
  | channel =>
    left
    have hheld : Held { s with channel := some channelNumber, channelFailures := 0 } :=
      ⟨h.1, fun hr => (h.2 hr).imp_right fun h => h.resolve_right (by decide)⟩
    exact (hheld.quiet (pushEvent_quiet _ _)).quiet (complete_quiet _ _ _ _)

theorem HeldBut.inputSuccess {m : Message} (h : HeldBut p.operation s) :
    Held (s.inputSuccess P env p m).2 := by
  have hr := h.completeSuccess P env m
  simp only at hr
  rw [Inner.inputSuccess]
  rcases hresult : s.completeSuccess P env p.operation m with ⟨e | u, t⟩
  · rw [hresult] at hr
    rcases hr with hheld | ⟨heq, _⟩
    · exact (hheld.but _).completeFailure _ _ _
    · obtain rfl : t = s := heq
      exact h.completeFailure _ _ _
  · rw [hresult] at hr
    rcases hr with hheld | ⟨_, hne⟩
    · exact hheld
    · exact absurd rfl hne

theorem Held.inputStun {packet : Bytes} (h : Held s) (hlen : packet.length ≤ 4096) :
    Held (NativeCore.inputStun P env s packet).2 := by
  rcases inputStun_cases P env s packet with heq | ⟨m, p, hdecode, hclass, hp, heq⟩
  · rw [heq]
    exact h
  · have hbut : HeldBut p.operation (s.withdraw m) :=
      (h.remove (find?_cons_eraseP_perm hp)).quiet (removeQueuedTransaction_quiet _ _)
    rw [heq]
    rcases inputResponse_cases P env s packet p m with ⟨_, heq | ⟨code, heq⟩⟩ | ⟨_, heq⟩ <;> rw [heq]
    · exact h
    · exact h.quiet (pushEvent_quiet s _)
    · rw [inputAccepted]
      split_ifs
      · exact hbut.completeFailure _ _ _
      · exact hbut.inputError hdecode hlen
      · exact hbut.inputSuccess

/-! ### Every call -/

theorem Held.startAllocation (h : Held s) : Held (NativeCore.startAllocation P env s).2 := by
  rw [NativeCore.startAllocation]
  rcases NativeCore.requireOpen s "TURN Allocate start" with e | _
  · exact h
  · show Held (ite _ _ _ : Outcome Unit).2
    split_ifs
    · exact h
    · exact (Held.enter h.1 (by decide)).startOperation _ _

theorem Held.startChannel (h : Held s) : Held (NativeCore.startChannel P env s).2 := by
  rw [NativeCore.startChannel]
  rcases NativeCore.requireReady s "TURN ChannelBind start" with e | _
  · exact h
  · exact h.startOperation _ _

theorem Held.startPermission (h : Held s) : Held (NativeCore.startPermission P env s).2 := by
  rw [NativeCore.startPermission]
  rcases NativeCore.requireReady s "TURN CreatePermission start" with e | _
  · exact h
  · exact h.startOperation _ _

theorem Held.resyncAfterSuspend (h : Held s) (gap : ℕ) :
    Held (NativeCore.resyncAfterSuspend env s gap).2 := by
  rw [NativeCore.resyncAfterSuspend]
  split_ifs
  · exact h
  · rcases s.allocationExpiresAt with _ | expires
    · exact ⟨h.1, fun _ => .inl rfl⟩
    · show Held (ite _ _ _ : Bool × Inner).2
      split_ifs
      · exact ⟨h.1, fun _ => .inl rfl⟩
      · exact (h.but .refresh).destroyAllocation _ _

theorem Held.pullControl (h : Held s) : Held (NativeCore.pullControl s).2 := by
  rw [NativeCore.pullControl]
  rcases s.controls with _ | ⟨control, controls⟩
  · exact h
  · show Held (ite _ _ _ : Outcome (Option (Bytes × SocketAddr))).2
    split_ifs
    · exact h
    · exact h

theorem Held.gracefulShutdown (h : Held s) : Held (NativeCore.gracefulShutdown P env s).2 := by
  rw [NativeCore.gracefulShutdown]
  split_ifs
  · exact h
  · show Held (ite _ _ _ : Outcome Unit).2
    split_ifs with hgive hallocating
    · refine Held.startOperation (.enter ?_ (by decide)) _ _
      exact h.1
    · exact .of_not_ready h.1 fun hr => hgive (.inl hr)
    · exact .of_not_ready h.1 fun hr => hgive (.inl hr)

theorem Held.forceDestroy (h : Held s) (status : ℤ) :
    Held (NativeCore.forceDestroy s status) := by
  rw [NativeCore.forceDestroy]
  split_ifs
  · exact h
  · refine Held.quiet (.enter ?_ (by decide)) (pushEvent_quiet _ _)
    exact h.1

end Inner

/-- The bound on the packets that the core is given. -/
def Call.Short : Call → Prop
  | .inputStun packet => packet.length ≤ 4096
  | _ => True

namespace Inner

variable {P : Primitives} {env : Env} {s : Inner}

theorem Held.after {call : Call} (h : Held s) (hb : Base s) (hshort : call.Short) :
    Held (NativeCore.after P env s call) := by
  cases call with
  | startAllocation => exact h.startAllocation
  | startChannel => exact h.startChannel
  | startPermission => exact h.startPermission
  | inputStun packet => exact h.inputStun hshort
  | poll => exact h.poll hb
  | resyncAfterSuspend gap => exact h.resyncAfterSuspend gap
  | pullControl => exact h.pullControl
  | pullEvent => exact h
  | gracefulShutdown => exact h.gracefulShutdown
  | forceDestroy status => exact h.forceDestroy status

theorem Held.create {server peer : SocketAddr} {username password : Bytes}
    {transport : TurnControlTransport}
    (h : NativeCore.create server username password peer transport = .ok s) : Held s := by
  rw [NativeCore.create] at h
  split_ifs at h with hports hsizes
  rw [← Except.ok.inj h]
  refine .of_not_ready ⟨?_, Nat.zero_le _, Nat.zero_le _⟩ (by simp)
  show username.length ≤ 512
  omega

theorem kept_of_run {s₀ : Inner} {server peer : SocketAddr} {username password : Bytes}
    {transport : TurnControlTransport} {calls : List (Env × Call)}
    (hcreate : NativeCore.create server username password peer transport = .ok s₀)
    (hshort : ∀ c ∈ calls, c.2.Short)
    (hrun : Transition.run (NativeCore.step P) s₀ calls = some s) : Base s ∧ Held s := by
  refine Transition.run_invariant (P := fun s => Base s ∧ Held s) (fun s label s' hs hl hstep => ?_)
    ⟨Base.create hcreate, Held.create hcreate⟩ hshort hrun
  rw [← Option.some_inj.mp hstep]
  exact ⟨hs.1.after label.2, hs.2.after hs.1 hl⟩

theorem Base.at_most_one (h : Base s) (operation : Operation) :
    (s.pending.filter (·.operation = operation)).length ≤ 1 := by
  have hcount := List.nodup_iff_count_le_one.mp h.once operation
  rw [List.count_eq_countP, List.countP_map, List.countP_eq_length_filter] at hcount
  convert hcount using 3
  funext p
  show decide _ = (p.operation == operation)
  rw [beq_eq_decide]

/-! ### A core that becomes READY -/

/-- A clock reading and a transaction that no other call draws. -/
def moment (now : ℕ) (id : BitVec 8) : Env :=
  { now
    transaction := fun _ => ⟨List.replicate 12 id, rfl⟩
    lag := fun _ => 0 }

/-- A core just created, by the user `user` with the password `pass`. -/
def freshCore : Inner :=
  { server := { ip := .v4 0x7f000001, port := 3478 }
    peer := { ip := .v4 0x7f000001, port := 9000 }
    username := [0x75, 0x73, 0x65, 0x72]
    password := [0x70, 0x61, 0x73, 0x73]
    profile := .pjnathCompat
    transport := .datagram }

def relayAddr : SocketAddr := { ip := .v4 0x7f000001, port := 50000 }

/-- The realm `r` and the nonce `n` of the server's challenge. -/
def challengeAttributes : List (BitVec 16 × Bytes) :=
  [(attrErrorCode, [0, 0, 4, 1]), (attrRealm, [0x72]), (attrNonce, [0x6e])]

def challengePacket : Bytes :=
  spelled 0x0113 ((moment 0 0).transaction .allocate) challengeAttributes

def freshKey (P : Primitives) : Octets 16 :=
  P.md5 ([0x75, 0x73, 0x65, 0x72] ++ [0x3a] ++ [0x72] ++ [0x3a] ++ [0x70, 0x61, 0x73, 0x73])

def allocatedAttributes : List (BitVec 16 × Bytes) :=
  [(attrXorRelayedAddress, encodeXorAddress relayAddr ((moment 0 1).transaction .allocate))]

/-- The signed answer to the second Allocate request. -/
def allocatedPacket (P : Primitives) : Bytes :=
  spelled 0x0103 ((moment 0 1).transaction .allocate)
    (signed P (freshKey P) 0x0103 ((moment 0 1).transaction .allocate) allocatedAttributes)

def handshake (P : Primitives) : List (Env × Call) :=
  [(moment 0 0, .startAllocation), (moment 0 1, .inputStun challengePacket),
    (moment 0 2, .inputStun (allocatedPacket P))]

theorem create_freshCore : NativeCore.create freshCore.server freshCore.username
    freshCore.password freshCore.peer .datagram = .ok freshCore := rfl

/-- The core after the challenge, up to its queues. -/
def challengedCore (P : Primitives) (packet : Bytes) : Inner :=
  { freshCore.setAuth P [0x72] [0x6e] with
    state := .allocating
    pending := [freshCore.begun (moment 0 1) .allocate packet true 1] }

/-- The core once it is READY, up to its queues. -/
def readyCore (P : Primitives) : Inner :=
  { (freshCore.setAuth P [0x72] [0x6e]).allocated 0 relayAddr none with state := .ready }

/-- With short credentials the request that is begun is the only thing added. -/
theorem Fits.begins (P : Primitives) (env : Env) (operation : Operation) (h : Fits s)
    {authenticated : Bool} (hauth : authenticated → s.AuthSet) (hnew : s.pending = []) (nonceRetries : ℕ) :
    ∃ packet, Quiet { s with pending := [s.begun env operation packet authenticated nonceRetries] }
      (s.startOperation P env operation authenticated nonceRetries).2 := by
  have hfind : s.pending.find? (·.operation = operation) = none := by rw [hnew]; rfl
  obtain ⟨packet, hbuild⟩ := h.buildRequest P operation
    (env.transaction operation) hauth
  obtain ⟨controls, events, hq⟩ := queuePacket_quiet s packet
  refine ⟨packet, controls, events, ?_⟩
  rw [startOperation_begins hfind hauth hbuild, hq, hnew]
  rfl

theorem handshake_started (P : Primitives) :
    ∃ packet, Quiet
      { freshCore with
        state := .allocating
        pending := [freshCore.begun (moment 0 0) .allocate packet false 0] }
      (NativeCore.after P (moment 0 0) freshCore .startAllocation) := by
  have hfits : Fits (freshCore.setState .allocating) := by
    show 4 ≤ 512 ∧ 0 ≤ 4096 ∧ 0 ≤ 4096
    decide
  have hauth : false → (freshCore.setState .allocating).AuthSet :=
    fun h => absurd h Bool.false_ne_true
  obtain ⟨packet, controls, events, hq⟩ := hfits.begins P (moment 0 0) .allocate hauth rfl 0
  exact ⟨packet, controls, events, hq⟩

/-- A believed response to the only transaction there is. -/
theorem inputStun_sole (P : Primitives) (env : Env) {packet : Bytes} {m : Message} (hdecode : Message.decode packet = .ok m)
    (hclass : m.class = .success ∨ m.class = .error)
    (hfingerprint : m.fingerprintValid P ≠ some false) (hsole : s.pending = [p])
    (hanswered : p.answeredBy m) (htrusted : s.unauthentic P packet p m = false) :
    ∃ controls, NativeCore.inputStun P env s packet =
      { s with pending := [], controls }.inputAccepted P env p m := by
  have hfind : s.pending.find? (·.answeredBy m) = some p := by
    rw [hsole, List.find?_cons, hanswered]
  have herase : s.pending.eraseP (·.answeredBy m) = [] := by
    rw [hsole, List.eraseP_cons, hanswered]
    rfl
  refine ⟨(s.withdraw m).controls, ?_⟩
  rw [inputStun_answers hdecode hclass hfingerprint hfind, inputResponse, htrusted,
    if_neg Bool.false_ne_true, withdraw, herase]
  rfl

/-- A challenge to the only transaction there is makes the core try again. -/
theorem inputStun_challenge (P : Primitives) (env : Env) {packet realm nonce : Bytes} {m : Message} {code : ℕ}
    (hdecode : Message.decode packet = .ok m) (hclass : m.class = .error)
    (hfingerprint : m.fingerprintValid P ≠ some false) (hsole : s.pending = [p])
    (hanswered : p.answeredBy m) (hplain : p.authenticated = false)
    (hcode : errorCode m = some code) (hstale : code = 401 ∨ code = 438)
    (hretries : p.nonceRetries < s.profile.maxNonceRetries)
    (hchallenge : ∀ t : Inner, t.challenge m code = some (realm, nonce))
    (hfits : Fits (s.setAuth P realm nonce)) :
    ∃ packet', Quiet
      { s.setAuth P realm nonce with
        pending := [s.begun env p.operation packet' true (p.nonceRetries + 1)] }
      (NativeCore.inputStun P env s packet).2 := by
  have htrusted : s.unauthentic P packet p m = false := by
    rw [unauthentic, hplain, Bool.false_and, Bool.false_and, Bool.false_and]
  obtain ⟨controls, hinput⟩ := inputStun_sole P env hdecode (.inr hclass) hfingerprint hsole
    hanswered htrusted
  have hfits' : Fits ({ s with pending := [], controls }.setAuth P realm nonce) := hfits
  have hauth : true → ({ s with pending := [], controls }.setAuth P realm nonce).AuthSet :=
    fun _ => ⟨rfl, rfl, rfl⟩
  have hok := hfits'.startOperation P env p.operation hauth (p.nonceRetries + 1)
  have hretry := inputError_retry (s := { s with pending := [], controls }) hcode hstale hretries
    (hchallenge _) hok
  have hresult : (NativeCore.inputStun P env s packet).2 =
      (({ s with pending := [], controls }.setAuth P realm nonce).startOperation P env p.operation
        true (p.nonceRetries + 1)).2 := by
    have hnot : ¬ (m.class = .success ∧ ¬ p.authenticated) := by
      rw [hclass]
      exact fun h => absurd h.1 (by decide)
    rw [hinput, inputAccepted, if_neg hnot, if_pos hclass]
    exact hretry
  obtain ⟨packet', controls', events, hquiet⟩ := hfits'.begins P env p.operation hauth rfl
    (p.nonceRetries + 1)
  exact ⟨packet', controls', events, hresult.trans hquiet⟩

theorem handshake_challenged {packet : Bytes} (h : Quiet
      { freshCore with
        state := .allocating
        pending := [freshCore.begun (moment 0 0) .allocate packet false 0] } s) :
    ∃ packet', Quiet (challengedCore P packet')
      (NativeCore.after P (moment 0 1) s (.inputStun challengePacket)) := by
  have hdecode : Message.decode challengePacket =
      .ok (messageOf 0x0113 ((moment 0 0).transaction .allocate) challengeAttributes) :=
    decode_spelled (by decide) (by decide) (by decide)
  have hclass : (messageOf 0x0113 ((moment 0 0).transaction .allocate)
      challengeAttributes).class = .error := by
    show kindClass 0x0113 = .error
    decide
  obtain ⟨controls, events, rfl⟩ := h
  obtain ⟨packet', controls', events', heq⟩ := inputStun_challenge P (moment 0 1)
    (s := { freshCore with
      state := .allocating
      pending := [freshCore.begun (moment 0 0) .allocate packet false 0]
      controls, events }) hdecode hclass (fun h => nomatch h) rfl rfl rfl rfl (.inl rfl)
      (show 0 < 3 by decide) (fun _ => rfl) (by show 4 ≤ 512 ∧ 1 ≤ 4096 ∧ 1 ≤ 4096; decide)
  exact ⟨packet', controls', events', heq⟩

/-- A signed success of the only transaction there is. -/
theorem inputStun_success (P : Primitives) (env : Env) {packet : Bytes} {m : Message} (hdecode : Message.decode packet = .ok m)
    (hclass : m.class = .success) (hfingerprint : m.fingerprintValid P ≠ some false)
    (hsole : s.pending = [p]) (hanswered : p.answeredBy m) (hauth : p.authenticated)
    (hverify : verifyIntegrity P packet m s.key) :
    ∃ controls, NativeCore.inputStun P env s packet =
      { s with pending := [], controls }.inputSuccess P env p m := by
  have htrusted : s.unauthentic P packet p m = false := by
    rw [unauthentic, hverify, Bool.not_true, Bool.and_false, Bool.false_and]
  obtain ⟨controls, hinput⟩ := inputStun_sole P env hdecode (.inl hclass) hfingerprint hsole
    hanswered htrusted
  have hsigned : ¬ (m.class = .success ∧ ¬ p.authenticated) := fun h => h.2 hauth
  have hnot : m.class ≠ .error := by
    rw [hclass]
    decide
  refine ⟨controls, ?_⟩
  rw [hinput, inputAccepted, if_neg hsigned, if_neg hnot]

theorem handshake_allocated {packet : Bytes} (h : Quiet (challengedCore P packet) s) :
    Quiet (readyCore P) (NativeCore.after P (moment 0 2) s (.inputStun (allocatedPacket P))) := by
  set m := messageOf 0x0103 ((moment 0 1).transaction .allocate)
    (signed P (freshKey P) 0x0103 ((moment 0 1).transaction .allocate) allocatedAttributes) with hm
  have hdecode : Message.decode (allocatedPacket P) = .ok m := by
    refine decode_spelled (by decide) (by decide) ?_
    rw [signed_length]
    decide
  have hclass : m.class = .success := by
    show kindClass 0x0103 = .success
    decide
  have hverify : verifyIntegrity P (allocatedPacket P) m (some (freshKey P)) := by
    have h := verifyIntegrity_signed P (freshKey P) 0x0103 ((moment 0 1).transaction .allocate) []
      (show ∀ a ∈ allocatedAttributes, canonical a.1 ≠ attrMessageIntegrity by decide) (by decide)
    rw [List.append_nil] at h
    exact h
  have hanswered : (freshCore.begun (moment 0 1) .allocate packet true 1).answeredBy m := by
    rw [Pending.answeredBy, Bool.and_eq_true]
    refine ⟨decide_eq_true rfl, ?_⟩
    show decide ((3 : BitVec 16) = kindMethod 0x0103) = true
    decide
  obtain ⟨controls, events, rfl⟩ := h
  obtain ⟨controls', hinput⟩ := inputStun_success P (moment 0 2)
    (s := { challengedCore P packet with controls, events }) hdecode hclass (fun h => nomatch h) rfl
    hanswered rfl hverify
  set t : Inner := { challengedCore P packet with pending := [], controls := controls', events }
  have hrelay : t.relayed m = .ok relayAddr := rfl
  have hlifetime : attributeU32 m attrLifetime = none := rfl
  have hsuccess : t.completeSuccess P (moment 0 2) .allocate m =
      (.ok (), ((t.allocated 0 relayAddr none).setState .ready).complete .allocate 0 0) := by
    have hstay : ¬ t.shuttingDown := Bool.false_ne_true
    rw [completeSuccess_allocate hrelay (by rw [hlifetime]; decide), hlifetime, if_neg hstay]
    rfl
  have hresult : (NativeCore.inputStun P (moment 0 2) { challengedCore P packet with
      controls, events } (allocatedPacket P)).2 =
      ((t.allocated 0 relayAddr none).setState .ready).complete .allocate 0 0 := by
    rw [hinput]
    show (t.inputSuccess P (moment 0 2) (freshCore.begun (moment 0 1) .allocate packet true 1)
      m).2 = _
    rw [Inner.inputSuccess, show (freshCore.begun (moment 0 1) .allocate packet true 1).operation =
      .allocate from rfl, hsuccess]
  obtain ⟨events', hready⟩ := setState_eq (t.allocated 0 relayAddr none) .ready
  have hquiet := complete_quiet ((t.allocated 0 relayAddr none).setState .ready) .allocate 0 0
  rw [hready] at hquiet
  rw [NativeCore.after, hresult, hready]
  exact Quiet.trans ⟨controls', events', rfl⟩ hquiet

theorem handshake_ready (P : Primitives) :
    ∃ s, Transition.run (NativeCore.step P) freshCore (handshake P) = some s ∧
      Quiet (readyCore P) s := by
  obtain ⟨packet, h₁⟩ := handshake_started P
  obtain ⟨packet', h₂⟩ := handshake_challenged h₁
  exact ⟨_, rfl, handshake_allocated h₂⟩

theorem handshake_short (P : Primitives) : ∀ c ∈ handshake P, c.2.Short := by
  have hlength : (allocatedPacket P).length ≤ 4096 := by
    rw [allocatedPacket, spelled, List.length_append, header_length, signed_length]
    decide
  intro c hc
  rcases List.mem_cons.mp hc with rfl | hc
  · trivial
  rcases List.mem_cons.mp hc with rfl | hc
  · show challengePacket.length ≤ 4096
    decide
  · rw [List.mem_singleton.mp hc]
    exact hlength

/-! ### The maintenance of a READY core -/

/-- **TURN maintenance is never lost.**  After any calls, with packets of at most
4096 bytes, a READY core has its relay, its deadlines and its credentials, every
operation is pending once at most, and the next refresh is scheduled or pending. -/
theorem maintenance_never_lost {s₀ : Inner} {server peer : SocketAddr} {username password : Bytes}
    {transport : TurnControlTransport} {calls : List (Env × Call)}
    (hcreate : NativeCore.create server username password peer transport = .ok s₀)
    (hshort : ∀ c ∈ calls, c.2.Short)
    (hrun : Transition.run (NativeCore.step P) s₀ calls = some s) (hready : s.state = .ready) :
    s.relay.isSome ∧ s.allocationExpiresAt.isSome ∧ s.maintenanceRefresh.isSome ∧
      s.keepalive.isSome ∧ s.realm.isSome ∧ s.nonce.isSome ∧ s.key.isSome ∧
      (∀ operation : Operation, (s.pending.filter (·.operation = operation)).length ≤ 1) ∧
      (s.allocationRefresh.isSome ∨ ∃ p ∈ s.pending, p.operation = .refresh) := by
  obtain ⟨hbase, hheld⟩ := kept_of_run hcreate hshort hrun
  obtain ⟨hrelay, hexpires, hmaintenance, hkeepalive, hauth, _, _⟩ := hbase.ready hready
  refine ⟨hrelay, hexpires, hmaintenance, hkeepalive, hauth.1, hauth.2.1, hauth.2.2,
    hbase.at_most_one, (hheld.2 hready).imp_right fun hrefresh => ?_⟩
  obtain ⟨p, hp, hop⟩ := List.any_eq_true.mp hrefresh
  exact ⟨p, hp, of_decide_eq_true hop⟩

/-- Digests that are all zero. -/
def zeroDigests : Primitives :=
  { crc32 := fun _ => 0
    md5 := fun _ => ⟨List.replicate 16 0, rfl⟩
    hmacSha1 := fun _ _ => ⟨List.replicate 20 0, rfl⟩ }

theorem maintenance_after_handshake :
    ∃ s, Transition.run (NativeCore.step zeroDigests) freshCore (handshake zeroDigests) = some s ∧
      s.state = .ready ∧ s.relay.isSome ∧ s.allocationExpiresAt.isSome ∧
      s.maintenanceRefresh.isSome ∧ s.keepalive.isSome ∧ s.realm.isSome ∧ s.nonce.isSome ∧
      s.key.isSome ∧
      (∀ operation : Operation, (s.pending.filter (·.operation = operation)).length ≤ 1) ∧
      (s.allocationRefresh.isSome ∨ ∃ p ∈ s.pending, p.operation = .refresh) := by
  obtain ⟨s, hrun, hquiet⟩ := handshake_ready zeroDigests
  have hready : s.state = .ready := by
    obtain ⟨_, _, rfl⟩ := hquiet
    rfl
  exact ⟨s, hrun, hready,
    maintenance_never_lost create_freshCore (handshake_short zeroDigests) hrun hready⟩

end Inner

end Csqtt.Turn
