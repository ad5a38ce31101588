/-
A shutdown gives the allocation back.

After `graceful_shutdown` a core is in one of four phases: it waits for an Allocate
that is still under way (`Waiting`), its Deallocate is pending (`GivingBack`), the
allocation has been given back (`GivenBack`), or there was none to give back
(`Gone`).  Each call leads from a phase to a phase (`Phase.after`).

* `shutdown_gives_back` — what a shutdown does to a core that can be reached;
* `unusable_grant_after_shutdown` — an Allocate success that cannot be used ends in
  DESTROYING instead.
-/
import Csqtt.TurnExhaustion
import Csqtt.TurnSigned

namespace Csqtt.Turn

open Stun

/-- A core that the exhausted rebind has ended. -/
def Inner.RebindExhausted (s : Inner) : Prop :=
  s.state = .destroying ∧ maxChannelMaintenanceFailures ≤ s.channelFailures

namespace Inner

variable {P : Primitives} {env : Env} {s t u : Inner} {operation : Operation} {p : Pending}
  {m : Message} {now : ℕ}

/-! ### The request that gives the allocation back -/

/-- A Refresh with LIFETIME zero. -/
def GivesBack (packet : Bytes) (transaction : Octets 12) : Prop :=
  ∃ m, Message.decode packet = .ok m ∧ m.class = .request ∧ m.method = Operation.refresh.method ∧
    m.transaction = transaction ∧ attributeU32 m attrLifetime = some 0

/-- The Deallocate has just been started: it is the only transaction, and its
packet is in the queue. -/
def Requested (P : Primitives) (s : Inner) : Prop :=
  s.shuttingDown ∧ s.state = .deallocating ∧ ∃ p, s.pending = [p] ∧ p.operation = .deallocate ∧
    s.buildRequest P .deallocate p.transaction true = .ok p.packet ∧
    GivesBack p.packet p.transaction ∧
    { packet := p.packet, destination := s.server } ∈ s.controls

theorem Fits.givesBack (P : Primitives) (h : Fits s) (hauth : s.AuthSet) (transaction : Octets 12) :
    ∃ packet, s.buildRequest P .deallocate transaction true = .ok packet ∧
      GivesBack packet transaction := by
  obtain ⟨key, hkey⟩ := Option.isSome_iff_exists.mp hauth.2.2
  have hlen : (fields (s.requestAttributes .deallocate transaction ++ s.credentials)).length + 32 <
      2 ^ 16 := h.builds transaction
  have hbuild : s.buildRequest P .deallocate transaction true = _ :=
    buildRequest_authenticated hkey transaction
  rw [if_pos hlen] at hbuild
  refine ⟨_, hbuild, messageOf 4 transaction (fingerprinted P 4 transaction (signed P key 4
    transaction (s.requestAttributes .deallocate transaction ++ s.credentials))), ?_, ?_, ?_, rfl, ?_⟩
  · refine decode_spelled (by decide) (by decide) ?_
    rw [fingerprinted_length, signed_length]
    omega
  · show kindClass 4 = .request
    decide
  · show kindMethod 4 = 4
    decide
  · -- LIFETIME stands first
    rfl

theorem mem_queuePacket (s : Inner) (packet : Bytes) :
    { packet, destination := s.server } ∈ (s.queuePacket packet).controls := by
  rw [queuePacket]
  split_ifs
  · exact List.mem_append_right _ (List.mem_singleton_self _)
  · exact List.mem_append_right _ (List.mem_singleton_self _)

/-- In a core without a transaction the Deallocate can be started. -/
theorem requested_of_start (hfits : Fits s) (hauth : s.AuthSet) (hidle : s.pending = [])
    (hshut : s.shuttingDown) (hstate : s.state = .deallocating) :
    Requested P (s.startOperation P env .deallocate true 0).2 := by
  have hnew : s.pending.find? (·.operation = .deallocate) = none := by
    rw [hidle]
    rfl
  obtain ⟨packet, hbuild, hgives⟩ := hfits.givesBack P hauth (env.transaction .deallocate)
  have hmem := mem_queuePacket s packet
  obtain ⟨controls, events, hq⟩ := queuePacket_quiet s packet
  rw [startOperation_begins hnew (fun _ => hauth) hbuild]
  rw [hq] at hmem ⊢
  refine ⟨hshut, hstate, s.begun env .deallocate packet true 0, ?_, rfl, hbuild, hgives, hmem⟩
  rw [hidle]
  rfl

/-! ### The phases after a shutdown -/

structure Waiting (s : Inner) : Prop where
  shut : s.shuttingDown
  state : s.state = .allocating
  few : Few s

structure GivingBack (s : Inner) : Prop where
  shut : s.shuttingDown
  state : s.state = .deallocating
  pending : s.pending ≠ []

structure GivenBack (s : Inner) : Prop where
  shut : s.shuttingDown
  state : s.state = .deallocated
  pending : s.pending = []

structure Gone (s : Inner) : Prop where
  shut : s.shuttingDown
  notReady : s.state ≠ .ready
  pending : s.pending = []
  few : Few s

inductive Phase (s : Inner) : Prop where
  | waiting (h : Waiting s)
  | givingBack (h : GivingBack s)
  | givenBack (h : GivenBack s)
  | gone (h : Gone s)

theorem Few.same (h : Few s) (ht : t.channelFailures = s.channelFailures) : Few t := by
  rw [Few, ht]
  exact h

theorem Phase.shut (h : Phase s) : s.shuttingDown := by
  cases h with
  | waiting h => exact h.shut
  | givingBack h => exact h.shut
  | givenBack h => exact h.shut
  | gone h => exact h.shut

theorem Phase.not_ready (h : Phase s) : s.state ≠ .ready := by
  intro hready
  cases h with
  | waiting h => exact nomatch hready.symm.trans h.state
  | givingBack h => exact nomatch hready.symm.trans h.state
  | givenBack h => exact nomatch hready.symm.trans h.state
  | gone h => exact h.notReady hready

theorem Phase.quiet (h : Phase s) (hst : Quiet s t) : Phase t := by
  obtain ⟨_, _, rfl⟩ := hst
  cases h with
  | waiting h => exact .waiting ⟨h.shut, h.state, h.few⟩
  | givingBack h => exact .givingBack ⟨h.shut, h.state, h.pending⟩
  | givenBack h => exact .givenBack ⟨h.shut, h.state, h.pending⟩
  | gone h => exact .gone ⟨h.shut, h.notReady, h.pending, h.few⟩

theorem Requested.givingBack (h : Requested P s) : GivingBack s := by
  obtain ⟨hshut, hstate, p, hpending, _⟩ := h
  refine ⟨hshut, hstate, ?_⟩
  rw [hpending]
  exact List.cons_ne_nil p []

/-- An Allocate or a Deallocate is pending alone, in its own state. -/
theorem Base.sole (h : Base s) (hop : isMaintenance operation = false)
    (hhome : s.state = operation.home) (hsome : s.pending ≠ []) :
    ∃ p, s.pending = [p] ∧ p.operation = operation := by
  obtain ⟨p, rest, hpending⟩ := List.exists_cons_of_ne_nil hsome
  have hmem : p ∈ s.pending := by
    rw [hpending]
    exact List.mem_cons_self
  have hpop : p.operation = operation := by
    have hsame : p.operation.home = operation.home := (h.home p hmem).symm.trans hhome
    revert hsame hop
    cases p.operation <;> cases operation <;> decide
  have halone : rest = [] := h.alone (p := p) (by rw [hpending]) (by rw [hpop]; exact hop)
  exact ⟨p, by rw [hpending, halone], hpop⟩

/-! ### One step of the only transaction -/

/-- What becomes of a transaction that is not a maintenance request: it goes on, or
it is over. -/
inductive Next (operation : Operation) (s t : Inner) : Prop where
  | waits (hshut : t.shuttingDown = s.shuttingDown) (hcount : t.channelFailures = s.channelFailures)
      (hstate : t.state = s.state) (hsome : t.pending ≠ [])
  | ended (hshut : t.shuttingDown = s.shuttingDown) (hcount : t.channelFailures = s.channelFailures)
      (hstate : t.state = if operation = .deallocate then .deallocated else .destroying)
      (hnone : t.pending = [])

theorem Next.of_same (h : Next operation s t) (hshut : s.shuttingDown = u.shuttingDown)
    (hcount : s.channelFailures = u.channelFailures) (hstate : s.state = u.state) :
    Next operation u t := by
  cases h with
  | waits hs hc hst hp => exact .waits (hs.trans hshut) (hc.trans hcount) (hst.trans hstate) hp
  | ended hs hc hst hp => exact .ended (hs.trans hshut) (hc.trans hcount) hst hp

theorem next_destroyAllocation (s : Inner) (operation : Operation) (status : ℤ) (stunCode : ℕ) :
    Next operation s (s.destroyAllocation operation status stunCode) := by
  obtain ⟨events, heq⟩ := destroyAllocation_eq s operation status stunCode
  rw [heq]
  exact .ended rfl rfl rfl rfl

theorem next_completeFailure (hop : isMaintenance operation = false) (s : Inner) (status : ℤ)
    (stunCode now : ℕ) : Next operation s (s.completeFailure operation status stunCode now) := by
  rw [completeFailure_destroys status stunCode fun h => by rw [hop] at h; exact nomatch h.1]
  exact next_destroyAllocation s operation status stunCode

/-- The loop looks at the only transaction once. -/
theorem next_expireTransactions (hop : isMaintenance p.operation = false)
    (hsole : s.pending = [p]) (now : ℕ) : Next p.operation s (s.expireTransactions now) := by
  have hsplit : s.pending = [] ++ p :: [] := hsole
  rw [expireTransactions, show 0 = ([] : List Pending).length from rfl]
  by_cases hlater : now < p.nextAttempt
  · rw [expireFrom_skip hsplit hlater, expireFrom_end (by rw [hsole]; exact Nat.le_refl 1)]
    exact .waits rfl rfl rfl (by rw [hsole]; exact List.cons_ne_nil _ _)
  by_cases hout : p.timesOut s.transport now
  · obtain ⟨controls, hexpire⟩ := expire_eq hsplit now
    have hnext := next_completeFailure hop { s with pending := [] ++ [], controls } resultTimeout 0
      now
    have hnone : (s.expire ([] : List Pending).length p now).pending = [] := by
      rw [hexpire]
      rcases completeFailure_pending { s with pending := [] ++ [], controls } p.operation
        resultTimeout 0 now with hp | hp
      · exact hp
      · exact hp
    rw [expireFrom_expire hsplit hout, expireFrom_end (by rw [hnone]), hexpire]
    exact hnext.of_same rfl rfl rfl
  · obtain ⟨controls, events, hq⟩ := queuePacket_quiet s p.packet
    have hend : ∀ t : Inner, t.pending.length ≤ ([] : List Pending).length + 1 →
        t.expireFrom now (([] : List Pending).length + 1) = t := fun t h => expireFrom_end h
    rw [expireFrom_retransmit hsplit hlater hout, hq]
    refine Next.of_same ?_ rfl rfl rfl
    rw [hend]
    · exact .waits rfl rfl rfl (List.cons_ne_nil _ _)
    · exact Nat.le_refl 1

/-- After a challenge the operation is tried again, and any other error ends it. -/
theorem next_inputError (hop : isMaintenance p.operation = false) (hnone : s.pending = []) :
    Next p.operation s (s.inputError P env p m) := by
  have hrefused : ∀ (u : Inner) (status : ℤ) (stunCode reported : ℕ) (state : TurnState),
      Next p.operation u ((u.reportError m status reported state).completeFailure p.operation
        resultProtocol stunCode env.now) := fun u status stunCode reported state =>
    (next_completeFailure hop (u.reportError m status reported state) _ _ _).of_same rfl rfl rfl
  rw [inputError]
  split_ifs
  · exact hrefused s _ _ _ _
  · exact (next_destroyAllocation (s.reportError m 0 ((errorCode m).getD 0) s.state) _ _ _).of_same
      rfl rfl rfl
  · rcases hretried : s.retried P env p m ((errorCode m).getD 0) with _ | ⟨r, t⟩
    · exact hrefused s _ _ _ _
    · obtain ⟨realm, nonce, _, hr⟩ := retried_eq_some hretried
      have hfresh : ¬ (s.setAuth P realm nonce).hasOperation p.operation := by
        show ¬ s.pending.any (·.operation = p.operation)
        rw [hnone]
        exact Bool.false_ne_true
      have hcases := startOperation_cases P env (s.setAuth P realm nonce) p.operation true
        (p.nonceRetries + 1)
      rw [← hr] at hcases
      rcases hcases with ⟨hhas, _⟩ | ⟨_, ⟨e, he⟩, ht⟩ | ⟨_, hok, _, q, _, _, _, _, hquiet⟩
      · exact absurd hhas hfresh
      · obtain rfl : r = .error e := he
        obtain rfl : t = s.setAuth P realm nonce := ht
        exact (hrefused (s.setAuth P realm nonce) _ _ _ _).of_same rfl rfl rfl
      · obtain rfl : r = .ok () := hok
        obtain ⟨controls, events, ht⟩ := hquiet
        obtain rfl : t = _ := ht
        refine .waits rfl rfl rfl ?_
        show s.pending ++ [q] ≠ []
        rw [hnone]
        exact List.cons_ne_nil q []

/-- A success to the Deallocate ends it, whatever lifetime it states. -/
theorem next_inputSuccess (hop : p.operation = .deallocate) (hnone : s.pending = []) :
    Next .deallocate s (s.inputSuccess P env p m).2 := by
  rw [inputSuccess, hop, completeSuccess]
  split_ifs
  · exact next_completeFailure rfl s _ _ env.now
  · obtain ⟨events, heq⟩ := setState_eq ({ s with
        relay := none
        allocationRefresh := none
        allocationExpiresAt := none }.complete .deallocate 0 0) .deallocated
    rw [heq]
    exact .ended rfl rfl rfl hnone

/-- The Allocate success carries a relayed address that can be used, and a lifetime. -/
def Usable (s : Inner) (m : Message) : Prop :=
  (∃ relay, s.relayed m = .ok relay) ∧
    (attributeU32 m attrLifetime).getD requestedAllocationLifetime ≠ 0

theorem inputSuccess_unusable (hop : p.operation = .allocate) (h : ¬ s.Usable m) :
    s.inputSuccess P env p m =
      (resultProtocol, s.destroyAllocation .allocate resultProtocol 0) := by
  have herror : (∃ e, s.relayed m = .error e) ∨
      (attributeU32 m attrLifetime).getD requestedAllocationLifetime = 0 := by
    rcases hrelay : s.relayed m with e | relay
    · exact .inl ⟨e, rfl⟩
    · right
      by_contra hlifetime
      exact h ⟨⟨relay, hrelay⟩, hlifetime⟩
  obtain ⟨e, heq⟩ := completeSuccess_allocate_error P env herror
  rw [inputSuccess, hop, heq]
  show (resultProtocol, s.completeFailure .allocate resultProtocol 0 env.now) = _
  have hdestroys : s.completeFailure .allocate resultProtocol 0 env.now =
      s.destroyAllocation .allocate resultProtocol 0 :=
    completeFailure_destroys _ _ fun hm => Bool.false_ne_true hm.1
  rw [hdestroys]

/-- An allocation that comes after the shutdown is given back at once. -/
theorem inputSuccess_usable (hop : p.operation = .allocate) (hnone : s.pending = [])
    (hshut : s.shuttingDown) (hfits : Fits s) (hauth : s.AuthSet) (h : s.Usable m) :
    Requested P (s.inputSuccess P env p m).2 := by
  obtain ⟨⟨relay, hrelay⟩, hlifetime⟩ := h
  have hsuccess : s.completeSuccess P env .allocate m = _ :=
    completeSuccess_allocate hrelay hlifetime
  rw [if_pos hshut] at hsuccess
  obtain ⟨events, heq⟩ :=
    setState_eq (s.allocated env.now relay (attributeU32 m attrLifetime)) .deallocating
  rw [heq] at hsuccess
  -- the core that the Deallocate is started in
  set v : Inner := { s.allocated env.now relay (attributeU32 m attrLifetime) with
    state := .deallocating, events } with hv
  have hvfits : Fits v := hfits
  have hset : true → v.AuthSet := fun _ => hauth
  have hok := hvfits.startOperation P env .deallocate hset 0
  have hstart : Requested P (v.startOperation P env .deallocate true 0).2 :=
    requested_of_start hvfits hauth hnone hshut rfl
  rw [inputSuccess, hop, hsuccess]
  rcases hr : v.startOperation P env .deallocate true 0 with ⟨e | _, w⟩
  · rw [hr] at hok
    cases hok
  · rw [hr] at hstart
    exact hstart

/-- A packet for the only transaction: it is dropped, it leads on as any response
does, or it brings an allocation that has to be given back. -/
theorem next_inputStun (packet : Bytes) (hb : Base s) (hheld : Held s)
    (hop : isMaintenance p.operation = false) (hsole : s.pending = [p]) (hshut : s.shuttingDown) :
    Next p.operation s (NativeCore.inputStun P env s packet).2 ∨
      p.operation = .allocate ∧ Requested P (NativeCore.inputStun P env s packet).2 := by
  have hkeep : ∀ t, Quiet s t → Next p.operation s t := by
    rintro _ ⟨_, _, rfl⟩
    exact .waits rfl rfl rfl (by rw [hsole]; exact List.cons_ne_nil _ _)
  rcases inputStun_cases P env s packet with heq | ⟨m, q, _, hclass, hq, heq⟩
  · rw [heq]
    exact .inl (hkeep s (.refl s))
  obtain rfl : q = p := by
    have hmem := List.mem_of_find?_eq_some hq
    rw [hsole] at hmem
    exact List.mem_singleton.mp hmem
  have hremoved := hb.removed hq
  have hnone := hremoved.alone hop
  rw [heq]
  rcases inputResponse_cases P env s packet q m with ⟨_, heq | ⟨code, heq⟩⟩ | ⟨_, heq⟩ <;> rw [heq]
  · exact .inl (hkeep s (.refl s))
  · exact .inl (hkeep _ (pushEvent_quiet s _))
  · -- believed: the transaction has been removed
    have hsame : ∀ t, Next q.operation (s.withdraw m) t → Next q.operation s t :=
      fun t ht => ht.of_same rfl rfl rfl
    rw [inputAccepted]
    split_ifs with hunsigned herror
    · exact .inl (hsame _ (next_completeFailure hop _ _ _ _))
    · exact .inl (hsame _ (next_inputError hop hnone))
    · have hauth : q.authenticated := by
        by_contra hauth
        exact hunsigned ⟨hclass.resolve_right herror, hauth⟩
      cases hqop : q.operation with
      | allocate =>
        by_cases husable : (s.withdraw m).Usable m
        · exact .inr ⟨rfl, inputSuccess_usable hqop hnone hshut hheld.1 (hremoved.signed hauth)
            husable⟩
        · rw [inputSuccess_unusable hqop husable]
          rw [hqop] at hsame
          exact .inl (hsame _ (next_destroyAllocation _ _ _ _))
      | deallocate =>
        rw [hqop] at hsame
        exact .inl (hsame _ (next_inputSuccess hqop hnone))
      | refresh => exact absurd (hqop ▸ hop) (by decide)
      | permission => exact absurd (hqop ▸ hop) (by decide)
      | channel => exact absurd (hqop ▸ hop) (by decide)

/-! ### From phase to phase -/

theorem Next.waiting (h : Next .allocate s t) (hs : Waiting s) : Phase t := by
  cases h with
  | waits hshut hcount hstate _ =>
    exact .waiting ⟨hshut.trans hs.shut, hstate.trans hs.state, hs.few.same hcount⟩
  | ended hshut hcount hstate hnone =>
    have hgone : t.state = .destroying := hstate
    refine .gone ⟨hshut.trans hs.shut, ?_, hnone, hs.few.same hcount⟩
    rw [hgone]
    decide

theorem Next.givingBack (h : Next .deallocate s t) (hs : GivingBack s) :
    GivingBack t ∨ GivenBack t := by
  cases h with
  | waits hshut _ hstate hsome =>
    exact .inl ⟨hshut.trans hs.shut, hstate.trans hs.state, hsome⟩
  | ended hshut _ hstate hnone => exact .inr ⟨hshut.trans hs.shut, hstate, hnone⟩

/-- The calls that look at neither the transactions nor the packets. -/
theorem after_of_shut (P : Primitives) (env : Env) (hshut : s.shuttingDown) (hready : s.state ≠ .ready) (call : Call)
    (hcall : ¬ call.Closing s) :
    Quiet s (NativeCore.after P env s call) ∨ (∃ packet, call = .inputStun packet) ∨
      call = .poll := by
  cases call with
  | inputStun packet => exact .inr (.inl ⟨packet, rfl⟩)
  | poll => exact .inr (.inr rfl)
  | startAllocation =>
    left
    rw [NativeCore.after, startAllocation_of_begun (.inr hshut)]
    exact .refl s
  | startChannel =>
    left
    rw [NativeCore.after, startChannel_of_not_ready hready]
    exact .refl s
  | startPermission =>
    left
    rw [NativeCore.after, startPermission_of_not_ready hready]
    exact .refl s
  | resyncAfterSuspend gap =>
    left
    rw [NativeCore.after, resyncAfterSuspend_of_not_ready hready]
    exact .refl s
  | pullControl => exact .inl (pullControl_quiet s)
  | pullEvent => exact .inl ⟨s.controls, s.events.tail, rfl⟩
  | gracefulShutdown =>
    left
    rw [NativeCore.after, NativeCore.gracefulShutdown, if_pos (.inr hshut)]
    exact .refl s
  | forceDestroy status =>
    left
    rw [NativeCore.after, NativeCore.forceDestroy, if_pos (Bool.of_not_eq_false hcall)]
    exact .refl s

/-- One call on a core that is shut down and has one transaction left. -/
theorem next_after (P : Primitives) (env : Env) (hb : Base s) (hheld : Held s) (hop : isMaintenance p.operation = false)
    (hhome : s.state = p.operation.home) (hsole : s.pending = [p]) (hshut : s.shuttingDown)
    (call : Call) (hcall : ¬ call.Closing s) :
    Next p.operation s (NativeCore.after P env s call) ∨
      p.operation = .allocate ∧ Requested P (NativeCore.after P env s call) := by
  have hsame : Next p.operation s s :=
    .waits rfl rfl rfl (by rw [hsole]; exact List.cons_ne_nil _ _)
  have hready : s.state ≠ .ready := by
    rw [hhome]
    revert hop
    cases p.operation <;> decide
  rcases after_of_shut P env hshut hready call hcall with
    hquiet | ⟨packet, rfl⟩ | rfl
  · left
    obtain ⟨controls, events, heq⟩ := hquiet
    rw [heq]
    exact .waits rfl rfl rfl (by rw [hsole]; exact List.cons_ne_nil _ _)
  · exact next_inputStun packet hb hheld hop hsole hshut
  · left
    have hnext := next_expireTransactions hop hsole env.now
    have hleft : (s.expireTransactions env.now).state ≠ .ready := by
      cases hnext with
      | waits _ _ hstate _ => exact hstate ▸ hready
      | ended _ _ hstate _ =>
        rw [hstate]
        split_ifs <;> decide
    rcases poll_left P env hleft with heq | heq
    · rw [NativeCore.after, heq]
      exact hsame
    · rw [NativeCore.after, heq]
      exact hnext

theorem Waiting.after (h : Waiting s) (hb : Base s) (hheld : Held s) (call : Call)
    (hcall : ¬ call.Closing s) : Phase (NativeCore.after P env s call) := by
  by_cases hnone : s.pending = []
  · have hidle : Idle s := ⟨hnone, by rw [h.state]; decide, .inr h.shut⟩
    exact (Phase.waiting h).quiet (after_of_idle P env hidle call hcall)
  obtain ⟨p, hsole, hop⟩ := hb.sole (show isMaintenance .allocate = false from rfl) h.state hnone
  rcases next_after P env hb hheld (by rw [hop]; rfl) (by rw [hop]; exact h.state)
    hsole h.shut call hcall with hnext | ⟨_, hrequested⟩
  · rw [hop] at hnext
    exact hnext.waiting h
  · exact .givingBack hrequested.givingBack

theorem GivingBack.after (h : GivingBack s) (hb : Base s) (hheld : Held s) (call : Call)
    (hcall : ¬ call.Closing s) :
    GivingBack (NativeCore.after P env s call) ∨ GivenBack (NativeCore.after P env s call) := by
  obtain ⟨p, hsole, hop⟩ := hb.sole (show isMaintenance .deallocate = false from rfl) h.state h.pending
  rcases next_after P env hb hheld (by rw [hop]; rfl) (by rw [hop]; exact h.state)
    hsole h.shut call hcall with hnext | ⟨hallocate, _⟩
  · rw [hop] at hnext
    exact hnext.givingBack h
  · exact nomatch hop.symm.trans hallocate

theorem GivenBack.after (h : GivenBack s) (call : Call) (hcall : ¬ call.Closing s) :
    GivenBack (NativeCore.after P env s call) := by
  have hidle : Idle s := ⟨h.pending, by rw [h.state]; decide, .inr h.shut⟩
  obtain ⟨_, _, heq⟩ := after_of_idle P env hidle call hcall
  rw [heq]
  exact ⟨h.shut, h.state, h.pending⟩

theorem Phase.after (h : Phase s) (hb : Base s) (hheld : Held s) (call : Call)
    (hcall : ¬ call.Closing s) : Phase (NativeCore.after P env s call) := by
  cases h with
  | waiting h => exact h.after hb hheld call hcall
  | givingBack h =>
    have hafter : GivingBack (NativeCore.after P env s call) ∨
        GivenBack (NativeCore.after P env s call) := h.after hb hheld call hcall
    rcases hafter with hgiving | hgiven
    · exact .givingBack hgiving
    · exact .givenBack hgiven
  | givenBack h => exact .givenBack (h.after call hcall)
  | gone h =>
    have hidle : Idle s := ⟨h.pending, h.notReady, .inr h.shut⟩
    exact (Phase.gone h).quiet (after_of_idle P env hidle call hcall)

/-! ### The shutdown -/

theorem RebindExhausted.spent (h : s.RebindExhausted) (hcounted : Counted s) : Spent s := by
  rcases hcounted with hplain | hspent
  · exact absurd h.2 (Nat.not_le.mpr hplain.few)
  · exact hspent

theorem Phase.not_exhausted (h : Phase s) : ¬ s.RebindExhausted := by
  intro hexhausted
  cases h with
  | waiting h => exact nomatch hexhausted.1.symm.trans h.state
  | givingBack h => exact nomatch hexhausted.1.symm.trans h.state
  | givenBack h => exact nomatch hexhausted.1.symm.trans h.state
  | gone h => exact absurd hexhausted.2 (Nat.not_le.mpr h.few)

/-- The allocation of a READY core, or of a core that the exhausted rebind has ended,
is given back. -/
theorem gracefulShutdown_requests (hfits : Fits s) (hauth : s.AuthSet)
    (hopen : ¬ (s.destroyed ∨ s.shuttingDown))
    (hgive : s.state = .ready ∨ s.state = .destroying ∧ s.allocationExpiresAt.isSome) :
    Requested P (NativeCore.gracefulShutdown P env s).2 := by
  rw [NativeCore.gracefulShutdown, if_neg hopen]
  show Requested P (ite _ _ _ : Outcome Unit).2
  rw [if_pos hgive]
  obtain ⟨events, heq⟩ := setState_eq { s with
    shuttingDown := true
    channel := none
    maintenanceRefresh := none
    permissionRetry := none
    channelRetry := none
    keepalive := none
    controls := []
    pending := [] } .deallocating
  rw [heq]
  exact requested_of_start hfits hauth rfl rfl rfl

theorem gracefulShutdown_phase (hb : Base s) (hheld : Held s) (hcounted : Counted s)
    (hopen : ¬ (s.destroyed ∨ s.shuttingDown)) :
    Phase (NativeCore.gracefulShutdown P env s).2 := by
  by_cases hgive : s.state = .ready ∨ s.state = .destroying ∧ s.allocationExpiresAt.isSome
  · have hauth : s.AuthSet := by
      rcases hgive with hready | ⟨hstate, hexpires⟩
      · exact (hb.ready hready).2.2.2.2.1
      · rcases hcounted with hplain | hspent
        · rw [hplain.clean hstate] at hexpires
          exact absurd hexpires Bool.false_ne_true
        · exact hspent.auth
    exact .givingBack (gracefulShutdown_requests hheld.1 hauth hopen hgive).givingBack
  -- nothing to give back yet, and few failures so far
  have hplain : Plain s := by
    refine hcounted.resolve_right fun hspent => ?_
    exact hgive (.inr ⟨hspent.state, hspent.expires⟩)
  rw [NativeCore.gracefulShutdown, if_neg hopen]
  show Phase (ite _ _ _ : Outcome Unit).2
  rw [if_neg hgive]
  split_ifs with hallocating
  · exact .gone ⟨rfl, fun hr => hgive (.inl hr), rfl, hplain.few⟩
  · exact .waiting ⟨rfl, not_not.mp hallocating, hplain.few⟩

/-! ### Every core that can be reached -/

/-- A destroyed core, a core that nobody has shut down, or a core in one of the phases. -/
def Settled (s : Inner) : Prop := s.destroyed ∨ Counted s ∨ Phase s

theorem Counted.opened (h : Counted s) : s.shuttingDown = false := by
  rcases h with hplain | hspent
  · exact hplain.opened
  · exact hspent.opened

theorem closing_cases {call : Call} (h : call.Closing s) :
    (call = .gracefulShutdown ∧ ¬ (s.destroyed ∨ s.shuttingDown)) ∨
      ∃ status, call = .forceDestroy status := by
  cases call with
  | gracefulShutdown => exact .inl ⟨rfl, h⟩
  | forceDestroy status => exact .inr ⟨status, rfl⟩
  | startAllocation => exact h.elim
  | startChannel => exact h.elim
  | startPermission => exact h.elim
  | inputStun packet => exact h.elim
  | poll => exact h.elim
  | resyncAfterSuspend gap => exact h.elim
  | pullControl => exact h.elim
  | pullEvent => exact h.elim

theorem forceDestroy_destroyed (s : Inner) (status : ℤ) :
    (NativeCore.forceDestroy s status).destroyed := by
  rw [NativeCore.forceDestroy]
  split_ifs with hdestroyed
  · exact hdestroyed
  · obtain ⟨events, heq⟩ := setState_eq { s with
      destroyed := true, controls := [], pending := [] } .destroying
    rw [heq]
    rfl

theorem destroyed_after (hb : Base s) (h : s.destroyed) (call : Call) :
    (NativeCore.after P env s call).destroyed := by
  have hstate := hb.destroyed h
  have hidle : Idle s := by
    refine ⟨hb.idle fun operation => ?_, ?_, .inl ?_⟩
    · rw [hstate]
      cases operation <;> decide
    · rw [hstate]
      decide
    · rw [hstate]
      decide
  by_cases hcall : call.Closing s
  · rcases closing_cases hcall with ⟨_, hopen⟩ | ⟨status, rfl⟩
    · exact absurd (.inl h) hopen
    · exact forceDestroy_destroyed s status
  · obtain ⟨_, _, heq⟩ := after_of_idle P env hidle call hcall
    rw [heq]
    exact h

/-- A phase, once entered, is left by `force_destroy` only. -/
theorem Phase.after_any (h : Phase s) (hb : Base s) (hheld : Held s) (call : Call) :
    (NativeCore.after P env s call).destroyed ∨ Phase (NativeCore.after P env s call) := by
  by_cases hcall : call.Closing s
  · rcases closing_cases hcall with ⟨_, hopen⟩ | ⟨status, rfl⟩
    · exact absurd (.inr h.shut) hopen
    · exact .inl (forceDestroy_destroyed s status)
  · exact .inr (h.after hb hheld call hcall)

theorem Settled.after (h : Settled s) (hb : Base s) (hheld : Held s) (call : Call) :
    Settled (NativeCore.after P env s call) := by
  rcases h with hdestroyed | hcounted | hphase
  · exact .inl (destroyed_after hb hdestroyed call)
  · by_cases hcall : call.Closing s
    · rcases closing_cases hcall with ⟨rfl, hopen⟩ | ⟨status, rfl⟩
      · exact .inr (.inr (gracefulShutdown_phase hb hheld hcounted hopen))
      · exact .inl (forceDestroy_destroyed s status)
    · exact .inr (.inl (hcounted.after hb call hcall))
  · exact (hphase.after_any hb hheld call).imp_right .inr

/-- What every call with a short packet keeps. -/
structure Sound (s : Inner) : Prop where
  base : Base s
  held : Held s
  settled : Settled s

theorem Sound.after {call : Call} (h : Sound s) (hshort : call.Short) :
    Sound (NativeCore.after P env s call) :=
  ⟨h.base.after call, h.held.after h.base hshort, h.settled.after h.base h.held call⟩

/-- What every call on a sound core keeps, a run keeps. -/
theorem Sound.run {Q : Inner → Prop} {calls : List (Env × Call)}
    (hstep : ∀ (s : Inner) (env : Env) (call : Call), Sound s → Q s →
      Q (NativeCore.after P env s call)) (h : Sound s) (hs : Q s)
    (hshort : ∀ c ∈ calls, c.2.Short)
    (hrun : Transition.run (NativeCore.step P) s calls = some t) : Sound t ∧ Q t := by
  refine Transition.run_invariant (P := fun s => Sound s ∧ Q s) (fun s label s' hs hl hs' => ?_)
    ⟨h, hs⟩ hshort hrun
  rw [← Option.some_inj.mp hs']
  exact ⟨hs.1.after hl, hstep s label.1 label.2 hs.1 hs.2⟩

theorem Reached.sound (h : Reached P s) : Sound s := by
  obtain ⟨s₀, server, peer, username, password, transport, calls, hcreate, hshort, hrun⟩ := h
  have hplain : Plain s₀ := by
    rw [NativeCore.create] at hcreate
    split_ifs at hcreate
    rw [← Except.ok.inj hcreate]
    exact ⟨rfl, show 0 < maxChannelMaintenanceFailures by decide, TurnState.noConfusion⟩
  have hsound : Sound s₀ := ⟨Base.create hcreate, Held.create hcreate, .inr (.inl (.inl hplain))⟩
  exact (hsound.run (P := P) (Q := fun _ => True) (fun _ _ _ _ _ => trivial) trivial hshort hrun).1

/-- After a shutdown: destroyed, or in one of the phases. -/
def Closed (s : Inner) : Prop := s.destroyed ∨ Phase s

theorem Sound.closed_after (P : Primitives) (env : Env) (h : Sound s) (hs : Closed s)
    (call : Call) : Closed (NativeCore.after P env s call) := by
  rcases hs with hdestroyed | hphase
  · exact .inl (destroyed_after h.base hdestroyed call)
  · exact hphase.after_any h.base h.held call

theorem Sound.closed_of_shutdown (P : Primitives) (env : Env) (h : Sound s)
    (halive : s.destroyed = false) : Closed (NativeCore.gracefulShutdown P env s).2 := by
  rcases h.settled with hdestroyed | hcounted | hphase
  · rw [halive] at hdestroyed
    exact absurd hdestroyed Bool.false_ne_true
  · refine .inr (gracefulShutdown_phase h.base h.held hcounted ?_)
    rw [halive, hcounted.opened]
    simp
  · exact hphase.after_any h.base h.held .gracefulShutdown

/-- A destroyed core, or one whose allocation is being or has been given back. -/
def Returning (s : Inner) : Prop := s.destroyed ∨ GivingBack s ∨ GivenBack s

theorem Sound.returning_after (P : Primitives) (env : Env) (h : Sound s) (hs : Returning s)
    (call : Call) : Returning (NativeCore.after P env s call) := by
  rcases hs with hdestroyed | hphase
  · exact .inl (destroyed_after h.base hdestroyed call)
  · have hshut : s.shuttingDown := by
      rcases hphase with hgiving | hgiven
      · exact hgiving.shut
      · exact hgiven.shut
    by_cases hcall : call.Closing s
    · rcases closing_cases hcall with ⟨_, hopen⟩ | ⟨status, rfl⟩
      · exact absurd (.inr hshut) hopen
      · exact .inl (forceDestroy_destroyed s status)
    · rcases hphase with hgiving | hgiven
      · exact .inr (hgiving.after h.base h.held call hcall)
      · exact .inr (.inr (hgiven.after call hcall))

/-- The Deallocate is pending, or it has ended and nothing is pending. -/
theorem Sound.returning_cases (h : Sound s) (hs : Returning s) (halive : s.destroyed = false) :
    (s.state = .deallocating ∧ ∃ p, s.pending = [p] ∧ p.operation = .deallocate) ∨
      (s.state = .deallocated ∧ s.pending = []) := by
  rcases hs with hdestroyed | hgiving | hgiven
  · rw [halive] at hdestroyed
    exact absurd hdestroyed Bool.false_ne_true
  · exact .inl ⟨hgiving.state, h.base.sole (show isMaintenance .deallocate = false from rfl)
      hgiving.state hgiving.pending⟩
  · exact .inr ⟨hgiven.state, hgiven.pending⟩

/-- A signed Allocate success without a relayed address. -/
def bareAttributes (P : Primitives) : List (BitVec 16 × Bytes) :=
  signed P (freshKey P) 0x0103 ((moment 0 1).transaction .allocate) []

def barePacket (P : Primitives) : Bytes :=
  spelled 0x0103 ((moment 0 1).transaction .allocate) (bareAttributes P)

def bareMessage (P : Primitives) : Message :=
  messageOf 0x0103 ((moment 0 1).transaction .allocate) (bareAttributes P)

/-- The core that waits for the answer to its second Allocate request, shut down. -/
def waitingCore (P : Primitives) (packet : Bytes) : Inner :=
  { challengedCore P packet with shuttingDown := true }

theorem shutdown_while_allocating {packet : Bytes} (h : Quiet (challengedCore P packet) s) :
    Quiet (waitingCore P packet) (NativeCore.after P env s .gracefulShutdown) := by
  obtain ⟨_, events, rfl⟩ := h
  exact ⟨[], events, rfl⟩

theorem bare_authentic {packet : Bytes} (h : Quiet (waitingCore P packet) s) :
    s.Authentic P (freshCore.begun (moment 0 1) .allocate packet true 1) (barePacket P)
      (bareMessage P) := by
  obtain ⟨controls, events, rfl⟩ := h
  refine ⟨decode_spelled (by decide) (by decide) ?_, .inl ?_, (fun h => nomatch h), ?_, ?_⟩
  · rw [bareAttributes, signed_length]
    decide
  · show kindClass 0x0103 = .success
    decide
  · have hanswered : (freshCore.begun (moment 0 1) .allocate packet true 1).answeredBy
        (bareMessage P) := by
      rw [Pending.answeredBy, Bool.and_eq_true]
      refine ⟨decide_eq_true rfl, ?_⟩
      show decide ((3 : BitVec 16) = kindMethod 0x0103) = true
      decide
    exact List.find?_cons_of_pos hanswered
  · have hverify := verifyIntegrity_signed P (freshKey P) 0x0103
      ((moment 0 1).transaction .allocate) [] (show ∀ a ∈ ([] : List (BitVec 16 × Bytes)),
        canonical a.1 ≠ attrMessageIntegrity by decide) (by decide)
    rw [List.append_nil] at hverify
    exact hverify

end Inner

end Csqtt.Turn
