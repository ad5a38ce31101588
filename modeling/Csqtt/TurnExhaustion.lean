/-
The exhausted rebind of the channel.

A ChannelBind that fails for the fourth time ends a READY core, and the core keeps
the allocation then, with what it takes to give it back (`Spent`).  Until that
happens the failures are few (`Plain`), and afterwards nothing happens by itself.

* `after_of_idle` — a core without a transaction that is not READY stays as it is.
* `Counted.after` — few failures or a spent core, as long as nobody shuts it down.
-/
import Csqtt.TurnTimer

namespace Csqtt.Turn

open Stun

/-- A call that has an effect on its own: none when the core has been closed. -/
def Call.Closing (s : Inner) : Call → Prop
  | .gracefulShutdown => ¬ (s.destroyed ∨ s.shuttingDown)
  | .forceDestroy _ => s.destroyed = false
  | _ => False

namespace Inner

variable {P : Primitives} {env : Env} {s t : Inner} {operation : Operation} {p : Pending}
  {now : ℕ}

/-! ### Idle cores -/

/-- There is nothing to wait for and nothing to start. -/
structure Idle (s : Inner) : Prop where
  pending : s.pending = []
  notReady : s.state ≠ .ready
  begun : s.state ≠ .null ∨ s.shuttingDown

theorem requireReady_of_not_ready (h : s.state ≠ .ready) (name : String) :
    ∃ e, NativeCore.requireReady s name = .error e := by
  rcases hready : NativeCore.requireReady s name with e | _
  · exact ⟨e, rfl⟩
  · exact absurd (requireReady_eq_ok hready) h

theorem startAllocation_of_begun (h : s.state ≠ .null ∨ s.shuttingDown) :
    (NativeCore.startAllocation P env s).2 = s := by
  rw [NativeCore.startAllocation]
  rcases hopen : NativeCore.requireOpen s "TURN Allocate start" with e | _
  · rfl
  · have hstate : s.state ≠ .null := by
      refine h.resolve_right fun hshut => ?_
      rw [(requireOpen_eq_ok hopen).2] at hshut
      exact Bool.false_ne_true hshut
    show (ite _ _ _ : Outcome Unit).2 = s
    rw [if_pos hstate]

theorem startChannel_of_not_ready (h : s.state ≠ .ready) :
    (NativeCore.startChannel P env s).2 = s := by
  obtain ⟨e, he⟩ := requireReady_of_not_ready h "TURN ChannelBind start"
  rw [NativeCore.startChannel, he]
  rfl

theorem startPermission_of_not_ready (h : s.state ≠ .ready) :
    (NativeCore.startPermission P env s).2 = s := by
  obtain ⟨e, he⟩ := requireReady_of_not_ready h "TURN CreatePermission start"
  rw [NativeCore.startPermission, he]
  rfl

theorem resyncAfterSuspend_of_not_ready (h : s.state ≠ .ready) (gap : ℕ) :
    (NativeCore.resyncAfterSuspend env s gap).2 = s := by
  rw [NativeCore.resyncAfterSuspend, if_pos (.inr (.inr h))]

theorem pullControl_quiet (s : Inner) : Quiet s (NativeCore.pullControl s).2 := by
  rw [NativeCore.pullControl]
  rcases s.controls with _ | ⟨control, controls⟩
  · exact .refl s
  · show Quiet s (ite _ _ _ : Outcome (Option (Bytes × SocketAddr))).2
    split_ifs
    · exact ⟨controls, s.events, rfl⟩
    · exact ⟨controls, s.events, rfl⟩

/-- A core that is not READY once its transactions are looked at is left so by a poll. -/
theorem poll_left (P : Primitives) (env : Env) (h : (s.expireTransactions env.now).state ≠ .ready) :
    (NativeCore.poll P env s).2 = s ∨
      (NativeCore.poll P env s).2 = s.expireTransactions env.now := by
  by_cases hdestroyed : s.destroyed
  · left
    rw [NativeCore.poll, if_pos hdestroyed]
  · right
    rw [poll_of_not_ready (Bool.eq_false_of_not_eq_true hdestroyed) h]

theorem Idle.expireTransactions (h : Idle s) (now : ℕ) : s.expireTransactions now = s :=
  expireFrom_end (by rw [h.pending]; exact Nat.le_refl 0)

theorem inputStun_of_idle (hidle : s.pending = []) (packet : Bytes) :
    (NativeCore.inputStun P env s packet).2 = s := by
  rcases inputStun_cases P env s packet with heq | ⟨m, p, _, _, hp, _⟩
  · exact heq
  · rw [hidle] at hp
    exact nomatch hp

theorem after_of_idle (P : Primitives) (env : Env) (h : Idle s) (call : Call) (hcall : ¬ call.Closing s) :
    Quiet s (NativeCore.after P env s call) := by
  cases call with
  | startAllocation =>
    rw [NativeCore.after, startAllocation_of_begun h.begun]
    exact .refl s
  | startChannel =>
    rw [NativeCore.after, startChannel_of_not_ready h.notReady]
    exact .refl s
  | startPermission =>
    rw [NativeCore.after, startPermission_of_not_ready h.notReady]
    exact .refl s
  | inputStun packet =>
    rw [NativeCore.after, inputStun_of_idle h.pending]
    exact .refl s
  | poll =>
    have hexpire := h.expireTransactions env.now
    rcases poll_left P env (s := s) (by rw [hexpire]; exact h.notReady) with heq | heq
    · rw [NativeCore.after, heq]
      exact .refl s
    · rw [NativeCore.after, heq, hexpire]
      exact .refl s
  | resyncAfterSuspend gap =>
    rw [NativeCore.after, resyncAfterSuspend_of_not_ready h.notReady]
    exact .refl s
  | pullControl => exact pullControl_quiet s
  | pullEvent => exact ⟨s.controls, s.events.tail, rfl⟩
  | gracefulShutdown =>
    rw [NativeCore.after, NativeCore.gracefulShutdown, if_pos (not_not.mp hcall)]
    exact .refl s
  | forceDestroy status =>
    rw [NativeCore.after, NativeCore.forceDestroy, if_pos (Bool.of_not_eq_false hcall)]
    exact .refl s

theorem Idle.quiet (h : Idle s) (hst : Quiet s t) : Idle t := by
  obtain ⟨_, _, rfl⟩ := hst
  exact ⟨h.pending, h.notReady, h.begun⟩

/-! ### Counting the failures -/

def Few (s : Inner) : Prop := s.channelFailures < maxChannelMaintenanceFailures

/-- The core is not shut down, the ChannelBind has not failed too often, and without
that a core that has come to its end has no allocation. -/
structure Plain (s : Inner) : Prop where
  opened : s.shuttingDown = false
  few : Few s
  clean : s.state = .destroying → s.allocationExpiresAt = none

/-- The ChannelBind has failed too often, and the allocation is still there. -/
structure Spent (s : Inner) : Prop where
  opened : s.shuttingDown = false
  state : s.state = .destroying
  pending : s.pending = []
  expires : s.allocationExpiresAt.isSome
  auth : s.AuthSet

def Counted (s : Inner) : Prop := Plain s ∨ Spent s

theorem Plain.quiet (h : Plain s) (hst : Quiet s t) : Plain t := by
  obtain ⟨_, _, rfl⟩ := hst
  exact ⟨h.opened, h.few, h.clean⟩

theorem Counted.quiet (h : Counted s) (hst : Quiet s t) : Counted t := by
  rcases h with hplain | hspent
  · exact .inl (hplain.quiet hst)
  · obtain ⟨_, _, rfl⟩ := hst
    exact .inr ⟨hspent.opened, hspent.state, hspent.pending, hspent.expires, hspent.auth⟩

theorem Spent.idle (h : Spent s) : Idle s := by
  refine ⟨h.pending, ?_, .inl ?_⟩
  · rw [h.state]
    decide
  · rw [h.state]
    decide

theorem Plain.destroyAllocation (h : Plain s) (operation : Operation) (status : ℤ) (stunCode : ℕ) :
    Plain (s.destroyAllocation operation status stunCode) := by
  obtain ⟨events, heq⟩ := destroyAllocation_eq s operation status stunCode
  rw [heq]
  exact ⟨h.opened, h.few, fun _ => rfl⟩

theorem Plain.setState {state : TurnState} (h : Plain s) (hstate : state ≠ .destroying) :
    Plain (s.setState state) := by
  obtain ⟨events, heq⟩ := setState_eq s state
  rw [heq]
  exact ⟨h.opened, h.few, fun hd => absurd hd hstate⟩

theorem Plain.startOperation (h : Plain s) (operation : Operation) (authenticated : Bool)
    (nonceRetries : ℕ) :
    Plain (s.startOperation P env operation authenticated nonceRetries).2 := by
  obtain ⟨_, _, _, heq⟩ := startOperation_frame P env s operation authenticated nonceRetries
  rw [heq]
  exact ⟨h.opened, h.few, h.clean⟩

/-- The fourth failure of the ChannelBind in a row leaves a spent core. -/
theorem Plain.completeFailure (h : Plain s) (hb : Base s) (operation : Operation) (status : ℤ)
    (stunCode now : ℕ) : Counted (s.completeFailure operation status stunCode now) := by
  have hfailed := completeFailure_failed s operation status stunCode now
  generalize s.completeFailure operation status stunCode now = t at hfailed ⊢
  cases hfailed with
  | refresh | permission => exact .inl ⟨h.opened, h.few, h.clean⟩
  | channel _ hfew => exact .inl ⟨h.opened, hfew, h.clean⟩
  | exhausted hmaintained =>
    obtain ⟨_, hexpires, _, _, hauth, _⟩ := hb.ready hmaintained.1
    exact .inr ⟨h.opened, rfl, rfl, hexpires, hauth⟩
  | destroyed => exact .inl (h.destroyAllocation operation status stunCode)

/-! ### `poll` -/

theorem Plain.expireFrom (h : Plain s) (hb : Base s) (now index : ℕ) :
    Counted (s.expireFrom now index) := by
  fun_induction Inner.expireFrom s now index with
  | case1 s index hi p hlater ih => exact ih h hb
  | case2 s index hi p hcome hexhausted ih =>
    have hremoved := (hb.remove (List.getElem_cons_eraseIdx_perm hi)).1
    have hquiet := removeQueuedTransaction_quiet { s with pending := s.pending.eraseIdx index }
      s.pending[index].transaction
    have hplain : Plain { s with pending := s.pending.eraseIdx index } := ⟨h.opened, h.few, h.clean⟩
    rcases (hplain.quiet hquiet).completeFailure (hremoved.quiet hquiet) p.operation resultTimeout 0
      now with hplain | hspent
    · exact ih hplain (hb.expire hi now)
    · -- the loop is over: nothing is pending any more
      have hend : (s.expire index p now).expireFrom now index = s.expire index p now :=
        expireFrom_end (by rw [expire, hspent.pending]; exact Nat.zero_le index)
      rw [hend]
      exact .inr hspent
  | case3 s index hi p hcome hmore ih =>
    obtain ⟨controls, events, hq⟩ := queuePacket_quiet s p.packet
    refine ih ?_ (hb.retransmit hi now)
    rw [hq]
    exact ⟨h.opened, h.few, h.clean⟩
  | case4 s index hi => exact .inl h

theorem Plain.pollReady (h : Plain s) : Plain (s.pollReady P env).2 := by
  refine andThen_keeps (Q := Plain) ?_ fun _ t ht => ?_
  · have hcleared : Plain { s with allocationRefresh := none } := ⟨h.opened, h.few, h.clean⟩
    rw [Inner.pollRefresh]
    split_ifs
    · exact hcleared.startOperation _ _ _
    · exact h
  refine andThen_keeps (Q := Plain) ?_ fun _ t ht => ?_
  · have hmaintained : Plain (t.pollMaintenance env (due env.now s.maintenanceRefresh)) := by
      rw [Inner.pollMaintenance]
      split_ifs
      · exact ⟨ht.opened, ht.few, ht.clean⟩
      · exact ht
    have hcleared : Plain { t.pollMaintenance env (due env.now s.maintenanceRefresh) with
      permissionRetry := none } := ⟨hmaintained.opened, hmaintained.few, hmaintained.clean⟩
    rw [Inner.pollPermission]
    split_ifs
    · exact hcleared.startOperation _ _ _
    · exact hmaintained
  refine andThen_keeps (Q := Plain) ?_ fun _ t ht => ?_
  · have hcleared : Plain { t with channelRetry := none } := ⟨ht.opened, ht.few, ht.clean⟩
    rw [Inner.pollChannel]
    split_ifs
    · exact hcleared.startOperation _ _ _
    · exact ht
  · have hkept : Plain { t with keepalive := some (env.now + t.profile.keepaliveInterval) } :=
      ⟨ht.opened, ht.few, ht.clean⟩
    show Plain (t.pollKeepalive env)
    rw [Inner.pollKeepalive]
    split_ifs
    · exact hkept.quiet (queueKeepalive_quiet _)
    · exact ht

theorem Plain.poll (h : Plain s) (hb : Base s) : Counted (NativeCore.poll P env s).2 := by
  rcases h.expireFrom hb env.now 0 with hplain | hspent
  · left
    rw [NativeCore.poll]
    split_ifs
    · exact h
    · refine andThen_keeps (Q := Plain) ?_ fun _ t ht => ht
      have hexpiry : Plain ((s.expireTransactions env.now).pollExpiry env) := by
        rw [Inner.pollExpiry]
        split_ifs
        · exact hplain.destroyAllocation _ _ _
        · exact hplain
      rw [Inner.pollActive]
      split_ifs
      · exact hexpiry.pollReady
      · exact hexpiry
  · rcases poll_left P env hspent.idle.notReady with heq | heq
    · rw [heq]
      exact .inl h
    · rw [heq]
      exact .inr hspent

/-! ### `input_stun` -/

theorem Plain.inputError (h : Plain s) (hb : Base s) (p : Pending) (m : Message) :
    Counted (s.inputError P env p m) := by
  have hrefused : ∀ (u : Inner), Plain u → Base u → ∀ status stunCode reported state,
      Counted ((u.reportError m status reported state).completeFailure p.operation resultProtocol
        stunCode env.now) := fun u hu hbu status stunCode reported state =>
    (hu.quiet (pushEvent_quiet u _)).completeFailure (hbu.quiet (pushEvent_quiet u _)) _ _ _ _
  rw [Inner.inputError]
  split_ifs
  · exact hrefused s h hb _ _ _ _
  · have hreported : Plain (s.reportError m 0 ((errorCode m).getD 0) s.state) :=
      h.quiet (pushEvent_quiet s _)
    exact .inl (hreported.destroyAllocation _ _ _)
  · rcases hretried : s.retried P env p m ((errorCode m).getD 0) with _ | ⟨r, t⟩
    · exact hrefused s h hb _ _ _ _
    · obtain ⟨realm, nonce, _, hr⟩ := retried_eq_some hretried
      have hauth : Plain (s.setAuth P realm nonce) := ⟨h.opened, h.few, h.clean⟩
      rcases r with e | _
      · -- the request did not fit: the core is left with the new credentials
        have ht : t = s.setAuth P realm nonce := by
          have herror := startOperation_error (congrArg Prod.fst hr).symm
          rw [← hr] at herror
          exact herror
        rw [ht]
        exact hrefused _ hauth (hb.setAuth realm nonce) _ _ _ _
      · have hstart : Plain ((s.setAuth P realm nonce).startOperation P env p.operation true
            (p.nonceRetries + 1)).2 := hauth.startOperation _ _ _
        rw [← hr] at hstart
        exact .inl hstart

theorem Plain.completeSuccess (h : Plain s) (hhome : s.state = operation.home) (m : Message) :
    Plain (s.completeSuccess P env operation m).2 := by
  cases operation with
  | allocate =>
    by_cases herror : (∃ e, s.relayed m = .error e) ∨
        (attributeU32 m attrLifetime).getD requestedAllocationLifetime = 0
    · obtain ⟨e, heq⟩ := completeSuccess_allocate_error P env herror
      rw [heq]
      exact h
    rw [not_or, not_exists] at herror
    obtain ⟨relay, hrelay⟩ : ∃ relay, s.relayed m = .ok relay := by
      rcases hr : s.relayed m with e | relay
      · exact absurd hr (herror.1 e)
      · exact ⟨relay, rfl⟩
    have hhome : s.state ≠ .destroying := by
      rw [hhome]
      decide
    have hallocated : Plain (s.allocated env.now relay (attributeU32 m attrLifetime)) :=
      ⟨h.opened, h.few, fun hd => absurd hd hhome⟩
    rw [completeSuccess_allocate hrelay herror.2, h.opened, if_neg Bool.false_ne_true]
    exact (hallocated.setState (by decide)).quiet (complete_quiet _ _ _ _)
  | refresh =>
    have hready : s.state ≠ .destroying := by
      rw [hhome]
      decide
    rw [Inner.completeSuccess]
    split_ifs
    · exact h
    · exact ⟨h.opened, h.few, fun hd => absurd hd hready⟩
  | deallocate =>
    rw [Inner.completeSuccess]
    split_ifs
    · exact h
    · refine Plain.setState ?_ (by decide)
      exact ⟨h.opened, h.few, fun _ => rfl⟩
  | permission => exact ⟨h.opened, h.few, h.clean⟩
  | channel => exact ⟨h.opened, show 0 < maxChannelMaintenanceFailures by decide, h.clean⟩

theorem Plain.inputStun (h : Plain s) (hb : Base s) (packet : Bytes) :
    Counted (NativeCore.inputStun P env s packet).2 := by
  rcases inputStun_cases P env s packet with heq | ⟨m, p, _, hclass, hp, heq⟩
  · rw [heq]
    exact .inl h
  · have hremoved := hb.removed hp
    have hplain : Plain (s.withdraw m) := ⟨h.opened, h.few, h.clean⟩
    rw [heq]
    rcases inputResponse_cases P env s packet p m with ⟨_, heq | ⟨code, heq⟩⟩ | ⟨_, heq⟩ <;> rw [heq]
    · exact .inl h
    · exact .inl (h.quiet (pushEvent_quiet s _))
    · rw [inputAccepted]
      split_ifs with hunsigned herror
      · exact hplain.completeFailure hremoved.base _ _ _ _
      · exact hplain.inputError hremoved.base p m
      · have hauth : p.authenticated := by
          by_contra hauth
          exact hunsigned ⟨hclass.resolve_right herror, hauth⟩
        have hbase := (hremoved.completeSuccess P env hauth m).1
        have hsuccess : Plain ((s.withdraw m).completeSuccess P env p.operation m).2 :=
          hplain.completeSuccess hremoved.home m
        rw [Inner.inputSuccess]
        rcases hr : (s.withdraw m).completeSuccess P env p.operation m with ⟨e | _, t⟩
        · rw [hr] at hbase hsuccess
          exact Plain.completeFailure hsuccess hbase _ _ _ _
        · rw [hr] at hsuccess
          exact .inl hsuccess

/-! ### Every call -/

theorem Plain.resyncAfterSuspend (h : Plain s) (gap : ℕ) :
    Plain (NativeCore.resyncAfterSuspend env s gap).2 := by
  rw [NativeCore.resyncAfterSuspend]
  split_ifs with hskip
  · exact h
  · rw [not_or, not_or, not_not] at hskip
    have hready : s.state ≠ .destroying := by
      rw [hskip.2.2]
      decide
    rcases s.allocationExpiresAt with _ | expires
    · exact ⟨h.opened, h.few, fun hd => absurd hd hready⟩
    · show Plain (ite _ _ _ : Bool × Inner).2
      split_ifs
      · exact ⟨h.opened, h.few, fun hd => absurd hd hready⟩
      · exact h.destroyAllocation _ _ _

theorem Plain.after (h : Plain s) (hb : Base s) (call : Call) (hcall : ¬ call.Closing s) :
    Counted (NativeCore.after P env s call) := by
  cases call with
  | startAllocation =>
    left
    rw [NativeCore.after, NativeCore.startAllocation]
    rcases NativeCore.requireOpen s "TURN Allocate start" with e | _
    · exact h
    · show Plain (ite _ _ _ : Outcome Unit).2
      split_ifs
      · exact h
      · exact (h.setState (by decide)).startOperation _ _ _
  | startChannel =>
    left
    rw [NativeCore.after, NativeCore.startChannel]
    rcases NativeCore.requireReady s "TURN ChannelBind start" with e | _
    · exact h
    · exact h.startOperation _ _ _
  | startPermission =>
    left
    rw [NativeCore.after, NativeCore.startPermission]
    rcases NativeCore.requireReady s "TURN CreatePermission start" with e | _
    · exact h
    · exact h.startOperation _ _ _
  | inputStun packet => exact h.inputStun hb packet
  | poll => exact h.poll hb
  | resyncAfterSuspend gap => exact .inl (h.resyncAfterSuspend gap)
  | pullControl => exact .inl (h.quiet (pullControl_quiet s))
  | pullEvent => exact .inl ⟨h.opened, h.few, h.clean⟩
  | gracefulShutdown =>
    rw [NativeCore.after, NativeCore.gracefulShutdown, if_pos (not_not.mp hcall)]
    exact .inl h
  | forceDestroy status =>
    rw [NativeCore.after, NativeCore.forceDestroy, if_pos (Bool.of_not_eq_false hcall)]
    exact .inl h

theorem Counted.after (h : Counted s) (hb : Base s) (call : Call) (hcall : ¬ call.Closing s) :
    Counted (NativeCore.after P env s call) := by
  rcases h with hplain | hspent
  · exact hplain.after hb call hcall
  · have hquiet := after_of_idle P env hspent.idle call hcall
    exact Counted.quiet (.inr hspent) hquiet

end Inner

end Csqtt.Turn
