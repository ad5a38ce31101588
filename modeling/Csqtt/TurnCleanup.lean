/-
The cleanup of a driver gives the allocation back.

The driver reads the state of the allocation from the snapshot, which only a pump brings up to
date, and leaves when it finds DESTROYING there.  But `graceful_shutdown` makes a core that the
exhausted rebind has ended DEALLOCATING again, and then the driver leaves in front of the
Deallocate that it has just had queued (`exhausted_left_unsent`).

* `InHand.after` — no call of the core loses the allocation, or the Deallocate in the queue, as
  long as the server has not ended it and its time has not come;
* `cleanup_deallocates` — if moreover no cleanup finds such a snapshot while the allocation is
  there, a driver that leaves because all is over has handed a Deallocate to the transport.
-/
import Csqtt.TurnLoop
import Csqtt.TurnShutdown

namespace Csqtt.Turn

open Stun TurnIngress

namespace Inner

variable {P : Primitives} {env : Env} {s t : Inner} {operation : Operation} {p : Pending}
  {m : Message} {now : ℕ}

/-! ### Holding an allocation -/

/-- The allocation is there, and nobody has begun to give it back. -/
structure Retains (s : Inner) : Prop where
  alive : s.destroyed = false
  opened : s.shuttingDown = false
  expires : s.allocationExpiresAt.isSome
  state : s.state = .ready ∨ s.state = .destroying

theorem Base.retains (h : Base s) (hready : s.state = .ready) : Retains s := by
  obtain ⟨_, hexpires, _, _, _, hopened, halive⟩ := h.ready hready
  exact ⟨halive, hopened, hexpires, .inl hready⟩

theorem Sound.retains (h : Sound s) (hholding : s.holding) : Retains s := by
  simp only [holding, Bool.and_eq_true, Bool.not_eq_true', Bool.or_eq_true,
    decide_eq_true_eq] at hholding
  obtain ⟨⟨halive, hexpires⟩, hready | hexhausted⟩ := hholding
  · exact h.base.retains hready
  · rcases h.settled with hdestroyed | hcounted | hphase
    · rw [halive] at hdestroyed
      exact absurd hdestroyed Bool.false_ne_true
    · exact ⟨halive, hcounted.opened, hexpires, .inr hexhausted.1⟩
    · exact absurd hexhausted hphase.not_exhausted

/-- The allocation is still there, with its time; the core may have ended. -/
structure Lasting (s t : Inner) : Prop where
  destroyed : t.destroyed = s.destroyed
  opened : t.shuttingDown = s.shuttingDown
  expires : t.allocationExpiresAt = s.allocationExpiresAt
  state : t.state = .ready ∨ t.state = .destroying

theorem Lasting.of_same {u : Inner} (h : Lasting u t) (hdestroyed : u.destroyed = s.destroyed)
    (hopened : u.shuttingDown = s.shuttingDown)
    (hexpires : u.allocationExpiresAt = s.allocationExpiresAt) : Lasting s t :=
  ⟨h.destroyed.trans hdestroyed, h.opened.trans hopened, h.expires.trans hexpires, h.state⟩

theorem Lasting.retains (h : Lasting s t) (hs : Retains s) : Retains t :=
  ⟨h.destroyed.trans hs.alive, h.opened.trans hs.opened, h.expires ▸ hs.expires, h.state⟩

/-- A maintenance request that fails in time leaves the allocation. -/
theorem Maintained.completeFailure (hm : s.Maintained now) (hop : isMaintenance operation)
    (status : ℤ) (stunCode : ℕ) :
    Lasting s (s.completeFailure operation status stunCode now) ∧
      ((s.completeFailure operation status stunCode now).state = .ready ∨
        (s.completeFailure operation status stunCode now).pending = []) := by
  have hfailed := completeFailure_failed s operation status stunCode now
  generalize s.completeFailure operation status stunCode now = t at hfailed ⊢
  cases hfailed with
  | refresh | permission | channel => exact ⟨⟨rfl, rfl, rfl, .inl hm.1⟩, .inl hm.1⟩
  | exhausted => exact ⟨⟨rfl, rfl, rfl, .inr rfl⟩, .inr rfl⟩
  | destroyed hnot => exact absurd ⟨hop, hm⟩ hnot

theorem Base.maintenance (h : Base s) (hready : s.state = .ready) (hp : p ∈ s.pending) :
    isMaintenance p.operation := by
  have hhome := h.home p hp
  rw [hready] at hhome
  rcases hop : p.operation <;> rw [hop] at hhome <;> first | rfl | exact absurd hhome (by decide)

/-- Giving transactions up leaves the allocation. -/
theorem Maintained.expireFrom (hm : s.Maintained now) (hb : Base s) (index : ℕ) :
    Lasting s (s.expireFrom now index) := by
  fun_induction Inner.expireFrom s now index with
  | case1 s index hi p hlater ih => exact ih hm hb
  | case2 s index hi p hcome hexhausted ih =>
    have hop := hb.maintenance hm.1 (List.getElem_mem hi)
    have hwithdrawn : Maintained ({ s with
        pending := s.pending.eraseIdx index }.removeQueuedTransaction p.transaction) now := hm
    obtain ⟨hlasting, hleft⟩ := hwithdrawn.completeFailure hop resultTimeout 0
    have hfirst : Lasting s (s.expire index p now) := hlasting.of_same rfl rfl rfl
    rcases hleft with hready | hnone
    · refine Lasting.of_same (ih ⟨hready, ?_⟩ (hb.expire hi now)) hfirst.destroyed hfirst.opened
        hfirst.expires
      rw [hfirst.expires]
      exact hm.2
    · -- the loop is over: nothing is pending any more
      have hend : (s.expire index p now).expireFrom now index = s.expire index p now :=
        expireFrom_end (by rw [Inner.expire, hnone]; exact Nat.zero_le index)
      rw [hend]
      exact hfirst
  | case3 s index hi p hcome hmore ih =>
    have hbase := hb.retransmit hi now
    obtain ⟨controls, events, hq⟩ := queuePacket_quiet s p.packet
    rw [hq] at ih hbase ⊢
    exact (ih hm hbase).of_same rfl rfl rfl
  | case4 s index hi => exact ⟨rfl, rfl, rfl, .inl hm.1⟩

theorem Maintained.poll (hm : s.Maintained env.now) (hb : Base s) :
    Retains (NativeCore.poll P env s).2 := by
  have hretains := hb.retains hm.1
  have hlasting : Lasting s (s.expireTransactions env.now) := hm.expireFrom hb 0
  rcases hlasting.state with hready | hended
  · have hlives : ¬ due env.now (s.expireTransactions env.now).allocationExpiresAt := by
      rw [hlasting.expires]
      obtain ⟨expires, hsome, hlater⟩ := (Option.any_eq_true _ _).mp hm.2
      rw [hsome, due, Option.any_some, decide_eq_true_eq, Nat.not_le]
      exact of_decide_eq_true hlater
    have hbase := hb.expireTransactions env.now
    have hkept : BaseReady ((s.expireTransactions env.now).pollActive P env).2 := by
      rw [pollActive]
      split_ifs
      · exact BaseReady.pollReady ⟨hbase, hready⟩
      · exact ⟨hbase, hready⟩
    rw [poll_eq hretains.alive, pollExpiry, if_neg fun h => hlives h.2]
    exact andThen_keeps (hkept.1.retains hkept.2) fun _ t ht => ht
  · have hleft : (s.expireTransactions env.now).state ≠ .ready := by
      rw [hended]
      decide
    rw [poll_of_not_ready hretains.alive hleft]
    exact hlasting.retains hretains

/-! ### A packet for a core that holds one -/

/-- The packet is believed, and says that the server has no such allocation. -/
def disowned (P : Primitives) (s : Inner) (packet : Bytes) : Bool :=
  match Message.decode packet with
  | .error _ => false
  | .ok m =>
    (s.pending.find? (·.answeredBy m)).any fun p =>
      !s.unauthentic P packet p m && m.class = .error &&
        requiresAllocationRecreate p.operation ((errorCode m).getD 0)

/-- The packet answers a transaction. -/
def answered (s : Inner) (packet : Bytes) : Bool :=
  match Message.decode packet with
  | .error _ => false
  | .ok m => s.pending.any (·.answeredBy m)

theorem Maintained.inputError (hm : s.Maintained env.now) (hretains : Retains s)
    (hop : isMaintenance p.operation)
    (hkeep : ¬ requiresAllocationRecreate p.operation ((errorCode m).getD 0)) :
    Retains (s.inputError P env p m) := by
  have hrefused : ∀ (u : Inner) (status : ℤ) (stunCode reported : ℕ) (state : TurnState),
      u.Maintained env.now → Retains u →
      Retains ((u.reportError m status reported state).completeFailure p.operation resultProtocol
        stunCode env.now) := by
    intro u status stunCode reported state hu hretains
    have hreported : (u.reportError m status reported state).Maintained env.now := hu
    have hlasting : Lasting u ((u.reportError m status reported state).completeFailure p.operation
        resultProtocol stunCode env.now) :=
      (hreported.completeFailure hop resultProtocol stunCode).1.of_same rfl rfl rfl
    exact hlasting.retains hretains
  rw [Inner.inputError]
  split_ifs
  · exact hrefused s _ _ _ _ hm hretains
  · rcases hretried : s.retried P env p m ((errorCode m).getD 0) with _ | ⟨r, t⟩
    · exact hrefused s _ _ _ _ hm hretains
    · obtain ⟨realm, nonce, _, hr⟩ := retried_eq_some hretried
      obtain ⟨_, _, _, hframe⟩ := startOperation_frame P env (s.setAuth P realm nonce) p.operation
        true (p.nonceRetries + 1)
      have ht : t = _ := (congrArg Prod.snd hr).trans hframe
      have hagain : t.Maintained env.now ∧ Retains t := by
        rw [ht]
        exact ⟨hm, hretains.alive, hretains.opened, hretains.expires, hretains.state⟩
      rcases r with e | _
      · exact hrefused t _ _ _ _ hagain.1 hagain.2
      · exact hagain.2

theorem Maintained.inputSuccess (hm : s.Maintained env.now) (hretains : Retains s)
    (hop : isMaintenance p.operation) : Retains (s.inputSuccess P env p m).2 := by
  rw [Inner.inputSuccess]
  cases hpop : p.operation with
  | refresh =>
    rw [completeSuccess]
    split_ifs
    · exact (hm.completeFailure rfl _ _).1.retains hretains
    · exact ⟨hretains.alive, hretains.opened, rfl, .inl hm.1⟩
  | permission => exact ⟨hretains.alive, hretains.opened, hretains.expires, .inl hm.1⟩
  | channel => exact ⟨hretains.alive, hretains.opened, hretains.expires, .inl hm.1⟩
  | allocate => exact absurd (hpop ▸ hop) (by decide)
  | deallocate => exact absurd (hpop ▸ hop) (by decide)

/-- A packet leaves the allocation unless it says that there is none. -/
theorem Maintained.inputStun {packet : Bytes} (hm : s.Maintained env.now) (hb : Base s)
    (howned : ¬ s.disowned P packet) : Retains (NativeCore.inputStun P env s packet).2 := by
  have hretains := hb.retains hm.1
  rcases inputStun_cases P env s packet with heq | ⟨m, p, hdecode, hclass, hp, heq⟩
  · rw [heq]
    exact hretains
  have hop := hb.maintenance hm.1 (List.mem_of_find?_eq_some hp)
  have hwithdrawn : (s.withdraw m).Maintained env.now := hm
  have hwithdraws : Retains (s.withdraw m) :=
    ⟨hretains.alive, hretains.opened, hretains.expires, hretains.state⟩
  rw [heq]
  rcases inputResponse_cases P env s packet p m with
    ⟨_, heq | ⟨code, heq⟩⟩ | ⟨hbelieved, heq⟩ <;> rw [heq]
  · exact hretains
  · exact ⟨hretains.alive, hretains.opened, hretains.expires, hretains.state⟩
  · rw [inputAccepted]
    split_ifs with hunsigned herror
    · exact (hwithdrawn.completeFailure hop _ _).1.retains hwithdraws
    · refine hwithdrawn.inputError hwithdraws hop fun hrecreate => ?_
      rw [Bool.not_eq_true] at hbelieved
      refine howned ?_
      simp only [disowned, hdecode, hp, Option.any_some, hbelieved, herror, hrecreate, Bool.not_false,
        decide_true, Bool.and_self]
    · exact hwithdrawn.inputSuccess hwithdraws hop

/-! ### The Deallocate in the queue -/

/-- The Deallocate is the only transaction, and its packet has not been pulled. -/
structure Queued (s : Inner) : Prop where
  alive : s.destroyed = false
  shut : s.shuttingDown
  state : s.state = .deallocating
  expires : s.allocationExpiresAt.isSome
  request : ∃ p, s.pending = [p] ∧ p.operation = .deallocate ∧ isDeallocate p.packet ∧
    p.packet ∈ s.controls.map Control.packet

theorem isDeallocate_of_givesBack {packet : Bytes} {transaction : Octets 12}
    (h : GivesBack packet transaction) : isDeallocate packet := by
  obtain ⟨m, hdecode, hclass, hmethod, _, hlifetime⟩ := h
  simp only [isDeallocate, hdecode, hclass, hmethod, hlifetime, decide_true, Bool.and_self]

/-- What keeps an allocation at the server: the core, or its Deallocate. -/
def InHand (s : Inner) : Prop := Retains s ∨ Queued s

theorem InHand.expires (h : InHand s) : s.allocationExpiresAt.isSome := by
  rcases h with hretains | hqueued
  · exact hretains.expires
  · exact hqueued.expires

theorem Sound.forceDestroy (h : Sound s) (status : ℤ) : Sound (NativeCore.forceDestroy s status) := by
  have hafter : Sound (NativeCore.after zeroDigests (moment 0 0) s (.forceDestroy status)) :=
    h.after trivial
  exact hafter

/-- A core that is not READY and holds an allocation is spent. -/
theorem Sound.spent (h : Sound s) (hs : Retains s) (hready : s.state ≠ .ready) : Spent s := by
  have hended := hs.state.resolve_left hready
  rcases h.settled with hdestroyed | (hplain | hspent) | hphase
  · rw [hs.alive] at hdestroyed
    exact absurd hdestroyed Bool.false_ne_true
  · have hexpires := hs.expires
    rw [hplain.clean hended] at hexpires
    exact absurd hexpires Bool.false_ne_true
  · exact hspent
  · have hshut := hphase.shut
    rw [hs.opened] at hshut
    exact absurd hshut Bool.false_ne_true

/-! ### Every call -/

/-- The call does not meet the end of the allocation: the server has not disowned it, its time
has not come, and until the Deallocate is sent it is neither answered nor given up. -/
def Endures (P : Primitives) (env : Env) (s : Inner) : Call → Prop
  | .poll =>
    (s.state = .ready → s.Maintained env.now) ∧
      (s.state = .deallocating → ∀ p ∈ s.pending, ¬ p.timesOut s.transport env.now)
  | .inputStun packet =>
    (s.state = .ready → s.Maintained env.now ∧ ¬ s.disowned P packet) ∧
      (s.state = .deallocating → ¬ s.answered packet)
  | .resyncAfterSuspend gap => s.state = .ready → s.allocationExpiresAt.any (env.now + gap < ·)
  | .forceDestroy _ => False
  | _ => True

instance (s : Inner) (now : ℕ) : Decidable (s.Maintained now) :=
  inferInstanceAs (Decidable (_ ∧ _))

instance (P : Primitives) (env : Env) (s : Inner) : (call : Call) → Decidable (s.Endures P env call)
  | .poll => inferInstanceAs (Decidable (_ ∧ _))
  | .inputStun _ => inferInstanceAs (Decidable (_ ∧ _))
  | .resyncAfterSuspend _ => inferInstanceAs (Decidable (_ → _))
  | .forceDestroy _ => inferInstanceAs (Decidable False)
  | .startAllocation | .startChannel | .startPermission | .pullControl | .pullEvent
  | .gracefulShutdown => inferInstanceAs (Decidable True)

theorem Retains.quiet (h : Retains s) (hst : Quiet s t) : Retains t := by
  obtain ⟨_, _, rfl⟩ := hst
  exact ⟨h.alive, h.opened, h.expires, h.state⟩

theorem Retains.startOperation (h : Retains s) (operation : Operation) (authenticated : Bool)
    (nonceRetries : ℕ) :
    Retains (s.startOperation P env operation authenticated nonceRetries).2 := by
  obtain ⟨pending, hquiet⟩ := startOperation_frame P env s operation authenticated nonceRetries
  have hset : Retains { s with pending } := ⟨h.alive, h.opened, h.expires, h.state⟩
  exact hset.quiet hquiet

theorem Retains.resyncAfterSuspend (h : Retains s) {gap : ℕ}
    (hend : s.state = .ready → s.allocationExpiresAt.any (env.now + gap < ·)) :
    Retains (NativeCore.resyncAfterSuspend env s gap).2 := by
  rw [NativeCore.resyncAfterSuspend]
  split_ifs with hskip
  · exact h
  · have hready : s.state = .ready := by
      by_contra hready
      exact hskip (.inr (.inr hready))
    obtain ⟨expires, hsome, hlater⟩ := (Option.any_eq_true _ _).mp (hend hready)
    have hfar : env.now + gap < expires := of_decide_eq_true hlater
    simp only [hsome]
    rw [if_pos (by omega)]
    exact ⟨h.alive, h.opened, rfl, h.state⟩

/-- The shutdown puts the Deallocate into the queue. -/
theorem Retains.gracefulShutdown (h : Retains s) (hsound : Sound s) :
    Queued (NativeCore.gracefulShutdown P env s).2 := by
  have hopen : ¬ (s.destroyed ∨ s.shuttingDown) := by
    rw [h.alive, h.opened]
    simp
  have hgive : s.state = .ready ∨ s.state = .destroying ∧ s.allocationExpiresAt.isSome :=
    h.state.imp_right fun hended => ⟨hended, h.expires⟩
  have hauth : s.AuthSet := by
    by_cases hready : s.state = .ready
    · exact (hsound.base.ready hready).2.2.2.2.1
    · exact (hsound.spent h hready).auth
  have hrequested : Requested P (NativeCore.gracefulShutdown P env s).2 :=
    gracefulShutdown_requests hsound.held.1 hauth hopen hgive
  obtain ⟨hshut, hstate, p, hpending, hop, _, hgives, hqueued⟩ := hrequested
  have hsame : (NativeCore.gracefulShutdown P env s).2.destroyed = s.destroyed ∧
      (NativeCore.gracefulShutdown P env s).2.allocationExpiresAt = s.allocationExpiresAt := by
    rw [NativeCore.gracefulShutdown, if_neg hopen]
    show (ite _ _ _ : Outcome Unit).2.destroyed = _ ∧ (ite _ _ _ : Outcome Unit).2.allocationExpiresAt = _
    rw [if_pos hgive]
    obtain ⟨_, hset⟩ := setState_eq { s with
      shuttingDown := true
      channel := none
      maintenanceRefresh := none
      permissionRetry := none
      channelRetry := none
      keepalive := none
      controls := []
      pending := [] } .deallocating
    rw [hset]
    obtain ⟨_, _, _, hframe⟩ := startOperation_frame P env _ .deallocate true 0
    rw [hframe]
    exact ⟨rfl, rfl⟩
  refine ⟨hsame.1.trans h.alive, hshut, hstate, ?_, p, hpending, hop, isDeallocate_of_givesBack hgives,
    List.mem_map.mpr ⟨_, hqueued, rfl⟩⟩
  rw [hsame.2]
  exact h.expires

theorem Retains.after (h : Retains s) (hsound : Sound s) {call : Call}
    (hend : s.Endures P env call) : InHand (NativeCore.after P env s call) := by
  by_cases hready : s.state = .ready
  · cases call with
    | startAllocation =>
      left
      rw [NativeCore.after, startAllocation_of_begun (.inl (by rw [hready]; decide))]
      exact h
    | startChannel =>
      exact .inl (andThen_keeps (r := (_, s)) h fun _ t ht => ht.startOperation _ _ _)
    | startPermission =>
      exact .inl (andThen_keeps (r := (_, s)) h fun _ t ht => ht.startOperation _ _ _)
    | inputStun packet =>
      obtain ⟨hm, howned⟩ := hend.1 hready
      exact .inl (hm.inputStun hsound.base howned)
    | poll => exact .inl ((hend.1 hready).poll hsound.base)
    | resyncAfterSuspend gap => exact .inl (h.resyncAfterSuspend hend)
    | pullControl => exact .inl (h.quiet (pullControl_quiet s))
    | pullEvent => exact .inl ⟨h.alive, h.opened, h.expires, h.state⟩
    | gracefulShutdown => exact .inr (h.gracefulShutdown hsound)
    | forceDestroy status => exact hend.elim
  · -- a spent core stays as it is until it is shut down
    by_cases hcall : call.Closing s
    · rcases closing_cases hcall with ⟨rfl, _⟩ | ⟨status, rfl⟩
      · exact .inr (h.gracefulShutdown hsound)
      · exact hend.elim
    · exact .inl (h.quiet (after_of_idle P env (hsound.spent h hready).idle call hcall))

/-- A poll before the Deallocate is given up queues it once more, or does nothing. -/
theorem Queued.poll (h : Queued s)
    (hend : ∀ p ∈ s.pending, ¬ p.timesOut s.transport env.now) :
    Queued (NativeCore.poll P env s).2 := by
  obtain ⟨p, hpending, hop, hgives, hqueued⟩ := h.request
  have hsplit : s.pending = [] ++ p :: [] := hpending
  have hkept : Queued (s.expireTransactions env.now) := by
    rw [expireTransactions, show 0 = ([] : List Pending).length from rfl]
    by_cases hlater : env.now < p.nextAttempt
    · rw [expireFrom_skip hsplit hlater, expireFrom_end (by rw [hpending]; exact Nat.le_refl 1)]
      exact h
    · have hmore := hend p (by rw [hpending]; exact List.mem_cons_self)
      have hmem := mem_queuePacket s p.packet
      obtain ⟨controls, events, hq⟩ := queuePacket_quiet s p.packet
      rw [hq] at hmem
      rw [expireFrom_retransmit hsplit hlater hmore, hq, expireFrom_end (Nat.le_refl 1)]
      exact ⟨h.alive, h.shut, h.state, h.expires, p.retransmitted env.now, rfl, hop, hgives,
        List.mem_map.mpr ⟨{ packet := p.packet, destination := s.server }, hmem, rfl⟩⟩
  have hleft : (s.expireTransactions env.now).state ≠ .ready := by
    rw [hkept.state]
    decide
  rw [poll_of_not_ready h.alive hleft]
  exact hkept

theorem Queued.after (h : Queued s) {call : Call} (hcall : call ≠ .pullControl)
    (hend : s.Endures P env call) : Queued (NativeCore.after P env s call) := by
  have hready : s.state ≠ .ready := by
    rw [h.state]
    decide
  cases call with
  | startAllocation =>
    rw [NativeCore.after, startAllocation_of_begun (.inr h.shut)]
    exact h
  | startChannel =>
    rw [NativeCore.after, startChannel_of_not_ready hready]
    exact h
  | startPermission =>
    rw [NativeCore.after, startPermission_of_not_ready hready]
    exact h
  | inputStun packet =>
    rw [NativeCore.after]
    rcases inputStun_cases P env s packet with heq | ⟨m, p, hdecode, _, hp, _⟩
    · rw [heq]
      exact h
    · have hanswers := List.find?_some hp
      refine absurd ?_ (hend.2 h.state)
      simp only [answered, hdecode]
      exact List.any_eq_true.mpr ⟨p, List.mem_of_find?_eq_some hp, hanswers⟩
  | poll => exact h.poll (hend.2 h.state)
  | resyncAfterSuspend gap =>
    rw [NativeCore.after, resyncAfterSuspend_of_not_ready hready]
    exact h
  | pullControl => exact absurd rfl hcall
  | pullEvent => exact ⟨h.alive, h.shut, h.state, h.expires, h.request⟩
  | gracefulShutdown =>
    rw [NativeCore.after, NativeCore.gracefulShutdown, if_pos (.inr h.shut)]
    exact h
  | forceDestroy status => exact hend.elim

/-- **No call loses the allocation**, nor the Deallocate in the queue, which the driver pulls
in the end. -/
theorem InHand.after (h : InHand s) (hsound : Sound s) {call : Call} (hcall : call ≠ .pullControl)
    (hend : s.Endures P env call) : InHand (NativeCore.after P env s call) := by
  rcases h with hretains | hqueued
  · exact hretains.after hsound hend
  · exact .inr (hqueued.after hcall hend)

/-- A pull that loses it has pulled the Deallocate. -/
theorem InHand.pullControl (h : InHand s) :
    InHand (NativeCore.pullControl s).2 ∨
      ∃ control controls, s.controls = control :: controls ∧ isDeallocate control.packet := by
  rcases h with hretains | hqueued
  · exact .inl (.inl (hretains.quiet (pullControl_quiet s)))
  · obtain ⟨p, hpending, hop, hgives, hmem⟩ := hqueued.request
    rcases hcontrols : s.controls with _ | ⟨control, controls⟩
    · rw [hcontrols] at hmem
      exact absurd hmem List.not_mem_nil
    · rw [hcontrols, List.map_cons] at hmem
      rcases List.mem_cons.mp hmem with hhead | htail
      · right
        exact ⟨control, controls, rfl, hhead ▸ hgives⟩
      · refine .inl (.inr ?_)
        have hpulled : (NativeCore.pullControl s).2 = { s with controls } := by
          rw [NativeCore.pullControl]
          simp only [hcontrols]
          split_ifs
          · rfl
          · rfl
        rw [hpulled]
        exact ⟨hqueued.alive, hqueued.shut, hqueued.state, hqueued.expires, p, hpending, hop,
          hgives, htail⟩

end Inner

/-- A reason to leave before the allocation has been given back. -/
def Reason.Excused (reason : Reason) : Prop :=
  reason = .noPermit ∨ reason = .deadline ∨ reason = .aborted

namespace DriverLoop

variable {P : Primitives} {d : Draw} {env : Env} {l l' : DriverLoop} {reason : Reason}

/-! ### What the driver owes -/

/-- A Deallocate has been pulled, and handed over or not. -/
def passed (l : DriverLoop) : Bool := (l.ledger.handed ++ l.ledger.refused).any isDeallocate

/-- The cleanup has begun with an allocation, and no Deallocate has been pulled. -/
def Owing (l : DriverLoop) : Prop := l.ledger.owed ∧ ¬ l.passed

/-- A driver that has left has handed a Deallocate to the transport, unless it has failed to do
that, or has had no permit, no time, or no owner. -/
def Returned (l : DriverLoop) : Prop :=
  ∀ reason, l.pc = .left reason → l.ledger.owed →
    (∃ packet ∈ l.ledger.handed, isDeallocate packet) ∨
      (∃ packet ∈ l.ledger.refused, isDeallocate packet) ∨ reason.Excused

/-- The call of the core that a step may make. -/
def ahead (l : DriverLoop) : LoopEvent → Option (Env × Call)
  | .drive d =>
    match l.pc with
    | .top =>
      if l.epoch = l.wakeEpoch then none else some (d.env, .resyncAfterSuspend l.lastGap)
    | .poll => some (d.env, .poll)
    | .burst _ _ | .flush _ | .select _ _ _ =>
      match l.arrived with
      | .ok wire :: _ => some (d.env, .inputStun wire)
      | _ => none
    | _ => none
  | .call env call => some (env, call)
  | _ => none

/-- At the head of the loop, the snapshot has ended and the core has an allocation. -/
def stale (l : DriverLoop) : LoopEvent → Bool
  | .drive _ =>
    l.pc = .top && TurnState.deallocated.number ≤ l.shared.snapshot.state.number &&
      l.core.allocationExpiresAt.isSome
  | _ => false

/-- While a Deallocate is owed, no call meets the end of the allocation, and the cleanup finds
no stale snapshot. -/
def Spared (P : Primitives) (l : DriverLoop) (event : LoopEvent) : Prop :=
  l.Owing → (∀ c ∈ l.ahead event, l.core.Endures P c.1 c.2) ∧ ¬ l.stale event

instance (l : DriverLoop) : Decidable l.Owing := inferInstanceAs (Decidable (_ ∧ _))

instance (P : Primitives) (l : DriverLoop) (event : LoopEvent) : Decidable (Spared P l event) :=
  inferInstanceAs (Decidable (_ → _ ∧ _))

/-- The allocation is there while it is owed, wherever the driver is. -/
structure Firm (l : DriverLoop) : Prop where
  sound : l.core.Sound
  sent : l.ledger.owed → l.shared.controlSent
  inHand : l.Owing → l.core.InHand

theorem Firm.of_same (h : Firm l) (hcore : l'.core = l.core)
    (hsent : l.shared.controlSent → l'.shared.controlSent)
    (howed : l'.ledger.owed = l.ledger.owed) (hpassed : l.passed → l'.passed) : Firm l' := by
  refine ⟨hcore ▸ h.sound, fun ho => hsent (h.sent (howed ▸ ho)), fun ho => ?_⟩
  rw [hcore]
  exact h.inHand ⟨howed ▸ ho.1, fun hp => ho.2 (hpassed hp)⟩

theorem Firm.call (h : Firm l) {call : Call} (hshort : call.Short) (hpull : call ≠ .pullControl)
    (hend : l.Owing → l.core.Endures P env call) : Firm (l.call P env call) :=
  ⟨h.sound.after hshort, h.sent, fun ho => (h.inHand ho).after h.sound hpull (hend ho)⟩

theorem Firm.fail (h : Firm l) (reason : Terminal) : Firm (l.fail reason) := by
  refine h.of_same rfl (fun hsent => ?_) rfl id
  show (DriverShared.fail l.shared reason).controlSent
  rw [DriverShared.fail]
  split_ifs
  · exact hsent
  · exact hsent

theorem Firm.requestCleanup (h : Firm l) (own : Bool) : Firm (l.requestCleanup own) := by
  refine ⟨h.sound, fun ho => ?_, fun ho => ?_⟩
  · rcases Bool.or_eq_true_iff.mp ho with hold | hnew
    · exact h.sent hold
    · rw [Bool.and_eq_true, Bool.and_eq_true] at hnew
      exact hnew.1.2
  · rcases Bool.or_eq_true_iff.mp ho.1 with hold | hnew
    · exact h.inHand ⟨hold, ho.2⟩
    · rw [Bool.and_eq_true] at hnew
      exact .inl (h.sound.retains hnew.2)

/-! ### A driver that may have left -/

inductive Kept (l : DriverLoop) : Prop where
  | firm (h : Firm l) (hpc : ∀ reason, l.pc ≠ .left reason)
  /-- The Deallocate has been pulled, and is on its way. -/
  | carried {timer : Option ℕ} {packet : Bytes} (hpc : l.pc = .sending timer packet)
      (hgives : isDeallocate packet) (hsound : l.core.Sound)
      (hsent : l.ledger.owed → l.shared.controlSent)
  | left {reason : Reason} (hpc : l.pc = .left reason) (hsound : l.core.Sound)
      (hgone : l.core.destroyed) (h : l.Owing → reason.Excused)

theorem Kept.returned (h : Kept l) : Returned l := by
  intro reason hpc howed
  cases h with
  | firm _ hnot => exact absurd hpc (hnot reason)
  | carried hsending => exact nomatch hsending.symm.trans hpc
  | left hleft _ _ h =>
    obtain rfl : reason = _ := Pc.left.inj (hpc.symm.trans hleft)
    by_cases hpassed : l.passed
    · obtain ⟨packet, hmem, hgives⟩ := List.any_eq_true.mp hpassed
      rcases List.mem_append.mp hmem with hhanded | hrefused
      · exact .inl ⟨packet, hhanded, hgives⟩
      · exact .inr (.inl ⟨packet, hrefused, hgives⟩)
    · exact .inr (.inr (h ⟨howed, hpassed⟩))

theorem Kept.leave (hsound : l.core.Sound) (h : l.Owing → reason.Excused) :
    Kept (l.leave reason) :=
  .left rfl (hsound.forceDestroy 0) (Inner.forceDestroy_destroyed _ _) h

theorem Firm.leave (h : Firm l) (hreason : l.Owing → reason.Excused) : Kept (l.leave reason) :=
  .leave h.sound hreason

/-- Without a control packet nothing is owed. -/
theorem Firm.not_owing (h : Firm l) (hunsent : l.shared.controlSent = false) : ¬ l.Owing := by
  intro ho
  have hsent := h.sent ho.1
  rw [hunsent] at hsent
  exact Bool.false_ne_true hsent

/-! ### The head of the loop -/

theorem Firm.observeWake (h : Firm l)
    (hend : l.Owing → l.epoch ≠ l.wakeEpoch →
      l.core.Endures P d.env (.resyncAfterSuspend l.lastGap)) : Firm (l.observeWake P d) := by
  rw [DriverLoop.observeWake]
  split_ifs with hseen
  · exact h
  · have hcall : Firm (l.call P d.env (.resyncAfterSuspend l.lastGap)) :=
      h.call trivial (by simp) fun ho => hend ho hseen
    exact hcall.of_same rfl id rfl id

theorem Firm.startCleanup (h : Firm l) (state : TurnState) :
    Firm (l.startCleanup P d state) := by
  have hset (deadline : Option ℕ) : Firm { l with cleanupDeadline := deadline } :=
    h.of_same rfl id rfl id
  rw [DriverLoop.startCleanup]
  simp only
  split
  · exact hset _
  · have hcall (deadline : Option ℕ) :
        Firm ({ l with cleanupDeadline := deadline }.call P d.env .gracefulShutdown) :=
      (hset deadline).call trivial (by simp) fun _ => trivial
    exact (hcall _).of_same rfl id rfl id

theorem startCleanup_owing (l : DriverLoop) (state : TurnState) :
    (l.startCleanup P d state).Owing ↔ l.Owing := by
  rw [DriverLoop.startCleanup]
  split_ifs <;> rfl

theorem observeWake_owing (l : DriverLoop) : (l.observeWake P d).Owing ↔ l.Owing := by
  rw [DriverLoop.observeWake]
  split_ifs <;> rfl

theorem observeWake_shared (l : DriverLoop) : (l.observeWake P d).shared = l.shared := by
  rw [DriverLoop.observeWake]
  split_ifs <;> rfl

theorem Firm.proceed (h : Firm l) : Kept (l.proceed d) := by
  refine .firm (h.of_same rfl id rfl id) fun reason => ?_
  show (if _ then Pc.poll else .idle) ≠ .left reason
  split_ifs <;> simp

/-- The state that the cleanup has read is no end while the allocation is there. -/
theorem Firm.cleanup (h : Firm l)
    (hover : l.Owing → ¬ TurnState.deallocated.number ≤ l.shared.snapshot.state.number) :
    Kept (l.cleanup P d) := by
  have hpermit : Firm { l with cleanupPermit := true } := h.of_same rfl id rfl id
  have hfirm : Firm ({ l with cleanupPermit := true }.startCleanup P d l.shared.snapshot.state) :=
    hpermit.startCleanup _
  have howing := startCleanup_owing (P := P) (d := d) { l with cleanupPermit := true }
    l.shared.snapshot.state
  rw [DriverLoop.cleanup]
  split_ifs with hended
  · exact hfirm.leave fun ho => absurd hended (hover (howing.mp ho))
  · exact hfirm.leave fun _ => .inr (.inl rfl)
  · exact hfirm.proceed

theorem Firm.iterate (h : Firm l)
    (hend : l.Owing → l.epoch ≠ l.wakeEpoch →
      l.core.Endures P d.env (.resyncAfterSuspend l.lastGap))
    (hover : l.Owing → ¬ TurnState.deallocated.number ≤ l.shared.snapshot.state.number) : Kept (l.iterate P d) := by
  set m : DriverLoop := { l with
    ledger := { l.ledger with iterations := l.ledger.iterations + 1 } } with hm
  have hcounted : Firm m := h.of_same rfl id rfl id
  have hfirm : Firm (m.observeWake P d) := hcounted.observeWake hend
  have howing : (m.observeWake P d).Owing ↔ l.Owing := observeWake_owing m
  have hshared : (m.observeWake P d).shared = l.shared := observeWake_shared m
  rw [DriverLoop.iterate]
  simp only [← hm]
  split_ifs with hopen hunsent hpermit
  · exact hfirm.proceed
  · rw [Bool.not_eq_true'] at hunsent
    exact hfirm.leave fun ho => absurd ho (hfirm.not_owing hunsent)
  · exact hfirm.leave fun _ => .inl rfl
  · refine hfirm.cleanup fun ho hended => ?_
    rw [howing] at ho
    rw [hshared] at hended
    exact hover ho hended

/-! ### The pump -/

theorem Firm.failed (h : Firm l) (error : PumpError) : Kept (l.failed d error) := by
  have hfirm : Firm ((l.fail (.pump error)).requestCleanup true) := (h.fail _).requestCleanup true
  rw [DriverLoop.failed]
  split_ifs with hunsent
  · rw [Bool.not_eq_true'] at hunsent
    exact hfirm.leave fun ho => absurd ho (hfirm.not_owing hunsent)
  · split
    · exact .firm (hfirm.of_same rfl id rfl id) fun _ => by simp
    · split_ifs
      · exact hfirm.leave fun _ => .inr (.inl rfl)
      · exact .firm (hfirm.of_same rfl id rfl id) fun _ => by simp

theorem Firm.pumpPoll (h : Firm l) (hend : l.Owing → l.core.Endures P d.env .poll) :
    Kept (l.pumpPoll P d) := by
  have hcall : Firm (l.call P d.env .poll) := h.call trivial (by simp) hend
  rw [DriverLoop.pumpPoll]
  split
  · exact hcall.failed _
  · exact .firm (hcall.of_same rfl id rfl id) fun _ => by simp

theorem pullPacket_cases (server : SocketAddr) (core : Inner) :
    core.controls = [] ∧ (pullPacket server core).1 = .ok none ∨
      ∃ control controls, core.controls = control :: controls ∧
        ((∃ e, (pullPacket server core).1 = .error e) ∨
          (pullPacket server core).1 = .ok (some control.packet)) := by
  rcases hcontrols : core.controls with _ | ⟨control, controls⟩
  · left
    refine ⟨rfl, ?_⟩
    rw [pullPacket, NativeCore.pullControl, hcontrols]
  · right
    refine ⟨control, controls, rfl, ?_⟩
    rw [pullPacket, NativeCore.pullControl]
    simp only [hcontrols]
    by_cases hlong : 1024 < control.packet.length
    · left
      simp only [if_pos hlong]
      exact ⟨_, rfl⟩
    · simp only [if_neg hlong]
      split_ifs
      · exact .inl ⟨_, rfl⟩
      · exact .inr rfl

theorem refuse_passed (l : DriverLoop) (packets : List Bytes) :
    (l.refuse packets).passed = (l.passed || packets.any isDeallocate) := by
  show (l.ledger.handed ++ (l.ledger.refused ++ packets)).any isDeallocate = _
  rw [← List.append_assoc, List.any_append]
  rfl

theorem Firm.pull (P : Primitives) (env : Env) (h : Firm l) (hkeep : l.Owing → (NativeCore.pullControl l.core).2.InHand) :
    Firm (l.call P env .pullControl) := by
  have hsound : (NativeCore.after P env l.core .pullControl).Sound := h.sound.after trivial
  exact ⟨hsound, h.sent, hkeep⟩

theorem Firm.pumpPull (h : Firm l) (timer : Option ℕ) : Kept (l.pumpPull P d timer) := by
  rw [DriverLoop.pumpPull]
  rcases pullPacket_cases l.server l.core with
    ⟨hnone, heq⟩ | ⟨control, controls, hcontrols, ⟨e, heq⟩ | heq⟩
  · rw [heq]
    have hpull : Firm (l.call P d.env .pullControl) := by
      refine h.pull P d.env fun ho => (h.inHand ho).pullControl.resolve_right ?_
      rintro ⟨_, _, hsome, _⟩
      exact nomatch hnone.symm.trans hsome
    exact .firm (hpull.of_same rfl id rfl id) fun _ => by simp
  · rw [heq]
    have hhead : (l.core.controls.take 1).map Control.packet = [control.packet] := by
      rw [hcontrols]
      rfl
    rw [hhead]
    refine Firm.failed (Firm.pull P d.env ?_ ?_) e
    · refine h.of_same rfl id rfl fun hp => ?_
      rw [refuse_passed, hp]
      rfl
    · -- the packet has been pulled, and it is not the Deallocate
      rintro ⟨howed, hnot⟩
      rw [refuse_passed, Bool.or_eq_true, not_or] at hnot
      refine (h.inHand ⟨howed, hnot.1⟩).pullControl.resolve_right ?_
      rintro ⟨_, _, hsome, hgives⟩
      obtain ⟨rfl, rfl⟩ := List.cons.inj (hcontrols.symm.trans hsome)
      refine hnot.2 ?_
      rw [List.any_cons, hgives]
      rfl
  · rw [heq]
    by_cases hgives : isDeallocate control.packet
    · have hsound : (NativeCore.after P d.env l.core .pullControl).Sound := h.sound.after trivial
      exact .carried rfl hgives hsound h.sent
    · have hpull : Firm (l.call P d.env .pullControl) := by
        refine h.pull P d.env fun ho => (h.inHand ho).pullControl.resolve_right ?_
        rintro ⟨_, _, hsome, hhead⟩
        obtain ⟨rfl, rfl⟩ := List.cons.inj (hcontrols.symm.trans hsome)
        exact hgives hhead
      exact .firm (hpull.of_same rfl id rfl id) fun _ => by simp

/-- The packet that is on its way is the Deallocate, or the core still has it. -/
theorem pumpSend_kept {timer : Option ℕ} {packet : Bytes} (hsound : l.core.Sound)
    (hsent : l.ledger.owed → l.shared.controlSent)
    (h : l.Owing → ¬ isDeallocate packet → l.core.InHand) : Kept (l.pumpSend d timer packet) := by
  rw [DriverLoop.pumpSend]
  split
  · refine Firm.failed (l := l.refuse [packet]) ⟨hsound, hsent, ?_⟩ _
    rintro ⟨howed, hnot⟩
    rw [refuse_passed, Bool.or_eq_true, not_or] at hnot
    refine h ⟨howed, hnot.1⟩ fun hgives => hnot.2 ?_
    rw [List.any_cons, hgives]
    rfl
  · refine .firm ⟨hsound, fun _ => rfl, ?_⟩ fun _ => by simp
    rintro ⟨howed, hnot⟩
    replace hnot : ¬ (l.ledger.handed ++ [packet] ++ l.ledger.refused).any isDeallocate := hnot
    rw [List.any_append, List.any_append, Bool.or_eq_true, Bool.or_eq_true, not_or, not_or] at hnot
    refine h ⟨howed, fun hp => ?_⟩ fun hgives => hnot.1.2 ?_
    · rw [passed, List.any_append, Bool.or_eq_true] at hp
      exact hp.elim hnot.1.1 hnot.2
    · rw [List.any_cons, hgives]
      rfl

theorem Firm.pumpEvent (h : Firm l) (timer : Option ℕ) (unexpectedDestroy rebindExhausted : Bool) :
    Kept (l.pumpEvent P d timer unexpectedDestroy rebindExhausted) := by
  have hcall : Firm (l.call P d.env .pullEvent) := h.call trivial (by simp) fun _ => trivial
  rw [DriverLoop.pumpEvent]
  simp only
  split
  · refine .firm (hcall.of_same rfl (fun hsent => ?_) rfl id) fun _ => by simp
    exact (Pump.finish_sameFlags _).controlSent.trans hsent
  · split
    · exact hcall.failed _
    · next hevent =>
      refine .firm (hcall.of_same rfl (fun hsent => ?_) rfl id) fun _ => by simp
      exact (Pump.event_sameFlags hevent).controlSent.trans hsent

/-! ### What arrives -/

theorem Firm.process (h : Firm l) {wire : Wire} (pooled : Bool)
    (hend : l.Owing → l.core.Endures P d.env (.inputStun wire)) :
    Firm (l.process P d wire pooled).2 := by
  rw [DriverLoop.process]
  split
  · exact h
  · split_ifs
    · exact h.call wire.property (by simp) hend
    · exact h

theorem process_pc (l : DriverLoop) (wire : Bytes) (pooled : Bool) :
    (l.process P d wire pooled).2.pc = l.pc := by
  rw [DriverLoop.process]
  split
  · rfl
  · split_ifs <;> rfl

theorem Firm.flushOne (h : Firm l) {wait : ℕ} (hpc : l.pc = .flush wait)
    (hend : ∀ wire arrived, l.arrived = .ok wire :: arrived → l.Owing →
      l.core.Endures P d.env (.inputStun wire)) : Kept (l.flushOne P d wait) := by
  rw [DriverLoop.flushOne]
  split
  · exact .firm (h.of_same rfl id rfl id) fun _ => by simp
  · exact .firm (h.of_same rfl id rfl id) fun _ => by simp
  · next wire arrived harrived =>
    have htaken : Firm { l with arrived } := h.of_same rfl id rfl id
    have hprocess : Firm ({ l with arrived }.process P d wire false).2 :=
      htaken.process false (hend wire arrived harrived)
    refine .firm (hprocess.of_same rfl id rfl id) fun reason => ?_
    show ({ l with arrived }.process P d wire false).2.pc ≠ _
    rw [process_pc, hpc]
    simp

theorem Firm.burstOne (h : Firm l) {wait taken : ℕ}
    (hend : ∀ wire arrived, l.arrived = .ok wire :: arrived → l.Owing →
      l.core.Endures P d.env (.inputStun wire)) : Kept (l.burstOne P d wait taken) := by
  rw [DriverLoop.burstOne]
  split
  · exact .firm (h.of_same rfl id rfl id) fun _ => by simp
  · split
    · refine .firm (h.of_same rfl id rfl id) fun _ => ?_
      show (if _ then Pc.top else .select .readable _ false) ≠ _
      split_ifs <;> simp
    · next e arrived _ =>
      have htaken : Firm { l with arrived } := h.of_same rfl id rfl id
      have hclosed := (htaken.fail (.receive e)).requestCleanup true
      exact .firm (hclosed.of_same rfl id rfl id) fun _ => by simp
    · next wire arrived harrived =>
      have htaken : Firm { l with arrived } := h.of_same rfl id rfl id
      have hprocess : Firm ({ l with arrived }.process P d wire d.pooled).2 :=
        htaken.process d.pooled (hend wire arrived harrived)
      generalize { l with arrived }.process P d wire d.pooled = r at hprocess ⊢
      obtain ⟨action, m⟩ := r
      cases action with
      | wait => exact .firm (hprocess.of_same rfl id rfl id) fun _ => by simp
      | pump => exact .firm (hprocess.of_same rfl id rfl id) fun _ => by simp
      | ownerClosed =>
        have hclosed := hprocess.requestCleanup true
        exact .firm (hclosed.of_same rfl id rfl id) fun _ => by simp

/-! ### Waiting -/

theorem Firm.waste (h : Firm l) (waste : Bool) : Firm (l.waste waste) := h.of_same rfl id rfl id

theorem Firm.takeReadable (h : Firm l) (htake : l.takeReadable d = some l') : Kept l' := by
  rw [DriverLoop.takeReadable] at htake
  split_ifs at htake
  · obtain rfl := Option.some_inj.mp htake
    have hclosed := (h.waste true).requestCleanup true
    exact .firm (hclosed.of_same rfl id rfl id) fun _ => by simp
  · split at htake
    · exact nomatch htake
    · split at htake
      · obtain rfl := Option.some_inj.mp htake
        exact .firm (h.of_same rfl id rfl id) fun _ => by simp
      · next e _ =>
        obtain rfl := Option.some_inj.mp htake
        have hclosed := (h.fail (.receive e)).requestCleanup true
        exact .firm (hclosed.of_same rfl id rfl id) fun _ => by simp

theorem Firm.takeDatagram (h : Firm l)
    (hend : ∀ wire arrived, l.arrived = .ok wire :: arrived → l.Owing →
      l.core.Endures P d.env (.inputStun wire)) (htake : l.takeDatagram P d = some l') :
    Kept l' := by
  rw [DriverLoop.takeDatagram] at htake
  split at htake
  · exact nomatch htake
  · next wire arrived harrived =>
    obtain rfl := Option.some_inj.mp htake
    have htaken : Firm { l with arrived } := h.of_same rfl id rfl id
    have hprocess : Firm ({ l with arrived }.process P d wire false).2 :=
      htaken.process false (hend wire arrived harrived)
    exact .firm (hprocess.of_same rfl id rfl id) fun _ => by simp
  · next e arrived _ =>
    obtain rfl := Option.some_inj.mp htake
    have htaken : Firm { l with arrived } := h.of_same rfl id rfl id
    exact .firm ((htaken.fail (.receive e)).of_same rfl id rfl id) fun _ => by simp

theorem Firm.takeWriteFailure (h : Firm l) (reason : String) : Kept (l.takeWriteFailure reason) := by
  have hseen : Firm { l with writeFailure := none, pc := .top } := h.of_same rfl id rfl id
  rw [DriverLoop.takeWriteFailure]
  simp only
  split_ifs
  · exact .firm hseen fun _ => by simp
  · have hclosed := (hseen.fail (.transmit reason)).requestCleanup true
    exact .firm (hclosed.of_same rfl id rfl id) fun _ => by simp [DriverLoop.requestCleanup, DriverLoop.fail]

theorem Firm.takeFrame (h : Firm l)
    (hend : ∀ wire arrived, l.arrived = .ok wire :: arrived → l.Owing →
      l.core.Endures P d.env (.inputStun wire)) (htake : l.takeFrame P d = some l') :
    Kept l' := by
  rw [DriverLoop.takeFrame] at htake
  split at htake
  · obtain rfl := Option.some_inj.mp htake
    have hclosed := (h.waste true).requestCleanup true
    exact .firm (hclosed.of_same rfl id rfl id) fun _ => by simp
  · split at htake
    · obtain rfl := Option.some_inj.mp htake
      exact h.takeWriteFailure _
    · split at htake
      · obtain rfl := Option.some_inj.mp htake
        exact .firm ((h.waste true).of_same rfl id rfl id) fun _ => by simp
      · split at htake
        · exact nomatch htake
        · next e _ _ =>
          obtain rfl := Option.some_inj.mp htake
          have hclosed := ((h.waste true).fail (.receive e)).requestCleanup true
          exact .firm (hclosed.of_same rfl id rfl id) fun _ => by simp
        · next wire arrived harrived =>
          have htaken : Firm { l with arrived } := h.of_same rfl id rfl id
          have hprocess : Firm ({ l with arrived }.process P d wire d.pooled).2 :=
            htaken.process d.pooled (hend wire arrived harrived)
          generalize { l with arrived }.process P d wire d.pooled = r at hprocess htake
          obtain ⟨action, m⟩ := r
          cases action with
          | wait =>
            obtain rfl := Option.some_inj.mp htake
            exact .firm (hprocess.of_same rfl id rfl id) fun _ => by simp
          | pump =>
            obtain rfl := Option.some_inj.mp htake
            exact .firm (hprocess.of_same rfl id rfl id) fun _ => by simp
          | ownerClosed =>
            obtain rfl := Option.some_inj.mp htake
            have hclosed := hprocess.requestCleanup true
            exact .firm (hclosed.of_same rfl id rfl id) fun _ => by simp

theorem Firm.wait (h : Firm l) {kind : Select} {deadline : ℕ} {signalled : Bool}
    (hend : ∀ wire arrived, l.arrived = .ok wire :: arrived → l.Owing →
      l.core.Endures P d.env (.inputStun wire))
    (hwait : l.wait P d kind deadline signalled = some l') : Kept l' := by
  unfold DriverLoop.wait at hwait
  split_ifs at hwait
  · obtain rfl := Option.some_inj.mp hwait
    exact .firm (h.of_same rfl id rfl id) fun _ => by simp [DriverLoop.takeWake]
  · obtain rfl := Option.some_inj.mp hwait
    exact .firm (h.of_same rfl id rfl id) fun _ => by simp
  · cases kind with
    | readable => exact h.takeReadable hwait
    | datagram => exact h.takeDatagram hend hwait
    | frame => exact h.takeFrame hend hwait

/-! ### Every step -/

theorem park_running (l : DriverLoop) (reason : Reason) : (l.park d).pc ≠ .left reason := by
  rw [park]
  simp only
  split <;> simp

theorem Firm.drive (h : Firm l) (hspared : Spared P l (.drive d)) (hdrive : l.drive P d = some l') :
    Kept l' := by
  have harrived : ∀ pc, l.pc = pc → (∀ wire arrived, l.arrived = .ok wire :: arrived →
      l.ahead (.drive d) = some (d.env, .inputStun wire)) →
      ∀ wire arrived, l.arrived = .ok wire :: arrived → l.Owing →
        l.core.Endures P d.env (.inputStun wire) :=
    fun _ _ hahead wire arrived harrived ho => (hspared ho).1 _ (hahead wire arrived harrived)
  rw [DriverLoop.drive] at hdrive
  rcases hpc : l.pc with _ | _ | timer | ⟨timer, packet⟩ | ⟨timer, unexpectedDestroy, exhausted⟩ |
    deadline | _ | ⟨wait, taken⟩ | wait | ⟨kind, deadline, signalled⟩ | reason <;>
    simp only [hpc] at hdrive
  · obtain rfl := Option.some_inj.mp hdrive
    refine h.iterate (fun ho hseen => ?_) fun ho hended => (hspared ho).2 ?_
    · refine (hspared ho).1 (d.env, .resyncAfterSuspend l.lastGap) ?_
      simp only [ahead, hpc, if_neg hseen, Option.mem_def]
    · simp only [stale, hpc, hended, (h.inHand ho).expires, decide_true, Bool.and_self]
  · obtain rfl := Option.some_inj.mp hdrive
    refine h.pumpPoll fun ho => (hspared ho).1 (d.env, .poll) ?_
    simp only [ahead, hpc, Option.mem_def]
  · obtain rfl := Option.some_inj.mp hdrive
    exact h.pumpPull timer
  · obtain rfl := Option.some_inj.mp hdrive
    exact pumpSend_kept h.sound h.sent fun ho _ => h.inHand ho
  · obtain rfl := Option.some_inj.mp hdrive
    exact h.pumpEvent timer unexpectedDestroy exhausted
  · split_ifs at hdrive
    obtain rfl := Option.some_inj.mp hdrive
    exact .firm (h.of_same rfl id rfl id) fun _ => by simp
  · obtain rfl := Option.some_inj.mp hdrive
    exact .firm (h.of_same rfl id rfl id) (park_running l)
  · obtain rfl := Option.some_inj.mp hdrive
    exact h.burstOne (harrived _ hpc fun _ _ harrived => by simp only [ahead, hpc, harrived])
  · obtain rfl := Option.some_inj.mp hdrive
    exact h.flushOne hpc (harrived _ hpc fun _ _ harrived => by simp only [ahead, hpc, harrived])
  · exact h.wait (harrived _ hpc fun _ _ harrived => by simp only [ahead, hpc, harrived]) hdrive
  · exact nomatch hdrive

theorem signal_left {pc : Pc} : pc.signal = .left reason ↔ pc = .left reason := by
  cases pc <;> simp [Pc.signal]

theorem signal_sending {pc : Pc} {timer : Option ℕ} {packet : Bytes} (h : pc = .sending timer packet) :
    pc.signal = .sending timer packet := by
  rw [h]
  rfl

/-- A step of somebody else that leaves alone what the driver owes. -/
theorem Kept.of_same (h : Kept l) (hcore : l'.core = l.core)
    (hsent : l'.shared.controlSent = l.shared.controlSent) (hledger : l'.ledger.owed = l.ledger.owed)
    (hpassed : l'.passed = l.passed) (hpc : l'.pc = l.pc ∨ l'.pc = l.pc.signal) : Kept l' := by
  cases h with
  | firm h hnot =>
    refine .firm (h.of_same hcore (fun hs => hsent.trans hs) hledger fun hp => hpassed.trans hp)
      fun reason => ?_
    rcases hpc with hpc | hpc
    · rw [hpc]
      exact hnot reason
    · rw [hpc, ne_eq, signal_left]
      exact hnot reason
  | @carried timer packet hsending hgives hsound hs =>
    have hpc' : l'.pc = .sending timer packet := by
      rcases hpc with hpc | hpc
      · exact hpc.trans hsending
      · exact hpc.trans (signal_sending hsending)
    exact .carried hpc' hgives (hcore ▸ hsound) fun ho => hsent.trans (hs (hledger ▸ ho))
  | left hleft hsound hgone hexcused =>
    refine .left ?_ (hcore ▸ hsound) (hcore ▸ hgone) fun ho => hexcused ⟨hledger ▸ ho.1, ?_⟩
    · rcases hpc with hpc | hpc
      · exact hpc.trans hleft
      · exact hpc.trans (signal_left.mpr hleft)
    · rw [← hpassed]
      exact ho.2

theorem Kept.requestCleanup (h : Kept l) (own : Bool) : Kept (l.requestCleanup own) := by
  cases h with
  | firm h hpc => exact .firm (h.requestCleanup own) hpc
  | carried hpc hgives hsound hsent =>
    refine .carried hpc hgives hsound fun ho => ?_
    rcases Bool.or_eq_true_iff.mp ho with hold | hnew
    · exact hsent hold
    · rw [Bool.and_eq_true, Bool.and_eq_true] at hnew
      exact hnew.1.2
  | left hpc hsound hgone h =>
    refine .left hpc hsound hgone fun ho => h ⟨?_, ho.2⟩
    rcases Bool.or_eq_true_iff.mp ho.1 with hold | hnew
    · exact hold
    · rw [Bool.and_eq_true] at hnew
      have halive := (hsound.retains hnew.2).alive
      rw [hgone] at halive
      exact nomatch halive

theorem Kept.call (h : Kept l) {call : Call} (howner : call.byOwner)
    (hend : l.Owing → l.core.Endures P env call) : Kept (l.call P env call) := by
  have hshort : call.Short ∧ call ≠ .pullControl := by
    revert howner
    cases call <;> simp [Call.byOwner, Call.Short]
  cases h with
  | firm h hpc => exact .firm (h.call hshort.1 hshort.2 hend) hpc
  | carried hpc hgives hsound hsent => exact .carried hpc hgives (hsound.after hshort.1) hsent
  | left hpc hsound hgone h =>
    exact .left hpc (hsound.after hshort.1) (Inner.destroyed_after hsound.base hgone call) h

theorem Kept.sound (h : Kept l) : l.core.Sound := by
  cases h with
  | firm h _ => exact h.sound
  | carried _ _ hsound _ => exact hsound
  | left _ hsound _ _ => exact hsound

theorem Kept.step {event : LoopEvent} (h : Kept l) (hspared : Spared P l event)
    (hstep : step P l event = some l') : Kept l' := by
  -- only the loop itself moves on; the others change what it finds
  cases event with
  | drive d =>
    cases h with
    | firm h _ => exact h.drive hspared hstep
    | carried hpc hgives hsound hsent =>
      rw [DriverLoop.step, DriverLoop.drive, hpc] at hstep
      obtain rfl := Option.some_inj.mp hstep
      exact pumpSend_kept hsound hsent fun _ hnot => absurd hgives hnot
    | left hpc =>
      rw [DriverLoop.step, DriverLoop.drive, hpc] at hstep
      exact nomatch hstep
  | requestCleanup =>
    obtain rfl := Option.some_inj.mp hstep
    exact h.requestCleanup false
  | notify =>
    obtain rfl := Option.some_inj.mp hstep
    exact h.of_same rfl rfl rfl rfl (.inl rfl)
  | call env call =>
    rw [DriverLoop.step] at hstep
    split_ifs at hstep with howner
    obtain rfl := Option.some_inj.mp hstep
    exact h.call howner fun ho => (hspared ho).1 (env, call) rfl
  | fail reason =>
    obtain rfl := Option.some_inj.mp hstep
    refine h.of_same rfl (DriverShared.fail_sameFlags _ _).controlSent rfl rfl ?_
    show (if _ then l.pc else l.pc.signal) = _ ∨ (if _ then l.pc else l.pc.signal) = _
    split_ifs
    · exact .inl rfl
    · exact .inr rfl
  | abort =>
    rw [DriverLoop.step, DriverLoop.abort] at hstep
    split at hstep
    · exact nomatch hstep
    · obtain rfl := Option.some_inj.mp hstep
      exact .leave h.sound fun _ => .inr (.inr rfl)
  | dropReceiver =>
    obtain rfl := Option.some_inj.mp hstep
    exact h.of_same rfl rfl rfl rfl (.inl rfl)
  | arrive item =>
    obtain rfl := Option.some_inj.mp hstep
    exact h.of_same rfl rfl rfl rfl (.inl rfl)
  | signal gap =>
    obtain rfl := Option.some_inj.mp hstep
    exact h.of_same rfl rfl rfl rfl (.inr rfl)
  | writeFailed reason =>
    obtain rfl := Option.some_inj.mp hstep
    exact h.of_same rfl rfl rfl rfl (.inl rfl)
  | writerEnds =>
    obtain rfl := Option.some_inj.mp hstep
    exact h.of_same rfl rfl rfl rfl (.inl rfl)

theorem spawn_kept (P : Primitives) {core : Inner} {server peer : SocketAddr} {username password : Bytes}
    {transport : TurnControlTransport}
    (hcreate : NativeCore.create server username password peer transport = .ok core)
    (inbound : TurnInbound) (epoch now : ℕ) : Kept (spawn inbound core epoch now) := by
  have hreached : Inner.Reached P core := ⟨core, server, peer, username, password, transport, [], hcreate,
    fun c hc => absurd hc List.not_mem_nil, rfl⟩
  exact .firm ⟨hreached.sound, fun ho => (nomatch ho), fun ho => (nomatch ho.1)⟩ fun _ => by
    simp [spawn]

/-- **A spared cleanup gives the allocation back**: a driver that has left in a run has handed
a Deallocate to the transport, if its cleanup began with an allocation and a control packet had
been sent, unless that has failed, or there was no permit, no time, or no owner. -/
theorem cleanup_deallocates (P : Primitives) {core : Inner} {server peer : SocketAddr}
    {username password : Bytes} {transport : TurnControlTransport} (inbound : TurnInbound)
    (epoch now : ℕ) {events : List LoopEvent}
    (hcreate : NativeCore.create server username password peer transport = .ok core)
    (hspared : Transition.Admits (step P) (Spared P) (spawn inbound core epoch now) events) :
    Transition.Always (step P) Returned (spawn inbound core epoch now) events := by
  have hkept : Transition.Always (step P) Kept (spawn inbound core epoch now) events :=
    Transition.always_of_admits (fun _ _ _ h hspared hstep => h.step hspared hstep)
      (spawn_kept P hcreate inbound epoch now) hspared
  exact hkept.mono fun _ h => h.returned

/-! ### Two runs -/

/-- What the driver draws when all goes well, all at the same time. -/
def calm (id : BitVec 8) : Draw :=
  { env := Inner.moment 0 id, later := 0, permit := true, sent := .ok (), pooled := true, rest := 0
    readable := .ok () }

def drives (n : ℕ) (id : BitVec 8) : List LoopEvent := List.replicate n (.drive (calm id))

theorem challengePacket_fits : Inner.challengePacket.length ≤ 4096 := by decide +kernel

theorem allocatedPacket_fits : (Inner.allocatedPacket Inner.zeroDigests).length ≤ 4096 := by
  decide +kernel

/-- The driver with an allocation: the two packets of the handshake have come. -/
def handshakeRun : List LoopEvent :=
  .call (Inner.moment 0 0) .startAllocation :: drives 10 0 ++
    .arrive (.ok ⟨Inner.challengePacket, challengePacket_fits⟩) :: drives 14 1 ++
    .arrive (.ok ⟨Inner.allocatedPacket Inner.zeroDigests, allocatedPacket_fits⟩) :: drives 15 2

/-- The owner shuts the allocation down, and the server confirms it. -/
def shutdownRun : List LoopEvent :=
  handshakeRun ++ .requestCleanup :: .call (Inner.moment 0 3) .gracefulShutdown :: drives 8 3

/-- The Deallocate is owed, and handed over. -/
theorem shutdownRun_deallocates :
    Transition.Always (step Inner.zeroDigests) Returned (spawn .udp Inner.freshCore 0 0) shutdownRun ∧
      (Transition.run (step Inner.zeroDigests) (spawn .udp Inner.freshCore 0 0) shutdownRun).any
        (fun l => l.ledger.owed && l.ledger.handed.any isDeallocate) := by
  constructor
  · exact cleanup_deallocates Inner.zeroDigests .udp 0 0 Inner.create_freshCore (by decide +kernel)
  · decide +kernel

/-- A ChannelBind that the server refuses, unsigned, with the code 420. -/
def refusedBind (id : BitVec 8) (n : ℕ) : List LoopEvent :=
  .call (Inner.moment 0 id) .startChannel :: .notify :: drives 10 id ++
    .arrive (.ok ⟨spelled 0x0119 ((Inner.moment 0 id).transaction .channel)
      [(attrErrorCode, [0, 0, 4, 20])], Nat.le_of_ble_eq_true rfl⟩) :: drives n id

/-- Four refusals end the allocation, the owner learns of it and gives it up. -/
def exhaustedRun : List LoopEvent :=
  handshakeRun ++ refusedBind 3 14 ++ refusedBind 4 14 ++ refusedBind 5 14 ++ refusedBind 6 16 ++
    .requestCleanup :: drives 2 7

/-- After the rebind is exhausted the driver leaves in front of the Deallocate. -/
theorem exhausted_left_unsent :
    ¬ ∀ events : List LoopEvent,
      Transition.Always (step Inner.zeroDigests) Returned (spawn .udp Inner.freshCore 0 0) events := by
  intro hclaim
  have hend : (Transition.run (step Inner.zeroDigests) (spawn .udp Inner.freshCore 0 0)
      exhaustedRun).any (fun l => l.pc = .left .over && l.ledger.owed && !l.passed) := by
    decide +kernel
  obtain ⟨l, hrun, hl⟩ := (Option.any_eq_true _ _).mp hend
  rw [Bool.and_eq_true, Bool.and_eq_true, decide_eq_true_eq, Bool.not_eq_true'] at hl
  obtain ⟨⟨hpc, howed⟩, hpassed⟩ := hl
  have hreturned := Transition.always_iff_prefixes.mp (hclaim exhaustedRun) exhaustedRun
    List.prefix_rfl l hrun .over hpc howed
  rw [passed, List.any_append, Bool.or_eq_false_iff] at hpassed
  rcases hreturned with ⟨packet, hmem, hgives⟩ | ⟨packet, hmem, hgives⟩ | hexcused
  · exact absurd (List.any_eq_true.mpr ⟨packet, hmem, hgives⟩) (by rw [hpassed.1]; decide)
  · exact absurd (List.any_eq_true.mpr ⟨packet, hmem, hgives⟩) (by rw [hpassed.2]; decide)
  · revert hexcused
    simp [Reason.Excused]

end DriverLoop

end Csqtt.Turn
