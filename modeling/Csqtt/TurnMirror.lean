/-
The driver's view of the core.

The owner of an allocation never asks the core for its state: it reads what the driver has made of
the events so far.  What the driver shows is the fold of `View.settle` over the events, and every
call of the core leaves events that lead from what the core was to what it is (`Told`), unless the
ring has overflowed and the driver gives the allocation up.

* `view_agrees` — when a pump returns, the driver has given the allocation up, or it shows the
  state, the relay and the channel of the core, and has counted its completions modulo 2⁶⁴;
* `completions_wrap` — the number itself it cannot show.
-/
import Csqtt.TurnRejected

namespace Csqtt.Turn

open Stun

variable {P : Primitives} {env : Env} {s t u : Inner} {operation : Operation} {p : Pending}
  {now : ℕ} {log ops ops' : List Operation}

/-! ### What is shown -/

/-- What the owner can see of a core. -/
@[ext]
structure View where
  state : TurnState
  relay : Option SocketAddr
  channel : BitVec 16
  /-- How many requests of the same method have been completed. -/
  sequence : Operation → BitVec 64

namespace View

/-- What an event changes. -/
def settle (v : View) (e : NativeEvent) : View :=
  match e.kind with
  | .state =>
    { v with
      state := e.state
      channel := if e.state ≠ .ready then 0 else v.channel
      relay := if TurnState.deallocated.number ≤ e.state.number then none else v.relay }
  | .requestComplete =>
    { v with
      sequence := fun o => if o.method = e.method then v.sequence o + 1 else v.sequence o }
  | .channelBound => { v with channel := e.channel }
  | .relayAddress => { v with relay := e.address }
  | .controlOverflow | .forcedDestroy | .eventOverflow | .stunResponseError
  | .channelRebindExhausted => v

def settles (v : View) (es : List NativeEvent) : View := es.foldl settle v

theorem settles_append (v : View) (es es' : List NativeEvent) :
    v.settles (es ++ es') = (v.settles es).settles es' :=
  List.foldl_append

end View

/-- How many of these operations have the method of this one, as far as a counter can tell. -/
def counted (log : List Operation) (operation : Operation) : BitVec 64 :=
  BitVec.ofNat 64 (log.countP fun o => o.method = operation.method)

theorem counted_snoc (log : List Operation) (last operation : Operation) :
    counted (log ++ [last]) operation =
      if operation.method = last.method then counted log operation + 1
      else counted log operation := by
  rw [counted, List.countP_append, List.countP_singleton]
  by_cases h : operation.method = last.method
  · rw [if_pos h, if_pos (decide_eq_true h.symm), BitVec.ofNat_add]
    rfl
  · rw [if_neg h, if_neg (by simpa using Ne.symm h)]
    rfl

namespace Inner

/-- What there is to see of a core that has completed these operations; a relay that is about to
be given back does not count. -/
def view (s : Inner) (log : List Operation) : View :=
  { state := s.state
    relay := if s.state = .destroying then none else s.relay
    channel := s.channel.getD 0
    sequence := counted log }

end Inner

/-- What the driver shows. -/
def DriverShared.view (d : DriverShared) : View :=
  { state := d.snapshot.state
    relay := d.snapshot.relay
    channel := d.channel
    sequence := fun o => (d.snapshot.completion o.method).sequence }

/-! ### The completions of a call -/

namespace Inner

/-- The request is made again. -/
def again (P : Primitives) (env : Env) (s : Inner) (p : Pending) (m : Message) : Bool :=
  m.class = .error && (s.retried P env p m ((errorCode m).getD 0)).any (·.1.isOk)

/-- The operation that a packet completes: one that has got an answer that is believed, and is
not made again. -/
def completedBy (P : Primitives) (env : Env) (s : Inner) (packet : Bytes) : List Operation :=
  match Message.decode packet with
  | .error _ => []
  | .ok m =>
    if (m.class ≠ .success ∧ m.class ≠ .error) ∨ m.fingerprintValid P = some false then []
    else
      match s.pending.find? (·.answeredBy m) with
      | none => []
      | some p =>
        if s.unauthentic P packet p m ∨ (s.withdraw m).again P env p m then [] else [p.operation]

theorem expire_pending_lt {index : ℕ} (h : index < s.pending.length) (p : Pending) (now : ℕ) :
    (s.expire index p now).pending.length - index < s.pending.length - index := by
  have hlt : (s.pending.eraseIdx index).length < s.pending.length := by
    rw [List.length_eraseIdx_of_lt h]
    omega
  rw [expire]
  rcases completeFailure_pending ({ s with pending := s.pending.eraseIdx index
    }.removeQueuedTransaction p.transaction) p.operation resultTimeout 0 now with heq | heq
  · rw [heq]
    show (s.pending.eraseIdx index).length - index < _
    omega
  · rw [heq, List.length_nil]
    omega

/-- The operations that are given up, from this index on. -/
def expiredFrom (s : Inner) (now index : ℕ) : List Operation :=
  if h : index < s.pending.length then
    let p := s.pending[index]
    if now < p.nextAttempt then s.expiredFrom now (index + 1)
    else if p.exhausted s.transport then
      p.operation :: (s.expire index p now).expiredFrom now index
    else
      { s.queuePacket p.packet with
        pending := s.pending.set index (p.retransmitted now) }.expiredFrom now (index + 1)
  else []
termination_by s.pending.length - index
decreasing_by
  · omega
  · exact expire_pending_lt h _ now
  · rw [List.length_set]
    omega

/-- The operations that a call completes.  The end of an allocation counts as a Refresh. -/
def completions (P : Primitives) (env : Env) (s : Inner) : Call → List Operation
  | .inputStun packet => s.completedBy P env packet
  | .poll =>
    if s.destroyed then []
    else
      s.expiredFrom env.now 0 ++
        let s := s.expireTransactions env.now
        if s.active ∧ due env.now s.allocationExpiresAt then [.refresh] else []
  | .resyncAfterSuspend gap =>
    if (NativeCore.resyncAfterSuspend env s gap).1 then [.refresh] else []
  | .startAllocation | .startChannel | .startPermission | .pullControl | .pullEvent
  | .gracefulShutdown | .forceDestroy _ => []

/-! ### What the events tell -/

/-- A core that nobody has shut down. -/
structure Steady (s : Inner) : Prop where
  kept : s.shuttingDown = false
  alive : s.destroyed = false
  state : s.state ≠ .deallocating ∧ s.state ≠ .deallocated
  unbound : s.state ≠ .ready → s.channel = none

theorem Steady.congr (h : Steady s) (hshutdown : t.shuttingDown = s.shuttingDown)
    (hdestroyed : t.destroyed = s.destroyed) (hstate : t.state = s.state)
    (hchannel : t.channel = s.channel) : Steady t :=
  ⟨hshutdown.trans h.kept, hdestroyed.trans h.alive, hstate ▸ h.state,
    fun hready => hchannel.trans (h.unbound (hstate ▸ hready))⟩

/-- From `s` to `t` these operations have been completed, and the events that have been pushed
tell it. -/
structure Told (s t : Inner) (ops : List Operation) : Prop where
  steady : Steady t
  pushed : ∃ es, t.events = (s.pushEvents es).events ∧
    ∀ log, (s.view log).settles es = t.view (log ++ ops)

theorem pushEvents_congr (h : s.events = t.events) (es : List NativeEvent) :
    (s.pushEvents es).events = (t.pushEvents es).events := by
  induction es generalizing s t with
  | nil => exact h
  | cons e es ih =>
    refine ih (s := s.pushEvent e) (t := t.pushEvent e) ?_
    show (ite _ _ _ : List NativeEvent) = ite _ _ _
    rw [h]

theorem Told.refl (h : Steady s) : Told s s [] :=
  ⟨h, [], rfl, fun log => by rw [List.append_nil]; rfl⟩

theorem Told.trans (h : Told s t ops) (h' : Told t u ops') : Told s u (ops ++ ops') := by
  obtain ⟨es, hevents, hview⟩ := h.pushed
  obtain ⟨es', hevents', hview'⟩ := h'.pushed
  refine ⟨h'.steady, es ++ es', ?_, fun log => ?_⟩
  · rw [hevents', pushEvents_congr hevents, pushEvents, pushEvents, pushEvents, List.foldl_append]
  · rw [View.settles_append, hview, hview', List.append_assoc]

/-- A step that completes nothing. -/
theorem Told.still (h : Told s t ops) (h' : Told t u []) : Told s u ops := by
  have hall := h.trans h'
  rwa [List.append_nil] at hall

/-- A change that nobody is told about. -/
theorem Told.silent (h : Told s t ops) (hevents : u.events = t.events)
    (hshutdown : u.shuttingDown = t.shuttingDown) (hdestroyed : u.destroyed = t.destroyed)
    (hstate : u.state = t.state) (hrelay : u.relay = t.relay) (hchannel : u.channel = t.channel) :
    Told s u ops := by
  obtain ⟨es, hpushed, hview⟩ := h.pushed
  refine ⟨h.steady.congr hshutdown hdestroyed hstate hchannel, es, hevents.trans hpushed,
    fun log => ?_⟩
  rw [hview, view, view, hstate, hrelay, hchannel]

/-- An event that tells nothing. -/
theorem Told.report (h : Told s t ops) {e : NativeEvent} (he : ∀ v : View, v.settle e = v) :
    Told s (t.pushEvent e) ops := by
  refine h.still ⟨h.steady.congr rfl rfl rfl rfl, [e], rfl, fun log => ?_⟩
  rw [List.append_nil]
  exact he _

theorem Told.queuePacket (h : Told s t ops) (packet : Bytes) :
    Told s (t.queuePacket packet) ops := by
  rw [Inner.queuePacket]
  split_ifs
  · exact (h.report fun _ => rfl).silent rfl rfl rfl rfl rfl rfl
  · exact h.silent rfl rfl rfl rfl rfl rfl

theorem Told.queueKeepalive (h : Told s t ops) : Told s t.queueKeepalive ops := by
  rw [Inner.queueKeepalive]
  split
  · exact h
  · exact h.queuePacket _

theorem Told.startOperation (h : Told s t ops) (operation : Operation) (authenticated : Bool)
    (nonceRetries : ℕ) :
    Told s (t.startOperation P env operation authenticated nonceRetries).2 ops := by
  rw [Inner.startOperation]
  split
  · show Told s (ite _ _ _) ops
    split_ifs
    · exact h.queuePacket _
    · exact h
  · split_ifs
    · exact h
    · split
      · exact h
      · exact (h.queuePacket _).silent rfl rfl rfl rfl rfl rfl

theorem Told.complete (h : Told s t ops) (operation : Operation) (status : ℤ) (stunCode : ℕ) :
    Told s (t.complete operation status stunCode) (ops ++ [operation]) := by
  refine h.trans ⟨h.steady.congr rfl rfl rfl rfl, [_], rfl, fun log => ?_⟩
  refine View.ext rfl rfl rfl (funext fun o => ?_)
  exact (counted_snoc log operation o).symm

/-- A new state, other than the last. -/
theorem Told.setState (h : Told s t ops) {state : TurnState}
    (hstate : state = .allocating ∨ state = .ready) (halive : t.state ≠ .destroying)
    (hunbound : t.channel = none) : Told s (t.setState state) ops := by
  rw [Inner.setState]
  split_ifs
  · exact h
  have hnumber : ¬ TurnState.deallocated.number ≤ state.number := by
    rcases hstate with rfl | rfl <;> decide
  have hopen : state ≠ .destroying ∧ state ≠ .deallocating ∧ state ≠ .deallocated := by
    rcases hstate with rfl | rfl <;> decide
  refine h.still ⟨⟨h.steady.kept, h.steady.alive, hopen.2, fun _ => hunbound⟩,
    [{ kind := .state, state, previousState := t.state }], rfl, fun log => ?_⟩
  rw [List.append_nil]
  refine View.ext rfl ?_ ?_ rfl
  · show (if TurnState.deallocated.number ≤ state.number then none else
        if t.state = .destroying then none else t.relay) =
      if state = .destroying then none else t.relay
    rw [if_neg hnumber, if_neg halive, if_neg hopen.1]
  · show (if state ≠ .ready then 0 else t.channel.getD 0) = t.channel.getD 0
    rw [hunbound]
    exact ite_self _

/-- Whatever is forgotten when the core is destroyed, the last event tells it. -/
theorem Told.destroying (h : Told s t ops) (hevents : u.events = t.events)
    (hshutdown : u.shuttingDown = t.shuttingDown) (hdestroyed : u.destroyed = t.destroyed)
    (hstate : u.state = t.state) (hchannel : u.channel = none) :
    Told s (u.setState .destroying) ops := by
  have hkept := hshutdown.trans h.steady.kept
  have halive := hdestroyed.trans h.steady.alive
  have hopen : TurnState.destroying ≠ .deallocating ∧ TurnState.destroying ≠ .deallocated := by
    decide
  rw [Inner.setState]
  split_ifs with hsame
  · -- nothing was left to be forgotten
    have hold : t.state = .destroying := hstate.symm.trans hsame
    have hnone : t.channel = none := h.steady.unbound (by rw [hold]; decide)
    obtain ⟨es, hpushed, hview⟩ := h.pushed
    refine ⟨⟨hkept, halive, hsame ▸ hopen, fun _ => hchannel⟩, es,
      hevents.trans hpushed, fun log => ?_⟩
    rw [hview, view, view, hchannel, hnone, if_pos hold, if_pos hsame, hstate]
  · have hpushed := pushEvents_congr (s := { u with state := .destroying }) (t := t) hevents
      [{ kind := .state, state := .destroying, previousState := u.state }]
    refine h.still ⟨⟨hkept, halive, hopen, fun _ => hchannel⟩, _, hpushed, fun log => ?_⟩
    rw [List.append_nil]
    refine View.ext rfl rfl ?_ rfl
    show (0 : BitVec 16) = u.channel.getD 0
    rw [hchannel]
    rfl

/-! ### Ending an operation -/

theorem Told.destroyAllocation (h : Told s t ops) (hoperation : operation ≠ .deallocate)
    (status : ℤ) (stunCode : ℕ) :
    Told s (t.destroyAllocation operation status stunCode) (ops ++ [operation]) := by
  rw [Inner.destroyAllocation, if_neg hoperation]
  exact (h.complete operation status stunCode).destroying rfl rfl rfl rfl rfl

theorem Told.destroyAfterChannelRebindExhausted (h : Told s t ops) :
    Told s t.destroyAfterChannelRebindExhausted ops := by
  have hreported : Told s (t.pushEvent
      { kind := .channelRebindExhausted, status := resultTimeout, state := .destroying }) ops :=
    h.report fun _ => rfl
  exact hreported.destroying rfl rfl rfl rfl rfl

theorem Told.completeFailure (h : Told s t ops) (hoperation : operation ≠ .deallocate)
    (status : ℤ) (stunCode now : ℕ) :
    Told s (t.completeFailure operation status stunCode now) (ops ++ [operation]) := by
  have hcomplete := h.complete operation status stunCode
  rw [Inner.completeFailure]
  split_ifs
  · have hretry : Told s ((t.complete operation status stunCode).scheduleMaintenanceRetry
        operation now).2 (ops ++ [operation]) := by
      cases operation with
      | refresh | permission | allocate | deallocate => exact hcomplete.silent rfl rfl rfl rfl rfl rfl
      | channel =>
        rw [scheduleMaintenanceRetry]
        split_ifs
        · exact hcomplete.silent rfl rfl rfl rfl rfl rfl
        · exact hcomplete.silent rfl rfl rfl rfl rfl rfl
    generalize (t.complete operation status stunCode).scheduleMaintenanceRetry operation now = r
      at hretry ⊢
    obtain ⟨_ | _, u⟩ := r
    · exact hretry.destroyAfterChannelRebindExhausted
    · exact hretry
  · exact h.destroyAllocation hoperation status stunCode

/-- A success completes its operation, or fails before anything has been changed. -/
theorem Told.completeSuccess (P : Primitives) (env : Env) (h : Told s t ops)
    (hhome : t.state = operation.home) (m : Message) :
    (∃ e, t.completeSuccess P env operation m = (.error e, t)) ∨
      (∃ u, t.completeSuccess P env operation m = (.ok (), u) ∧ Told s u (ops ++ [operation])) := by
  cases operation with
  | allocate =>
    by_cases herror : (∃ e, t.relayed m = .error e) ∨
        (attributeU32 m attrLifetime).getD requestedAllocationLifetime = 0
    · exact .inl (completeSuccess_allocate_error P env herror)
    rw [not_or, not_exists] at herror
    obtain ⟨relay, hrelay⟩ : ∃ relay, t.relayed m = .ok relay := by
      rcases hr : t.relayed m with e | relay
      · exact absurd hr (herror.1 e)
      · exact ⟨relay, rfl⟩
    have halive : t.state ≠ .destroying := by
      rw [hhome]
      decide
    have hunbound : t.channel = none := h.steady.unbound (by rw [hhome]; decide)
    have hallocated : Told s (t.allocated env.now relay (attributeU32 m attrLifetime)) ops := by
      refine h.still ⟨h.steady.congr rfl rfl rfl rfl,
        [{ kind := .relayAddress, address := some relay }], rfl, fun log => ?_⟩
      rw [List.append_nil]
      refine View.ext rfl ?_ rfl rfl
      show some relay = if t.state = .destroying then none else some relay
      rw [if_neg halive]
    refine .inr ⟨_, ?_, (hallocated.setState (.inr rfl) halive hunbound).complete _ 0 0⟩
    rw [completeSuccess_allocate hrelay herror.2, if_neg (Bool.eq_false_iff.mp h.steady.kept)]
  | refresh =>
    rw [Inner.completeSuccess]
    split_ifs
    · exact .inl ⟨_, rfl⟩
    · have hgranted : Told s (t.granted env.now (attributeU32 m attrLifetime)) ops :=
        h.silent rfl rfl rfl rfl rfl rfl
      exact .inr ⟨_, rfl, hgranted.complete _ _ _⟩
  | deallocate => exact absurd hhome h.steady.state.1
  | permission =>
    have hforgiven : Told s { t with permissionFailures := 0 } ops :=
      h.silent rfl rfl rfl rfl rfl rfl
    exact .inr ⟨_, rfl, hforgiven.complete _ _ _⟩
  | channel =>
    have hbound : Told s ({ t with channel := some channelNumber, channelFailures := 0 }.pushEvent
        { kind := .channelBound, channel := channelNumber, address := some t.peer }) ops := by
      refine h.still ⟨⟨h.steady.kept, h.steady.alive, h.steady.state, fun hready => ?_⟩,
        [_], rfl, fun log => ?_⟩
      · exact absurd hhome hready
      · rw [List.append_nil]
        rfl
    exact .inr ⟨_, rfl, hbound.complete _ _ _⟩

/-! ### The calls -/

theorem Steady.expireFrom (h : Steady s) (hbase : Base s) (now index : ℕ) :
    Told s (s.expireFrom now index) (s.expiredFrom now index) := by
  fun_induction Inner.expireFrom s now index with
  | case1 s index hi p hlater ih =>
    rw [expiredFrom, dif_pos hi]
    simp only [show now < s.pending[index].nextAttempt from hlater, if_true]
    exact ih h hbase
  | case2 s index hi p hcome hexhausted ih =>
    rw [expiredFrom, dif_pos hi]
    simp only [show ¬ now < s.pending[index].nextAttempt from hcome, if_false,
      show s.pending[index].exhausted s.transport from hexhausted, if_true]
    have hoperation : p.operation ≠ .deallocate := by
      intro heq
      refine h.state.1 ?_
      rw [hbase.home p (List.getElem_mem hi), heq]
      rfl
    have hexpired : Told s (s.expire index p now) [p.operation] := by
      have hremoved : Told s ({ s with pending := s.pending.eraseIdx index
          }.removeQueuedTransaction p.transaction) [] :=
        (Told.refl h).silent rfl rfl rfl rfl rfl rfl
      exact hremoved.completeFailure hoperation _ _ _
    exact hexpired.trans (ih hexpired.steady (hbase.expire hi now))
  | case3 s index hi p hcome hmore ih =>
    rw [expiredFrom, dif_pos hi]
    simp only [show ¬ now < s.pending[index].nextAttempt from hcome, if_false,
      show ¬ s.pending[index].exhausted s.transport from hmore]
    have hagain : Told s { s.queuePacket p.packet with
        pending := s.pending.set index (p.retransmitted now) } [] :=
      ((Told.refl h).queuePacket p.packet).silent rfl rfl rfl rfl rfl rfl
    exact hagain.trans (ih hagain.steady (hbase.retransmit hi now))
  | case4 s index hi =>
    rw [expiredFrom, dif_neg hi]
    exact .refl h

theorem Told.andThen {α β : Type} {r : Outcome α} {f : α → Inner → Outcome β}
    (hr : Told s r.2 ops) (hf : ∀ a t, Told s t ops → Told s (f a t).2 ops) :
    Told s (r.andThen f).2 ops :=
  andThen_keeps (Q := (Told s · ops)) hr hf

theorem Told.pollReady (h : Told s t ops) : Told s (t.pollReady P env).2 ops := by
  rw [Inner.pollReady]
  refine Told.andThen ?_ fun _ u hu => Told.andThen ?_ fun _ v hv => Told.andThen ?_
    fun _ w hw => ?_
  · rw [pollRefresh]
    split_ifs
    · refine Told.startOperation ?_ _ _ _
      exact h.silent rfl rfl rfl rfl rfl rfl
    · exact h
  · have hmaintain : Told s (u.pollMaintenance env (due env.now t.maintenanceRefresh)) ops := by
      rw [pollMaintenance]
      split_ifs
      · exact hu.silent rfl rfl rfl rfl rfl rfl
      · exact hu
    rw [pollPermission]
    split_ifs
    · refine Told.startOperation ?_ _ _ _
      exact hmaintain.silent rfl rfl rfl rfl rfl rfl
    · exact hmaintain
  · rw [pollChannel]
    split_ifs
    · refine Told.startOperation ?_ _ _ _
      exact hv.silent rfl rfl rfl rfl rfl rfl
    · exact hv
  · show Told s (w.pollKeepalive env) ops
    rw [pollKeepalive]
    split_ifs
    · refine Told.queueKeepalive ?_
      exact hw.silent rfl rfl rfl rfl rfl rfl
    · exact hw

theorem Steady.poll (h : Steady s) (hbase : Base s) :
    Told s (NativeCore.poll P env s).2 (s.completions P env .poll) := by
  have halive : ¬ s.destroyed := Bool.eq_false_iff.mp h.alive
  have hexpired : Told s (s.expireTransactions env.now) (s.expiredFrom env.now 0) :=
    h.expireFrom hbase env.now 0
  simp only [completions, NativeCore.poll, if_neg halive]
  refine Told.andThen ?_ fun _ t ht => ht
  have hexpiry : Told s ((s.expireTransactions env.now).pollExpiry env)
      (s.expiredFrom env.now 0 ++ if (s.expireTransactions env.now).active ∧
        due env.now (s.expireTransactions env.now).allocationExpiresAt then [.refresh] else []) := by
    rw [pollExpiry]
    split_ifs
    · exact hexpired.destroyAllocation (by decide) _ _
    · rwa [List.append_nil]
  generalize (if (s.expireTransactions env.now).active ∧
    due env.now (s.expireTransactions env.now).allocationExpiresAt then [Operation.refresh] else [])
      = ended at hexpiry ⊢
  rw [pollActive]
  split_ifs
  · exact hexpiry.pollReady
  · exact hexpiry

theorem Told.inputError (h : Told s t ops) (hoperation : p.operation ≠ .deallocate)
    (m : Message) :
    Told s (t.inputError P env p m) (ops ++
      if (t.retried P env p m ((errorCode m).getD 0)).any (·.1.isOk) then [] else [p.operation]) := by
  have hrefused : ∀ (u : Inner) (status : ℤ) (stunCode reported : ℕ) (state : TurnState),
      Told s u ops → Told s ((u.reportError m status reported state).completeFailure p.operation
        resultProtocol stunCode env.now) (ops ++ [p.operation]) :=
    fun u _ _ _ _ hu => (hu.report fun _ => rfl).completeFailure hoperation _ _ _
  rw [Inner.inputError]
  rcases hretried : t.retried P env p m ((errorCode m).getD 0) with _ | ⟨r, u⟩
  · simp only [Option.any_none, Bool.false_eq_true, if_false]
    split_ifs
    · exact hrefused t _ _ _ _ h
    · exact (h.report fun _ => rfl).destroyAllocation hoperation _ _
    · exact hrefused t _ _ _ _ h
  · -- only a challenge is answered by another request
    have hcode : (errorCode m).getD 0 = 401 ∨ (errorCode m).getD 0 = 438 := by
      rw [retried] at hretried
      split_ifs at hretried with hstale
      exact hstale.1
    have hzero : (errorCode m).getD 0 ≠ 0 := by omega
    have hkeep : ¬ requiresAllocationRecreate p.operation ((errorCode m).getD 0) := by
      rcases hcode with hcode | hcode
      · rw [hcode, requiresAllocationRecreate]
        simp
      · rw [hcode, requiresAllocationRecreate]
        simp
    rw [if_neg hzero, if_neg hkeep]
    obtain ⟨realm, nonce, _, hr⟩ := retried_eq_some hretried
    have hauth : Told s (t.setAuth P realm nonce) ops := h.silent rfl rfl rfl rfl rfl rfl
    have hstart : Told s ((t.setAuth P realm nonce).startOperation P env p.operation true
        (p.nonceRetries + 1)).2 ops := hauth.startOperation _ _ _
    rw [← hr] at hstart
    rcases r with e | _
    · exact hrefused u _ _ _ _ hstart
    · show Told s u (ops ++ [])
      rwa [List.append_nil]

theorem Told.inputSuccess (h : Told s t ops) (hhome : t.state = p.operation.home)
    (hoperation : p.operation ≠ .deallocate) (m : Message) :
    Told s (t.inputSuccess P env p m).2 (ops ++ [p.operation]) := by
  rw [Inner.inputSuccess]
  rcases h.completeSuccess P env hhome m with ⟨e, heq⟩ | ⟨u, heq, hu⟩
  · rw [heq]
    exact h.completeFailure hoperation _ _ _
  · rw [heq]
    exact hu

theorem Told.inputAccepted (h : Told s t ops) (hhome : t.state = p.operation.home)
    (m : Message) :
    Told s (t.inputAccepted P env p m).2
      (ops ++ if t.again P env p m then [] else [p.operation]) := by
  have hoperation : p.operation ≠ .deallocate := by
    intro heq
    refine h.steady.state.1 ?_
    rw [hhome, heq]
    rfl
  rw [Inner.inputAccepted]
  by_cases herror : m.class = .error
  · have hplain : ¬ (m.class = .success ∧ ¬ p.authenticated) := by
      rw [herror]
      exact fun h => Stun.Class.noConfusion h.1
    rw [if_neg hplain, if_pos herror, again, decide_eq_true herror, Bool.true_and]
    exact h.inputError hoperation m
  · rw [again, decide_eq_false herror, Bool.false_and, if_neg Bool.false_ne_true, if_neg herror]
    split_ifs
    · exact h.completeFailure hoperation _ _ _
    · exact h.inputSuccess hhome hoperation m

theorem Steady.inputStun (h : Steady s) (hbase : Base s) (packet : Bytes) :
    Told s (NativeCore.inputStun P env s packet).2 (s.completedBy P env packet) := by
  rw [completedBy]
  rcases hdecode : Message.decode packet with e | m
  · simp only [NativeCore.inputStun, hdecode]
    exact .refl h
  simp only
  by_cases hclass : m.class ≠ .success ∧ m.class ≠ .error
  · simp only [NativeCore.inputStun, hdecode, if_pos hclass, if_pos (Or.inl hclass)]
    exact .refl h
  by_cases hfingerprint : m.fingerprintValid P = some false
  · simp only [NativeCore.inputStun, hdecode, if_neg hclass, if_pos hfingerprint,
      if_pos (Or.inr hfingerprint)]
    exact .refl h
  rw [if_neg (not_or.mpr ⟨hclass, hfingerprint⟩)]
  rcases hp : s.pending.find? (·.answeredBy m) with _ | p
  · simp only [NativeCore.inputStun, hdecode, if_neg hclass, if_neg hfingerprint, hp]
    exact .refl h
  have hresponse : m.class = .success ∨ m.class = .error := by tauto
  rw [inputStun_answers hdecode hresponse hfingerprint hp, hp]
  simp only
  rcases inputResponse_cases P env s packet p m with ⟨hforged, hleft⟩ | ⟨hbelieved, heq⟩
  · rw [if_pos (Or.inl hforged)]
    rcases hleft with heq | ⟨code, heq⟩ <;> rw [heq]
    · exact .refl h
    · exact (Told.refl h).report fun _ => rfl
  · have hwithdrawn : Told s (s.withdraw m) [] := (Told.refl h).silent rfl rfl rfl rfl rfl rfl
    rw [heq]
    simp only [hbelieved, Bool.false_eq_true, false_or]
    exact hwithdrawn.inputAccepted (hbase.removed hp).home m

theorem Steady.resyncAfterSuspend (h : Steady s) (gap : ℕ) :
    Told s (NativeCore.resyncAfterSuspend env s gap).2
      (s.completions P env (.resyncAfterSuspend gap)) := by
  have hprobe : ∀ expires : Option ℕ, Told s
      { s with
        allocationExpiresAt := expires
        allocationRefresh := some env.now
        maintenanceRefresh := some env.now
        keepalive := some env.now } [] :=
    fun _ => (Told.refl h).silent rfl rfl rfl rfl rfl rfl
  have hkept : ∀ t, Told s t [] → Told s (false, t).2 (if (false, t).1 then [.refresh] else []) :=
    fun _ ht => ht
  rw [completions, NativeCore.resyncAfterSuspend]
  by_cases hclosed : s.destroyed ∨ s.shuttingDown ∨ s.state ≠ .ready
  · rw [if_pos hclosed]
    exact .refl h
  · rw [if_neg hclosed]
    rcases hexpires : s.allocationExpiresAt with _ | expires
    · exact hkept _ (hprobe s.allocationExpiresAt)
    · simp only
      by_cases hlives : gap ≤ expires ∧ env.now < expires - gap
      · rw [if_pos hlives]
        exact hkept _ (hprobe _)
      · rw [if_neg hlives]
        exact (Told.refl h).destroyAllocation (by decide) _ _

theorem Steady.startAllocation (h : Steady s) :
    Told s (NativeCore.startAllocation P env s).2 [] := by
  rw [NativeCore.startAllocation]
  refine Told.andThen (r := (NativeCore.requireOpen s "TURN Allocate start", s)) (.refl h)
    fun _ t ht => ?_
  split_ifs with hnull
  · exact ht
  · have hstate : t.state = .null := not_not.mp hnull
    have halive : t.state ≠ .destroying := by
      rw [hstate]
      decide
    have hunbound : t.channel = none := ht.steady.unbound (by rw [hstate]; decide)
    exact (ht.setState (.inl rfl) halive hunbound).startOperation _ _ _

end Inner

/-- The calls on an allocation that is not being closed. -/
def Call.ordinary : Call → Bool
  | .startAllocation | .startChannel | .startPermission | .inputStun _ | .poll
  | .resyncAfterSuspend _ => true
  | .pullControl | .pullEvent | .gracefulShutdown | .forceDestroy _ => false

/-- Whatever such a call completes, it tells. -/
theorem Inner.Steady.after (h : Steady s) (hbase : Base s) {call : Call} (hcall : call.ordinary) :
    Told s (NativeCore.after P env s call) (s.completions P env call) := by
  cases call with
  | startAllocation => exact h.startAllocation
  | startChannel =>
    exact Told.andThen (r := (NativeCore.requireReady s "TURN ChannelBind start", s)) (.refl h)
      fun _ t ht => ht.startOperation _ _ _
  | startPermission =>
    exact Told.andThen (r := (NativeCore.requireReady s "TURN CreatePermission start", s)) (.refl h)
      fun _ t ht => ht.startOperation _ _ _
  | inputStun packet => exact h.inputStun hbase packet
  | poll => exact h.poll hbase
  | resyncAfterSuspend gap => exact h.resyncAfterSuspend gap
  | pullControl | pullEvent | gracefulShutdown | forceDestroy => exact absurd hcall Bool.false_ne_true

/-! ### The driver -/

/-- Where the driver is, and what its pump remembers. -/
inductive Phase where
  | idle
  /-- A pump has returned, and nobody has called the core since. -/
  | returned
  | controls
  | events (unexpectedDestroy channelRebindExhausted : Bool)
  /-- The pump looks at this event. -/
  | held (e : NativeEvent) (unexpectedDestroy channelRebindExhausted : Bool)

namespace Phase

def disturbed : Phase → Phase
  | .returned => .idle
  | phase => phase

def inHand : Phase → List NativeEvent
  | .held e _ _ => [e]
  | .idle | .returned | .controls | .events _ _ => []

def unexpectedDestroy : Phase → Bool
  | .events unexpected _ | .held _ unexpected _ => unexpected
  | .idle | .returned | .controls => false

end Phase

@[ext]
structure Driving where
  core : Inner
  shared : DriverShared := {}
  phase : Phase := .idle
  /-- The operations that the core has completed so far. -/
  completed : List Operation := []

/-- What can happen next. -/
inductive Move where
  | call (env : Env) (call : Call)
  /-- A pump begins. -/
  | pump (env : Env)
  /-- The pump pulls a packet; the transport gives this answer. -/
  | control (answer : Except String Unit)
  /-- The pump pulls an event. -/
  | pull
  /-- The pump looks at the event it has pulled. -/
  | look
  /-- Somebody else gives the allocation up. -/
  | fail (reason : Terminal)

namespace Driving

/-- The pump has failed: the loop of the driver records that, and cleans up. -/
def failed (d : Driving) (error : PumpError) : Driving :=
  { d with shared := (d.shared.fail (.pump error)).requestCleanup, phase := .returned }

/-- The core is called. -/
def called (P : Primitives) (env : Env) (d : Driving) (call : Call) : Driving :=
  { d with
    core := NativeCore.after P env d.core call
    completed := d.completed ++ d.core.completions P env call }

/-- One step, until the allocation is being closed.  The owner can call the core between any two
steps of a pump. -/
def step (P : Primitives) (server peer : SocketAddr) (d : Driving) (move : Move) :
    Option Driving :=
  if d.shared.closing then none
  else
    match move with
    | .call env call =>
      if call.ordinary then some { d.called P env call with phase := d.phase.disturbed } else none
    | .pump env =>
      match d.phase with
      | .idle | .returned =>
        match (NativeCore.poll P env d.core).1 with
        | .error e => some ((d.called P env .poll).failed (.core e))
        | .ok _ => some { d.called P env .poll with phase := .controls }
      | .controls | .events _ _ | .held _ _ _ => none
    | .control answer =>
      match d.phase with
      | .controls =>
        match pumpControl (fun _ => answer) server d.core with
        | (.error e, core) => some ({ d with core }.failed e)
        | (.ok none, core) => some { d with core, phase := .events false false }
        | (.ok (some ()), core) =>
          some { d with core, shared := { d.shared with controlSent := true } }
      | .idle | .returned | .events _ _ | .held _ _ _ => none
    | .pull =>
      match d.phase with
      | .events unexpectedDestroy channelRebindExhausted =>
        match NativeCore.pullEvent d.core with
        | (some e, core) =>
          some { d with core, phase := .held e unexpectedDestroy channelRebindExhausted }
        | (none, core) =>
          let pump : Pump := { shared := d.shared, unexpectedDestroy, channelRebindExhausted }
          some { d with core, shared := pump.finish, phase := .returned }
      | .idle | .returned | .controls | .held _ _ _ => none
    | .look =>
      match d.phase with
      | .held e unexpectedDestroy channelRebindExhausted =>
        let pump : Pump := { shared := d.shared, unexpectedDestroy, channelRebindExhausted }
        match pump.event d.core peer e with
        | .error e => some (d.failed e)
        | .ok pump =>
          some { d with
            shared := pump.shared
            phase := .events pump.unexpectedDestroy pump.channelRebindExhausted }
      | .idle | .returned | .controls | .events _ _ => none
    | .fail reason => some { d with shared := d.shared.fail reason }

end Driving

/-! ### What the driver makes of an event -/

/-- A reason to give up is there to stay. -/
def DriverShared.GivenUp (d : DriverShared) : Prop := d.snapshot.terminal.isSome

theorem DriverShared.GivenUp.fail {d : DriverShared} (h : d.GivenUp) (reason : Terminal) :
    (d.fail reason).GivenUp := by
  rw [DriverShared.fail]
  split_ifs with hkeep
  · exact h
  · exact absurd (.inr h) hkeep

theorem DriverShared.fail_givenUp {d : DriverShared} (hopen : ¬ d.closing) (reason : Terminal) :
    (d.fail reason).GivenUp := by
  rw [DriverShared.fail]
  split_ifs with hkeep
  · exact hkeep.resolve_left hopen
  · rfl

theorem DriverShared.view_noteCompletion (d : DriverShared) (e : NativeEvent)
    (hkind : e.kind = .requestComplete) :
    (d.noteCompletion e.method e.status e.stunCode).view = d.view.settle e := by
  rw [View.settle, hkind]
  simp only [DriverShared.noteCompletion, DriverShared.view]
  refine View.ext ?_ ?_ rfl (funext fun o => ?_)
  · show (ite _ _ _ : CoreSnapshot).state = d.snapshot.state
    split_ifs <;> rfl
  · show (ite _ _ _ : CoreSnapshot).relay = d.snapshot.relay
    split_ifs <;> rfl
  · -- each of the four methods has a counter of its own
    generalize e.method = method
    show ((ite _ _ _ : CoreSnapshot).completion o.method).sequence = ite _ _ _
    by_cases hallocate : method = 3
    · subst hallocate
      cases o <;> simp [CoreSnapshot.completion, Operation.method]
    by_cases hrefresh : method = 4
    · subst hrefresh
      cases o <;> simp [CoreSnapshot.completion, Operation.method]
    by_cases hpermission : method = 8
    · subst hpermission
      cases o <;> simp [CoreSnapshot.completion, Operation.method]
    by_cases hchannel : method = 9
    · subst hchannel
      cases o <;> simp [CoreSnapshot.completion, Operation.method]
    have hother : o.method ≠ method := by
      rintro rfl
      cases o <;> contradiction
    rw [if_neg hallocate, if_neg hrefresh, if_neg hpermission, if_neg hchannel, if_neg hother]

namespace Pump

variable {core : Inner} {peer : SocketAddr} {q : Pump} {e : NativeEvent}

/-- The pump has shown the event. -/
structure Shows (p q : Pump) (e : NativeEvent) : Prop where
  whole : e.kind ≠ .eventOverflow
  terminal : q.shared.snapshot.terminal = p.shared.snapshot.terminal
  view : q.shared.view = p.shared.view.settle e
  destroying : (p.shared.snapshot.state = .destroying → p.unexpectedDestroy) →
    q.shared.snapshot.state = .destroying → q.unexpectedDestroy

/-- An event makes the driver give the allocation up, or is shown. -/
theorem event_cases {p : Pump} (hopen : p.shared.closing = false)
    (h : p.event core peer e = .ok q) :
    (∃ (p' : Pump) (reason : Terminal), q = p'.fail reason ∧ p'.shared.closing = false) ∨
      p.Shows q e := by
  have hsame : ∀ p' : Pump, Except.ok (ε := PumpError) p' = .ok q → p.Shows p' e →
      p.Shows q e := by
    intro p' hok hshows
    obtain rfl := Except.ok.inj hok
    exact hshows
  have hfailed : ∀ (p' : Pump) (reason : Terminal), p'.shared.closing = false →
      Except.ok (ε := PumpError) (p'.fail reason) = .ok q →
      ∃ (p' : Pump) (reason : Terminal), q = p'.fail reason ∧ p'.shared.closing = false :=
    fun p' reason hclosing hok => ⟨p', reason, (Except.ok.inj hok).symm, hclosing⟩
  simp only [Pump.event] at h
  rcases hkind : e.kind <;> simp only [hkind] at h
  · refine .inr (hsame _ h ⟨by rw [hkind]; decide, rfl, ?_, fun _ hdestroying => ?_⟩)
    · rw [View.settle, hkind]
      rfl
    · simp only [hopen, Bool.not_false, Bool.and_true, Bool.or_eq_true, decide_eq_true_eq]
      exact .inr hdestroying
  · obtain ⟨hclosing, hterminal⟩ := noteCompletion_keeps p.shared e.method e.status e.stunCode
    have hview := p.shared.view_noteCompletion e hkind
    split_ifs at h
    · exact .inl (hfailed { p with shared := p.shared.noteCompletion _ _ _ } _
        (hclosing.trans hopen) h)
    · refine .inr (hsame { p with shared := p.shared.noteCompletion _ _ _ } h
        ⟨by rw [hkind]; decide, hterminal, hview, fun hnoted hdestroying => hnoted ?_⟩)
      have hstate := congrArg View.state hview
      rw [View.settle, hkind] at hstate
      exact hstate.symm.trans hdestroying
  · rcases haddress : e.address with _ | eventPeer <;> simp only [haddress] at h
    · cases h
    · split_ifs at h
      · exact .inl (hfailed _ _ hopen h)
      · refine .inr (hsame _ h ⟨by rw [hkind]; decide, rfl, ?_, id⟩)
        rw [View.settle, hkind]
        rfl
      · exact .inl (hfailed _ _ hopen h)
  · rcases haddress : e.address with _ | relay <;> rcases hrelay : core.relay with _ | queried <;>
      simp only [haddress, hrelay] at h
    · cases h
    · cases h
    · cases h
    · split_ifs at h
      refine .inr (hsame _ h ⟨by rw [hkind]; decide, rfl, ?_, id⟩)
      rw [View.settle, hkind]
      simp only [haddress]
      rfl
  · exact .inl (hfailed _ _ hopen h)
  · rw [hopen, if_neg Bool.false_ne_true] at h
    exact .inl (hfailed _ _ hopen h)
  · exact .inl (hfailed _ _ hopen h)
  · have hquiet : p.shared.view = p.shared.view.settle e := by rw [View.settle, hkind]
    split_ifs at h
    · exact .inl (hfailed _ _ hopen h)
    · exact .inr (hsame p h ⟨by rw [hkind]; decide, rfl, hquiet, id⟩)
  · have hquiet : p.shared.view = p.shared.view.settle e := by rw [View.settle, hkind]
    exact .inr (hsame _ h ⟨by rw [hkind]; decide, rfl, hquiet, id⟩)

end Pump

/-! ### What holds along a run -/

theorem Inner.overflow_pushEvents {es : List NativeEvent}
    (h : ∃ e ∈ s.events, e.kind = .eventOverflow) :
    ∃ e ∈ (s.pushEvents es).events, e.kind = .eventOverflow := by
  induction es generalizing s with
  | nil => exact h
  | cons e es ih =>
    refine ih (s := s.pushEvent e) ?_
    obtain ⟨lost, hlost, hkind⟩ := h
    show ∃ e' ∈ (ite _ _ _ : List NativeEvent), e'.kind = .eventOverflow
    split_ifs
    · exact ⟨_, List.mem_append_right _ List.mem_cons_self, rfl⟩
    · exact ⟨lost, List.mem_append_left _ hlost, hkind⟩

namespace Driving

variable {server peer : SocketAddr} {d d' : Driving}

/-- The events that the driver has not shown yet. -/
def queued (d : Driving) : List NativeEvent := d.phase.inHand ++ d.core.events

/-- An event has been lost, or those that are left lead to what the core is. -/
def Led (d : Driving) : Prop :=
  (∃ e ∈ d.queued, e.kind = .eventOverflow) ∨
    d.shared.view.settles d.queued = d.core.view d.completed

/-- What a driver that has not given up shows. -/
structure Follows (d : Driving) : Prop where
  led : d.Led
  destroying : d.shared.snapshot.state = .destroying → d.phase.unexpectedDestroy
  drained : d.phase = .returned → d.core.events = []

structure Sound (d : Driving) : Prop where
  base : Inner.Base d.core
  steady : Inner.Steady d.core
  bounded : Inner.Bounded d.core
  follows : d.shared.GivenUp ∨ d.Follows

theorem Led.called (h : d.Led) (hbounded : Inner.Bounded d.core) {call : Call}
    (htold : Inner.Told d.core (NativeCore.after P env d.core call)
      (d.core.completions P env call)) : (d.called P env call).Led := by
  obtain ⟨es, hpushed, hview⟩ := htold.pushed
  have hqueued : (d.called P env call).queued =
      d.phase.inHand ++ (d.core.pushEvents es).events := congrArg _ hpushed
  rw [Led, hqueued]
  rcases h with ⟨e, he, hkind⟩ | hled
  · left
    rcases List.mem_append.mp he with he | he
    · exact ⟨e, List.mem_append_left _ he, hkind⟩
    · obtain ⟨e', he', hkind'⟩ := Inner.overflow_pushEvents ⟨e, he, hkind⟩
      exact ⟨e', List.mem_append_right _ he', hkind'⟩
  · by_cases hroom : d.core.events.length + es.length ≤ eventCapacity
    · right
      rw [Inner.pushEvents_room hroom, ← List.append_assoc, View.settles_append]
      show (d.shared.view.settles d.queued).settles es = _
      rw [hled, hview]
      rfl
    · left
      have hoverflow := Inner.pushEvents_overflow hbounded (Nat.not_le.mp hroom)
      exact ⟨_, List.mem_append_right _ hoverflow, rfl⟩

/-- The core is called, by the owner or at the beginning of a pump. -/
theorem Sound.called (h : d.Sound) {call : Call} (hcall : call.ordinary) {phase : Phase}
    (hhand : phase.inHand = d.phase.inHand)
    (hunexpected : phase.unexpectedDestroy = d.phase.unexpectedDestroy)
    (hphase : phase ≠ .returned) : Sound { d.called P env call with phase } := by
  have htold : Inner.Told d.core (NativeCore.after P env d.core call)
      (d.core.completions P env call) := h.steady.after h.base hcall
  refine ⟨h.base.after call, htold.steady, h.bounded.after call, h.follows.imp_right fun hf => ?_⟩
  refine ⟨?_, fun hstate => hunexpected ▸ hf.destroying hstate, fun hreturned => absurd hreturned hphase⟩
  have hled := hf.led.called h.bounded htold
  rw [Led, queued] at hled ⊢
  simp only [hhand]
  exact hled

theorem Sound.failed (h : d.Sound) (hopen : ¬ d.shared.closing) (error : PumpError) :
    (d.failed error).Sound :=
  ⟨h.base, h.steady, h.bounded, .inl (DriverShared.fail_givenUp hopen _)⟩

theorem pumpControl_frame (send : Bytes → Except String Unit) (server : SocketAddr)
    (core : Inner) :
    (pumpControl send server core).2 = (NativeCore.pullControl core).2 := by
  rw [pumpControl]
  rcases hpull : NativeCore.pullControl core with ⟨_ | _ | ⟨packet, destination⟩, core'⟩
  · rfl
  · rfl
  · simp only
    split_ifs
    · rfl
    · rcases send packet with _ | _ <;> rfl

theorem Sound.control (h : d.Sound) {core : Inner} {shared : DriverShared} {phase : Phase}
    (hcore : core = (NativeCore.pullControl d.core).2)
    (hshared : shared = d.shared ∨ shared = { d.shared with controlSent := true })
    (hhand : phase.inHand = d.phase.inHand)
    (hunexpected : phase.unexpectedDestroy = d.phase.unexpectedDestroy)
    (hphase : phase ≠ .returned) :
    Sound { d with core, shared, phase } := by
  have hframe : ∃ controls, core = { d.core with controls } := by
    rw [hcore, NativeCore.pullControl]
    split
    · exact ⟨d.core.controls, rfl⟩
    · split_ifs
      · exact ⟨_, rfl⟩
      · exact ⟨_, rfl⟩
  have hbase : Inner.Base core := hcore ▸ h.base.pullControl
  obtain ⟨controls, rfl⟩ := hframe
  have hsame : shared.view = d.shared.view ∧ shared.snapshot = d.shared.snapshot := by
    rcases hshared with rfl | rfl <;> exact ⟨rfl, rfl⟩
  refine ⟨hbase, h.steady.congr rfl rfl rfl rfl, h.bounded, ?_⟩
  rcases h.follows with hgiven | hf
  · left
    show shared.snapshot.terminal.isSome
    rw [hsame.2]
    exact hgiven
  · refine .inr ⟨?_, fun hstate => ?_, fun hreturned => absurd hreturned hphase⟩
    · have hled := hf.led
      rw [Led, queued] at hled ⊢
      simp only [hhand, hsame.1]
      exact hled
    · exact hunexpected ▸ hf.destroying (hsame.2 ▸ hstate)

theorem Sound.pulled (h : d.Sound) {unexpectedDestroy channelRebindExhausted : Bool}
    (hphase : d.phase = .events unexpectedDestroy channelRebindExhausted)
    {e : NativeEvent} {es : List NativeEvent} (hevents : d.core.events = e :: es) :
    Sound { d with
      core := { d.core with events := es }
      phase := .held e unexpectedDestroy channelRebindExhausted } := by
  have hbounded : Inner.Bounded { d.core with events := es } := by
    have hlength := h.bounded
    rw [Inner.Bounded, hevents, List.length_cons] at hlength
    show es.length ≤ eventCapacity
    omega
  refine ⟨h.base.quiet ⟨d.core.controls, es, rfl⟩, h.steady.congr rfl rfl rfl rfl, hbounded,
    h.follows.imp_right fun hf => ⟨?_, fun hstate => ?_, ?_⟩⟩
  · have hled := hf.led
    rw [Led, queued, hphase, hevents] at hled
    exact hled
  · have hnoted := hf.destroying hstate
    rw [hphase] at hnoted
    exact hnoted
  · rintro ⟨⟩

theorem Sound.finished (h : d.Sound) (hopen : ¬ d.shared.closing)
    {unexpectedDestroy channelRebindExhausted : Bool}
    (hphase : d.phase = .events unexpectedDestroy channelRebindExhausted)
    (hevents : d.core.events = []) {core : Inner} (hcore : core = d.core) :
    let pump : Pump := { shared := d.shared, unexpectedDestroy, channelRebindExhausted }
    Sound { d with core, shared := pump.finish, phase := .returned } := by
  intro pump
  subst hcore
  refine ⟨h.base, h.steady, h.bounded, ?_⟩
  show pump.finish.GivenUp ∨ _
  rw [Pump.finish]
  by_cases hlost : pump.unexpectedDestroy ∧ pump.shared.snapshot.terminal.isNone
  · rw [if_pos hlost]
    exact .inl (DriverShared.fail_givenUp hopen _)
  · rw [if_neg hlost]
    refine h.follows.elim .inl fun hf => ?_
    by_cases hgiven : d.shared.GivenUp
    · exact .inl hgiven
    · have hcalm : unexpectedDestroy = false := by
        by_contra hunexpected
        refine hlost ⟨Bool.eq_true_of_not_eq_false hunexpected, ?_⟩
        exact Option.isNone_iff_eq_none.mpr (Option.not_isSome_iff_eq_none.mp hgiven)
      refine .inr ⟨?_, fun hstate => ?_, fun _ => hevents⟩
      · have hled := hf.led
        rw [Led, queued, hphase] at hled
        exact hled
      · have hnoted := hf.destroying hstate
        rw [hphase, hcalm] at hnoted
        exact hnoted

theorem Sound.looked (h : d.Sound) (hopen : ¬ d.shared.closing) {e : NativeEvent}
    {unexpectedDestroy channelRebindExhausted : Bool} {q : Pump}
    (hphase : d.phase = .held e unexpectedDestroy channelRebindExhausted)
    (hevent : Pump.event d.core peer
      { shared := d.shared, unexpectedDestroy, channelRebindExhausted } e = .ok q) :
    Sound { d with
      shared := q.shared
      phase := .events q.unexpectedDestroy q.channelRebindExhausted } := by
  have hopen := Bool.eq_false_of_not_eq_true hopen
  refine ⟨h.base, h.steady, h.bounded, ?_⟩
  rcases Pump.event_cases hopen hevent with ⟨p', reason, rfl, hclosing⟩ | hshows
  · exact .inl (DriverShared.fail_givenUp (Bool.eq_false_iff.mp hclosing) _)
  · rcases h.follows with hgiven | hf
    · left
      show q.shared.snapshot.terminal.isSome
      rw [hshows.terminal]
      exact hgiven
    · refine .inr ⟨?_, hshows.destroying fun hstate => ?_, fun hreturned => nomatch hreturned⟩
      · rcases hf.led with ⟨lost, hlost, hkind⟩ | hled
        · -- it is not this event that has been lost
          rw [queued, hphase] at hlost
          rcases List.mem_cons.mp hlost with rfl | hlost
          · exact absurd hkind hshows.whole
          · exact .inl ⟨lost, hlost, hkind⟩
        · right
          rw [queued, hphase] at hled
          show q.shared.view.settles d.core.events = _
          rw [hshows.view]
          exact hled
      · have hnoted := hf.destroying hstate
        rw [hphase] at hnoted
        exact hnoted

theorem Sound.pumped (h : d.Sound) (hopen : ¬ d.shared.closing)
    (hhand : d.phase.inHand = []) (hunexpected : d.phase.unexpectedDestroy = false)
    (hstep : (match (NativeCore.poll P env d.core).1 with
      | .error e => some ((d.called P env .poll).failed (.core e))
      | .ok _ => some { d.called P env .poll with phase := .controls }) = some d') : d'.Sound := by
  have hpump : Sound { d.called P env .poll with phase := .controls } :=
    h.called rfl hhand.symm hunexpected.symm nofun
  split at hstep
  · rw [← Option.some_inj.mp hstep]
    exact hpump.failed hopen _
  · rw [← Option.some_inj.mp hstep]
    exact hpump

theorem Sound.step (h : d.Sound) {move : Move} (hstep : step P server peer d move = some d') :
    d'.Sound := by
  unfold Driving.step at hstep
  split_ifs at hstep with hopen
  cases move with
  | call env call =>
    simp only at hstep
    split_ifs at hstep with hcall
    rw [← Option.some_inj.mp hstep]
    refine h.called hcall ?_ ?_ ?_ <;> rcases d.phase <;> first | rfl | exact nofun
  | pump env =>
    rcases hphase : d.phase with _ | _ | _ | _ | _ <;> simp only [hphase] at hstep
    · exact h.pumped hopen (by rw [hphase]; rfl) (by rw [hphase]; rfl) hstep
    · exact h.pumped hopen (by rw [hphase]; rfl) (by rw [hphase]; rfl) hstep
    all_goals cases hstep
  | control answer =>
    rcases hphase : d.phase with _ | _ | _ | _ | _ <;> simp only [hphase] at hstep
    case controls =>
      have hcore := pumpControl_frame (fun _ => answer) server d.core
      rcases hcontrol : pumpControl (fun _ => answer) server d.core with ⟨e | _ | _, core⟩ <;>
        rw [hcontrol] at hstep hcore <;> rw [← Option.some_inj.mp hstep]
      · have hpulled : Sound { d with core, phase := .controls } :=
          h.control hcore (.inl rfl) (by rw [hphase]) (by rw [hphase]) nofun
        exact hpulled.failed hopen e
      · exact h.control hcore (.inl rfl) (by rw [hphase]; rfl) (by rw [hphase]; rfl) nofun
      · exact h.control hcore (.inr rfl) (by rw [hphase]) (by rw [hphase]) nofun
    all_goals cases hstep
  | pull =>
    rcases hphase : d.phase with _ | _ | _ | _ | _ <;> simp only [hphase] at hstep
    case events =>
      rcases hevents : d.core.events with _ | ⟨e, es⟩ <;>
        simp only [NativeCore.pullEvent, hevents, List.head?_nil, List.head?_cons, List.tail_nil,
          List.tail_cons] at hstep <;> rw [← Option.some_inj.mp hstep]
      · exact h.finished hopen hphase hevents (by rw [← hevents])
      · exact h.pulled hphase hevents
    all_goals cases hstep
  | look =>
    rcases hphase : d.phase with _ | _ | _ | _ | _ <;> simp only [hphase] at hstep
    case held e unexpectedDestroy channelRebindExhausted =>
      rcases hevent : Pump.event d.core peer
        { shared := d.shared, unexpectedDestroy, channelRebindExhausted } e with error | q <;>
        simp only [hevent] at hstep <;> rw [← Option.some_inj.mp hstep]
      · exact h.failed hopen error
      · exact h.looked hopen hphase hevent
    all_goals cases hstep
  | fail reason =>
    simp only at hstep
    rw [← Option.some_inj.mp hstep]
    exact ⟨h.base, h.steady, h.bounded, .inl (DriverShared.fail_givenUp hopen _)⟩

theorem Sound.create {s₀ : Inner} {username password : Bytes} {transport : TurnControlTransport}
    (hcreate : NativeCore.create server username password peer transport = .ok s₀) :
    Sound { core := s₀ } := by
  have hbase : Inner.Base s₀ := Inner.Base.create hcreate
  rw [NativeCore.create] at hcreate
  split_ifs at hcreate
  obtain rfl := Except.ok.inj hcreate
  have hopen : TurnState.null ≠ .deallocating ∧ TurnState.null ≠ .deallocated := by decide
  refine ⟨hbase, ⟨rfl, rfl, hopen, fun _ => rfl⟩, Nat.zero_le _,
    .inr ⟨.inr (View.ext rfl rfl rfl (funext fun o => ?_)), ?_, ?_⟩⟩
  · cases o <;> rfl
  · rintro ⟨⟩
  · rintro ⟨⟩

/-- What the owner is shown is what the core is; the counters count its completions, modulo
2⁶⁴. -/
def Agrees (d : Driving) : Prop :=
  d.shared.snapshot.state = d.core.state ∧ d.shared.snapshot.relay = d.core.relay ∧
    d.shared.channel = d.core.channel.getD 0 ∧
    ∀ operation : Operation, (d.shared.snapshot.completion operation.method).sequence =
      BitVec.ofNat 64 (d.completed.countP fun o => o.method = operation.method)

/-- A driver that has shown everything and has not given up. -/
theorem Sound.agrees (h : d.Sound) (hreturned : d.phase = .returned)
    (hgiven : ¬ d.shared.GivenUp) :
    d.Agrees ∧ d.core.state ≠ .destroying ∧ d.core.state ≠ .deallocated := by
  have hf := h.follows.resolve_left hgiven
  have hqueued : d.queued = [] := by
    rw [queued, hreturned, hf.drained hreturned]
    rfl
  have hview : d.shared.view = d.core.view d.completed := by
    rcases hf.led with ⟨lost, hlost, _⟩ | hled
    · rw [hqueued] at hlost
      exact absurd hlost List.not_mem_nil
    · rw [hqueued] at hled
      exact hled
  have hstate : d.shared.snapshot.state = d.core.state := congrArg View.state hview
  have hkept : d.core.state ≠ .destroying := by
    intro hdestroying
    have hnoted := hf.destroying (hstate.trans hdestroying)
    rw [hreturned] at hnoted
    exact Bool.false_ne_true hnoted
  have hrelay : d.shared.snapshot.relay = d.core.relay := by
    have heq : d.shared.snapshot.relay = if d.core.state = .destroying then none else d.core.relay :=
      congrArg View.relay hview
    rw [heq, if_neg hkept]
  exact ⟨⟨hstate, hrelay, congrArg View.channel hview, congrFun (congrArg View.sequence hview)⟩,
    hkept, h.steady.state.2⟩

end Driving

/-! ### Any number of permissions -/

/-- A permission is asked for and granted, and the driver shows it. -/
def permissionRound (asks answers pumps : Env) (packet : Bytes) : List Move :=
  [.call asks .startPermission, .call answers (.inputStun packet), .pump pumps, .control (.ok ()),
    .pull, .look, .pull]

/-- The event of a request that went well. -/
def Inner.wentWell (s : Inner) (operation : Operation) : NativeEvent :=
  { kind := .requestComplete, method := operation.method, state := s.state,
    channel := s.channel.getD 0, address := s.relay }

theorem permissionRound_run {server peer : SocketAddr} {d : Driving} {asks answers pumps : Env}
    {packet : Bytes} {asked told : Inner} {timer : Option ℕ}
    (hopen : d.shared.closing = false) (hphase : d.phase = .returned)
    (hcontrols : d.core.controls = []) (hevents : d.core.events = [])
    (hasked : NativeCore.after P asks d.core .startPermission = asked)
    (htold : NativeCore.after P answers asked (.inputStun packet) = told)
    (heq : told = { d.core with events := [d.core.wentWell .permission] })
    (hcompleted : asked.completions P answers (.inputStun packet) = [.permission])
    (hpoll : NativeCore.poll P pumps told = (.ok timer, told))
    (hquiet : told.completions P pumps .poll = []) :
    Transition.run (Driving.step P server peer) d (permissionRound asks answers pumps packet) =
      some { d with
        shared := d.shared.noteCompletion 8 0 0
        completed := d.completed ++ [.permission] } := by
  obtain ⟨core, shared, phase, completed⟩ := d
  simp only at hopen hphase hcontrols hevents hasked heq
  subst hphase
  -- one equation for each kind of step of the round, in their order
  have hcall : ∀ (core : Inner) (phase : Phase) (completed : List Operation) (env : Env)
      (call : Call), call.ordinary → Driving.step P server peer ⟨core, shared, phase, completed⟩
        (.call env call) = some ⟨NativeCore.after P env core call, shared, phase.disturbed,
          completed ++ core.completions P env call⟩ := by
    intro core phase completed env call hordinary
    simp only [Driving.step, hopen, hordinary, if_true, Bool.false_eq_true, if_false]
    rfl
  have hpump : ∀ completed : List Operation, Driving.step P server peer
      ⟨told, shared, .idle, completed⟩ (.pump pumps) =
        some ⟨told, shared, .controls, completed⟩ := by
    intro completed
    simp only [Driving.step, hopen, Bool.false_eq_true, if_false, hpoll, Driving.called,
      NativeCore.after, hquiet, List.append_nil]
  have hcontrol : ∀ completed : List Operation, Driving.step P server peer
      ⟨told, shared, .controls, completed⟩ (.control (.ok ())) =
        some ⟨told, shared, .events false false, completed⟩ := by
    intro completed
    have hnone : told.controls = [] := by rw [heq]; exact hcontrols
    simp only [Driving.step, hopen, Bool.false_eq_true, if_false, pumpControl,
      NativeCore.pullControl, hnone]
  have hpull : ∀ completed : List Operation, Driving.step P server peer
      ⟨told, shared, .events false false, completed⟩ .pull =
        some ⟨core, shared, .held (core.wentWell .permission) false false, completed⟩ := by
    intro completed
    have hback : { core with events := [] } = core := by rw [← hevents]
    simp only [Driving.step, hopen, Bool.false_eq_true, if_false, NativeCore.pullEvent, heq,
      List.head?_cons, List.tail_cons, hback]
  have hlook : ∀ completed : List Operation, Driving.step P server peer
      ⟨core, shared, .held (core.wentWell .permission) false false, completed⟩ .look =
        some ⟨core, shared.noteCompletion 8 0 0, .events false false, completed⟩ := by
    intro completed
    simp only [Driving.step, hopen, Bool.false_eq_true, if_false]
    rfl
  have hfinish : ∀ completed : List Operation, Driving.step P server peer
      ⟨core, shared.noteCompletion 8 0 0, .events false false, completed⟩ .pull =
        some ⟨core, shared.noteCompletion 8 0 0, .returned, completed⟩ := by
    intro completed
    have hback : { core with events := [] } = core := by rw [← hevents]
    have hstill : (shared.noteCompletion 8 0 0).closing = false := hopen
    simp only [Driving.step, hstill, Bool.false_eq_true, if_false, NativeCore.pullEvent, hevents,
      List.head?_nil, List.tail_nil, hback]
    rfl
  rw [permissionRound, Transition.run_cons, hcall _ _ _ _ _ rfl, Option.bind_some, hasked,
    Transition.run_cons, hcall _ _ _ _ _ rfl, Option.bind_some, htold, hcompleted,
    Transition.run_cons]
  show (Driving.step P server peer ⟨told, shared, .idle, completed ++ [] ++ [.permission]⟩ _).bind
    _ = _
  rw [hpump, Option.bind_some, Transition.run_cons, hcontrol, Option.bind_some,
    Transition.run_cons, hpull, Option.bind_some, Transition.run_cons, hlook, Option.bind_some,
    Transition.run_cons, hfinish, Option.bind_some, Transition.run_nil, List.append_nil]

deriving instance DecidableEq for CsqttTurnProfile, Pending, Control, Inner
deriving instance DecidableEq for Completion, PumpError, Terminal, CoreSnapshot, DriverShared,
  Phase, Driving

/-- The READY core when nothing is queued. -/
def restingCore : Inner := { Inner.readyCore Inner.zeroDigests with events := [] }

/-- A driver that has shown this many permissions. -/
def resting (permissions : ℕ) : Driving :=
  { core := restingCore
    shared := { snapshot := {
      state := .ready
      relay := some Inner.relayAddr
      allocate := { sequence := 1 }
      permission := { sequence := BitVec.ofNat 64 permissions } } }
    phase := .returned
    completed := .allocate :: List.replicate permissions .permission }

/-- The signed answer to a CreatePermission. -/
def permittedPacket : Bytes :=
  spelled 0x0108 ((Inner.moment 0 4).transaction .permission)
    (signed Inner.zeroDigests (Inner.freshKey Inner.zeroDigests) 0x0108
      ((Inner.moment 0 4).transaction .permission) [])

/-- The handshake, and the pump that shows its four events. -/
def servedMoves : List Move :=
  (Inner.handshake Inner.zeroDigests).map (fun c => .call c.1 c.2) ++
    .pump (Inner.moment 0 3) :: .control (.ok ()) ::
      ((List.replicate 4 [.pull, .look]).flatten ++ [.pull])

def permissionMoves (permissions : ℕ) : List Move :=
  servedMoves ++ (List.replicate permissions (permissionRound (Inner.moment 0 4)
    (Inner.moment 0 5) (Inner.moment 0 6) permittedPacket)).flatten

/-- The core that waits for its permission. -/
def askingCore : Inner :=
  NativeCore.after Inner.zeroDigests (Inner.moment 0 4) restingCore .startPermission

/-- The core that has got it. -/
def permittedCore : Inner :=
  { restingCore with events := [restingCore.wentWell .permission] }

theorem permittedCore_undue : Undue 0 permittedCore := by
  refine ⟨by decide +kernel, ?_, by decide +kernel⟩
  rw [Inner.Later]
  decide +kernel

theorem resting_round (permissions : ℕ) :
    Transition.run (Driving.step Inner.zeroDigests Inner.freshCore.server Inner.freshCore.peer)
      (resting permissions) (permissionRound (Inner.moment 0 4) (Inner.moment 0 5)
        (Inner.moment 0 6) permittedPacket) = some (resting (permissions + 1)) := by
  have hasked : NativeCore.after Inner.zeroDigests (Inner.moment 0 4) (resting permissions).core
      .startPermission = askingCore := rfl
  have htold : NativeCore.after Inner.zeroDigests (Inner.moment 0 5) askingCore
      (.inputStun permittedPacket) = permittedCore := by decide +kernel
  have hcompleted : askingCore.completions Inner.zeroDigests (Inner.moment 0 5)
      (.inputStun permittedPacket) = [.permission] := by decide +kernel
  have hpoll := Inner.poll_idle (P := Inner.zeroDigests) (Inner.moment 0 6) permittedCore_undue.1
    permittedCore_undue.2.1 permittedCore_undue.2.2
  have hquiet : permittedCore.completions Inner.zeroDigests (Inner.moment 0 6) .poll = [] := by
    decide +kernel
  rw [permissionRound_run (d := resting permissions) rfl rfl rfl rfl hasked htold rfl hcompleted
    hpoll hquiet]
  have hshared : (resting permissions).shared.noteCompletion 8 0 0 =
      (resting (permissions + 1)).shared := by
    simp only [resting, BitVec.ofNat_add]
    rfl
  have hlog : (resting permissions).completed ++ [.permission] =
      (resting (permissions + 1)).completed := by
    simp only [resting, List.cons_append, List.replicate_succ']
  exact congrArg some (Driving.ext rfl hshared rfl hlog)

theorem permissionMoves_run (permissions : ℕ) :
    Transition.run (Driving.step Inner.zeroDigests Inner.freshCore.server Inner.freshCore.peer)
      { core := Inner.freshCore } (permissionMoves permissions) = some (resting permissions) := by
  induction permissions with
  | zero => decide +kernel
  | succ permissions ih =>
    have hmoves : permissionMoves (permissions + 1) = permissionMoves permissions ++
        permissionRound (Inner.moment 0 4) (Inner.moment 0 5) (Inner.moment 0 6) permittedPacket := by
      rw [permissionMoves, permissionMoves, List.replicate_succ', List.flatten_append,
        List.flatten_singleton, List.append_assoc]
    rw [hmoves, Transition.run_append, ih, Option.bind_some]
    exact resting_round permissions

/-! ### The view of the driver -/

/-- **The view of the driver.**  Whenever a pump returns, and the core has not been called since,
the driver has given the allocation up or agrees with the core; and for a core that has been
destroyed, it has given the allocation up. -/
theorem view_agrees {server peer : SocketAddr} {username password : Bytes}
    {transport : TurnControlTransport} {s₀ : Inner} {moves : List Move} {d : Driving}
    (hcreate : NativeCore.create server username password peer transport = .ok s₀)
    (hrun : Transition.run (Driving.step P server peer) { core := s₀ } moves = some d)
    (hreturned : d.phase = .returned) :
    (d.shared.snapshot.terminal.isSome ∨ d.Agrees) ∧
      (d.core.state = .destroying ∨ d.core.state = .deallocated →
        d.shared.snapshot.terminal.isSome) := by
  have hsound : d.Sound :=
    Transition.run_of_step (fun _ _ _ hs => hs.step) (Driving.Sound.create hcreate) hrun
  by_cases hgiven : d.shared.GivenUp
  · exact ⟨.inl hgiven, fun _ => hgiven⟩
  · obtain ⟨hagrees, hkept, hleft⟩ := hsound.agrees hreturned hgiven
    refine ⟨.inr hagrees, ?_⟩
    rintro (hstate | hstate)
    · exact absurd hstate hkept
    · exact absurd hstate hleft

/-- The owner is shown the READY core and one permission. -/
theorem permission_shown :
    ∃ d, Transition.run (Driving.step Inner.zeroDigests Inner.freshCore.server
        Inner.freshCore.peer) { core := Inner.freshCore } (permissionMoves 1) = some d ∧
      d.core.state = .ready ∧ d.completed = [.allocate, .permission] ∧ d.Agrees := by
  have hrun := permissionMoves_run 1
  refine ⟨_, hrun, rfl, rfl, ?_⟩
  exact (view_agrees Inner.create_freshCore hrun rfl).1.resolve_left Bool.false_ne_true

/-- After 2⁶⁴ permissions the counter is back at zero. -/
theorem completions_wrap :
    ¬ ∀ (server peer : SocketAddr) (username password : Bytes)
      (transport : TurnControlTransport) (s₀ : Inner) (moves : List Move) (d : Driving),
      NativeCore.create server username password peer transport = .ok s₀ →
      Transition.run (Driving.step Inner.zeroDigests server peer) { core := s₀ } moves = some d →
      d.phase = .returned →
      d.shared.snapshot.terminal.isSome ∨
        (d.shared.snapshot.state = d.core.state ∧ d.shared.snapshot.relay = d.core.relay ∧
          d.shared.channel = d.core.channel.getD 0 ∧
          ∀ operation : Operation, (d.shared.snapshot.completion operation.method).sequence.toNat =
            d.completed.countP fun o => o.method = operation.method) := by
  intro hclaim
  have hagrees := (hclaim _ _ _ _ _ _ _ _ Inner.create_freshCore (permissionMoves_run (2 ^ 64))
    rfl).resolve_left Bool.false_ne_true
  have hcounted := hagrees.2.2.2 .permission
  have hmany : (resting (2 ^ 64)).completed.countP
      (fun o => o.method = Operation.permission.method) = 2 ^ 64 := by
    show (Operation.allocate :: List.replicate (2 ^ 64) .permission).countP _ = _
    rw [List.countP_cons_of_neg (by decide), List.countP_replicate, if_pos (by decide)]
  rw [hmany] at hcounted
  exact absurd hcounted (BitVec.isLt _).ne

end Csqtt.Turn
