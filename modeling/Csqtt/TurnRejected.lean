/-
What rejected responses do.

`input_stun` drops most of the packets that it rejects without a trace.  But an error response
that fails the integrity check leaves an event with its code, and the driver fails the
allocation when it sees the code 437 there; and it fails it when the ring of the events
overflows.

* `rejected_harmless_iff` — the core stays as it is, and the pump records no failure exactly
  if no such response has the code 437 and the ring has room for them all.
-/
import Csqtt.TurnDriver
import Csqtt.TurnTimer

namespace Csqtt.Turn

open Stun

namespace Inner

variable {P : Primitives} {env : Env} {s t : Inner} {operation : Operation} {now : ℕ}

/-! ### The ring -/

/-- The ring never has more events than it has room for. -/
def Bounded (s : Inner) : Prop := s.events.length ≤ eventCapacity

theorem Bounded.pushEvent (h : Bounded s) (event : NativeEvent) : Bounded (s.pushEvent event) := by
  show (ite _ _ _ : List NativeEvent).length ≤ eventCapacity
  rw [Bounded] at h
  split_ifs with hfull
  · rw [List.length_append, List.length_tail, hfull]
    decide
  · rw [List.length_append, List.length_singleton]
    omega

theorem Bounded.setState (h : Bounded s) (state : TurnState) : Bounded (s.setState state) := by
  rw [Inner.setState]
  split_ifs
  · exact h
  · exact Bounded.pushEvent (s := { s with state }) h _

theorem Bounded.complete (h : Bounded s) (operation : Operation) (status : ℤ) (stunCode : ℕ) :
    Bounded (s.complete operation status stunCode) :=
  h.pushEvent _

theorem Bounded.queuePacket (h : Bounded s) (packet : Bytes) : Bounded (s.queuePacket packet) := by
  rw [Inner.queuePacket]
  split_ifs
  · exact h.pushEvent _
  · exact h

theorem Bounded.queueKeepalive (h : Bounded s) : Bounded s.queueKeepalive := by
  rw [Inner.queueKeepalive]
  split
  · exact h
  · exact h.queuePacket _

theorem Bounded.destroyAllocation (h : Bounded s) (operation : Operation) (status : ℤ)
    (stunCode : ℕ) : Bounded (s.destroyAllocation operation status stunCode) := by
  rw [Inner.destroyAllocation]
  refine Bounded.setState ?_ _
  exact h.complete operation status stunCode

theorem Bounded.completeFailure (h : Bounded s) (operation : Operation) (status : ℤ)
    (stunCode now : ℕ) : Bounded (s.completeFailure operation status stunCode now) := by
  have hcomplete := h.complete operation status stunCode
  rw [Inner.completeFailure]
  split_ifs
  · have hretry : Bounded ((s.complete operation status stunCode).scheduleMaintenanceRetry
        operation now).2 := by
      cases operation with
      | refresh | permission | allocate | deallocate => exact hcomplete
      | channel =>
        rw [scheduleMaintenanceRetry]
        split_ifs
        · exact hcomplete
        · exact hcomplete
    generalize (s.complete operation status stunCode).scheduleMaintenanceRetry operation now = r
      at hretry ⊢
    obtain ⟨_ | _, t⟩ := r
    · exact Bounded.setState (Bounded.pushEvent (s := { t with
        controls := [], pending := [], channel := none, maintenanceRefresh := none
        permissionRetry := none, channelRetry := none, keepalive := none }) hretry _) _
    · exact hretry
  · exact h.destroyAllocation operation status stunCode

theorem Bounded.startOperation (h : Bounded s) (operation : Operation) (authenticated : Bool)
    (nonceRetries : ℕ) :
    Bounded (s.startOperation P env operation authenticated nonceRetries).2 := by
  rw [Inner.startOperation]
  split
  · show Bounded (ite _ _ _)
    split_ifs
    · exact h.queuePacket _
    · exact h
  · split_ifs
    · exact h
    · split
      · exact h
      · exact h.queuePacket _

theorem Bounded.completeSuccess (P : Primitives) (env : Env) (h : Bounded s) (operation : Operation) (m : Message) :
    Bounded (s.completeSuccess P env operation m).2 := by
  cases operation with
  | allocate =>
    rw [Inner.completeSuccess]
    split
    · exact h
    · next relay _ =>
      have hallocated : Bounded (s.allocated env.now relay (attributeU32 m attrLifetime)) :=
        Bounded.pushEvent (s := { s.granted env.now (attributeU32 m attrLifetime) with
          relay := some relay
          maintenanceRefresh := some (env.now + s.profile.maintenanceRefresh)
          keepalive := some (firstKeepaliveDeadline env.now s.profile.keepaliveInterval relay) }) h _
      simp only
      split_ifs
      · exact h
      · exact (hallocated.setState _).startOperation _ _ _
      · exact (hallocated.setState _).complete _ _ _
  | refresh =>
    rw [Inner.completeSuccess]
    split_ifs
    · exact h
    · exact Bounded.complete (s := s.granted env.now (attributeU32 m attrLifetime)) h _ _ _
  | deallocate =>
    rw [Inner.completeSuccess]
    split_ifs
    · exact h
    · exact Bounded.setState (Bounded.complete (s := { s with
        relay := none, allocationRefresh := none, allocationExpiresAt := none }) h _ _ _) _
  | permission => exact Bounded.complete (s := { s with permissionFailures := 0 }) h _ _ _
  | channel =>
    exact Bounded.complete (Bounded.pushEvent (s := { s with
      channel := some channelNumber, channelFailures := 0 }) h _) _ _ _

theorem Bounded.expireFrom (h : Bounded s) (now index : ℕ) : Bounded (s.expireFrom now index) := by
  fun_induction Inner.expireFrom s now index with
  | case1 s index hi p hlater ih => exact ih h
  | case2 s index hi p hcome hexhausted ih =>
    refine ih ?_
    rw [expire]
    exact Bounded.completeFailure (s := { s with
      pending := s.pending.eraseIdx index }.removeQueuedTransaction p.transaction) h _ _ _ _
  | case3 s index hi p hcome hmore ih => exact ih (h.queuePacket p.packet)
  | case4 s index hi => exact h

theorem Bounded.pollReady (h : Bounded s) : Bounded (s.pollReady P env).2 := by
  rw [Inner.pollReady]
  refine andThen_keeps ?_ fun _ t ht => andThen_keeps ?_ fun _ u hu => andThen_keeps ?_
    fun _ v hv => ?_
  · rw [pollRefresh]
    split_ifs
    · exact Bounded.startOperation (s := { s with allocationRefresh := none }) h _ _ _
    · exact h
  · have hmaintain : Bounded (t.pollMaintenance env (due env.now s.maintenanceRefresh)) := by
      rw [pollMaintenance]
      split_ifs
      · exact ht
      · exact ht
    rw [pollPermission]
    split_ifs
    · exact Bounded.startOperation (s := { t.pollMaintenance env _ with permissionRetry := none })
        hmaintain _ _ _
    · exact hmaintain
  · rw [pollChannel]
    split_ifs
    · exact Bounded.startOperation (s := { u with channelRetry := none }) hu _ _ _
    · exact hu
  · show Bounded (v.pollKeepalive env)
    rw [pollKeepalive]
    split_ifs
    · exact Bounded.queueKeepalive (s := { v with
        keepalive := some (env.now + v.profile.keepaliveInterval) }) hv
    · exact hv

theorem Bounded.poll (h : Bounded s) : Bounded (NativeCore.poll P env s).2 := by
  rw [NativeCore.poll]
  split_ifs
  · exact h
  · refine andThen_keeps ?_ fun _ t ht => ht
    have hexpiry : Bounded ((s.expireTransactions env.now).pollExpiry env) := by
      rw [pollExpiry]
      split_ifs
      · exact (h.expireFrom env.now 0).destroyAllocation _ _ _
      · exact h.expireFrom env.now 0
    rw [pollActive]
    split_ifs
    · exact hexpiry.pollReady
    · exact hexpiry

theorem Bounded.inputError (h : Bounded s) (p : Pending) (m : Message) :
    Bounded (s.inputError P env p m) := by
  have hreport : ∀ (u : Inner) (status : ℤ) (stunCode reported : ℕ) (state : TurnState),
      Bounded u → Bounded ((u.reportError m status reported state).completeFailure p.operation
        resultProtocol stunCode env.now) :=
    fun u _ _ _ _ hu => (hu.pushEvent _).completeFailure _ _ _ _
  rw [Inner.inputError]
  split_ifs
  · exact hreport s _ _ _ _ h
  · exact (h.pushEvent _).destroyAllocation _ _ _
  · rcases hretried : s.retried P env p m ((errorCode m).getD 0) with _ | ⟨r, t⟩
    · exact hreport s _ _ _ _ h
    · obtain ⟨realm, nonce, _, hr⟩ := retried_eq_some hretried
      have hstart : Bounded ((s.setAuth P realm nonce).startOperation P env p.operation true
          (p.nonceRetries + 1)).2 :=
        Bounded.startOperation (s := s.setAuth P realm nonce) h _ _ _
      rw [← hr] at hstart
      rcases r with e | _
      · exact hreport t _ _ _ _ hstart
      · exact hstart

theorem Bounded.inputStun (h : Bounded s) (packet : Bytes) :
    Bounded (NativeCore.inputStun P env s packet).2 := by
  rcases inputStun_cases P env s packet with heq | ⟨m, p, _, _, _, heq⟩
  · rw [heq]
    exact h
  rw [heq]
  rcases inputResponse_cases P env s packet p m with ⟨_, heq | ⟨code, heq⟩⟩ | ⟨_, heq⟩ <;> rw [heq]
  · exact h
  · exact h.pushEvent _
  · have hwithdrawn : Bounded (s.withdraw m) := h
    rw [inputAccepted]
    split_ifs
    · exact hwithdrawn.completeFailure _ _ _ _
    · exact hwithdrawn.inputError p m
    · have hsuccess := Bounded.completeSuccess P env hwithdrawn p.operation m
      rw [inputSuccess]
      generalize (s.withdraw m).completeSuccess P env p.operation m = r at hsuccess ⊢
      obtain ⟨e | _, t⟩ := r
      · exact hsuccess.completeFailure _ _ _ _
      · exact hsuccess

theorem Bounded.resyncAfterSuspend (h : Bounded s) (gap : ℕ) :
    Bounded (NativeCore.resyncAfterSuspend env s gap).2 := by
  rw [NativeCore.resyncAfterSuspend]
  split_ifs
  · exact h
  · rcases s.allocationExpiresAt with _ | expires
    · exact h
    · show Bounded (ite _ _ _ : Bool × Inner).2
      split_ifs
      · exact h
      · exact h.destroyAllocation _ _ _

theorem Bounded.gracefulShutdown (h : Bounded s) :
    Bounded (NativeCore.gracefulShutdown P env s).2 := by
  rw [NativeCore.gracefulShutdown]
  split_ifs
  · exact h
  · show Bounded (ite _ _ _ : Outcome Unit).2
    split_ifs
    · refine Bounded.startOperation (Bounded.setState ?_ _) _ _ _
      exact h
    · exact h
    · exact h

theorem Bounded.after (h : Bounded s) (call : Call) : Bounded (NativeCore.after P env s call) := by
  cases call with
  | startAllocation =>
    refine andThen_keeps (r := (_, s)) h fun _ t ht => ?_
    split_ifs
    · exact ht
    · exact (ht.setState _).startOperation _ _ _
  | startChannel => exact andThen_keeps (r := (_, s)) h fun _ t ht => ht.startOperation _ _ _
  | startPermission => exact andThen_keeps (r := (_, s)) h fun _ t ht => ht.startOperation _ _ _
  | inputStun packet => exact h.inputStun packet
  | poll => exact h.poll
  | resyncAfterSuspend gap => exact h.resyncAfterSuspend gap
  | pullControl =>
    show Bounded (NativeCore.pullControl s).2
    rw [NativeCore.pullControl]
    split
    · exact h
    · split_ifs
      · exact h
      · exact h
  | pullEvent =>
    show s.events.tail.length ≤ eventCapacity
    rw [List.length_tail]
    exact (Nat.sub_le _ _).trans h
  | gracefulShutdown => exact h.gracefulShutdown
  | forceDestroy status =>
    show Bounded (NativeCore.forceDestroy s status)
    rw [NativeCore.forceDestroy]
    split_ifs
    · exact h
    · refine Bounded.pushEvent (Bounded.setState ?_ _) _
      exact h

theorem bounded_of_run {s₀ : Inner} {server peer : SocketAddr} {username password : Bytes}
    {transport : TurnControlTransport} {calls : List (Env × Call)}
    (hcreate : NativeCore.create server username password peer transport = .ok s₀)
    (hrun : Transition.run (NativeCore.step P) s₀ calls = some s) : Bounded s := by
  have hfresh : Bounded s₀ := by
    rw [NativeCore.create] at hcreate
    split_ifs at hcreate
    rw [← Except.ok.inj hcreate]
    exact Nat.zero_le _
  refine Transition.run_of_step (fun s label s' hs hstep => ?_) hfresh hrun
  rw [← Option.some_inj.mp hstep]
  exact hs.after label.2

/-! ### A series of reports -/

def pushEvents (s : Inner) (reports : List NativeEvent) : Inner := reports.foldl pushEvent s

theorem pushEvents_eq (s : Inner) (reports : List NativeEvent) :
    s.pushEvents reports = { s with events := (s.pushEvents reports).events } := by
  induction reports generalizing s with
  | nil => rfl
  | cons e reports ih => exact ih (s.pushEvent e)

/-- The event of an overflow. -/
def overflowEvent : NativeEvent :=
  { kind := .eventOverflow, status := resultBufferTooSmall, dropped := 1 }

theorem pushEvents_room {reports : List NativeEvent}
    (h : s.events.length + reports.length ≤ eventCapacity) :
    (s.pushEvents reports).events = s.events ++ reports := by
  induction reports generalizing s with
  | nil => exact (List.append_nil _).symm
  | cons e reports ih =>
    rw [List.length_cons] at h
    have hpush : (s.pushEvent e).events = s.events ++ [e] := if_neg (by omega)
    have hrest := ih (s := s.pushEvent e) (by
      rw [hpush, List.length_append, List.length_singleton]
      omega)
    rw [hpush, List.append_assoc] at hrest
    exact hrest

/-- A full ring keeps the overflow at its end. -/
theorem pushEvents_full {before : List NativeEvent} {reports : List NativeEvent}
    (hlength : s.events.length = eventCapacity) (hlast : s.events = before ++ [overflowEvent]) :
    overflowEvent ∈ (s.pushEvents reports).events := by
  induction reports generalizing s before with
  | nil =>
    show overflowEvent ∈ s.events
    rw [hlast]
    exact List.mem_append_right _ List.mem_cons_self
  | cons e reports ih =>
    have hpush : (s.pushEvent e).events = s.events.tail ++ [overflowEvent] := if_pos hlength
    refine ih (s := s.pushEvent e) ?_ hpush
    rw [hpush, List.length_append, List.length_tail, hlength]
    rfl

theorem pushEvents_overflow {reports : List NativeEvent} (hbounded : Bounded s)
    (h : eventCapacity < s.events.length + reports.length) :
    overflowEvent ∈ (s.pushEvents reports).events := by
  induction reports generalizing s with
  | nil =>
    rw [Bounded] at hbounded
    rw [List.length_nil] at h
    omega
  | cons e reports ih =>
    by_cases hfull : s.events.length = eventCapacity
    · have hpush : (s.pushEvent e).events = s.events.tail ++ [overflowEvent] := if_pos hfull
      refine pushEvents_full (s := s.pushEvent e) ?_ hpush
      rw [hpush, List.length_append, List.length_tail, hfull]
      rfl
    · have hpush : (s.pushEvent e).events = s.events ++ [e] := if_neg hfull
      refine ih (s := s.pushEvent e) (hbounded.pushEvent e) ?_
      rw [hpush, List.length_append, List.length_singleton]
      rw [List.length_cons] at h
      omega

/-- Nothing else gets into the ring. -/
theorem mem_pushEvents {reports : List NativeEvent} {e : NativeEvent}
    (h : e ∈ (s.pushEvents reports).events) :
    e ∈ s.events ∨ e ∈ reports ∨ e = overflowEvent := by
  induction reports generalizing s with
  | nil => exact .inl h
  | cons e' reports ih =>
    rcases ih h with hevents | hreports | hoverflow
    · have hpush : (s.pushEvent e').events = if s.events.length = eventCapacity then
          s.events.tail ++ [overflowEvent] else s.events ++ [e'] := rfl
      rw [hpush] at hevents
      split_ifs at hevents
      · rcases List.mem_append.mp hevents with hold | hnew
        · exact .inl (List.mem_of_mem_tail hold)
        · exact .inr (.inr (List.mem_singleton.mp hnew))
      · rcases List.mem_append.mp hevents with hold | hnew
        · exact .inl hold
        · rw [List.mem_singleton.mp hnew]
          exact .inr (.inl List.mem_cons_self)
    · exact .inr (.inl (List.mem_cons_of_mem e' hreports))
    · exact .inr (.inr hoverflow)

/-! ### Rejected responses -/

/-- The packet is refused, and what it answers (if anything) is an authenticated request. -/
def Rejects (P : Primitives) (env : Env) (s : Inner) (packet : Bytes) : Prop :=
  let status := (NativeCore.inputStun P env s packet).1
  status = resultInvalidArgument ∨ status = resultNotControl ∨
    status = resultAuthentication ∧ ∃ m p, Message.decode packet = .ok m ∧
      s.pending.find? (·.answeredBy m) = some p ∧ p.authenticated

/-- The call gives the core a packet that it rejects. -/
def RejectsCall (P : Primitives) (s : Inner) (label : Env × Call) : Prop :=
  ∃ packet, label.2 = .inputStun packet ∧ Rejects P label.1 s packet

/-- The event that a rejected packet leaves: an error response with a code that fails the
integrity check. -/
def unverifiedError (P : Primitives) (s : Inner) : Call → Option NativeEvent
  | .inputStun packet =>
    match Message.decode packet with
    | .error _ => none
    | .ok m =>
      match s.pending.find? (·.answeredBy m), errorCode m with
      | some p, some stunCode =>
        if m.class = .error ∧ m.fingerprintValid P ≠ some false ∧ s.unauthentic P packet p m then
          some { kind := .stunResponseError, method := m.method, status := resultAuthentication,
                 stunCode, state := s.state }
        else none
      | _, _ => none
  | _ => none

theorem unverifiedError_congr (h : Quiet s t) (call : Call) :
    t.unverifiedError P call = s.unverifiedError P call := by
  obtain ⟨controls, events, rfl⟩ := h
  rfl

/-- A response that is believed is not refused, if its request was authenticated. -/
theorem inputAccepted_status (P : Primitives) (env : Env) (s : Inner) (p : Pending) (m : Message) :
    (s.inputAccepted P env p m).1 = 0 ∨ (s.inputAccepted P env p m).1 = resultProtocol ∨
      (s.inputAccepted P env p m).1 = resultAuthentication ∧ ¬ p.authenticated := by
  rw [inputAccepted]
  split_ifs with hplain
  · exact .inr (.inr ⟨rfl, hplain.2⟩)
  · exact .inl rfl
  · rw [inputSuccess]
    generalize s.completeSuccess P env p.operation m = r
    obtain ⟨e | _, t⟩ := r
    · exact .inr (.inl rfl)
    · exact .inl rfl

/-- A rejected packet leaves an event, or nothing. -/
theorem inputStun_rejected {packet : Bytes} (h : Rejects P env s packet) :
    (NativeCore.inputStun P env s packet).2 =
      s.pushEvents (s.unverifiedError P (.inputStun packet)).toList := by
  rw [Rejects] at h
  rw [unverifiedError]
  rcases hdecode : Message.decode packet with e | m
  · simp only [NativeCore.inputStun, hdecode]
    rfl
  simp only
  by_cases hclass : m.class ≠ .success ∧ m.class ≠ .error
  · have hnone : ∀ Q : Prop, ¬ (m.class = .error ∧ Q) := fun _ hQ => hclass.2 hQ.1
    simp only [NativeCore.inputStun, hdecode, if_pos hclass, if_neg (hnone _)]
    split <;> rfl
  by_cases hfingerprint : m.fingerprintValid P = some false
  · have hnone : ∀ Q R : Prop, ¬ (Q ∧ m.fingerprintValid P ≠ some false ∧ R) :=
      fun _ _ hQ => hQ.2.1 hfingerprint
    simp only [NativeCore.inputStun, hdecode, if_neg hclass, if_pos hfingerprint, if_neg (hnone _ _)]
    split <;> rfl
  rcases hp : s.pending.find? (·.answeredBy m) with _ | p
  · simp only [NativeCore.inputStun, hdecode, if_neg hclass, if_neg hfingerprint, hp]
    rfl
  · have hresponse : m.class = .success ∨ m.class = .error := by tauto
    rw [inputStun_answers hdecode hresponse hfingerprint hp] at h ⊢
    rw [inputResponse] at h ⊢
    simp only [hp]
    by_cases hunauthentic : s.unauthentic P packet p m
    · rw [if_pos hunauthentic]
      rcases hcode : errorCode m with _ | code
      · rcases m.class <;> rfl
      · by_cases herror : m.class = .error
        · have hall : m.class = .error ∧ m.fingerprintValid P ≠ some false ∧
              s.unauthentic P packet p m := ⟨herror, hfingerprint, hunauthentic⟩
          simp only
          rw [if_pos hall]
          simp only [herror]
          rfl
        · simp only [if_neg (fun hall : m.class = .error ∧ _ => herror hall.1)]
          split
          · next hmatch _ => exact absurd hmatch herror
          · rfl
    · -- a response that is believed is not rejected
      rw [if_neg hunauthentic] at h
      rcases inputAccepted_status P env (s.withdraw m) p m with hzero | hprotocol | ⟨hplain, hauth⟩
      · rw [hzero] at h
        exact absurd h (by simp [resultInvalidArgument, resultNotControl, resultAuthentication])
      · rw [hprotocol] at h
        exact absurd h (by
          simp [resultProtocol, resultInvalidArgument, resultNotControl, resultAuthentication])
      · rw [hplain] at h
        rcases h with h | h | ⟨_, m', p', hdecode', hp', hauth'⟩
        · exact absurd h (by decide)
        · exact absurd h (by decide)
        · obtain rfl : m = m' := Except.ok.inj (hdecode.symm.trans hdecode')
          rw [hp] at hp'
          cases hp'
          exact absurd hauth' hauth

/-- The core after a series of rejected packets. -/
theorem run_rejected {calls : List (Env × Call)}
    (h : Transition.Admits (NativeCore.step P) (RejectsCall P) s calls)
    (hrun : Transition.run (NativeCore.step P) s calls = some t) :
    t = s.pushEvents (calls.filterMap fun c => s.unverifiedError P c.2) := by
  induction calls generalizing s with
  | nil => exact (Option.some_inj.mp hrun).symm
  | cons label calls ih =>
    have hstep : NativeCore.step P s label = some (NativeCore.after P label.1 s label.2) := rfl
    obtain ⟨⟨packet, hpacket, hrejects⟩, hrest⟩ := h _ hstep
    rw [Transition.run_cons, hstep, Option.bind_some] at hrun
    have hafter : NativeCore.after P label.1 s label.2 =
        s.pushEvents (s.unverifiedError P label.2).toList := by
      rw [hpacket]
      exact inputStun_rejected hrejects
    have hquiet : Quiet s (NativeCore.after P label.1 s label.2) := by
      rw [hafter, pushEvents_eq]
      exact ⟨s.controls, _, rfl⟩
    rw [ih hrest hrun]
    have hcongr : (calls.filterMap fun c =>
        (NativeCore.after P label.1 s label.2).unverifiedError P c.2) =
          calls.filterMap fun c => s.unverifiedError P c.2 :=
      congrArg calls.filterMap (funext fun c => unverifiedError_congr hquiet c.2)
    rw [hcongr, hafter, List.filterMap_cons]
    rcases s.unverifiedError P label.2 with _ | e
    · rfl
    · rfl

end Inner

/-! ### The pump -/

/-- The event can be looked at without an error. -/
def Sane (core : Inner) (e : NativeEvent) : Prop :=
  (e.kind = .channelBound → e.address.isSome) ∧
    (e.kind = .relayAddress → e.address.isSome ∧ core.relay = e.address)

/-- The event makes the driver give the allocation up. -/
def Alarming (peer : SocketAddr) (e : NativeEvent) : Prop :=
  match e.kind with
  | .state => e.state = .destroying
  | .requestComplete => (e.status ≠ 0 ∨ e.stunCode ≠ 0) ∧
      (¬ isRetryableMaintenance e.method ∨ isAllocationMismatchStun e.method e.stunCode)
  | .stunResponseError => isAllocationMismatchStun e.method e.stunCode
  | .channelBound => e.address ≠ some peer ∨ ¬ (0x4000 ≤ e.channel ∧ e.channel ≤ 0x7fff)
  | .relayAddress | .channelRebindExhausted => False
  | .controlOverflow | .forcedDestroy | .eventOverflow => True

instance (core : Inner) (e : NativeEvent) : Decidable (Sane core e) :=
  inferInstanceAs (Decidable (_ ∧ _))

instance (peer : SocketAddr) (e : NativeEvent) : Decidable (Alarming peer e) :=
  match e with
  | { kind := .state, .. } | { kind := .requestComplete, .. } | { kind := .stunResponseError, .. }
  | { kind := .channelBound, .. } => by
    unfold Alarming
    infer_instance
  | { kind := .relayAddress, .. } | { kind := .channelRebindExhausted, .. } => isFalse id
  | { kind := .controlOverflow, .. } | { kind := .forcedDestroy, .. }
  | { kind := .eventOverflow, .. } => isTrue trivial

namespace Pump

/-- The allocation is given up, at the end of the pump at the latest. -/
def Raised (p : Pump) : Prop := p.shared.snapshot.terminal.isSome ∨ p.unexpectedDestroy

theorem fail_raised {p : Pump} (hopen : p.shared.closing = false) (reason : Terminal) :
    (p.fail reason).Raised := by
  rw [Raised, Pump.fail, DriverShared.fail]
  split_ifs with h
  · rw [hopen] at h
    exact .inl (h.resolve_left Bool.false_ne_true)
  · exact .inl rfl

theorem fail_closing (p : Pump) (reason : Terminal) :
    (p.fail reason).shared.closing = p.shared.closing := by
  rw [Pump.fail, DriverShared.fail]
  split_ifs <;> rfl

theorem fail_closed {p : Pump} (hclosing : p.shared.closing) (reason : Terminal) :
    p.fail reason = p := by
  rw [Pump.fail, DriverShared.fail, if_pos (.inl hclosing)]

variable {core : Inner} {peer : SocketAddr} {p q : Pump} {e : NativeEvent}

theorem noteCompletion_keeps (d : DriverShared) (method : BitVec 16) (status : ℤ) (stunCode : ℕ) :
    (d.noteCompletion method status stunCode).closing = d.closing ∧
      (d.noteCompletion method status stunCode).snapshot.terminal = d.snapshot.terminal := by
  refine ⟨rfl, ?_⟩
  simp only [DriverShared.noteCompletion]
  split_ifs <;> rfl

/-- One event, on an allocation that is not being closed. -/
theorem event_open (peer : SocketAddr) (hopen : p.shared.closing = false) (hsane : Sane core e) :
    ∃ q, p.event core peer e = .ok q ∧ q.shared.closing = false ∧
      (q.Raised ↔ p.Raised ∨ Alarming peer e) := by
  have hraise : ∀ (p' : Pump) (reason : Terminal), p'.shared.closing = false → ∀ alarm : Prop,
      alarm → ∃ q, Except.ok (ε := PumpError) (p'.fail reason) = .ok q ∧
        q.shared.closing = false ∧ (q.Raised ↔ p.Raised ∨ alarm) := by
    intro p' reason hopen' alarm halarm
    exact ⟨_, rfl, (fail_closing p' reason).trans hopen',
      iff_of_true (fail_raised hopen' reason) (.inr halarm)⟩
  have hkeep : ∀ p' : Pump, p'.shared.closing = false → (p'.Raised ↔ p.Raised) → ∀ alarm : Prop,
      ¬ alarm → ∃ q, Except.ok (ε := PumpError) p' = .ok q ∧
        q.shared.closing = false ∧ (q.Raised ↔ p.Raised ∨ alarm) := by
    intro p' hopen' hsame alarm halarm
    exact ⟨p', rfl, hopen', by rw [hsame, or_iff_left halarm]⟩
  rw [Alarming]
  simp only [Pump.event]
  rcases hkind : e.kind
  · -- the state is copied, and DESTROYING is noted
    refine ⟨_, rfl, hopen, ?_⟩
    simp only [Raised, DriverShared.noteState, hopen, Bool.not_false, Bool.and_true,
      Bool.or_eq_true, decide_eq_true_eq, or_assoc]
  · obtain ⟨hclosing, hterminal⟩ :=
      noteCompletion_keeps p.shared e.method e.status e.stunCode
    simp only [hclosing, hopen, Bool.false_eq_true, not_false_eq_true, true_and]
    split_ifs with halarm
    · exact hraise { p with shared := p.shared.noteCompletion e.method e.status e.stunCode } _
        (hclosing.trans hopen) _ halarm
    · refine hkeep { p with shared := p.shared.noteCompletion e.method e.status e.stunCode }
        (hclosing.trans hopen) ?_ _ halarm
      rw [Raised, Raised, hterminal]
  · obtain ⟨eventPeer, haddress⟩ := Option.isSome_iff_exists.mp (hsane.1 hkind)
    simp only [haddress]
    split_ifs with hpeer hchannel
    · exact hraise p _ hopen _ (.inl fun h => hpeer (Option.some_inj.mp h))
    · refine hkeep { p with shared := { p.shared with
        channel := e.channel
        snapshot := { p.shared.snapshot with channel := some e.channel } } } hopen Iff.rfl _ ?_
      rintro (h | h)
      · exact h (congrArg some (not_not.mp hpeer))
      · exact h hchannel
    · exact hraise p _ hopen _ (Or.inr hchannel)
  · obtain ⟨hsome, hrelay⟩ := hsane.2 hkind
    obtain ⟨relay, haddress⟩ := Option.isSome_iff_exists.mp hsome
    rw [haddress] at hrelay
    simp only [haddress, hrelay, if_neg (not_not.mpr (rfl : relay = relay))]
    exact hkeep { p with shared := { p.shared with
      snapshot := { p.shared.snapshot with relay := some relay } } } hopen Iff.rfl _ id
  · exact hraise p _ hopen _ trivial
  · simp only [hopen, Bool.false_eq_true, if_false]
    exact hraise p _ hopen _ trivial
  · exact hraise p _ hopen _ trivial
  · simp only [hopen, Bool.false_eq_true, not_false_eq_true, true_and]
    split_ifs with halarm
    · exact hraise p _ hopen _ halarm
    · exact hkeep p hopen Iff.rfl _ halarm
  · exact hkeep { p with channelRebindExhausted := true } hopen Iff.rfl _ id

/-- One event, while the allocation is being closed. -/
theorem event_closing (peer : SocketAddr) (hclosing : p.shared.closing) (hsane : Sane core e) :
    ∃ q, p.event core peer e = .ok q ∧ q.shared.closing ∧
      q.shared.snapshot.terminal = p.shared.snapshot.terminal := by
  have hkeep : ∀ p' : Pump, p'.shared.closing →
      p'.shared.snapshot.terminal = p.shared.snapshot.terminal →
      ∃ q, Except.ok (ε := PumpError) p' = .ok q ∧ q.shared.closing ∧
        q.shared.snapshot.terminal = p.shared.snapshot.terminal :=
    fun p' h hterminal => ⟨p', rfl, h, hterminal⟩
  simp only [Pump.event]
  rcases hkind : e.kind
  · exact hkeep _ hclosing rfl
  · obtain ⟨hsame, hterminal⟩ := noteCompletion_keeps p.shared e.method e.status e.stunCode
    simp only [hsame, hclosing, not_true_eq_false, false_and, and_false, if_false]
    exact hkeep _ (hsame.trans hclosing) hterminal
  · obtain ⟨eventPeer, haddress⟩ := Option.isSome_iff_exists.mp (hsane.1 hkind)
    simp only [haddress, fail_closed hclosing]
    split_ifs
    · exact hkeep p hclosing rfl
    · exact hkeep _ hclosing rfl
    · exact hkeep p hclosing rfl
  · obtain ⟨hsome, hrelay⟩ := hsane.2 hkind
    obtain ⟨relay, haddress⟩ := Option.isSome_iff_exists.mp hsome
    rw [haddress] at hrelay
    simp only [haddress, hrelay, if_neg (not_not.mpr (rfl : relay = relay))]
    exact hkeep _ hclosing rfl
  · simp only [fail_closed hclosing]
    exact hkeep p hclosing rfl
  · simp only [hclosing, if_true]
    exact hkeep p hclosing rfl
  · simp only [fail_closed hclosing]
    exact hkeep p hclosing rfl
  · simp only [hclosing, not_true_eq_false, false_and, if_false]
    exact hkeep p hclosing rfl
  · exact hkeep _ hclosing rfl

/-- An event that can be looked at is sane. -/
theorem sane_of_event (h : p.event core peer e = .ok q) : Sane core e := by
  constructor
  · intro hkind
    simp only [Pump.event, hkind] at h
    rcases haddress : e.address with _ | a
    · simp only [haddress] at h
      cases h
    · rfl
  · intro hkind
    simp only [Pump.event, hkind] at h
    rcases haddress : e.address with _ | a <;> rcases hrelay : core.relay with _ | b <;>
      simp only [haddress, hrelay] at h
    · cases h
    · cases h
    · cases h
    · split_ifs at h with hne
      exact ⟨rfl, congrArg some (not_not.mp hne)⟩

/-- The loop over the events, on an allocation that is not being closed. -/
theorem events_open (peer : SocketAddr) {es : List NativeEvent} (hopen : p.shared.closing = false)
    (hsane : ∀ e ∈ es, Sane core e) :
    ∃ q, Pump.events core peer p es = .ok q ∧ q.shared.closing = false ∧
      (q.Raised ↔ p.Raised ∨ ∃ e ∈ es, Alarming peer e) := by
  induction es generalizing p with
  | nil => exact ⟨p, rfl, hopen, by simp⟩
  | cons e es ih =>
    obtain ⟨q, hevent, hclosing, hraised⟩ :=
      event_open peer hopen (hsane e List.mem_cons_self)
    obtain ⟨r, hevents, hr, hall⟩ := ih hclosing fun e' he' => hsane e' (List.mem_cons_of_mem e he')
    refine ⟨r, ?_, hr, ?_⟩
    · rw [Pump.events, hevent]
      exact hevents
    · rw [hall, hraised, List.exists_mem_cons_iff, or_assoc]

theorem events_closing (peer : SocketAddr) {es : List NativeEvent} (hclosing : p.shared.closing)
    (hsane : ∀ e ∈ es, Sane core e) :
    ∃ q, Pump.events core peer p es = .ok q ∧ q.shared.closing ∧
      q.shared.snapshot.terminal = p.shared.snapshot.terminal := by
  induction es generalizing p with
  | nil => exact ⟨p, rfl, hclosing, rfl⟩
  | cons e es ih =>
    obtain ⟨q, hevent, hq, hterminal⟩ :=
      event_closing peer hclosing (hsane e List.mem_cons_self)
    obtain ⟨r, hevents, hr, hall⟩ := ih hq fun e' he' => hsane e' (List.mem_cons_of_mem e he')
    refine ⟨r, ?_, hr, hall.trans hterminal⟩
    rw [Pump.events, hevent]
    exact hevents

theorem sane_of_events {es : List NativeEvent} (h : Pump.events core peer p es = .ok q) :
    ∀ e ∈ es, Sane core e := by
  induction es generalizing p with
  | nil => exact fun _ he => nomatch he
  | cons e es ih =>
    rw [Pump.events] at h
    rcases hevent : p.event core peer e with error | r
    · rw [hevent] at h
      cases h
    · rw [hevent] at h
      intro e' he'
      rcases List.mem_cons.mp he' with rfl | he'
      · exact sane_of_event hevent
      · exact ih h e' he'

/-- At the end of a pump the driver has given the allocation up exactly if it has been told to. -/
theorem finish_terminal (hopen : p.shared.closing = false) :
    p.finish.snapshot.terminal = none ↔ ¬ p.Raised := by
  rw [finish, Raised]
  by_cases hterminal : p.shared.snapshot.terminal = none
  · by_cases hdestroy : p.unexpectedDestroy
    · rw [if_pos ⟨hdestroy, by rw [hterminal]; rfl⟩, DriverShared.fail, if_neg (by simp [hopen, hterminal])]
      simp [hdestroy]
    · rw [if_neg fun h => hdestroy h.1]
      simp [hterminal, hdestroy]
  · have hsome := Option.isSome_iff_ne_none.mpr hterminal
    rw [if_neg fun h => hterminal (Option.isNone_iff_eq_none.mp h.2)]
    simp [hterminal, hsome]

theorem finish_closing (hclosing : p.shared.closing) : p.finish = p.shared := by
  have hfail : ∀ reason, p.shared.fail reason = p.shared := fun reason => by
    rw [DriverShared.fail, if_pos (.inl hclosing)]
  rw [finish, hfail, ite_self]

end Pump

/-! ### A whole pump -/

variable {P : Primitives} {env : Env} {send : Bytes → Except String Unit}
  {server peer : SocketAddr} {s t : Inner} {d : DriverShared}

/-- The pump does not fail, and records no terminal failure. -/
def PumpsWell (P : Primitives) (env : Env) (send : Bytes → Except String Unit)
    (server peer : SocketAddr) (core : Inner) (d : DriverShared) : Prop :=
  ∃ result, pumpNative P env send server peer core d = .ok result ∧
    result.2.snapshot.terminal = none

/-- Nothing is due. -/
def Undue (now : ℕ) (s : Inner) : Prop :=
  s.destroyed = false ∧ s.Later now ∧ ¬ due now s.allocationExpiresAt

/-- The packets go out whatever is in the ring. -/
theorem pumpControls_events (events : List NativeEvent) (turns : ℕ) :
    pumpControls send server turns { s with events } d =
      ((pumpControls send server turns s d).1,
        { (pumpControls send server turns s d).2.1 with events },
        (pumpControls send server turns s d).2.2) := by
  induction turns generalizing s d with
  | zero => rfl
  | succ turns ih =>
    rcases hcontrols : s.controls with _ | ⟨control, controls⟩
    · simp only [pumpControls, pumpControl, NativeCore.pullControl, hcontrols]
    · simp only [pumpControls, pumpControl, NativeCore.pullControl, hcontrols]
      by_cases hlong : 1024 < control.packet.length
      · simp only [if_pos hlong]
      · simp only [if_neg hlong]
        by_cases hother : control.destination ≠ server
        · simp only [if_pos hother]
        · simp only [if_neg hother]
          rcases send control.packet with e | _
          · rfl
          · exact ih (s := { s with controls }) (d := { d with controlSent := true })

theorem pumpControls_keeps (send : Bytes → Except String Unit) (server : SocketAddr) (s : Inner)
    (d : DriverShared) (turns : ℕ) :
    let r := pumpControls send server turns s d
    r.2.1.events = s.events ∧ r.2.1.relay = s.relay ∧ r.2.2.closing = d.closing ∧
      r.2.2.snapshot = d.snapshot := by
  induction turns generalizing s d with
  | zero => exact ⟨rfl, rfl, rfl, rfl⟩
  | succ turns ih =>
    rcases hcontrols : s.controls with _ | ⟨control, controls⟩
    · simp only [pumpControls, pumpControl, NativeCore.pullControl, hcontrols, and_self]
    · simp only [pumpControls, pumpControl, NativeCore.pullControl, hcontrols]
      by_cases hlong : 1024 < control.packet.length
      · simp only [if_pos hlong, and_self]
      · simp only [if_neg hlong]
        by_cases hother : control.destination ≠ server
        · simp only [if_pos hother, and_self]
        · simp only [if_neg hother]
          rcases send control.packet with e | _
          · exact ⟨rfl, rfl, rfl, rfl⟩
          · exact ih { s with controls } { d with controlSent := true }

/-- A pump with nothing due goes well exactly if the packets can be sent and no event is a
reason to give up. -/
theorem pumpsWell_iff (hundue : Undue env.now s) :
    PumpsWell P env send server peer s d ↔
      (pumpControls send server (s.controls.length + 1) s d).1 = .ok () ∧
        (∀ e ∈ s.events, Sane s e) ∧ d.snapshot.terminal = none ∧
          (d.closing ∨ ∀ e ∈ s.events, ¬ Alarming peer e) := by
  have hpoll := Inner.poll_idle (P := P) env hundue.1 hundue.2.1 hundue.2.2
  obtain ⟨hevents, hrelay, hclosing, hsnapshot⟩ :=
    pumpControls_keeps send server s d (s.controls.length + 1)
  rw [PumpsWell, pumpNative, hpoll]
  simp only
  generalize pumpControls send server (s.controls.length + 1) s d = r
    at hevents hrelay hclosing hsnapshot ⊢
  obtain ⟨e | _, core, d'⟩ := r
  · simp
  simp only at hevents hrelay hclosing hsnapshot ⊢
  -- the packets that are sent change nothing that the events are compared with
  have hsame : ∀ e, Sane core e ↔ Sane s e := fun e => by rw [Sane, Sane, hrelay]
  rw [hevents]
  constructor
  · rintro ⟨result, hresult, hterminal⟩
    rcases hloop : Pump.events core peer { shared := d' } s.events with e | q
    · rw [hloop] at hresult
      cases hresult
    · rw [hloop] at hresult
      obtain rfl := Except.ok.inj hresult
      replace hterminal : q.finish.snapshot.terminal = none := hterminal
      have hsane := Pump.sane_of_events hloop
      refine ⟨trivial, fun e he => (hsame e).mp (hsane e he), ?_⟩
      -- a closing driver keeps its snapshot; an open one raises what an event asks for
      by_cases hopen : d'.closing = true
      · obtain ⟨q', hq', hq'closing, hkept⟩ :=
          Pump.events_closing peer (p := { shared := d' }) hopen hsane
        obtain rfl : q = q' := Except.ok.inj (hloop.symm.trans hq')
        rw [Pump.finish_closing hq'closing, hkept] at hterminal
        exact ⟨hsnapshot ▸ hterminal, .inl (hclosing ▸ hopen)⟩
      · have hopen := Bool.eq_false_of_not_eq_true hopen
        obtain ⟨q', hq', hq'open, hraised⟩ :=
          Pump.events_open peer (p := { shared := d' }) hopen hsane
        obtain rfl : q = q' := Except.ok.inj (hloop.symm.trans hq')
        rw [Pump.finish_terminal hq'open, hraised] at hterminal
        refine ⟨?_, .inr fun e he halarm => hterminal (.inr ⟨e, he, halarm⟩)⟩
        rw [← hsnapshot]
        by_contra hsome
        exact hterminal (.inl (.inl (Option.isSome_iff_ne_none.mpr hsome)))
  · rintro ⟨-, hsane, hterminal, hquiet⟩
    have hsane : ∀ e ∈ s.events, Sane core e := fun e he => (hsame e).mpr (hsane e he)
    by_cases hopen : d'.closing = true
    · obtain ⟨q, hq, hqclosing, hkept⟩ :=
        Pump.events_closing peer (p := { shared := d' }) hopen hsane
      refine ⟨_, by rw [hq]; rfl, ?_⟩
      show q.finish.snapshot.terminal = none
      rw [Pump.finish_closing hqclosing, hkept]
      exact hsnapshot ▸ hterminal
    · have hopen := Bool.eq_false_of_not_eq_true hopen
      obtain ⟨q, hq, hqopen, hraised⟩ :=
        Pump.events_open peer (p := { shared := d' }) hopen hsane
      refine ⟨_, by rw [hq]; rfl, ?_⟩
      show q.finish.snapshot.terminal = none
      rw [Pump.finish_terminal hqopen, hraised]
      rintro ((hsome | hdestroy) | ⟨e, he, halarm⟩)
      · rw [hsnapshot, hterminal] at hsome
        cases hsome
      · cases hdestroy
      · refine hquiet.elim (fun h => ?_) (fun h => h e he halarm)
        rw [← hclosing, hopen] at h
        cases h

/-- What a rejected packet leaves names a code that has to be signed. -/
theorem Inner.unverifiedError_code {call : Call} {e : NativeEvent}
    (h : s.unverifiedError P call = some e) : e.kind = .stunResponseError ∧ e.stunCode ≠ 400 := by
  cases call with
  | inputStun packet =>
    simp only [Inner.unverifiedError] at h
    split at h
    · cases h
    · next m _ =>
      split at h
      · next p code _ hcode =>
        split_ifs at h with hall
        cases h
        refine ⟨rfl, ?_⟩
        rintro rfl
        -- an error 400 needs no signature
        have hunauthentic := hall.2.2
        have hneeds : responseRequiresIntegrity m = false := by
          rw [responseRequiresIntegrity, hall.1]
          simp [hcode]
        simp [Inner.unauthentic, hneeds] at hunauthentic
      · cases h
  | startAllocation | startChannel | startPermission | poll | resyncAfterSuspend | pullControl
  | pullEvent | gracefulShutdown | forceDestroy => cases h

theorem Inner.alarming_unverifiedError {call : Call} {e : NativeEvent}
    (h : s.unverifiedError P call = some e) : Alarming peer e ↔ e.stunCode = 437 := by
  obtain ⟨hkind, hcode⟩ := Inner.unverifiedError_code h
  rw [Alarming, hkind]
  simp only [isAllocationMismatchStun, hcode, decide_false, Bool.and_false, Bool.or_false,
    decide_eq_true_eq]

/-- **Rejected responses are harmless, unless …**  Packets that a reachable core rejects change
nothing but its ring.  The next pump records no failure, if it would have recorded none without
them, exactly if the driver is closing, or no unverified error has the code 437 and the ring has
room for all of them. -/
theorem rejected_harmless_iff {s₀ : Inner} {username password : Bytes}
    {transport : TurnControlTransport} {history calls : List (Env × Call)}
    (hcreate : NativeCore.create server username password peer transport = .ok s₀)
    (hhistory : Transition.run (NativeCore.step P) s₀ history = some s)
    (hrejected : Transition.Admits (NativeCore.step P) (Inner.RejectsCall P) s calls)
    (hrun : Transition.run (NativeCore.step P) s calls = some t)
    (hundue : Undue env.now s) (hwell : PumpsWell P env send server peer s d) :
    (t = { s with events := t.events } ∧ PumpsWell P env send server peer t d) ↔
      (d.closing ∨
        (∀ e ∈ calls.filterMap fun c => s.unverifiedError P c.2, e.stunCode ≠ 437) ∧
          s.events.length + (calls.filterMap fun c => s.unverifiedError P c.2).length ≤
            eventCapacity) := by
  have hbounded := Inner.bounded_of_run hcreate hhistory
  have hpushed := Inner.run_rejected hrejected hrun
  have hreport : ∀ e ∈ calls.filterMap fun c => s.unverifiedError P c.2,
      ∃ call, s.unverifiedError P call = some e := by
    intro e he
    obtain ⟨c, _, hc⟩ := List.mem_filterMap.mp he
    exact ⟨c.2, hc⟩
  generalize (calls.filterMap fun c => s.unverifiedError P c.2) = reports at hpushed hreport ⊢
  have hframe : t = { s with events := t.events } := by
    rw [hpushed]
    exact Inner.pushEvents_eq s reports
  rw [pumpsWell_iff hundue] at hwell
  obtain ⟨hcontrols, hsane, hterminal, hquiet⟩ := hwell
  have hsame : (pumpControls send server (t.controls.length + 1) t d).1 = .ok () := by
    rw [hframe, pumpControls_events]
    exact hcontrols
  have hundue' : Undue env.now t := by
    rw [hframe]
    exact hundue
  -- the events that have been added can always be looked at
  have hsane' : ∀ e ∈ t.events, Sane t e := by
    intro e he
    rw [hpushed] at he
    rcases Inner.mem_pushEvents he with hold | hnew | rfl
    · rw [hframe]
      exact hsane e hold
    · obtain ⟨call, hcall⟩ := hreport e hnew
      have hkind := (Inner.unverifiedError_code hcall).1
      constructor
      · intro h
        rw [hkind] at h
        cases h
      · intro h
        rw [hkind] at h
        cases h
    · exact ⟨nofun, nofun⟩
  rw [and_iff_right hframe, pumpsWell_iff hundue', and_iff_right hsame, and_iff_right hsane',
    and_iff_right hterminal]
  refine or_congr_right' fun hopen => ?_
  have hquiet := hquiet.resolve_left hopen
  constructor
  · intro hcalm
    have hroom : s.events.length + reports.length ≤ eventCapacity := by
      by_contra hfull
      refine hcalm Inner.overflowEvent ?_ trivial
      rw [hpushed]
      exact Inner.pushEvents_overflow hbounded (Nat.not_le.mp hfull)
    refine ⟨fun e he h437 => ?_, hroom⟩
    obtain ⟨call, hcall⟩ := hreport e he
    refine hcalm e ?_ ((Inner.alarming_unverifiedError hcall).mpr h437)
    rw [hpushed, Inner.pushEvents_room hroom]
    exact List.mem_append_right _ he
  · rintro ⟨hcodes, hroom⟩ e he halarm
    rw [hpushed, Inner.pushEvents_room hroom] at he
    rcases List.mem_append.mp he with hold | hnew
    · exact hquiet e hold halarm
    · obtain ⟨call, hcall⟩ := hreport e hnew
      exact hcodes e hnew ((Inner.alarming_unverifiedError hcall).mp halarm)

/-- Packets to the server go out while the transport takes them. -/
theorem pumpControls_ok (hcontrols : ∀ c ∈ s.controls, c.packet.length ≤ 1024 ∧ c.destination = server)
    (turns : ℕ) : (pumpControls (fun _ => .ok ()) server turns s d).1 = .ok () := by
  induction turns generalizing s d with
  | zero => rfl
  | succ turns ih =>
    rcases hqueue : s.controls with _ | ⟨control, controls⟩
    · simp only [pumpControls, pumpControl, NativeCore.pullControl, hqueue]
    · have hcontrol := hcontrols control (by rw [hqueue]; exact List.mem_cons_self)
      simp only [pumpControls, pumpControl, NativeCore.pullControl, hqueue,
        if_neg (Nat.not_lt.mpr hcontrol.1), if_neg (not_not.mpr hcontrol.2)]
      refine ih (s := { s with controls }) fun c hc => hcontrols c ?_
      rw [hqueue]
      exact List.mem_cons_of_mem control hc

/-! ### An error without a signature -/

namespace Inner

/-- The handshake, and a ChannelBind. -/
def bindHistory : List (Env × Call) :=
  handshake zeroDigests ++ [(moment 0 3, .startChannel)]

/-- The core that waits for the answer to its ChannelBind. -/
def bindingCore : Inner :=
  bindHistory.foldl (fun s c => NativeCore.after zeroDigests c.1 s c.2) freshCore

theorem bindingCore_run :
    Transition.run (NativeCore.step zeroDigests) freshCore bindHistory = some bindingCore := rfl

/-- An error 400 + `number` to the ChannelBind, without MESSAGE-INTEGRITY and FINGERPRINT. -/
def unsignedError (number : BitVec 8) : Bytes :=
  spelled 0x0119 ((moment 0 3).transaction .channel) [(attrErrorCode, [0, 0, 4, number])]

theorem bindingCore_undue : Undue (millis 100) bindingCore := by
  refine ⟨by decide +kernel, ?_, by decide +kernel⟩
  rw [Later]
  decide +kernel

theorem bindingCore_pumpsWell :
    PumpsWell zeroDigests (moment (millis 100) 5) (fun _ => .ok ()) freshCore.server freshCore.peer
      bindingCore {} := by
  rw [pumpsWell_iff bindingCore_undue]
  refine ⟨pumpControls_ok ?_ _, ?_, rfl, .inr ?_⟩
  · decide +kernel
  · decide +kernel
  · decide +kernel

/-- The call that brings the error. -/
def unsignedCall (number : BitVec 8) : Env × Call := (moment 1 4, .inputStun (unsignedError number))

theorem unsignedError_rejected (number : BitVec 8)
    (hstatus : (NativeCore.inputStun zeroDigests (moment 1 4) bindingCore (unsignedError number)).1 =
      resultAuthentication)
    (hanswers : (bindingCore.pending.find? (·.answeredBy (messageOf 0x0119
      ((moment 0 3).transaction .channel) [(attrErrorCode, [0, 0, 4, number])]))).any
        (·.authenticated)) :
    Transition.Admits (NativeCore.step zeroDigests) (RejectsCall zeroDigests) bindingCore
      [unsignedCall number] := by
  intro s' _
  obtain ⟨p, hp, hauth⟩ := (Option.any_eq_true _ _).mp hanswers
  refine ⟨⟨_, rfl, .inr (.inr ⟨hstatus, _, p, decode_spelled ?_ ?_ ?_, hp, hauth⟩)⟩, trivial⟩
  · decide
  · decide
  · have hlength : (fields ([] ++ [(attrErrorCode, [0, 0, 4, number])])).length =
        (fields []).length + (4 + padded [0, 0, 4, number].length) := fields_snoc_length _ _
    rw [List.nil_append] at hlength
    rw [hlength]
    show 0 + (4 + padded 4) < 2 ^ 16
    decide

/-- After one unsigned error of another kind the pump records nothing. -/
theorem unsigned_quota_harmless :
    ∃ t, Transition.run (NativeCore.step zeroDigests) bindingCore [unsignedCall 86] = some t ∧
      PumpsWell zeroDigests (moment (millis 100) 5) (fun _ => .ok ()) freshCore.server
        freshCore.peer t {} := by
  refine ⟨_, rfl, ((rejected_harmless_iff (create_freshCore) bindingCore_run
    (unsignedError_rejected 86 (by decide +kernel) (by decide +kernel)) rfl
    bindingCore_undue bindingCore_pumpsWell).mpr (.inr ⟨?_, ?_⟩)).2⟩
  · decide +kernel
  · decide +kernel

/-- An unsigned error 437 ends the allocation. -/
theorem unsigned_mismatch_fails :
    ¬ ∀ (s₀ s t : Inner) (server peer : SocketAddr) (username password : Bytes)
      (transport : TurnControlTransport) (history calls : List (Env × Call)) (env : Env)
      (d : DriverShared),
      NativeCore.create server username password peer transport = .ok s₀ →
      Transition.run (NativeCore.step zeroDigests) s₀ history = some s → s.state = .ready →
      Transition.Admits (NativeCore.step zeroDigests) (RejectsCall zeroDigests) s calls →
      Transition.run (NativeCore.step zeroDigests) s calls = some t → Undue env.now s →
      PumpsWell zeroDigests env (fun _ => .ok ()) server peer s d →
      PumpsWell zeroDigests env (fun _ => .ok ()) server peer t d := by
  intro hclaim
  have hwell := hclaim freshCore bindingCore
    (NativeCore.after zeroDigests (moment 1 4) bindingCore (.inputStun (unsignedError 37))) _ _ _ _ _ bindHistory [unsignedCall 37]
    (moment (millis 100) 5) {} create_freshCore bindingCore_run (by decide +kernel)
    (unsignedError_rejected 37 (by decide +kernel) (by decide +kernel)) rfl bindingCore_undue
    bindingCore_pumpsWell
  have hundue : Undue (millis 100) (NativeCore.after zeroDigests (moment 1 4) bindingCore
      (.inputStun (unsignedError 37))) := by
    refine ⟨by decide +kernel, ?_, by decide +kernel⟩
    rw [Later]
    decide +kernel
  have hcalm := ((pumpsWell_iff hundue).mp hwell).2.2.2.resolve_left Bool.false_ne_true
  revert hcalm
  decide +kernel

end Inner

end Csqtt.Turn
