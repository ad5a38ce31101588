/-
What a signed response can do.

A response acts through the few values that are looked up in it: the reading of
the response (`inputSuccess_eq`, `inputError_eq`).  The lookups run over the whole
message and MESSAGE-INTEGRITY covers only what stands before it, so two responses
with the same signed bytes can have different readings.

* `signed_response_iff` — two responses with the same signed bytes have the same
  effect exactly when they have the same reading;
* `lifetime_behind_integrity` — and an attribute that is not signed can change it.
-/
import Csqtt.TurnMaintenance

namespace Csqtt.Turn

open Stun

/-- What is looked up in a success. -/
inductive SuccessReading where
  | unusable
  | allocated (relay : SocketAddr) (lifetime : BitVec 32)
  | refreshed (lifetime : BitVec 32)
  | done
  deriving DecidableEq

/-- What is looked up in an error: the credentials of the next attempt, or what is
left of the code when the attempt is the last one. -/
inductive ErrorReading where
  | retry (realm nonce : Bytes)
  | refused (credentials : Option (Bytes × Bytes)) (code : Option ℕ) (gone : Bool)
  deriving DecidableEq

namespace Inner

variable {P : Primitives} {env : Env} {s t : Inner} {p : Pending} {operation : Operation}
  {m : Message} {code now : ℕ}

/-! ### Reading a success -/

def successReading (s : Inner) (operation : Operation) (m : Message) : SuccessReading :=
  let lifetime := (attributeU32 m attrLifetime).getD requestedAllocationLifetime
  match operation with
  | .allocate =>
    match s.relayed m with
    | .error _ => .unusable
    | .ok relay => if lifetime = 0 then .unusable else .allocated relay lifetime
  | .refresh => if lifetime = 0 then .unusable else .refreshed lifetime
  | .deallocate => if (attributeU32 m attrLifetime).getD 0 ≠ 0 then .unusable else .done
  | .permission | .channel => .done

/-- An operation that fails although its response is a success. -/
def settled (env : Env) (operation : Operation) (r : Outcome Unit) : ℤ × Inner :=
  match r with
  | (.ok _, s) => (0, s)
  | (.error _, s) => (resultProtocol, s.completeFailure operation resultProtocol 0 env.now)

/-- The operations whose success says no more than that. -/
def acknowledged (s : Inner) : Operation → Inner
  | .deallocate =>
    ({ s with
      relay := none
      allocationRefresh := none
      allocationExpiresAt := none }.complete .deallocate 0 0).setState .deallocated
  | .permission => { s with permissionFailures := 0 }.complete .permission 0 0
  | .channel =>
    ({ s with channel := some channelNumber, channelFailures := 0 }.pushEvent
      { kind := .channelBound, channel := channelNumber, address := some s.peer }).complete
        .channel 0 0
  | .allocate | .refresh => s

def successEffect (P : Primitives) (env : Env) (s : Inner) (operation : Operation) :
    SuccessReading → ℤ × Inner
  | .unusable => (resultProtocol, s.completeFailure operation resultProtocol 0 env.now)
  | .allocated relay lifetime =>
    let t := s.allocated env.now relay (some lifetime)
    settled env .allocate
      (if s.shuttingDown then (t.setState .deallocating).startOperation P env .deallocate true 0
      else (.ok (), (t.setState .ready).complete .allocate 0 0))
  | .refreshed lifetime => (0, (s.granted env.now (some lifetime)).complete .refresh 0 0)
  | .done => (0, s.acknowledged operation)

theorem inputSuccess_settled (P : Primitives) (env : Env) (s : Inner) (p : Pending) (m : Message) :
    s.inputSuccess P env p m = settled env p.operation (s.completeSuccess P env p.operation m) := rfl

/-- A success acts through its reading. -/
theorem inputSuccess_eq (P : Primitives) (env : Env) (s : Inner) (p : Pending) (m : Message) :
    s.inputSuccess P env p m =
      s.successEffect P env p.operation (s.successReading p.operation m) := by
  rw [inputSuccess_settled]
  rcases hop : p.operation
  · -- allocate
    rcases hrelay : s.relayed m with e | relay
    · obtain ⟨e', he⟩ := completeSuccess_allocate_error P env (m := m) (s := s) (.inl ⟨e, hrelay⟩)
      rw [he]
      simp only [successReading, hrelay]
      rfl
    by_cases hzero : (attributeU32 m attrLifetime).getD requestedAllocationLifetime = 0
    · obtain ⟨e', he⟩ := completeSuccess_allocate_error P env (m := m) (s := s) (.inr hzero)
      rw [he]
      simp only [successReading, hrelay, if_pos hzero]
      rfl
    · rw [completeSuccess_allocate hrelay hzero]
      simp only [successReading, hrelay, if_neg hzero]
      rfl
  · -- refresh
    by_cases hzero : (attributeU32 m attrLifetime).getD requestedAllocationLifetime = 0
    · simp only [completeSuccess, successReading, if_pos hzero]
      rfl
    · simp only [completeSuccess, successReading, if_neg hzero]
      rfl
  · -- deallocate
    by_cases hzero : (attributeU32 m attrLifetime).getD 0 ≠ 0
    · simp only [completeSuccess, successReading, if_pos hzero]
      rfl
    · simp only [completeSuccess, successReading, if_neg hzero]
      rfl
  · rfl
  · rfl

/-! ### Reading an error -/

/-- The credentials that the request is made again with. -/
def challenged (s : Inner) (p : Pending) (m : Message) (code : ℕ) : Option (Bytes × Bytes) :=
  if (code = 401 ∨ code = 438) ∧ p.nonceRetries < s.profile.maxNonceRetries then s.challenge m code
  else none

/-- The request can be made. -/
def starts (P : Primitives) (env : Env) (s : Inner) (operation : Operation) : Bool :=
  s.hasOperation operation ||
    (s.buildRequest P operation (env.transaction operation) true).isOk

instance (s : Inner) (now : ℕ) : Decidable (s.Maintained now) :=
  inferInstanceAs (Decidable (_ ∧ _))

/-- An error with this code ends the allocation. -/
def givesUp (s : Inner) (operation : Operation) (code now : ℕ) : Bool :=
  requiresAllocationRecreate operation code || !isMaintenance operation || !decide (s.Maintained now)

/-- A full queue drops the event that holds the code. -/
def refusal (s : Inner) (operation : Operation) (credentials : Option (Bytes × Bytes))
    (code now : ℕ) : ErrorReading :=
  .refused credentials (if s.events.length = eventCapacity then none else some code)
    (s.givesUp operation code now)

def errorReading (P : Primitives) (env : Env) (s : Inner) (p : Pending) (m : Message) :
    ErrorReading :=
  let code := (errorCode m).getD 0
  match s.challenged p m code with
  | none => s.refusal p.operation none code env.now
  | some (realm, nonce) =>
    if (s.setAuth P realm nonce).starts P env p.operation then .retry realm nonce
    else s.refusal p.operation (some (realm, nonce)) code env.now

def report (operation : Operation) (code : ℕ) (state : TurnState) : NativeEvent :=
  { kind := .stunResponseError
    method := operation.method
    status := if code = 0 then resultProtocol else 0
    stunCode := code
    state }

/-- The last attempt: the code is reported, and the operation has failed. -/
def failed (s : Inner) (operation : Operation) (code now : ℕ) : Inner :=
  let t := s.pushEvent (report operation code s.state)
  if requiresAllocationRecreate operation code then t.destroyAllocation operation resultProtocol code
  else t.completeFailure operation resultProtocol code now

def credited (P : Primitives) (s : Inner) : Option (Bytes × Bytes) → Inner
  | none => s
  | some (realm, nonce) => s.setAuth P realm nonce

theorem startOperation_isOk (hauth : s.AuthSet) (nonceRetries : ℕ) :
    (s.startOperation P env operation true nonceRetries).1.isOk = s.starts P env operation := by
  rw [starts]
  rcases hfind : s.pending.find? (·.operation = operation) with _ | q
  · have hnone : s.hasOperation operation = false := by
      rw [hasOperation, List.any_eq_false]
      exact List.find?_eq_none.mp hfind
    rw [hnone, Bool.false_or]
    rcases hbuild : s.buildRequest P operation (env.transaction operation) true with e | packet
    · have hset : ¬ (true && (s.realm.isNone || s.nonce.isNone || s.key.isNone)) := by
        obtain ⟨hr, hn, hk⟩ := hauth
        simp only [← Option.not_isSome, hr, hn, hk, Bool.not_true, Bool.or_self, Bool.and_false,
          Bool.false_eq_true, not_false_eq_true]
      simp only [startOperation, hfind, if_neg hset, hbuild]
      rfl
    · rw [startOperation_begins hfind (fun _ => hauth) hbuild]
      rfl
  · have hsome : s.hasOperation operation = true := by
      have hq := List.find?_some hfind
      rw [hasOperation, List.any_eq_true]
      exact ⟨q, List.mem_of_find?_eq_some hfind, hq⟩
    rw [hsome, startOperation, hfind]
    rfl

/-- A code that asks for credentials does not end the allocation by itself. -/
theorem challenged_eq_some {credentials : Bytes × Bytes}
    (h : s.challenged p m code = some credentials) :
    code ≠ 0 ∧ ¬ requiresAllocationRecreate p.operation code ∧
      (code = 401 ∨ code = 438) ∧ p.nonceRetries < s.profile.maxNonceRetries ∧
      s.challenge m code = some credentials := by
  rw [challenged] at h
  split_ifs at h with hstale
  have h437 : code ≠ 437 := by omega
  have h400 : code ≠ 400 := by omega
  refine ⟨by omega, ?_, hstale.1, hstale.2, h⟩
  simp only [requiresAllocationRecreate, h437, h400, decide_false, Bool.and_false, Bool.or_false,
    Bool.false_eq_true, not_false_eq_true]

theorem retried_eq (P : Primitives) (env : Env) (s : Inner) (p : Pending) (m : Message)
    (code : ℕ) : s.retried P env p m code = (s.challenged p m code).map fun (realm, nonce) =>
      (s.setAuth P realm nonce).startOperation P env p.operation true (p.nonceRetries + 1) := by
  rw [retried, challenged]
  split_ifs
  · rfl
  · rfl

theorem inputError_refused (hmethod : m.method = p.operation.method)
    (h : s.challenged p m ((errorCode m).getD 0) = none) :
    s.inputError P env p m = s.failed p.operation ((errorCode m).getD 0) env.now := by
  rw [inputError, failed, retried_eq, h]
  simp only [reportError, hmethod, report]
  split_ifs with hzero hrecreate
  · -- the code zero ends no allocation by itself
    rw [hzero] at hrecreate
    exact absurd hrecreate (by cases p.operation <;> decide)
  · simp only [hzero]
  · rfl
  · rfl

theorem inputError_unsent {realm nonce : Bytes} (hmethod : m.method = p.operation.method)
    (h : s.challenged p m ((errorCode m).getD 0) = some (realm, nonce))
    (hstarts : ¬ (s.setAuth P realm nonce).starts P env p.operation) :
    s.inputError P env p m =
      (s.setAuth P realm nonce).failed p.operation ((errorCode m).getD 0) env.now := by
  obtain ⟨hzero, hkeep, _⟩ := challenged_eq_some h
  have hauth : (s.setAuth P realm nonce).AuthSet := ⟨rfl, rfl, rfl⟩
  rcases hr : (s.setAuth P realm nonce).startOperation P env p.operation true (p.nonceRetries + 1)
    with ⟨e | _, t⟩
  · have ht := startOperation_error (congrArg Prod.fst hr)
    rw [hr] at ht
    obtain rfl : t = s.setAuth P realm nonce := ht
    rw [inputError, retried_eq, h, failed]
    simp only [if_neg hzero, if_neg hkeep, Option.map_some, hr, reportError, hmethod, report]
    rfl
  · rw [← startOperation_isOk hauth (p.nonceRetries + 1), hr] at hstarts
    exact absurd rfl hstarts

theorem inputError_retried {realm nonce : Bytes}
    (h : s.challenged p m ((errorCode m).getD 0) = some (realm, nonce))
    (hstarts : (s.setAuth P realm nonce).starts P env p.operation) :
    s.inputError P env p m =
      ((s.setAuth P realm nonce).startOperation P env p.operation true (p.nonceRetries + 1)).2 := by
  obtain ⟨hzero, hkeep, _⟩ := challenged_eq_some h
  have hauth : (s.setAuth P realm nonce).AuthSet := ⟨rfl, rfl, rfl⟩
  rcases hr : (s.setAuth P realm nonce).startOperation P env p.operation true (p.nonceRetries + 1)
    with ⟨e | _, t⟩
  · rw [← startOperation_isOk hauth (p.nonceRetries + 1), hr] at hstarts
    exact absurd hstarts Bool.false_ne_true
  · rw [inputError, retried_eq, h]
    simp only [if_neg hzero, if_neg hkeep, Option.map_some, hr]

/-! ### A full event queue -/

theorem pushEvent_full (h : s.events.length = eventCapacity) (e e' : NativeEvent) :
    s.pushEvent e = s.pushEvent e' := by
  rw [pushEvent, pushEvent, if_pos h, if_pos h]

theorem pushEvent_full_length (h : s.events.length = eventCapacity) (e : NativeEvent) :
    (s.pushEvent e).events.length = eventCapacity := by
  show (if s.events.length = eventCapacity then _ else _ : List NativeEvent).length = _
  rw [if_pos h, List.length_append, List.length_tail, h]
  rfl

theorem destroyAllocation_full (h : s.events.length = eventCapacity) (status : ℤ)
    (code code' : ℕ) :
    s.destroyAllocation operation status code = s.destroyAllocation operation status code' := by
  have hcomplete : s.complete operation status code = s.complete operation status code' :=
    pushEvent_full h _ _
  rw [destroyAllocation, destroyAllocation, hcomplete]

theorem completeFailure_full (h : s.events.length = eventCapacity) (status : ℤ)
    (code code' : ℕ) :
    s.completeFailure operation status code now = s.completeFailure operation status code' now := by
  have hcomplete : s.complete operation status code = s.complete operation status code' :=
    pushEvent_full h _ _
  rw [completeFailure, completeFailure, hcomplete, destroyAllocation_full h status code code']

theorem failed_of_givesUp (h : s.givesUp operation code now) :
    s.failed operation code now =
      (s.pushEvent (report operation code s.state)).destroyAllocation operation resultProtocol
        code := by
  rw [failed]
  split_ifs with hrecreate
  · rfl
  · refine completeFailure_destroys _ _ fun hm => ?_
    rw [givesUp, Bool.eq_false_of_not_eq_true hrecreate, Bool.false_or, hm.1, Bool.not_true,
      Bool.false_or, Bool.not_eq_true', decide_eq_false_iff_not] at h
    exact h hm.2

theorem failed_of_not_givesUp (h : ¬ s.givesUp operation code now) :
    isMaintenance operation ∧ s.Maintained now ∧ s.failed operation code now =
      (s.pushEvent (report operation code s.state)).completeFailure operation resultProtocol code
        now := by
  rw [givesUp, Bool.or_eq_true, Bool.or_eq_true, not_or, not_or, Bool.not_eq_true',
    Bool.not_eq_true', Bool.not_eq_false, decide_eq_false_iff_not, not_not] at h
  exact ⟨h.1.2, h.2, by rw [failed, if_neg h.1.1]⟩

/-- A full queue keeps no more of the code than whether it ends the allocation. -/
theorem failed_full {code' : ℕ} (h : s.events.length = eventCapacity)
    (hgives : s.givesUp operation code now = s.givesUp operation code' now) :
    s.failed operation code now = s.failed operation code' now := by
  have hfull := pushEvent_full_length h (report operation code s.state)
  have hpush := pushEvent_full h (report operation code s.state) (report operation code' s.state)
  by_cases hg : s.givesUp operation code now
  · rw [failed_of_givesUp hg, failed_of_givesUp (hgives ▸ hg),
      destroyAllocation_full hfull resultProtocol code code', hpush]
  · obtain ⟨_, _, heq⟩ := failed_of_not_givesUp hg
    obtain ⟨_, _, heq'⟩ := failed_of_not_givesUp (hgives ▸ hg)
    rw [heq, heq', completeFailure_full hfull resultProtocol code code', hpush]

/-! ### An error acts through its reading -/

/-- The request is made again, or the operation has failed. -/
theorem inputError_cases (P : Primitives) (env : Env) (s : Inner) (p : Pending) (m : Message)
    (hmethod : m.method = p.operation.method) :
    (∃ realm nonce, s.challenge m ((errorCode m).getD 0) = some (realm, nonce) ∧
      (s.setAuth P realm nonce).starts P env p.operation ∧
      s.errorReading P env p m = .retry realm nonce ∧
      s.inputError P env p m = ((s.setAuth P realm nonce).startOperation P env p.operation true
        (p.nonceRetries + 1)).2) ∨
    ∃ credentials code, s.errorReading P env p m = s.refusal p.operation credentials code env.now ∧
      (∀ realm nonce, credentials = some (realm, nonce) →
        s.challenge m ((errorCode m).getD 0) = some (realm, nonce) ∧
        ¬ (s.setAuth P realm nonce).starts P env p.operation) ∧
      s.inputError P env p m = (s.credited P credentials).failed p.operation code env.now := by
  rcases hc : s.challenged p m ((errorCode m).getD 0) with _ | ⟨realm, nonce⟩
  · refine .inr ⟨none, _, ?_, ?_, inputError_refused hmethod hc⟩
    · simp only [errorReading, hc]
    · intro realm nonce h
      exact nomatch h
  · obtain ⟨_, _, _, _, hchallenge⟩ := challenged_eq_some hc
    by_cases hstarts : (s.setAuth P realm nonce).starts P env p.operation
    · refine .inl ⟨realm, nonce, hchallenge, hstarts, ?_, inputError_retried hc hstarts⟩
      simp only [errorReading, hc, if_pos hstarts]
    · refine .inr ⟨some (realm, nonce), _, ?_, fun realm' nonce' h => ?_,
        inputError_unsent hmethod hc hstarts⟩
      · simp only [errorReading, hc, if_neg hstarts]
      · obtain ⟨rfl, rfl⟩ := Prod.mk.inj (Option.some.inj h)
        exact ⟨hchallenge, hstarts⟩

theorem refusal_failed {credentials credentials' : Option (Bytes × Bytes)} {code' : ℕ}
    (h : s.refusal operation credentials code now = s.refusal operation credentials' code' now) :
    (s.credited P credentials).failed operation code now =
      (s.credited P credentials').failed operation code' now := by
  obtain ⟨rfl, hcode, hgives⟩ := ErrorReading.refused.inj h
  by_cases hfull : s.events.length = eventCapacity
  · rcases credentials with _ | ⟨realm, nonce⟩
    · exact failed_full hfull hgives
    · exact failed_full (s := s.setAuth P realm nonce) hfull hgives
  · rw [if_neg hfull, if_neg hfull] at hcode
    rw [Option.some.inj hcode]

theorem inputError_congr {m₁ m₂ : Message} (hmethod₁ : m₁.method = p.operation.method)
    (hmethod₂ : m₂.method = p.operation.method)
    (h : s.errorReading P env p m₁ = s.errorReading P env p m₂) :
    s.inputError P env p m₁ = s.inputError P env p m₂ := by
  rcases inputError_cases P env s p m₁ hmethod₁ with
    ⟨realm, nonce, _, _, hr₁, he₁⟩ | ⟨credentials, code, hr₁, _, he₁⟩
  · rcases inputError_cases P env s p m₂ hmethod₂ with
      ⟨realm', nonce', _, _, hr₂, he₂⟩ | ⟨credentials', code', hr₂, _, he₂⟩
    · rw [hr₁, hr₂] at h
      obtain ⟨rfl, rfl⟩ := ErrorReading.retry.inj h
      rw [he₁, he₂]
    · rw [hr₁, hr₂] at h
      exact nomatch h
  · rcases inputError_cases P env s p m₂ hmethod₂ with
      ⟨realm', nonce', _, _, hr₂, he₂⟩ | ⟨credentials', code', hr₂, _, he₂⟩
    · rw [hr₁, hr₂] at h
      exact nomatch h
    · rw [hr₁, hr₂] at h
      rw [he₁, he₂, refusal_failed h]

/-! ### Reading a response off its effect -/

/-- The last report of an error, with at most `n` events behind it. -/
def Reported (s : Inner) (r : NativeEvent) (n : ℕ) : Prop :=
  ∃ old new, s.events = old ++ r :: new ∧ new.length ≤ n ∧
    ∀ e ∈ new, e.kind ≠ .stunResponseError

variable {r r' : NativeEvent} {n n' : ℕ}

theorem reported_pushEvent (hroom : s.events.length ≠ eventCapacity) (r : NativeEvent) :
    Reported (s.pushEvent r) r 0 := by
  refine ⟨s.events, [], ?_, Nat.le_refl 0, fun e he => absurd he List.not_mem_nil⟩
  rw [pushEvent, if_neg hroom]

/-- A few more events do not push the report out of the queue. -/
theorem Reported.pushEvent (h : Reported s r n) (hroom : n + 1 < eventCapacity)
    {e : NativeEvent} (he : e.kind ≠ .stunResponseError) :
    Reported (s.pushEvent e) r (n + 1) := by
  obtain ⟨old, new, hevents, hlen, hnew⟩ := h
  have hsnoc : ∀ {e : NativeEvent}, e.kind ≠ .stunResponseError →
      ∀ d ∈ new ++ [e], d.kind ≠ .stunResponseError := by
    intro e he d hd
    rcases List.mem_append.mp hd with hd | hd
    · exact hnew d hd
    · rw [List.mem_singleton.mp hd]
      exact he
  have hle : ∀ e : NativeEvent, (new ++ [e]).length ≤ n + 1 := by
    intro e
    rw [List.length_append, List.length_singleton]
    omega
  rw [Inner.pushEvent]
  by_cases hfull : s.events.length = eventCapacity
  · -- the event that is dropped is older than the report
    rcases old with _ | ⟨o, old⟩
    · rw [hevents, List.nil_append, List.length_cons] at hfull
      omega
    · refine ⟨old, new ++ [{ kind := .eventOverflow, status := resultBufferTooSmall, dropped := 1 }],
        ?_, hle _, hsnoc EventKind.noConfusion⟩
      show (if s.events.length = eventCapacity then _ else _) = _
      rw [if_pos hfull, hevents, List.cons_append, List.tail_cons, List.append_assoc,
        List.cons_append]
  · refine ⟨old, new ++ [e], ?_, hle e, hsnoc he⟩
    show (if s.events.length = eventCapacity then _ else _) = _
    rw [if_neg hfull, hevents, List.append_assoc, List.cons_append]

theorem Reported.setState (h : Reported s r n) (hroom : n + 1 < eventCapacity)
    (state : TurnState) : Reported (s.setState state) r (n + 1) := by
  rw [Inner.setState]
  split_ifs
  · obtain ⟨old, new, hevents, hlen, hnew⟩ := h
    exact ⟨old, new, hevents, by omega, hnew⟩
  · exact Reported.pushEvent (s := { s with state }) h hroom EventKind.noConfusion

theorem Reported.complete (h : Reported s r n) (hroom : n + 1 < eventCapacity)
    (operation : Operation) (status : ℤ) (code : ℕ) :
    Reported (s.complete operation status code) r (n + 1) :=
  h.pushEvent hroom fun h => nomatch h

theorem Reported.destroyAllocation (h : Reported s r n) (hroom : n + 2 < eventCapacity)
    (operation : Operation) (status : ℤ) (code : ℕ) :
    Reported (s.destroyAllocation operation status code) r (n + 2) :=
  Reported.setState (n := n + 1)
    (s := { s.complete operation status code with
      controls := []
      pending := []
      channel := none
      allocationRefresh := none
      allocationExpiresAt := none
      maintenanceRefresh := none
      permissionRetry := none
      channelRetry := none
      keepalive := none
      relay := none }) (h.complete (by omega) operation status code) hroom _

theorem scheduleMaintenanceRetry_events (s : Inner) (operation : Operation) (now : ℕ) :
    (s.scheduleMaintenanceRetry operation now).2.events = s.events := by
  rcases operation
  · rfl
  · rfl
  · rfl
  · rfl
  · simp only [scheduleMaintenanceRetry]
    split_ifs <;> rfl

theorem Reported.completeFailure (h : Reported s r n) (hroom : n + 3 < eventCapacity)
    (operation : Operation) (status : ℤ) (code now : ℕ) :
    ∃ n', Reported (s.completeFailure operation status code now) r n' := by
  have hcomplete := h.complete (by omega) operation status code
  rw [Inner.completeFailure]
  split_ifs
  · have hevents := scheduleMaintenanceRetry_events (s.complete operation status code) operation now
    rcases hr : (s.complete operation status code).scheduleMaintenanceRetry operation now with
      ⟨_ | _, t⟩
    · -- the ChannelBind has failed too often
      rw [hr] at hevents
      have ht : Reported t r (n + 1) := by
        rw [Reported, show t.events = _ from hevents]
        exact hcomplete
      refine ⟨n + 1 + 1 + 1, Reported.setState (Reported.pushEvent ?_ (by omega) ?_) (by omega) _⟩
      · exact ht
      · exact EventKind.noConfusion
    · rw [hr] at hevents
      refine ⟨n + 1, ?_⟩
      show Reported t r (n + 1)
      rw [Reported, show t.events = _ from hevents]
      exact hcomplete
  · exact ⟨_, h.destroyAllocation (by omega) _ _ _⟩

/-- There is only one last report. -/
theorem Reported.unique (h : Reported s r n) (h' : Reported s r' n')
    (hr : r.kind = .stunResponseError) (hr' : r'.kind = .stunResponseError) : r = r' := by
  have hlast : ∀ {r : NativeEvent} {n : ℕ}, Reported s r n → r.kind = .stunResponseError →
      s.events.reverse.find? (·.kind = .stunResponseError) = some r := by
    rintro r n ⟨old, new, hevents, _, hnew⟩ hr
    have hnone : new.reverse.find? (·.kind = .stunResponseError) = none := by
      rw [List.find?_eq_none]
      intro e he hkind
      exact hnew e (List.mem_reverse.mp he) (of_decide_eq_true hkind)
    rw [hevents, List.reverse_append, List.reverse_cons, List.append_assoc, List.find?_append,
      hnone, Option.none_or, List.singleton_append, List.find?_cons, hr]
    rfl
  exact Option.some.inj ((hlast h hr).symm.trans (hlast h' hr'))

theorem completeFailure_expires (h : isMaintenance operation) (hm : s.Maintained now) (status : ℤ)
    (code : ℕ) :
    (s.completeFailure operation status code now).allocationExpiresAt = s.allocationExpiresAt := by
  have hfailed := completeFailure_failed s operation status code now
  generalize s.completeFailure operation status code now = t at hfailed ⊢
  cases hfailed with
  | refresh | permission | channel | exhausted => rfl
  | destroyed hdestroyed => exact absurd ⟨h, hm⟩ hdestroyed

/-- Whether the allocation has ended is seen in its lifetime. -/
theorem failed_expires (s : Inner) (operation : Operation) (code now : ℕ) :
    (s.failed operation code now).allocationExpiresAt.isNone = s.givesUp operation code now := by
  by_cases h : s.givesUp operation code now
  · obtain ⟨_, heq⟩ := destroyAllocation_eq (s.pushEvent (report operation code s.state)) operation
      resultProtocol code
    rw [failed_of_givesUp h, heq, h]
    rfl
  · obtain ⟨hop, hm, heq⟩ := failed_of_not_givesUp h
    have hm' : (s.pushEvent (report operation code s.state)).Maintained now := hm
    obtain ⟨expires, hexpires, _⟩ := (Option.any_eq_true _ _).mp hm.2
    have hkept : (s.pushEvent (report operation code s.state)).allocationExpiresAt = some expires :=
      hexpires
    rw [heq, completeFailure_expires hop hm', hkept, Bool.eq_false_of_not_eq_true h]
    rfl

theorem failed_hasOperation (h : s.hasOperation operation = false) (code now : ℕ) :
    (s.failed operation code now).hasOperation operation = false := by
  have hpending : (s.failed operation code now).pending = s.pending ∨
      (s.failed operation code now).pending = [] := by
    rw [failed]
    split_ifs
    · obtain ⟨_, heq⟩ := destroyAllocation_eq (s.pushEvent (report operation code s.state))
        operation resultProtocol code
      exact .inr (by rw [heq])
    · exact completeFailure_pending (s.pushEvent (report operation code s.state)) operation
        resultProtocol code now
  rcases hpending with hp | hp
  · rw [hasOperation, hp]
    exact h
  · rw [hasOperation, hp]
    rfl

theorem failed_reported (hroom : s.events.length ≠ eventCapacity) (operation : Operation)
    (code now : ℕ) :
    ∃ n, Reported (s.failed operation code now) (report operation code s.state) n := by
  have hreported := reported_pushEvent hroom (report operation code s.state)
  rw [failed]
  split_ifs
  · exact ⟨_, hreported.destroyAllocation (by decide) _ _ _⟩
  · exact hreported.completeFailure (by decide) _ _ _ _

/-- The credentials of a retry, and its transaction. -/
theorem retry_effect {realm nonce : Bytes} (hnew : s.hasOperation operation = false)
    (hstarts : (s.setAuth P realm nonce).starts P env operation) (nonceRetries : ℕ) :
    let t := ((s.setAuth P realm nonce).startOperation P env operation true nonceRetries).2
    t.realm = some realm ∧ t.nonce = some nonce ∧ t.hasOperation operation := by
  have hauth : (s.setAuth P realm nonce).AuthSet := ⟨rfl, rfl, rfl⟩
  have hok : ((s.setAuth P realm nonce).startOperation P env operation true nonceRetries).1.isOk =
      (s.setAuth P realm nonce).starts P env operation := startOperation_isOk hauth nonceRetries
  rw [hstarts] at hok
  rcases startOperation_cases P env (s.setAuth P realm nonce) operation true nonceRetries with
    ⟨hhas, _, _⟩ | ⟨_, ⟨e, he⟩, _⟩ | ⟨_, _, _, q, hop, _, _, _, controls, events, heq⟩
  · exact absurd (hnew.symm.trans hhas) Bool.false_ne_true
  · rw [he] at hok
    exact absurd hok Bool.false_ne_true
  · simp only
    rw [heq]
    refine ⟨rfl, rfl, ?_⟩
    show (s.pending ++ [q]).any (·.operation = operation) = true
    rw [List.any_append, Bool.or_eq_true]
    exact .inr (List.any_eq_true.mpr ⟨q, List.mem_cons_self, decide_eq_true hop⟩)

/-- With short credentials a retry is never left unsent. -/
theorem inputError_fits (P : Primitives) (env : Env) (hmethod : m.method = p.operation.method)
    (hfits : ∀ code realm nonce, s.challenge m code = some (realm, nonce) →
      Fits (s.setAuth P realm nonce)) :
    (∃ realm nonce, (s.setAuth P realm nonce).starts P env p.operation ∧
      s.errorReading P env p m = .retry realm nonce ∧
      s.inputError P env p m = ((s.setAuth P realm nonce).startOperation P env p.operation true
        (p.nonceRetries + 1)).2) ∨
    ∃ code, s.errorReading P env p m = s.refusal p.operation none code env.now ∧
      s.inputError P env p m = s.failed p.operation code env.now := by
  rcases inputError_cases P env s p m hmethod with
    ⟨realm, nonce, _, hstarts, hr, he⟩ | ⟨credentials, code, hr, hunsent, he⟩
  · exact .inl ⟨realm, nonce, hstarts, hr, he⟩
  · right
    rcases credentials with _ | ⟨realm, nonce⟩
    · exact ⟨code, hr, he⟩
    · obtain ⟨hchallenge, hstarts⟩ := hunsent realm nonce rfl
      have hauth : (s.setAuth P realm nonce).AuthSet := ⟨rfl, rfl, rfl⟩
      have hset : true → (s.setAuth P realm nonce).AuthSet := fun _ => hauth
      have hok := (hfits _ realm nonce hchallenge).startOperation P env p.operation hset 0
      rw [← startOperation_isOk hauth 0, hok] at hstarts
      exact absurd rfl hstarts

/-- A retry leaves a transaction, and a failure leaves none. -/
theorem retry_ne_failed {realm nonce : Bytes} (hnew : s.hasOperation operation = false)
    (hstarts : (s.setAuth P realm nonce).starts P env operation) (nonceRetries code now : ℕ) :
    ((s.setAuth P realm nonce).startOperation P env operation true nonceRetries).2 ≠
      s.failed operation code now := by
  intro h
  obtain ⟨_, _, hhas⟩ := retry_effect hnew hstarts nonceRetries
  rw [h, failed_hasOperation hnew] at hhas
  exact Bool.false_ne_true hhas

theorem refusal_of_failed {code' : ℕ}
    (h : s.failed operation code now = s.failed operation code' now) :
    s.refusal operation none code now = s.refusal operation none code' now := by
  have hgives : s.givesUp operation code now = s.givesUp operation code' now := by
    rw [← failed_expires, h, failed_expires]
  rw [refusal, refusal, hgives]
  by_cases hfull : s.events.length = eventCapacity
  · rw [if_pos hfull, if_pos hfull]
  · obtain ⟨n, hn⟩ := failed_reported hfull operation code now
    obtain ⟨n', hn'⟩ := failed_reported hfull operation code' now
    rw [h] at hn
    rw [show code = code' from congrArg NativeEvent.stunCode (hn.unique hn' rfl rfl)]

/-- The reading of an error can be read off its effect. -/
theorem errorReading_of_inputError {m₁ m₂ : Message} (hnew : s.hasOperation p.operation = false)
    (hmethod₁ : m₁.method = p.operation.method) (hmethod₂ : m₂.method = p.operation.method)
    (hfits₁ : ∀ code realm nonce, s.challenge m₁ code = some (realm, nonce) →
      Fits (s.setAuth P realm nonce))
    (hfits₂ : ∀ code realm nonce, s.challenge m₂ code = some (realm, nonce) →
      Fits (s.setAuth P realm nonce))
    (h : s.inputError P env p m₁ = s.inputError P env p m₂) :
    s.errorReading P env p m₁ = s.errorReading P env p m₂ := by
  rcases inputError_fits P env hmethod₁ hfits₁ with
    ⟨realm, nonce, hs₁, hr₁, he₁⟩ | ⟨code, hr₁, he₁⟩
  · rcases inputError_fits P env hmethod₂ hfits₂ with
      ⟨realm', nonce', hs₂, hr₂, he₂⟩ | ⟨code', hr₂, he₂⟩
    · obtain ⟨hrealm, hnonce, _⟩ := retry_effect hnew hs₁ (p.nonceRetries + 1)
      obtain ⟨hrealm', hnonce', _⟩ := retry_effect hnew hs₂ (p.nonceRetries + 1)
      rw [← he₁, h, he₂] at hrealm hnonce
      rw [hr₁, hr₂, Option.some.inj (hrealm.symm.trans hrealm'),
        Option.some.inj (hnonce.symm.trans hnonce')]
    · rw [he₁, he₂] at h
      exact absurd h (retry_ne_failed hnew hs₁ _ _ _)
  · rcases inputError_fits P env hmethod₂ hfits₂ with
      ⟨realm', nonce', hs₂, hr₂, he₂⟩ | ⟨code', hr₂, he₂⟩
    · rw [he₁, he₂] at h
      exact absurd h.symm (retry_ne_failed hnew hs₂ _ _ _)
    · rw [he₁, he₂] at h
      rw [hr₁, hr₂, refusal_of_failed h]

/-! ### Reading a success off its effect -/

theorem secs_injective {lifetime lifetime' : BitVec 32}
    (h : now + secs lifetime.toNat = now + secs lifetime'.toNat) : lifetime = lifetime' := by
  rw [secs, secs] at h
  exact BitVec.eq_of_toNat_eq (by omega)

/-- The relay and the lifetime are in the state, also when the allocation is given
back at once. -/
theorem successEffect_allocated (P : Primitives) (env : Env) (operation : Operation)
    (relay : SocketAddr) (lifetime : BitVec 32) (hfits : Fits s) (hauth : s.AuthSet) :
    let r := s.successEffect P env operation (.allocated relay lifetime)
    r.1 = 0 ∧ r.2.relay = some relay ∧
      r.2.allocationExpiresAt = some (env.now + secs lifetime.toNat) := by
  simp only [successEffect]
  split_ifs
  · obtain ⟨events, hstate⟩ := setState_eq (s.allocated env.now relay (some lifetime)) .deallocating
    rw [hstate]
    set t : Inner := { s.allocated env.now relay (some lifetime) with state := .deallocating, events }
    have hauth' : true → t.AuthSet := fun _ => hauth
    have hok := Fits.startOperation P env .deallocate (show Fits t from hfits) hauth' 0
    obtain ⟨pending, controls, events', hframe⟩ := startOperation_frame P env t .deallocate true 0
    rcases hr : t.startOperation P env .deallocate true 0 with ⟨e | _, u⟩
    · rw [hr] at hok
      exact nomatch hok
    · rw [hr] at hframe
      obtain rfl : u = _ := hframe
      exact ⟨rfl, rfl, rfl⟩
  · obtain ⟨events, hstate⟩ := setState_eq (s.allocated env.now relay (some lifetime)) .ready
    rw [hstate]
    exact ⟨rfl, rfl, rfl⟩

/-- The readings that a success of this operation can have. -/
def Answers (operation : Operation) : SuccessReading → Prop
  | .unusable => True
  | .allocated _ _ => operation = .allocate
  | .refreshed _ => operation = .refresh
  | .done => operation ≠ .allocate ∧ operation ≠ .refresh

theorem successReading_answers (s : Inner) (operation : Operation) (m : Message) :
    Answers operation (s.successReading operation m) := by
  rcases operation
  · simp only [successReading]
    rcases s.relayed m with e | relay
    · trivial
    · show Answers _ (ite _ _ _)
      split_ifs
      · trivial
      · rfl
  · simp only [successReading]
    split_ifs
    · trivial
    · rfl
  · simp only [successReading]
    split_ifs
    · trivial
    · exact ⟨Operation.noConfusion, Operation.noConfusion⟩
  · exact ⟨Operation.noConfusion, Operation.noConfusion⟩
  · exact ⟨Operation.noConfusion, Operation.noConfusion⟩

/-- Only a success that is of use is answered by zero. -/
theorem successEffect_status (hfits : Fits s) (hauth : s.AuthSet) (r : SuccessReading) :
    (s.successEffect P env operation r).1 = 0 ↔ r ≠ .unusable := by
  rcases r with _ | ⟨relay, lifetime⟩ | lifetime | _
  · refine ⟨fun h => ?_, fun h => absurd rfl h⟩
    exact absurd (show resultProtocol = 0 from h) (by decide)
  · exact iff_of_true (successEffect_allocated P env operation relay lifetime hfits hauth).1
      SuccessReading.noConfusion
  · exact iff_of_true rfl SuccessReading.noConfusion
  · exact iff_of_true rfl SuccessReading.noConfusion

theorem successEffect_injective {r r' : SuccessReading} (hfits : Fits s) (hauth : s.AuthSet)
    (hr : Answers operation r) (hr' : Answers operation r')
    (h : s.successEffect P env operation r = s.successEffect P env operation r') : r = r' := by
  have hstatus : r ≠ .unusable ↔ r' ≠ .unusable := by
    have hiff : (s.successEffect P env operation r).1 = 0 ↔ r ≠ .unusable :=
      successEffect_status hfits hauth r
    rw [← hiff, h, successEffect_status hfits hauth]
  rcases r with _ | ⟨relay, lifetime⟩ | lifetime | _
  · by_contra hne
    exact hstatus.mpr (Ne.symm hne) rfl
  · rcases r' with _ | ⟨relay', lifetime'⟩ | lifetime' | _
    · exact absurd rfl (hstatus.mp SuccessReading.noConfusion)
    · obtain ⟨_, hrelay, hexpires⟩ := successEffect_allocated P env operation relay lifetime
        hfits hauth
      obtain ⟨_, hrelay', hexpires'⟩ := successEffect_allocated P env operation relay'
        lifetime' hfits hauth
      rw [h] at hrelay hexpires
      rw [Option.some.inj (hrelay.symm.trans hrelay'),
        secs_injective (Option.some.inj (hexpires.symm.trans hexpires'))]
    · exact Operation.noConfusion (hr.symm.trans hr')
    · exact absurd hr hr'.1
  · rcases r' with _ | ⟨relay', lifetime'⟩ | lifetime' | _
    · exact absurd rfl (hstatus.mp SuccessReading.noConfusion)
    · exact Operation.noConfusion (hr.symm.trans hr')
    · have hexpires : some (env.now + secs lifetime.toNat) = some (env.now + secs lifetime'.toNat) :=
        congrArg (fun r => r.2.allocationExpiresAt) h
      rw [secs_injective (Option.some.inj hexpires)]
    · exact absurd hr hr'.2
  · rcases r' with _ | ⟨relay', lifetime'⟩ | lifetime' | _
    · exact absurd rfl (hstatus.mp SuccessReading.noConfusion)
    · exact absurd hr' hr.1
    · exact absurd hr' hr.2
    · rfl

/-! ### Two responses with the same signed bytes -/

/-- Both responses say the same, as far as the core looks. -/
def Alike (P : Primitives) (env : Env) (s : Inner) (p : Pending) (m₁ m₂ : Message) : Prop :=
  if m₁.class = .error then s.errorReading P env p m₁ = s.errorReading P env p m₂
  else s.successReading p.operation m₁ = s.successReading p.operation m₂

/-- A signed response to this transaction. -/
structure Authentic (P : Primitives) (s : Inner) (p : Pending) (packet : Bytes) (m : Message) :
    Prop where
  decoded : Message.decode packet = .ok m
  response : m.class = .success ∨ m.class = .error
  fingerprint : m.fingerprintValid P ≠ some false
  answers : s.pending.find? (·.answeredBy m) = some p
  verified : verifyIntegrity P packet m s.key

section Pair

variable {packet packet₁ packet₂ : Bytes} {m₁ m₂ : Message}

theorem Authentic.answered (h : s.Authentic P p packet m) : p.answeredBy m := by
  have hp := List.find?_some h.answers
  exact hp

theorem Authentic.transaction (h : s.Authentic P p packet m) : m.transaction = p.transaction := by
  have hp := h.answered
  rw [Pending.answeredBy, Bool.and_eq_true, decide_eq_true_eq] at hp
  exact hp.1.symm

theorem Authentic.method (h : s.Authentic P p packet m) : m.method = p.operation.method := by
  have hp := h.answered
  rw [Pending.answeredBy, Bool.and_eq_true, decide_eq_true_eq, decide_eq_true_eq] at hp
  exact hp.2.symm

theorem Authentic.inputStun (h : s.Authentic P p packet m) :
    NativeCore.inputStun P env s packet = (s.withdraw m).inputAccepted P env p m := by
  have htrusted : s.unauthentic P packet p m = false := by
    rw [unauthentic, h.verified, Bool.not_true, Bool.and_false, Bool.false_and]
  rw [inputStun_answers h.decoded h.response h.fingerprint h.answers, inputResponse, htrusted,
    if_neg Bool.false_ne_true]

/-- The bytes of the message type are signed. -/
theorem Authentic.kind (h : s.Authentic P p packet m) :
    ∃ k₀ k₁ rest, signedBytes packet m = some ([k₀, k₁], rest) ∧ m.kind = be16 k₀ k₁ := by
  obtain ⟨_, _, ⟨k₀, k₁, hkind, hm⟩, _⟩ := decode_eq_ok h.decoded
  obtain ⟨a, ha, hstart⟩ := verifyIntegrity_start h.verified
  refine ⟨k₀, k₁, (packet.take a.headerStart).drop 4, ?_, hm⟩
  rw [signedBytes, ha, Option.map_some, List.take_take, min_eq_left (by omega), hkind]

theorem Authentic.class_eq (h₁ : s.Authentic P p packet₁ m₁) (h₂ : s.Authentic P p packet₂ m₂)
    (hsigned : signedBytes packet₁ m₁ = signedBytes packet₂ m₂) : m₁.class = m₂.class := by
  obtain ⟨k₀, k₁, rest, hbytes, hkind⟩ := h₁.kind
  obtain ⟨k₀', k₁', rest', hbytes', hkind'⟩ := h₂.kind
  rw [hbytes, hbytes'] at hsigned
  obtain ⟨hk, _⟩ := Prod.mk.inj (Option.some.inj hsigned)
  obtain ⟨hk₀, hk₁⟩ := List.cons.inj hk
  rw [Message.class, Message.class, hkind, hkind', hk₀, (List.cons.inj hk₁).1]

theorem Authentic.withdraw_eq (h₁ : s.Authentic P p packet₁ m₁)
    (h₂ : s.Authentic P p packet₂ m₂) : s.withdraw m₁ = s.withdraw m₂ := by
  have hanswers : ∀ q : Pending, q.answeredBy m₁ = q.answeredBy m₂ := by
    intro q
    rw [Pending.answeredBy, Pending.answeredBy, h₁.transaction, h₂.transaction, h₁.method, h₂.method]
  simp only [withdraw, hanswers, h₁.transaction, h₂.transaction]

theorem inputAccepted_error (hclass : m.class = .error) :
    s.inputAccepted P env p m = (0, s.inputError P env p m) := by
  have hnot : ¬ (m.class = .success ∧ ¬ p.authenticated) := by
    rw [hclass]
    exact fun h => Class.noConfusion h.1
  rw [inputAccepted, if_neg hnot, if_pos hclass]

theorem inputAccepted_success (hauth : p.authenticated) (hclass : m.class ≠ .error) :
    s.inputAccepted P env p m = s.inputSuccess P env p m := by
  rw [inputAccepted, if_neg fun h => h.2 hauth, if_neg hclass]

/-- Responses that say the same have the same effect, in every state. -/
theorem inputStun_of_alike (h₁ : s.Authentic P p packet₁ m₁) (h₂ : s.Authentic P p packet₂ m₂)
    (hauth : p.authenticated) (hsigned : signedBytes packet₁ m₁ = signedBytes packet₂ m₂)
    (halike : (s.withdraw m₁).Alike P env p m₁ m₂) :
    NativeCore.inputStun P env s packet₁ = NativeCore.inputStun P env s packet₂ := by
  have hclass := h₁.class_eq h₂ hsigned
  rw [h₁.inputStun, h₂.inputStun, ← h₁.withdraw_eq h₂]
  rw [Alike] at halike
  split_ifs at halike with herror
  · rw [inputAccepted_error herror, inputAccepted_error (hclass ▸ herror),
      inputError_congr h₁.method h₂.method halike]
  · rw [inputAccepted_success hauth herror, inputAccepted_success hauth (hclass ▸ herror),
      inputSuccess_eq, inputSuccess_eq, halike]

/-- In a core with short credentials, the response can be read off its effect. -/
theorem alike_of_inputStun (hb : Base s) (hheld : Held s) (h₁ : s.Authentic P p packet₁ m₁)
    (h₂ : s.Authentic P p packet₂ m₂) (hauth : p.authenticated)
    (hsigned : signedBytes packet₁ m₁ = signedBytes packet₂ m₂)
    (hlen₁ : packet₁.length ≤ 4096) (hlen₂ : packet₂.length ≤ 4096)
    (heq : NativeCore.inputStun P env s packet₁ = NativeCore.inputStun P env s packet₂) :
    (s.withdraw m₁).Alike P env p m₁ m₂ := by
  have hclass := h₁.class_eq h₂ hsigned
  have hfits : Fits (s.withdraw m₁) := hheld.1
  have hset : (s.withdraw m₁).AuthSet :=
    hb.signed p (List.mem_of_find?_eq_some h₁.answers) hauth
  have hnew : (s.withdraw m₁).hasOperation p.operation = false := by
    rw [hasOperation, List.any_eq_false]
    intro q hq hop
    exact (hb.remove (find?_cons_eraseP_perm h₁.answers)).2.2
      (List.mem_map.mpr ⟨q, hq, of_decide_eq_true hop⟩)
  rw [h₁.inputStun, h₂.inputStun, ← h₁.withdraw_eq h₂] at heq
  rw [Alike]
  split_ifs with herror
  · rw [inputAccepted_error herror, inputAccepted_error (hclass ▸ herror)] at heq
    exact errorReading_of_inputError hnew h₁.method h₂.method
      (fun _ _ _ hc => hfits.challenge h₁.decoded hlen₁ hc)
      (fun _ _ _ hc => hfits.challenge h₂.decoded hlen₂ hc) (Prod.mk.inj heq).2
  · rw [inputAccepted_success hauth herror, inputAccepted_success hauth (hclass ▸ herror),
      inputSuccess_eq, inputSuccess_eq] at heq
    exact successEffect_injective hfits hset (successReading_answers _ _ _)
      (successReading_answers _ _ _) heq

/-- The core is reached from a new one, with packets of at most 4096 bytes. -/
def Reached (P : Primitives) (s : Inner) : Prop :=
  ∃ s₀ server peer username password transport, ∃ calls : List (Env × Call),
    NativeCore.create server username password peer transport = .ok s₀ ∧
      (∀ c ∈ calls, c.2.Short) ∧ Transition.run (NativeCore.step P) s₀ calls = some s

theorem Reached.kept (h : Reached P s) : Base s ∧ Held s := by
  obtain ⟨s₀, server, peer, username, password, transport, calls, hcreate, hshort, hrun⟩ := h
  exact kept_of_run hcreate hshort hrun

/-- **What acts on the core.**  Two responses to the same request with the same signed
bytes have the same effect when they say the same, and in a core that can be reached
only then. -/
theorem signed_response_iff (P : Primitives) (env : Env) (hauth : p.authenticated)
    (h₁ : s.Authentic P p packet₁ m₁) (h₂ : s.Authentic P p packet₂ m₂)
    (hsigned : signedBytes packet₁ m₁ = signedBytes packet₂ m₂) :
    ((s.withdraw m₁).Alike P env p m₁ m₂ →
      NativeCore.inputStun P env s packet₁ = NativeCore.inputStun P env s packet₂) ∧
    (Reached P s → packet₁.length ≤ 4096 → packet₂.length ≤ 4096 →
      NativeCore.inputStun P env s packet₁ = NativeCore.inputStun P env s packet₂ →
      (s.withdraw m₁).Alike P env p m₁ m₂) := by
  refine ⟨inputStun_of_alike h₁ h₂ hauth hsigned, fun hreached hlen₁ hlen₂ heq => ?_⟩
  obtain ⟨hb, hheld⟩ := hreached.kept
  exact alike_of_inputStun hb hheld h₁ h₂ hauth hsigned hlen₁ hlen₂ heq

end Pair

/-! ### An attribute behind MESSAGE-INTEGRITY -/

/-- The signed Allocate success of the handshake, with `rest` behind its
MESSAGE-INTEGRITY. -/
def grantAttributes (P : Primitives) (rest : List (BitVec 16 × Bytes)) :
    List (BitVec 16 × Bytes) :=
  signed P (freshKey P) 0x0103 ((moment 0 1).transaction .allocate) allocatedAttributes ++ rest

def grantPacket (P : Primitives) (rest : List (BitVec 16 × Bytes)) : Bytes :=
  spelled 0x0103 ((moment 0 1).transaction .allocate) (grantAttributes P rest)

def grantMessage (P : Primitives) (rest : List (BitVec 16 × Bytes)) : Message :=
  messageOf 0x0103 ((moment 0 1).transaction .allocate) (grantAttributes P rest)

/-- The core that waits for its second Allocate request to be answered. -/
theorem reached_challenged (P : Primitives) :
    ∃ s packet, Reached P s ∧ Quiet (challengedCore P packet) s := by
  obtain ⟨packet, h₁⟩ := handshake_started P
  obtain ⟨packet', h₂⟩ := handshake_challenged h₁
  refine ⟨_, packet', ⟨freshCore, _, _, _, _, _, (handshake P).take 2, create_freshCore, ?_, rfl⟩, h₂⟩
  exact fun c hc => handshake_short P c (List.mem_of_mem_take hc)

variable {rest : List (BitVec 16 × Bytes)} {packet : Bytes}

theorem grant_length (P : Primitives) (rest : List (BitVec 16 × Bytes)) :
    (fields (grantAttributes P rest)).length = 36 + (fields rest).length := by
  rw [grantAttributes, fields_append, List.length_append, signed_length]
  rfl

theorem grant_authentic (rest : List (BitVec 16 × Bytes)) (h : Quiet (challengedCore P packet) s)
    (hrest : (fields rest).length ≤ 16)
    (hfingerprint : (grantMessage P rest).fingerprintValid P ≠ some false) :
    s.Authentic P (freshCore.begun (moment 0 1) .allocate packet true 1) (grantPacket P rest)
      (grantMessage P rest) := by
  obtain ⟨controls, events, rfl⟩ := h
  refine ⟨decode_spelled (by decide) (by decide) ?_, .inl ?_, hfingerprint, ?_, ?_⟩
  · have hlen := grant_length P rest
    omega
  · show kindClass 0x0103 = .success
    decide
  · have hanswered : (freshCore.begun (moment 0 1) .allocate packet true 1).answeredBy
        (grantMessage P rest) := by
      rw [Pending.answeredBy, Bool.and_eq_true]
      refine ⟨decide_eq_true rfl, ?_⟩
      show decide ((3 : BitVec 16) = kindMethod 0x0103) = true
      decide
    exact List.find?_cons_of_pos hanswered
  · exact verifyIntegrity_signed P (freshKey P) 0x0103 _ rest (by decide) (by decide)

theorem grant_signedBytes (P : Primitives) (rest rest' : List (BitVec 16 × Bytes)) :
    signedBytes (grantPacket P rest) (grantMessage P rest) =
      signedBytes (grantPacket P rest') (grantMessage P rest') := by
  have hbytes : ∀ rest, signedBytes (grantPacket P rest) (grantMessage P rest) = _ :=
    fun rest => signedBytes_signed rest (by decide)
  rw [hbytes, hbytes]

/-- The LIFETIME is read wherever it stands. -/
theorem grant_reading (h : Quiet (challengedCore P packet) s) (lifetime : BitVec 32)
    (hlifetime : (attributeU32 (grantMessage P rest) attrLifetime).getD
      requestedAllocationLifetime = lifetime) (hpositive : lifetime ≠ 0) (m : Message) :
    (s.withdraw m).successReading .allocate (grantMessage P rest) =
      .allocated relayAddr lifetime := by
  obtain ⟨controls, events, rfl⟩ := h
  have hrelay : Inner.relayed (withdraw { challengedCore P packet with controls, events } m)
      (grantMessage P rest) = .ok relayAddr := rfl
  rw [successReading]
  simp only [hrelay, hlifetime, if_neg hpositive]

theorem grantPacket_length (P : Primitives) (hrest : (fields rest).length ≤ 16) :
    (grantPacket P rest).length ≤ 4096 := by
  have hlen := grant_length P rest
  rw [grantPacket, spelled, List.length_append, header_length, headerSize]
  omega

theorem grant_alike (rest rest' : List (BitVec 16 × Bytes)) (packet : Bytes) :
    s.Alike P env (freshCore.begun (moment 0 1) .allocate packet true 1) (grantMessage P rest)
        (grantMessage P rest') ↔
      s.successReading .allocate (grantMessage P rest) =
        s.successReading .allocate (grantMessage P rest') := by
  have hclass : (grantMessage P rest).class ≠ .error := by
    show kindClass 0x0103 ≠ .error
    decide
  rw [Alike, if_neg hclass]
  rfl

/-- A LIFETIME behind MESSAGE-INTEGRITY that says what its absence says. -/
theorem same_lifetime_behind_integrity :
    ∃ (s : Inner) (packet : Bytes), Reached zeroDigests s ∧
      NativeCore.inputStun zeroDigests (moment 0 2) s (grantPacket zeroDigests []) =
        NativeCore.inputStun zeroDigests (moment 0 2) s
          (grantPacket zeroDigests [(attrLifetime, bytes32 600)]) ∧
      (s.withdraw (grantMessage zeroDigests [])).Alike zeroDigests (moment 0 2)
        (freshCore.begun (moment 0 1) .allocate packet true 1) (grantMessage zeroDigests [])
          (grantMessage zeroDigests [(attrLifetime, bytes32 600)]) := by
  obtain ⟨s, packet, hreached, hquiet⟩ := reached_challenged zeroDigests
  have h₁ := grant_authentic [] hquiet (by decide) fun h => nomatch h
  have h₂ := grant_authentic [(attrLifetime, bytes32 600)] hquiet (by decide)
    fun h => nomatch h
  have halike : (s.withdraw (grantMessage zeroDigests [])).Alike zeroDigests (moment 0 2)
      (freshCore.begun (moment 0 1) .allocate packet true 1) (grantMessage zeroDigests [])
        (grantMessage zeroDigests [(attrLifetime, bytes32 600)]) := by
    rw [grant_alike, grant_reading hquiet 600 rfl (by decide),
      grant_reading hquiet 600 rfl (by decide)]
  have h := signed_response_iff zeroDigests (moment 0 2) rfl h₁ h₂ (grant_signedBytes _ _ _)
  exact ⟨s, packet, hreached, h.1 halike, h.2 hreached (grantPacket_length _ (by decide))
    (grantPacket_length _ (by decide)) (h.1 halike)⟩

/-- A LIFETIME that is not signed sets the lifetime of the allocation. -/
theorem lifetime_behind_integrity :
    ¬ ∃ P : Primitives, ∀ (env : Env) (s : Inner) (p : Pending) (packet₁ packet₂ : Bytes)
      (m₁ m₂ : Message), Reached P s → p.authenticated → s.Authentic P p packet₁ m₁ →
      s.Authentic P p packet₂ m₂ → signedBytes packet₁ m₁ = signedBytes packet₂ m₂ →
      NativeCore.inputStun P env s packet₁ = NativeCore.inputStun P env s packet₂ := by
  rintro ⟨P, hclaim⟩
  obtain ⟨s, packet, hreached, hquiet⟩ := reached_challenged P
  have h₁ := grant_authentic [(attrLifetime, bytes32 600)] hquiet (by decide)
    fun h => nomatch h
  have h₂ := grant_authentic [(attrLifetime, bytes32 300)] hquiet (by decide)
    fun h => nomatch h
  have hsigned := grant_signedBytes P [(attrLifetime, bytes32 600)] [(attrLifetime, bytes32 300)]
  have heq := hclaim (moment 0 2) s _ _ _ _ _ hreached rfl h₁ h₂ hsigned
  have halike := alike_of_inputStun hreached.kept.1 hreached.kept.2 h₁ h₂ rfl hsigned
    (grantPacket_length P (by decide)) (grantPacket_length P (by decide)) heq
  rw [grant_alike, grant_reading hquiet 600 rfl (by decide),
    grant_reading hquiet 300 rfl (by decide)] at halike
  exact absurd (SuccessReading.allocated.inj halike).2 (by decide)

end Inner

end Csqtt.Turn
