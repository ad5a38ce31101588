/-
The time slept, and what a driver takes off the expiry of its allocation.

`wake::signal` leaves the gap in one place for all drivers and announces it with the
epoch; `observe_wake` reads the two one after the other and hands the gap to
`resync_after_suspend`.  The ledger beside the state adds up what has been announced and
what has been handed over, and knows what the server has granted.

* `gap_overwritten` — a nudge overwrites the gap of a suspend that the driver has not
  looked at yet: ten minutes are lost, and the expired allocation stays;
* `applied_once` — in runs in which no gap is overwritten or announced twice before the
  driver has taken it, and no grant comes in between (`Lossless`), each gap is taken off
  exactly once.

That only a grant moves the expiry of a READY core otherwise is `still_after`.
-/
import Csqtt.TurnLoop
import Csqtt.TurnCleanup

namespace Csqtt.Turn

open Stun Transition

namespace Inner

variable {P : Primitives} {env : Env} {s t u : Inner} {operation : Operation} {p : Pending}
  {now : ℕ}

/-! ### Who moves the expiry -/

/-- If the core is READY afterwards it was READY before, with the same expiry. -/
structure Still (s t : Inner) : Prop where
  before : t.state = .ready → s.state = .ready ∧ t.allocationExpiresAt = s.allocationExpiresAt

theorem Still.refl (s : Inner) : Still s s := ⟨fun h => ⟨h, rfl⟩⟩

theorem Still.trans (h : Still s t) (h' : Still t u) : Still s u := by
  refine ⟨fun hu => ?_⟩
  obtain ⟨ht, heq⟩ := h'.before hu
  obtain ⟨hs, heq'⟩ := h.before ht
  exact ⟨hs, heq.trans heq'⟩

theorem Still.of_same (hstate : t.state = s.state)
    (hexpires : t.allocationExpiresAt = s.allocationExpiresAt) : Still s t :=
  ⟨fun h => ⟨hstate.symm.trans h, hexpires⟩⟩

/-- Fields that say nothing about the expiry were written before. -/
theorem Still.over (h : Still t u) (hstate : t.state = s.state)
    (hexpires : t.allocationExpiresAt = s.allocationExpiresAt) : Still s u :=
  (Still.of_same hstate hexpires).trans h

theorem Still.of_left (h : t.state ≠ .ready) : Still s t := ⟨fun ht => absurd ht h⟩

theorem Quiet.still (h : Quiet s t) : Still s t := by
  obtain ⟨controls, events, rfl⟩ := h
  exact .of_same rfl rfl

theorem still_startOperation (P : Primitives) (env : Env) (s : Inner) (operation : Operation)
    (authenticated : Bool) (nonceRetries : ℕ) :
    Still s (s.startOperation P env operation authenticated nonceRetries).2 := by
  obtain ⟨pending, hquiet⟩ := startOperation_frame P env s operation authenticated nonceRetries
  exact hquiet.still.over rfl rfl

theorem Still.startOperation {authenticated : Bool} {nonceRetries : ℕ} (h : Still s t) :
    Still s (t.startOperation P env operation authenticated nonceRetries).2 :=
  h.trans (still_startOperation P env t operation authenticated nonceRetries)

theorem still_setState (s : Inner) {state : TurnState} (h : state ≠ .ready) :
    Still s (s.setState state) :=
  .of_left (by rwa [setState_state])

theorem destroyAllocation_ne_ready (s : Inner) (operation : Operation) (status : ℤ)
    (stunCode : ℕ) : (s.destroyAllocation operation status stunCode).state ≠ .ready := by
  rw [destroyAllocation, setState_state]
  split <;> exact TurnState.noConfusion

theorem still_destroyAllocation (s : Inner) (operation : Operation) (status : ℤ) (stunCode : ℕ) :
    Still s (s.destroyAllocation operation status stunCode) :=
  .of_left (destroyAllocation_ne_ready s operation status stunCode)

theorem still_completeFailure (s : Inner) (operation : Operation) (status : ℤ)
    (stunCode now : ℕ) : Still s (s.completeFailure operation status stunCode now) := by
  have hfailed := completeFailure_failed s operation status stunCode now
  generalize s.completeFailure operation status stunCode now = t at hfailed ⊢
  cases hfailed with
  | refresh | permission | channel => exact .of_same rfl rfl
  | exhausted => exact .of_left TurnState.noConfusion
  | destroyed => exact still_destroyAllocation s operation status stunCode

theorem still_expire (s : Inner) (index : ℕ) (p : Pending) (now : ℕ) :
    Still s (s.expire index p now) :=
  (still_completeFailure _ _ _ _ _).over rfl rfl

theorem still_expireFrom (s : Inner) (now index : ℕ) : Still s (s.expireFrom now index) := by
  fun_induction expireFrom s now index with
  | case1 s index h p hearly ih => exact ih
  | case2 s index h p hlate hexhausted ih => exact (still_expire s index p now).trans ih
  | case3 s index h p hlate hagain ih =>
    exact (queuePacket_quiet s p.packet).still.trans (ih.over rfl rfl)
  | case4 s index h => exact .refl s

theorem still_andThen {α β : Type} {r : Outcome α} {f : α → Inner → Outcome β}
    (hr : Still s r.2) (hf : ∀ a t, Still t (f a t).2) : Still s (r.andThen f).2 :=
  andThen_keeps hr fun a t ht => ht.trans (hf a t)

theorem still_pollReady (P : Primitives) (env : Env) (s : Inner) :
    Still s (s.pollReady P env).2 := by
  have hrefresh : Still s (s.pollRefresh P env).2 := by
    rw [pollRefresh]
    split
    · exact (still_startOperation ..).over rfl rfl
    · exact .refl s
  refine still_andThen hrefresh fun _ t => ?_
  have hpermission : ∀ due₁ due₂ : Bool,
      Still t ((t.pollMaintenance env due₁).pollPermission P env due₂).2 := by
    intro due₁ due₂
    have hmaintenance : Still t (t.pollMaintenance env due₁) := by
      rw [pollMaintenance]
      split
      · exact .of_same rfl rfl
      · exact .refl t
    refine hmaintenance.trans ?_
    rw [pollPermission]
    split
    · exact (still_startOperation ..).over rfl rfl
    · exact .refl _
  refine still_andThen (hpermission _ _) fun _ t => ?_
  have hchannel : ∀ due₁ : Bool, Still t (t.pollChannel P env due₁).2 := by
    intro due₁
    rw [pollChannel]
    split
    · exact (still_startOperation ..).over rfl rfl
    · exact .refl t
  refine still_andThen (hchannel _) fun _ t => ?_
  show Still t (t.pollKeepalive env)
  rw [pollKeepalive]
  split
  · exact (queueKeepalive_quiet _).still.over rfl rfl
  · exact .refl t

theorem still_poll (P : Primitives) (env : Env) (s : Inner) :
    Still s (NativeCore.poll P env s).2 := by
  rw [NativeCore.poll]
  split
  · exact .refl s
  refine still_andThen ?_ fun _ t => Still.refl t
  have hexpiry : Still s ((s.expireTransactions env.now).pollExpiry env) := by
    refine (still_expireFrom s env.now 0).trans ?_
    rw [pollExpiry]
    split
    · exact still_destroyAllocation _ _ _ _
    · exact .refl _
  refine hexpiry.trans ?_
  rw [pollActive]
  split
  · exact still_pollReady P env _
  · exact .refl _

/-! ### A packet -/

/-- The answer of the server that grants an allocation, or a lifetime of it. -/
def grants (P : Primitives) (env : Env) (s : Inner) : Call → Bool
  | .inputStun packet =>
    match Message.decode packet with
    | .error _ => false
    | .ok m =>
      m.class = .success &&
        ((s.pending.find? (·.answeredBy m)).any fun p =>
          p.operation = .allocate && !s.shuttingDown || p.operation = .refresh) &&
        (NativeCore.inputStun P env s packet).1 = 0
  | _ => false

theorem still_inputError (P : Primitives) (env : Env) (s : Inner) (p : Pending) (m : Message) :
    Still s (s.inputError P env p m) := by
  have hreport : ∀ (t : Inner) (status : ℤ) (code : ℕ) (state : TurnState),
      Still t (t.reportError m status code state) :=
    fun t _ _ _ => (pushEvent_quiet t _).still
  have hrefuse : ∀ (t : Inner) (status : ℤ) (code code' : ℕ) (state : TurnState),
      Still t ((t.reportError m status code state).completeFailure p.operation resultProtocol
        code' env.now) :=
    fun t status code code' state => (hreport t status code state).trans (still_completeFailure ..)
  rw [inputError]
  simp only
  split
  · exact hrefuse ..
  split
  · exact (hreport ..).trans (still_destroyAllocation ..)
  · rcases hretried : s.retried P env p m ((errorCode m).getD 0) with _ | ⟨r, t⟩
    · exact hrefuse ..
    · obtain ⟨realm, nonce, -, hr⟩ := retried_eq_some hretried
      have hstart : Still s t := by
        rw [show t = _ from congrArg Prod.snd hr]
        exact (still_startOperation ..).over rfl rfl
      rcases r with e | _
      · -- the request could not be made again
        exact hstart.trans ((pushEvent_quiet t _).still.trans (still_completeFailure ..))
      · exact hstart

/-- A success that grants nothing. -/
theorem still_completeSuccess (P : Primitives) (env : Env) (s : Inner) (m : Message)
    (h : operation = .allocate ∧ s.shuttingDown = false ∨ operation = .refresh →
      ∃ e, (s.completeSuccess P env operation m).1 = .error e) :
    Still s (s.completeSuccess P env operation m).2 := by
  cases operation with
  | allocate =>
    by_cases herror : (∃ e, s.relayed m = .error e) ∨
        (attributeU32 m attrLifetime).getD requestedAllocationLifetime = 0
    · obtain ⟨e, heq⟩ := completeSuccess_allocate_error P env herror
      rw [heq]
      exact .refl s
    · rw [not_or, not_exists] at herror
      obtain ⟨relay, hrelay⟩ : ∃ relay, s.relayed m = .ok relay := by
        rcases hr : s.relayed m with e | relay
        · exact absurd hr (herror.1 e)
        · exact ⟨relay, rfl⟩
      rw [completeSuccess_allocate hrelay herror.2]
      split
      · -- given back at once
        obtain ⟨pending, hquiet⟩ := startOperation_frame P env
          ((s.allocated env.now relay (attributeU32 m attrLifetime)).setState .deallocating)
          .deallocate true 0
        obtain ⟨controls, events, heq⟩ := hquiet
        refine .of_left ?_
        rw [heq]
        show (Inner.setState _ _).state ≠ _
        rw [setState_state]
        exact TurnState.noConfusion
      · rename_i hopen
        obtain ⟨e, he⟩ := h (.inl ⟨rfl, Bool.eq_false_iff.mpr hopen⟩)
        rw [completeSuccess_allocate hrelay herror.2, if_neg hopen] at he
        cases he
  | refresh =>
    obtain ⟨e, he⟩ := h (.inr rfl)
    rw [completeSuccess] at he ⊢
    split
    · exact .refl s
    · rename_i hlifetime
      rw [if_neg hlifetime] at he
      cases he
  | deallocate =>
    rw [completeSuccess]
    split
    · exact .refl s
    · exact .of_left (by rw [setState_state]; exact TurnState.noConfusion)
  | permission => exact (complete_quiet ..).still.over rfl rfl
  | channel =>
    exact ((pushEvent_quiet ..).still.trans (complete_quiet ..).still).over rfl rfl

theorem still_inputStun (P : Primitives) (env : Env) (s : Inner) (packet : Bytes)
    (h : s.grants P env (.inputStun packet) = false) :
    Still s (NativeCore.inputStun P env s packet).2 := by
  rcases inputStun_cases P env s packet with heq | ⟨m, p, hdecode, hclass, hp, heq⟩
  · rw [heq]
    exact .refl s
  simp only [grants, hdecode, hp, Option.any_some] at h
  rw [heq] at h ⊢
  rcases inputResponse_cases P env s packet p m with
    ⟨_, hleft | ⟨code, hleft⟩⟩ | ⟨_, haccepted⟩
  · rw [hleft]
    exact .refl s
  · rw [hleft]
    exact (pushEvent_quiet s _).still
  · rw [haccepted] at h ⊢
    have hwithdraw : Still s (s.withdraw m) :=
      (removeQueuedTransaction_quiet _ _).still.over rfl rfl
    refine hwithdraw.trans ?_
    rw [inputAccepted] at h ⊢
    split
    · exact still_completeFailure ..
    rename_i hsigned
    rw [if_neg hsigned] at h
    split
    · exact still_inputError ..
    rename_i herror
    rw [if_neg herror] at h
    have hsuccess : m.class = .success := hclass.resolve_right herror
    rw [inputSuccess] at h ⊢
    have hstill : (p.operation = .allocate ∧ (s.withdraw m).shuttingDown = false ∨
        p.operation = .refresh → ∃ e, ((s.withdraw m).completeSuccess P env p.operation m).1 = .error e) →
        Still (s.withdraw m) ((s.withdraw m).completeSuccess P env p.operation m).2 :=
      still_completeSuccess P env (s.withdraw m) m
    rcases hr : (s.withdraw m).completeSuccess P env p.operation m with ⟨e | _, t⟩
    · rw [hr] at hstill
      exact (hstill fun _ => ⟨e, rfl⟩).trans (still_completeFailure ..)
    · rw [hr] at hstill h
      refine hstill fun hop => ?_
      rcases hop with ⟨hop, hopen⟩ | hop
      · change s.shuttingDown = false at hopen
        simp [hsuccess, hop, hopen] at h
      · simp [hsuccess, hop] at h

/-- Nothing but a grant and a resync makes a core READY or moves its expiry. -/
theorem still_after (P : Primitives) (env : Env) (s : Inner) (call : Call)
    (hgrant : s.grants P env call = false) (hresync : ∀ gap, call ≠ .resyncAfterSuspend gap) :
    Still s (NativeCore.after P env s call) := by
  cases call with
  | startAllocation =>
    simp only [NativeCore.after, NativeCore.startAllocation]
    refine still_andThen (.refl s) fun _ t => ?_
    split
    · exact .refl t
    · exact (still_setState t TurnState.noConfusion).startOperation
  | startChannel =>
    exact still_andThen (.refl s) fun _ t => still_startOperation ..
  | startPermission =>
    exact still_andThen (.refl s) fun _ t => still_startOperation ..
  | inputStun packet => exact still_inputStun P env s packet hgrant
  | poll => exact still_poll P env s
  | resyncAfterSuspend gap => exact absurd rfl (hresync gap)
  | pullControl =>
    simp only [NativeCore.after, NativeCore.pullControl]
    split
    · exact .refl s
    · split <;> exact .of_same rfl rfl
  | pullEvent => exact .of_same rfl rfl
  | gracefulShutdown =>
    simp only [NativeCore.after, NativeCore.gracefulShutdown]
    split
    · exact .refl s
    split
    · exact ((still_setState _ TurnState.noConfusion).startOperation).over rfl rfl
    split <;> exact .of_same rfl rfl
  | forceDestroy status =>
    simp only [NativeCore.after, NativeCore.forceDestroy]
    split
    · exact .refl s
    · exact ((still_setState _ TurnState.noConfusion).trans (pushEvent_quiet ..).still).over rfl rfl

/-- A core that is READY after a resync has lost just the gap. -/
theorem resync_ready {gap : ℕ} (hbase : Base s)
    (h : (NativeCore.resyncAfterSuspend env s gap).2.state = .ready) :
    s.state = .ready ∧ ∃ expires, s.allocationExpiresAt = some expires ∧ gap ≤ expires ∧
      env.now < expires - gap ∧
      (NativeCore.resyncAfterSuspend env s gap).2.allocationExpiresAt = some (expires - gap) := by
  have hbefore : s.state = .ready := by
    by_contra hnot
    rw [NativeCore.resyncAfterSuspend, if_pos (.inr (.inr hnot))] at h
    exact hnot h
  obtain ⟨-, hsome, -, -, -, hopen, halive⟩ := hbase.ready hbefore
  obtain ⟨expires, hexpires⟩ := Option.isSome_iff_exists.mp hsome
  have hrun : ¬ (s.destroyed ∨ s.shuttingDown ∨ s.state ≠ .ready) := by
    simp [hopen, halive, hbefore]
  rw [NativeCore.resyncAfterSuspend, if_neg hrun] at h ⊢
  simp only [hexpires] at h ⊢
  split at h
  · rename_i hahead
    rw [if_pos hahead]
    exact ⟨hbefore, expires, rfl, hahead.1, hahead.2, rfl⟩
  · exact absurd h (destroyAllocation_ne_ready s _ _ _)

end Inner

/-! ### The signals, and the look in its steps -/

/-- What `signal` stores and `last_gap` reads back: whole milliseconds. -/
def published (gap : ℕ) : ℕ := millis (min (gap / 1000000) (2 ^ 64 - 1))

/-- Where `observe_wake` stands. -/
inductive Look where
  | idle
  /-- The epoch has moved, and counts as seen. -/
  | epochLoaded
  | gapLoaded (gap : ℕ)
  deriving DecidableEq

/-- A core, the driver that looks, and the callers of `signal`. -/
structure Suspended where
  core : Inner
  epoch : ℕ
  lastGap : ℕ
  wakeEpoch : ℕ
  /-- The gaps of the callers that have not bumped the epoch yet. -/
  stored : List ℕ
  /-- So many have bumped the epoch and not notified anybody yet. -/
  bumped : ℕ
  look : Look := .idle
  /-- The sum of the gaps announced since the core became READY. -/
  signalled : ℕ := 0
  /-- The sum of the gaps handed to `resync_after_suspend` since then. -/
  passed : ℕ := 0
  /-- The expiry that the last grant has set. -/
  granted : ℕ := 0
  /-- The sum of the gaps announced since the last grant. -/
  slept : ℕ := 0
  /-- The clock at the last look since the last grant. -/
  lookedAt : Option ℕ := none

inductive SuspendEvent where
  | store (gap : ℕ)
  /-- The caller whose gap is the `i`-th of those stored bumps the epoch. -/
  | bump (i : ℕ)
  | notifyWaiters
  /-- The next step of `observe_wake`. -/
  | look (env : Env)
  /-- Any other call of the core. -/
  | call (env : Env) (call : Call)

namespace Suspended

variable {P : Primitives} {s s' : Suspended} {e : SuspendEvent} {env : Env} {call : Call}

/-- The ledger after a call that grants. -/
def granting (P : Primitives) (s : Suspended) (env : Env) (call : Call) : Suspended :=
  let core := NativeCore.after P env s.core call
  { s with
    core
    granted := core.allocationExpiresAt.getD 0
    slept := 0
    lookedAt := none
    signalled := if s.core.state = .ready then s.signalled else 0
    passed := if s.core.state = .ready then s.passed else 0 }

def lookOne (s : Suspended) (env : Env) : Suspended :=
  match s.look with
  | .idle =>
    if s.epoch = s.wakeEpoch then s
    else { s with wakeEpoch := s.epoch, look := .epochLoaded }
  | .epochLoaded => { s with look := .gapLoaded s.lastGap }
  | .gapLoaded gap => { s with
      core := (NativeCore.resyncAfterSuspend env s.core gap).2
      look := .idle
      passed := s.passed + gap
      lookedAt := some env.now }

def step (P : Primitives) (s : Suspended) : SuspendEvent → Option Suspended
  | .store gap => some { s with lastGap := published gap, stored := s.stored ++ [published gap] }
  | .bump i =>
    s.stored[i]?.map fun gap => { s with
      epoch := s.epoch + 1
      stored := s.stored.eraseIdx i
      bumped := s.bumped + 1
      signalled := s.signalled + gap
      slept := s.slept + gap }
  | .notifyWaiters => if s.bumped = 0 then none else some { s with bumped := s.bumped - 1 }
  | .look env => some (s.lookOne env)
  | .call _ (.resyncAfterSuspend _) => none
  | .call env call =>
    -- the driver itself is busy until its look is over
    if s.look ≠ .idle ∧ ¬ call.byOwner then none
    else if s.core.grants P env call then some (s.granting P env call)
    else some { s with core := NativeCore.after P env s.core call }

/-- No signal is in progress, and the driver has looked at the current epoch. -/
def settled (s : Suspended) : Bool :=
  s.stored = [] ∧ s.bumped = 0 ∧ s.look = .idle ∧ s.wakeEpoch = s.epoch

/-- All that has been announced has been taken off, and what is left of the lifetime is
still ahead of the clock of the last look. -/
def AppliedOnce (s : Suspended) : Prop :=
  s.settled = true → s.core.state = .ready →
    s.passed = s.signalled ∧
      s.core.allocationExpiresAt.any fun expires =>
        expires + s.slept = s.granted && s.lookedAt.all (· < expires)

instance (s : Suspended) : Decidable (AppliedOnce s) := inferInstanceAs (Decidable (_ → _))

/-- So often the driver will still load a gap. -/
def announcements (s : Suspended) : ℕ :=
  (if s.look = .epochLoaded then 1 else 0) + (s.epoch - s.wakeEpoch)

/-- No signal overwrites a gap that is still to be announced or loaded by another one, no
two are announced to one look, and no gap outlives a grant. -/
def Lossless (P : Primitives) (s : Suspended) : SuspendEvent → Prop
  | .store gap => s.core.state = .ready →
      s.stored = [] ∧ s.announcements = 0 ∨ published gap = s.lastGap
  | .bump _ => s.core.state = .ready → s.lastGap = 0 ∨ s.epoch = s.wakeEpoch
  | .call env call => s.core.grants P env call = true →
      (∀ gap ∈ s.stored, gap = s.lastGap) ∧ (s.lastGap = 0 ∨ s.announcements = 0)
  | _ => True

instance (P : Primitives) (s : Suspended) (e : SuspendEvent) : Decidable (Lossless P s e) := by
  cases e <;> unfold Lossless <;> infer_instance

/-! ### The look of the loop is these three steps -/

/-- What a driver loop and its core are here. -/
def ofLoop (l : DriverLoop) : Suspended :=
  { core := l.core, epoch := l.epoch, lastGap := l.lastGap, wakeEpoch := l.wakeEpoch
    stored := [], bumped := 0 }

theorem looks_eq_observeWake (P : Primitives) (l : DriverLoop) (d : Draw) :
    ∃ s, run (step P) (ofLoop l) (List.replicate 3 (.look d.env)) = some s ∧
      s.core = (l.observeWake P d).core ∧ s.wakeEpoch = (l.observeWake P d).wakeEpoch ∧
      s.look = .idle := by
  by_cases hsame : l.epoch = l.wakeEpoch
  · refine ⟨ofLoop l, ?_, ?_, ?_, rfl⟩
    · simp [List.replicate, step, lookOne, ofLoop, hsame]
    · rw [DriverLoop.observeWake, if_pos hsame]
      rfl
    · rw [DriverLoop.observeWake, if_pos hsame]
      rfl
  · refine ⟨{ ofLoop l with
      core := (NativeCore.resyncAfterSuspend d.env l.core l.lastGap).2
      wakeEpoch := l.epoch
      passed := l.lastGap
      lookedAt := some d.env.now }, ?_, ?_, ?_, rfl⟩
    · simp [List.replicate, step, lookOne, ofLoop, hsame]
    · rw [DriverLoop.observeWake, if_neg hsame]
      rfl
    · rw [DriverLoop.observeWake, if_neg hsame]

/-! ### The ledger -/

/-- What `resync_after_suspend` is about to be given. -/
def pend (s : Suspended) : ℕ :=
  match s.look with
  | .gapLoaded gap => gap
  | _ => 0

/-- What the loads still to come will find. -/
def owed (s : Suspended) : ℕ := s.lastGap * s.announcements

/-- The books of a READY core balance. -/
structure Balanced (s : Suspended) : Prop where
  current : ∀ gap ∈ s.stored, gap = s.lastGap
  single : s.lastGap = 0 ∨ s.epoch ≤ s.wakeEpoch + 1
  sum : s.signalled = s.passed + s.pend + s.owed
  expiry : ∃ expires, s.core.allocationExpiresAt = some expires ∧
    expires + s.slept = s.granted + s.pend + s.owed ∧ ∀ t, s.lookedAt = some t → t < expires

structure Accounted (s : Suspended) : Prop where
  base : Inner.Base s.core
  seen : s.wakeEpoch ≤ s.epoch
  books : s.core.state = .ready → Balanced s

theorem Balanced.congr (h : Balanced s) (hstored : s'.stored = s.stored)
    (hgap : s'.lastGap = s.lastGap) (hepoch : s'.epoch = s.epoch)
    (hwake : s'.wakeEpoch = s.wakeEpoch) (hlook : s'.look = s.look)
    (hsignalled : s'.signalled = s.signalled) (hpassed : s'.passed = s.passed)
    (hslept : s'.slept = s.slept) (hgranted : s'.granted = s.granted)
    (hlooked : s'.lookedAt = s.lookedAt)
    (hexpires : s'.core.allocationExpiresAt = s.core.allocationExpiresAt) : Balanced s' := by
  have hpend : s'.pend = s.pend := by simp only [pend, hlook]
  have howed : s'.owed = s.owed := by simp only [owed, announcements, hgap, hlook, hepoch, hwake]
  refine ⟨?_, ?_, ?_, ?_⟩
  · rw [hstored, hgap]
    exact h.current
  · rw [hgap, hepoch, hwake]
    exact h.single
  · rw [hsignalled, hpassed, hpend, howed]
    exact h.sum
  · rw [hexpires, hslept, hgranted, hpend, howed, hlooked]
    exact h.expiry

/-- A signal that stores its gap when no other is under way, or the same gap again. -/
theorem Balanced.store {gap : ℕ} (h : Balanced s)
    (hok : s.stored = [] ∧ s.announcements = 0 ∨ gap = s.lastGap) :
    Balanced { s with lastGap := gap, stored := s.stored ++ [gap] } := by
  obtain ⟨hcurrent, hsingle, hsum, expires, hexpires, hleft, hlooked⟩ := h
  have howed : gap * s.announcements = s.owed := by
    rcases hok with ⟨-, hnone⟩ | heq
    · rw [owed, hnone, Nat.mul_zero, Nat.mul_zero]
    · rw [heq, owed]
  refine ⟨?_, ?_, ?_, expires, hexpires, ?_, hlooked⟩
  · intro g hg
    rcases List.mem_append.mp hg with hold | hnew
    · rcases hok with ⟨hempty, -⟩ | heq
      · rw [hempty] at hold
        exact absurd hold List.not_mem_nil
      · exact (hcurrent g hold).trans heq.symm
    · exact List.mem_singleton.mp hnew
  · rcases hok with ⟨-, hnone⟩ | heq
    · refine .inr ?_
      simp only [announcements] at hnone
      show s.epoch ≤ s.wakeEpoch + 1
      omega
    · exact heq ▸ hsingle
  · exact hsum.trans (congrArg (s.passed + s.pend + ·) howed.symm)
  · exact hleft.trans (congrArg (s.granted + s.pend + ·) howed.symm)

theorem Balanced.bump {i gap : ℕ} (h : Balanced s) (hseen : s.wakeEpoch ≤ s.epoch)
    (hgap : s.stored[i]? = some gap) (hok : s.lastGap = 0 ∨ s.epoch = s.wakeEpoch) :
    Balanced { s with
      epoch := s.epoch + 1
      stored := s.stored.eraseIdx i
      bumped := s.bumped + 1
      signalled := s.signalled + gap
      slept := s.slept + gap } := by
  obtain ⟨hcurrent, hsingle, hsum, expires, hexpires, hleft, hlooked⟩ := h
  -- the load to come will find what this caller has stored
  obtain rfl : gap = s.lastGap := hcurrent gap (List.mem_of_getElem? hgap)
  have howed : s.lastGap * ((if s.look = .epochLoaded then 1 else 0) + (s.epoch + 1 - s.wakeEpoch)) =
      s.owed + s.lastGap := by
    rw [owed, announcements, Nat.sub_add_comm hseen, ← Nat.add_assoc, Nat.mul_succ]
  refine ⟨fun g hg => hcurrent g ((List.eraseIdx_sublist s.stored i).subset hg), ?_, ?_, expires,
    hexpires, ?_, hlooked⟩
  · exact hok.imp id fun heq => Nat.le_of_eq (congrArg (· + 1) heq)
  · show s.signalled + s.lastGap = s.passed + s.pend + s.lastGap *
      ((if s.look = .epochLoaded then 1 else 0) + (s.epoch + 1 - s.wakeEpoch))
    rw [howed]
    omega
  · show expires + (s.slept + s.lastGap) = s.granted + s.pend + s.lastGap *
      ((if s.look = .epochLoaded then 1 else 0) + (s.epoch + 1 - s.wakeEpoch))
    rw [howed]
    omega

/-- One step of a look. -/
theorem Accounted.lookOne (h : Accounted s) (env : Env) : Accounted (s.lookOne env) := by
  obtain ⟨hbase, hseen, hbooks⟩ := h
  cases hlook : s.look with
  | idle =>
    rw [Suspended.lookOne, hlook]
    simp only
    split
    · exact ⟨hbase, hseen, hbooks⟩
    rename_i hmoved
    -- the look takes the epoch over: the announcement stays owed until the gap is read
    refine ⟨hbase, Nat.le_refl _, fun hready => ?_⟩
    obtain ⟨hcurrent, hsingle, hsum, expires, hexpires, hleft, hlooked⟩ := hbooks hready
    have hpend : s.pend = 0 := by rw [pend, hlook]
    have howed : s.lastGap * (1 + (s.epoch - s.epoch)) = s.owed := by
      rw [owed, announcements, hlook, if_neg Look.noConfusion]
      rcases hsingle with hzero | hone
      · rw [hzero, Nat.zero_mul, Nat.zero_mul]
      · congr 1
        omega
    refine ⟨hcurrent, .inr (Nat.le_succ _), ?_, expires, hexpires, ?_, hlooked⟩
    · rw [hsum, hpend]
      exact congrArg (s.passed + 0 + ·) howed.symm
    · rw [hleft, hpend]
      exact congrArg (s.granted + 0 + ·) howed.symm
  | epochLoaded =>
    rw [Suspended.lookOne, hlook]
    refine ⟨hbase, hseen, fun hready => ?_⟩
    obtain ⟨hcurrent, hsingle, hsum, expires, hexpires, hleft, hlooked⟩ := hbooks hready
    have hpend : s.pend = 0 := by rw [pend, hlook]
    have howed : s.owed = s.lastGap + s.lastGap * (0 + (s.epoch - s.wakeEpoch)) := by
      rw [owed, announcements, hlook, if_pos rfl, Nat.mul_add, Nat.mul_one, Nat.zero_add]
    refine ⟨hcurrent, hsingle, ?_, expires, hexpires, ?_, hlooked⟩
    · show s.signalled = s.passed + s.lastGap + s.lastGap * (0 + (s.epoch - s.wakeEpoch))
      omega
    · show expires + s.slept = s.granted + s.lastGap + s.lastGap * (0 + (s.epoch - s.wakeEpoch))
      omega
  | gapLoaded gap =>
    rw [Suspended.lookOne, hlook]
    -- the core takes the pending gap off the expiry, unless this ends the allocation
    refine ⟨hbase.resyncAfterSuspend gap, hseen, fun hready => ?_⟩
    have hcore := Inner.resync_ready hbase hready
    obtain ⟨hbefore, old, hold, hgap, hahead, hnew⟩ := hcore
    obtain ⟨hcurrent, hsingle, hsum, expires, hexpires, hleft, -⟩ := hbooks hbefore
    obtain rfl : expires = old := Option.some_inj.mp (hexpires.symm.trans hold)
    have hpend : s.pend = gap := by rw [pend, hlook]
    have howed : s.lastGap * (0 + (s.epoch - s.wakeEpoch)) = s.owed := by
      rw [owed, announcements, hlook, if_neg Look.noConfusion]
    refine ⟨hcurrent, hsingle, ?_, expires - gap, hnew, ?_, ?_⟩
    · show s.signalled = s.passed + gap + 0 + s.lastGap * (0 + (s.epoch - s.wakeEpoch))
      omega
    · show expires - gap + s.slept = s.granted + 0 + s.lastGap * (0 + (s.epoch - s.wakeEpoch))
      omega
    · intro t ht
      obtain rfl := Option.some_inj.mp ht
      exact hahead

/-- A call with which the server grants something. -/
theorem Accounted.granting (h : Accounted s) (hidle : s.look = .idle)
    (hcurrent : ∀ gap ∈ s.stored, gap = s.lastGap)
    (hnone : s.lastGap = 0 ∨ s.announcements = 0) : Accounted (s.granting P env call) := by
  have hbase : Inner.Base (NativeCore.after P env s.core call) := h.base.after call
  refine ⟨hbase, h.seen, fun hready => ?_⟩
  obtain ⟨-, hsome, -⟩ := hbase.ready hready
  obtain ⟨expires, hexpires⟩ := Option.isSome_iff_exists.mp hsome
  have hpend : s.pend = 0 := by rw [pend, hidle]
  have howed : s.owed = 0 := Nat.mul_eq_zero.mpr hnone
  have hsum : (s.granting P env call).signalled = (s.granting P env call).passed := by
    show (if s.core.state = .ready then s.signalled else 0) =
      (if s.core.state = .ready then s.passed else 0)
    split
    · rename_i hbefore
      rw [(h.books hbefore).sum, hpend, howed]
      rfl
    · rfl
  refine ⟨hcurrent, ?_, ?_, expires, hexpires, ?_, fun t ht => by cases ht⟩
  · refine hnone.imp id fun hzero => ?_
    simp only [announcements] at hzero
    show s.epoch ≤ s.wakeEpoch + 1
    omega
  · rw [hsum]
    show _ = _ + s.pend + s.owed
    rw [hpend, howed]
    rfl
  · show expires + 0 = (NativeCore.after P env s.core call).allocationExpiresAt.getD 0 +
      s.pend + s.owed
    rw [hexpires, hpend, howed]
    rfl

theorem Accounted.still (h : Accounted s)
    (hgrant : s.core.grants P env call = false)
    (hresync : ∀ gap, call ≠ .resyncAfterSuspend gap) :
    Accounted { s with core := NativeCore.after P env s.core call } := by
  refine ⟨h.base.after call, h.seen, fun hready => ?_⟩
  obtain ⟨hbefore, hsame⟩ := (Inner.still_after P env s.core call hgrant hresync).before hready
  exact (h.books hbefore).congr rfl rfl rfl rfl rfl rfl rfl rfl rfl rfl hsame

theorem Accounted.step (h : Accounted s) (hok : Lossless P s e) (hstep : s.step P e = some s') :
    Accounted s' := by
  cases e with
  | store gap =>
    obtain rfl := Option.some_inj.mp hstep
    exact ⟨h.base, h.seen, fun hready => (h.books hready).store (hok hready)⟩
  | bump i =>
    obtain ⟨gap, hgap, rfl⟩ := Option.map_eq_some_iff.mp hstep
    exact ⟨h.base, Nat.le_succ_of_le h.seen,
      fun hready => (h.books hready).bump h.seen hgap (hok hready)⟩
  | notifyWaiters =>
    simp only [Suspended.step] at hstep
    split at hstep
    · cases hstep
    · obtain rfl := Option.some_inj.mp hstep
      exact ⟨h.base, h.seen,
        fun hready => (h.books hready).congr rfl rfl rfl rfl rfl rfl rfl rfl rfl rfl rfl⟩
  | look env =>
    obtain rfl := Option.some_inj.mp hstep
    exact h.lookOne env
  | call env call =>
    have hresync : ∀ gap, call ≠ .resyncAfterSuspend gap := by
      rintro gap rfl
      cases hstep
    have hcall : (if s.look ≠ .idle ∧ ¬ call.byOwner then none
        else if s.core.grants P env call then some (s.granting P env call)
        else some { s with core := NativeCore.after P env s.core call }) = some s' := by
      cases call <;> first | exact hstep | cases hstep
    split at hcall
    · cases hcall
    rename_i hfree
    split at hcall
    · rename_i hgrant
      obtain rfl := Option.some_inj.mp hcall
      obtain ⟨hcurrent, hnone⟩ := hok hgrant
      refine h.granting ?_ hcurrent hnone
      -- only the driver brings answers, and it is between two looks
      by_contra hbusy
      refine hfree ⟨hbusy, ?_⟩
      cases call <;> first | exact Bool.noConfusion hgrant | exact Bool.false_ne_true
    · rename_i hgrant
      obtain rfl := Option.some_inj.mp hcall
      exact h.still (Bool.eq_false_iff.mpr hgrant) hresync

theorem Accounted.appliedOnce (h : Accounted s) : AppliedOnce s := by
  intro hsettled hready
  simp only [settled, decide_eq_true_eq] at hsettled
  obtain ⟨-, -, hidle, hseen⟩ := hsettled
  obtain ⟨-, -, hsum, expires, hexpires, hleft, hlooked⟩ := h.books hready
  have hpend : s.pend = 0 := by rw [pend, hidle]
  have howed : s.owed = 0 := by
    rw [owed, announcements, hidle, if_neg Look.noConfusion, hseen, Nat.sub_self]
    rfl
  refine ⟨?_, ?_⟩
  · rw [hsum, hpend, howed]
    rfl
  · rw [hpend, howed] at hleft
    rw [hexpires, Option.any_some, Bool.and_eq_true, decide_eq_true_eq, Option.all_eq_true]
    exact ⟨hleft, fun t ht => decide_eq_true (hlooked t ht)⟩

/-- A driver that starts with a core, whatever other callers of `signal` are about. -/
def start (core : Inner) (epoch lastGap : ℕ) (stored : List ℕ) (bumped : ℕ) : Suspended :=
  { core, epoch, lastGap, wakeEpoch := epoch, stored, bumped }

/-- In a run that loses no gap, all that has been slept is taken off once. -/
theorem applied_once (P : Primitives) {server peer : SocketAddr} {username password : Bytes}
    {transport : TurnControlTransport} {core : Inner}
    (hcore : NativeCore.create server username password peer transport = .ok core)
    (epoch lastGap : ℕ) (stored : List ℕ) (bumped : ℕ) {events : List SuspendEvent}
    (hlossless : Admits (step P) (Lossless P) (start core epoch lastGap stored bumped) events) :
    Always (step P) AppliedOnce (start core epoch lastGap stored bumped) events := by
  have hbase : Inner.Base core := .create hcore
  have hfresh : core.state ≠ .ready := by
    rw [NativeCore.create] at hcore
    split_ifs at hcore
    rw [← Except.ok.inj hcore]
    exact TurnState.noConfusion
  refine Always.mono (fun s h => Accounted.appliedOnce h)
    (always_of_admits (fun s e s' h hok hstep => Accounted.step h hok hstep) ?_ hlossless)
  exact ⟨hbase, Nat.le_refl _, fun hready => absurd hready hfresh⟩

/-- The client becomes READY. -/
def opening : List SuspendEvent :=
  (Inner.handshake Inner.zeroDigests).map fun label => .call label.1 label.2

/-- A call of `signal` that nobody disturbs. -/
def signal (gap : ℕ) : List SuspendEvent := [.store gap, .bump 0, .notifyWaiters]

/-- A whole look. -/
def looked (now : ℕ) : List SuspendEvent := List.replicate 3 (.look (Inner.moment now 9))

/-- A minute of sleep, with a look of its own, and a nudge. -/
theorem minute_applied_once :
    Admits (step Inner.zeroDigests) (Lossless Inner.zeroDigests)
        (start Inner.freshCore 0 0 [] 0)
        (opening ++ signal (secs 60) ++ looked 5 ++ signal 0 ++ looked 6) ∧
      Always (step Inner.zeroDigests) AppliedOnce (start Inner.freshCore 0 0 [] 0)
        (opening ++ signal (secs 60) ++ looked 5 ++ signal 0 ++ looked 6) :=
  have hlossless : Admits (step Inner.zeroDigests) (Lossless Inner.zeroDigests)
      (start Inner.freshCore 0 0 [] 0)
      (opening ++ signal (secs 60) ++ looked 5 ++ signal 0 ++ looked 6) := by
    decide +kernel
  ⟨hlossless, applied_once Inner.zeroDigests Inner.create_freshCore 0 0 [] 0 hlossless⟩

/-- Ten minutes asleep, and the host nudges before the driver has looked: by the time of
the look the allocation is long gone, and the core keeps it for another ten minutes. -/
theorem gap_overwritten :
    (run (step Inner.zeroDigests) (start Inner.freshCore 0 0 [] 0)
      (opening ++ signal (secs 600) ++ signal 0 ++ looked 5)).any fun s =>
        s.settled && s.core.state = .ready && s.signalled = secs 600 && s.passed = 0 &&
          s.core.allocationExpiresAt = some (secs 600) && ¬ AppliedOnce s := by
  decide +kernel

end Suspended

end Csqtt.Turn
