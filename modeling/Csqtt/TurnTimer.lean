/-
What the timers look like after a poll.

A poll gives up or retransmits every transaction whose time has come
(`expireFrom_ready`, `expireFrom_exhausted`, `expireFrom_unmaintained`), and
then starts the maintenance that is due (`pollReady_later`).  A deadline stays
in the past when its guard suppresses the action: the operation is pending
already, or the core is no longer READY.

* `poll_punctual_iff` — when every deadline lies ahead after a poll.
* `refresh_due_while_deallocating` — a deadline that no poll takes away.
-/
import Csqtt.TurnMaintenance

namespace Csqtt.Turn

open Stun

/-- A poll at this time gives the transaction up. -/
def Pending.timesOut (p : Pending) (transport : TurnControlTransport) (now : ℕ) : Bool :=
  p.nextAttempt ≤ now && p.exhausted transport

/-- Is this operation among those that are given up? -/
def lost (transport : TurnControlTransport) (now : ℕ) (ps : List Pending)
    (operation : Operation) : Bool :=
  ps.any fun p => p.operation = operation && p.timesOut transport now

/-- Is this operation among those that stay pending? -/
def kept (transport : TurnControlTransport) (now : ℕ) (ps : List Pending)
    (operation : Operation) : Bool :=
  ps.any fun p => p.operation = operation && !p.timesOut transport now

namespace Inner

variable {P : Primitives} {env : Env} {s t : Inner} {operation : Operation} {p : Pending}
  {now : ℕ} {before todo : List Pending}

/-- Every deadline that `next_deadline` looks at lies ahead. -/
def Later (now : ℕ) (s : Inner) : Prop := ∀ deadline ∈ s.deadlines, now < deadline

/-- The ChannelBind is given up, for the last time. -/
def channelExhausted (s : Inner) (now : ℕ) : Bool :=
  lost s.transport now s.pending .channel && maxChannelMaintenanceFailures ≤ s.channelFailures + 1

/-- The Refresh is given up, and stands in front of the ChannelBind. -/
def refreshLostFirst (transport : TurnControlTransport) (now : ℕ) (ps : List Pending) : Bool :=
  lost transport now (ps.takeWhile (·.operation ≠ .channel)) .refresh

/-- No deadline has come whose action a guard will suppress. -/
def Punctual (s : Inner) (now : ℕ) : Prop :=
  if s.state = .ready then
    if s.channelExhausted now then
      ¬ due now s.allocationRefresh ∨ refreshLostFirst s.transport now s.pending
    else
      ¬ (due now s.allocationRefresh ∧ kept s.transport now s.pending .refresh) ∧
        ¬ (due now s.permissionRetry ∧ kept s.transport now s.pending .permission) ∧
        ¬ (due now s.channelRetry ∧ kept s.transport now s.pending .channel)
  else
    ¬ due now s.allocationRefresh ∧ ¬ due now s.maintenanceRefresh ∧ ¬ due now s.permissionRetry ∧
      ¬ due now s.channelRetry ∧ ¬ due now s.keepalive

theorem not_due_iff {deadline : Option ℕ} :
    ¬ due now deadline ↔ ∀ d ∈ deadline.toList, now < d := by
  rcases deadline with _ | d
  · simp [due]
  · simp [due]

theorem later_iff :
    Later now s ↔ (∀ p ∈ s.pending, now < p.nextAttempt) ∧ ¬ due now s.allocationRefresh ∧
      ¬ due now s.maintenanceRefresh ∧ ¬ due now s.permissionRetry ∧ ¬ due now s.channelRetry ∧
      ¬ due now s.keepalive := by
  simp only [not_due_iff, Later, deadlines, List.mem_append, List.mem_map, or_imp, forall_and,
    forall_exists_index, and_imp, forall_apply_eq_imp_iff₂, and_assoc]

theorem not_due_later {delay : ℕ} (h : 0 < delay) : ¬ due now (some (now + delay)) := by
  rw [due, Option.any_some, decide_eq_true_eq]
  omega

theorem retryDelay_pos (failures : ℕ) : 0 < retryDelay failures := by
  rw [retryDelay]
  refine lt_min ?_ (by decide)
  exact Nat.mul_pos (by decide) (Nat.pow_pos (by decide))

theorem retransmitted_later (now : ℕ) (h : 0 < p.rto) : now < (p.retransmitted now).nextAttempt := by
  show now < now + min (p.rto * 2) maxRto
  have hmin : 0 < min (p.rto * 2) maxRto := lt_min (by omega) (by decide)
  omega

/-! ### The loop, one transaction at a time -/

theorem pending_at (h : s.pending = before ++ p :: todo) :
    ∃ hi : before.length < s.pending.length, s.pending[before.length] = p := by
  have hi : before.length < s.pending.length := by
    rw [h, List.length_append, List.length_cons]
    omega
  refine ⟨hi, ?_⟩
  simp only [h, List.getElem_append_right (Nat.le_refl _), Nat.sub_self, List.getElem_cons_zero]

theorem expireFrom_end {index : ℕ} (h : s.pending.length ≤ index) :
    s.expireFrom now index = s := by
  rw [expireFrom, dif_neg (Nat.not_lt.mpr h)]

theorem expireFrom_skip (h : s.pending = before ++ p :: todo) (hlater : now < p.nextAttempt) :
    s.expireFrom now before.length = s.expireFrom now (before.length + 1) := by
  obtain ⟨hi, hp⟩ := pending_at h
  rw [expireFrom, dif_pos hi]
  simp only [hp, hlater, if_true]

theorem expireFrom_expire (h : s.pending = before ++ p :: todo)
    (hout : p.timesOut s.transport now) :
    s.expireFrom now before.length = (s.expire before.length p now).expireFrom now before.length := by
  obtain ⟨hi, hp⟩ := pending_at h
  rw [Pending.timesOut, Bool.and_eq_true, decide_eq_true_eq] at hout
  rw [expireFrom, dif_pos hi]
  simp only [hp, if_neg (Nat.not_lt.mpr hout.1), hout.2, if_true]

theorem expireFrom_retransmit (h : s.pending = before ++ p :: todo) (hcome : ¬ now < p.nextAttempt)
    (hmore : ¬ p.timesOut s.transport now) :
    s.expireFrom now before.length =
      { s.queuePacket p.packet with
        pending := before ++ p.retransmitted now :: todo }.expireFrom now (before.length + 1) := by
  obtain ⟨hi, hp⟩ := pending_at h
  have hnot : ¬ p.exhausted s.transport := by
    intro hexhausted
    refine hmore ?_
    rw [Pending.timesOut, hexhausted, Bool.and_true]
    exact decide_eq_true (Nat.not_lt.mp hcome)
  have hset : s.pending.set before.length (p.retransmitted now) =
      before ++ p.retransmitted now :: todo := by
    rw [h, List.set_append_right _ _ (Nat.le_refl _), Nat.sub_self, List.set_cons_zero]
  rw [expireFrom, dif_pos hi]
  simp only [hp, if_neg hcome, if_neg hnot, hset]

theorem expire_eq (h : s.pending = before ++ p :: todo) (now : ℕ) :
    ∃ controls, s.expire before.length p now =
      { s with pending := before ++ todo, controls }.completeFailure p.operation resultTimeout 0
        now := by
  have herase : s.pending.eraseIdx before.length = before ++ todo := by
    rw [h, List.eraseIdx_append_of_length_le (Nat.le_refl _), Nat.sub_self]
    rfl
  rw [expire, herase]
  exact ⟨_, rfl⟩

/-! ### Lost and kept transactions -/

section Lost

variable {transport : TurnControlTransport}

theorem lost_cons_of_lost (h : p.timesOut transport now) :
    lost transport now (p :: todo) operation =
      (decide (p.operation = operation) || lost transport now todo operation) := by
  rw [lost, List.any_cons, h, Bool.and_true]
  rfl

theorem lost_cons_of_kept (h : ¬ p.timesOut transport now) :
    lost transport now (p :: todo) operation = lost transport now todo operation := by
  rw [lost, List.any_cons, Bool.eq_false_of_not_eq_true h, Bool.and_false, Bool.false_or]
  rfl

theorem kept_cons_of_lost (h : p.timesOut transport now) :
    kept transport now (p :: todo) operation = kept transport now todo operation := by
  rw [kept, List.any_cons, h, Bool.not_true, Bool.and_false, Bool.false_or]
  rfl

theorem kept_cons_of_kept (h : ¬ p.timesOut transport now) :
    kept transport now (p :: todo) operation =
      (decide (p.operation = operation) || kept transport now todo operation) := by
  rw [kept, List.any_cons, Bool.eq_false_of_not_eq_true h, Bool.not_false, Bool.and_true]
  rfl

theorem not_timesOut_of_later (h : now < p.nextAttempt) : ¬ p.timesOut transport now := by
  rw [Pending.timesOut, Bool.and_eq_true, decide_eq_true_eq]
  omega

theorem not_lost_of_not_mem (transport : TurnControlTransport) (now : ℕ)
    (h : operation ∉ todo.map Pending.operation) :
    lost transport now todo operation = false := by
  rw [lost, List.any_eq_false]
  intro q hq hlost
  rw [Bool.and_eq_true, decide_eq_true_eq] at hlost
  exact h (List.mem_map.mpr ⟨q, hq, hlost.1⟩)

end Lost

/-- A retry deadline after the loop: one whose operation was given up is new. -/
def Rescheduled (now : ℕ) (old : Option ℕ) (given : Bool) (new : Option ℕ) : Prop :=
  due now new = (due now old && !given)

theorem Rescheduled.refl (now : ℕ) (old : Option ℕ) : Rescheduled now old false old := by
  rw [Rescheduled, Bool.not_false, Bool.and_true]

theorem Rescheduled.again {old new : Option ℕ} {given : Bool} {failures : ℕ}
    (h : Rescheduled now (some (now + retryDelay failures)) given new) :
    Rescheduled now old true new := by
  rw [Rescheduled, Bool.eq_false_of_not_eq_true (not_due_later (retryDelay_pos failures)),
    Bool.false_and] at h
  rw [Rescheduled, h, Bool.not_true, Bool.and_false]

/-- The state after the loop, when the core stays READY. -/
def Expired (now : ℕ) (s : Inner) (before todo : List Pending) (t : Inner) : Prop :=
  ∃ controls events pending refresh permission channel refreshFailures permissionFailures
      channelFailures,
    t = { s with
      controls, events, pending, refreshFailures, permissionFailures, channelFailures
      allocationRefresh := refresh
      permissionRetry := permission
      channelRetry := channel } ∧
    (∀ q ∈ pending, now < q.nextAttempt) ∧
    (∀ operation, pending.any (·.operation = operation) =
      (before.any (·.operation = operation) || kept s.transport now todo operation)) ∧
    Rescheduled now s.allocationRefresh (lost s.transport now todo .refresh) refresh ∧
    Rescheduled now s.permissionRetry (lost s.transport now todo .permission) permission ∧
    Rescheduled now s.channelRetry (lost s.transport now todo .channel) channel

/-- The loop has looked at `before`, and `todo` is still to come. -/
structure Looping (now : ℕ) (s : Inner) (before todo : List Pending) : Prop where
  pending : s.pending = before ++ todo
  maintained : s.Maintained now
  ahead : ∀ q ∈ before, now < q.nextAttempt
  rto : ∀ q ∈ todo, 0 < q.rto
  maintenance : ∀ q ∈ todo, isMaintenance q.operation
  once : (todo.map Pending.operation).Nodup

theorem Looping.ahead_snoc {q : Pending} (h : ∀ q ∈ before, now < q.nextAttempt)
    (hq : now < q.nextAttempt) : ∀ r ∈ before ++ [q], now < r.nextAttempt := by
  intro r hr
  rcases List.mem_append.mp hr with hr | hr
  · exact h r hr
  · rw [List.mem_singleton.mp hr]
    exact hq

/-- The loop goes on behind `p`, which is `q` now. -/
theorem Looping.next {q : Pending} (h : Looping now s before (p :: todo))
    (hpending : t.pending = before ++ q :: todo) (hmaintained : t.Maintained now)
    (hq : now < q.nextAttempt) : Looping now t (before ++ [q]) todo :=
  ⟨by rw [hpending, List.append_assoc]; rfl, hmaintained, Looping.ahead_snoc h.ahead hq,
    fun r hr => h.rto r (List.mem_cons_of_mem p hr),
    fun r hr => h.maintenance r (List.mem_cons_of_mem p hr), (List.nodup_cons.mp h.once).2⟩

/-- The loop goes on, without `p`. -/
theorem Looping.drop (h : Looping now s before (p :: todo)) (hpending : t.pending = before ++ todo)
    (hmaintained : t.Maintained now) : Looping now t before todo :=
  ⟨hpending, hmaintained, h.ahead, fun r hr => h.rto r (List.mem_cons_of_mem p hr),
    fun r hr => h.maintenance r (List.mem_cons_of_mem p hr), (List.nodup_cons.mp h.once).2⟩

theorem Expired.of_kept {q : Pending} (hkept : ¬ p.timesOut s.transport now)
    (hq : q.operation = p.operation) (h : Expired now s (before ++ [q]) todo t) :
    Expired now s before (p :: todo) t := by
  obtain ⟨controls, events, pending, refresh, permission, channel, rf, pf, cf, heq, hlater, hkeeps,
    hr, hp, hc⟩ := h
  refine ⟨controls, events, pending, refresh, permission, channel, rf, pf, cf, heq, hlater,
    fun operation => ?_, ?_, ?_, ?_⟩
  · rw [hkeeps, kept_cons_of_kept hkept, List.any_append, Bool.or_assoc, List.any_cons, List.any_nil,
      Bool.or_false, hq]
  · rw [lost_cons_of_kept hkept]
    exact hr
  · rw [lost_cons_of_kept hkept]
    exact hp
  · rw [lost_cons_of_kept hkept]
    exact hc

theorem lost_cons_self {transport : TurnControlTransport} (todo : List Pending) (h : p.timesOut transport now) :
    lost transport now (p :: todo) p.operation = true := by
  rw [lost_cons_of_lost h, decide_eq_true rfl, Bool.true_or]

theorem lost_cons_of_ne {transport : TurnControlTransport} (h : p.timesOut transport now)
    (hne : p.operation ≠ operation) :
    lost transport now (p :: todo) operation = lost transport now todo operation := by
  rw [lost_cons_of_lost h, decide_eq_false hne, Bool.false_or]

/-- The deadline for `operation` when `p` has been given up. -/
inductive Postponed (now : ℕ) (p : Pending) (operation : Operation) (old : Option ℕ) :
    Option ℕ → Prop where
  | again {failures : ℕ} (h : p.operation = operation) :
      Postponed now p operation old (some (now + retryDelay failures))
  | other (h : p.operation ≠ operation) : Postponed now p operation old old

theorem Postponed.rescheduled {transport : TurnControlTransport} {old mid new : Option ℕ}
    (hp : Postponed now p operation old mid) (hout : p.timesOut transport now)
    (h : Rescheduled now mid (lost transport now todo operation) new) :
    Rescheduled now old (lost transport now (p :: todo) operation) new := by
  cases hp with
  | again hop =>
    have hlost : lost transport now (p :: todo) operation = true := by
      rw [← hop, lost_cons_self _ hout]
    rw [hlost]
    exact h.again
  | other hop =>
    rw [lost_cons_of_ne hout hop]
    exact h

/-- `p` is given up, and its operation is scheduled again. -/
theorem Expired.of_lost {controls : List Control} {events : List NativeEvent}
    {refresh permission channel : Option ℕ} {rf pf cf : ℕ} (hout : p.timesOut s.transport now)
    (hrefresh : Postponed now p .refresh s.allocationRefresh refresh)
    (hpermission : Postponed now p .permission s.permissionRetry permission)
    (hchannel : Postponed now p .channel s.channelRetry channel)
    (h : Expired now
      { s with
        pending := before ++ todo
        controls, events
        refreshFailures := rf
        permissionFailures := pf
        channelFailures := cf
        allocationRefresh := refresh
        permissionRetry := permission
        channelRetry := channel } before todo t) :
    Expired now s before (p :: todo) t := by
  obtain ⟨controls, events, pending, refresh, permission, channel, rf, pf, cf, heq, hlater, hkeeps,
    hr, hp, hc⟩ := h
  refine ⟨controls, events, pending, refresh, permission, channel, rf, pf, cf, heq, hlater,
    fun operation => ?_, hrefresh.rescheduled hout hr, hpermission.rescheduled hout hp,
    hchannel.rescheduled hout hc⟩
  rw [kept_cons_of_lost hout]
  exact hkeeps operation

/-- A core that is not torn down by the loop stays READY, and its failed requests
are scheduled again. -/
theorem expireFrom_ready (h : Looping now s before todo)
    (hfew : lost s.transport now todo .channel →
      s.channelFailures + 1 < maxChannelMaintenanceFailures) :
    Expired now s before todo (s.expireFrom now before.length) := by
  induction todo generalizing s before with
  | nil =>
    rw [expireFrom_end (by rw [h.pending, List.append_nil])]
    refine ⟨s.controls, s.events, s.pending, _, _, _, _, _, _, rfl, ?_, fun operation => ?_, .refl _ _,
      .refl _ _, .refl _ _⟩
    · rw [h.pending, List.append_nil]
      exact h.ahead
    · rw [h.pending, List.append_nil]
      exact (Bool.or_false _).symm
  | cons p todo ih =>
    have hlen : ∀ q : Pending, before.length + 1 = (before ++ [q]).length :=
      fun q => by rw [List.length_append]; rfl
    by_cases hlater : now < p.nextAttempt
    · -- not its turn yet
      have hkept : ¬ p.timesOut s.transport now := not_timesOut_of_later hlater
      rw [lost_cons_of_kept hkept] at hfew
      rw [expireFrom_skip h.pending hlater, hlen p]
      exact .of_kept hkept rfl (ih (h.next h.pending h.maintained hlater) hfew)
    by_cases hout : p.timesOut s.transport now
    · -- given up, and scheduled again
      obtain ⟨controls, hexpire⟩ := expire_eq h.pending now
      have hmaintained : Maintained { s with pending := before ++ todo, controls } now :=
        h.maintained
      have hother : ∀ {operation operation' : Operation} {old : Option ℕ},
          p.operation = operation → operation ≠ operation' →
            Postponed now p operation' old old := fun hop hne => .other (hop ▸ hne)
      rw [expireFrom_expire h.pending hout, hexpire]
      cases hop : p.operation with
      | allocate => exact absurd (h.maintenance p List.mem_cons_self) (by rw [hop]; decide)
      | deallocate => exact absurd (h.maintenance p List.mem_cons_self) (by rw [hop]; decide)
      | refresh =>
        obtain ⟨events, failures, heq⟩ := completeFailure_refresh resultTimeout 0 hmaintained
        rw [lost_cons_of_ne hout (hop ▸ nofun)] at hfew
        rw [heq]
        exact .of_lost hout (.again hop) (hother hop nofun) (hother hop nofun)
          (ih (h.drop rfl hmaintained) hfew)
      | permission =>
        obtain ⟨events, failures, heq⟩ := completeFailure_permission resultTimeout 0 hmaintained
        rw [lost_cons_of_ne hout (hop ▸ nofun)] at hfew
        rw [heq]
        exact .of_lost hout (hother hop nofun) (.again hop) (hother hop nofun)
          (ih (h.drop rfl hmaintained) hfew)
      | channel =>
        have hlost : lost s.transport now (p :: todo) .channel = true := by
          rw [← hop, lost_cons_self _ hout]
        obtain ⟨events, heq⟩ := completeFailure_channel resultTimeout 0 hmaintained (hfew hlost)
        -- it was the only ChannelBind
        have hnone := not_lost_of_not_mem s.transport now
          (hop ▸ (List.nodup_cons.mp h.once).1)
        rw [heq]
        exact .of_lost hout (hother hop nofun) (hother hop nofun) (.again hop)
          (ih (h.drop rfl hmaintained) fun hl => absurd (hnone.symm.trans hl) Bool.false_ne_true)
    · -- retransmitted
      have hp' := retransmitted_later now (h.rto p List.mem_cons_self)
      obtain ⟨controls, events, hq⟩ := queuePacket_quiet s p.packet
      rw [lost_cons_of_kept hout] at hfew
      rw [expireFrom_retransmit h.pending hlater hout, hq, hlen (p.retransmitted now)]
      have hexpired := ih (s := { s with
        controls, events, pending := before ++ p.retransmitted now :: todo })
        (h.next rfl h.maintained hp') hfew
      exact .of_kept (q := p.retransmitted now) hout rfl hexpired

/-- The state after the loop, when the ChannelBind has failed too often. -/
def GivenUp (now : ℕ) (s : Inner) (todo : List Pending) (t : Inner) : Prop :=
  ∃ controls events refresh refreshFailures permissionFailures channelFailures,
    t = { s with
      controls, events, refreshFailures, permissionFailures, channelFailures
      state := .destroying
      channel := none
      pending := []
      allocationRefresh := refresh
      maintenanceRefresh := none
      permissionRetry := none
      channelRetry := none
      keepalive := none } ∧
    Rescheduled now s.allocationRefresh (refreshLostFirst s.transport now todo) refresh

theorem refreshLostFirst_cons {transport : TurnControlTransport}
    (hop : p.operation ≠ .channel) :
    refreshLostFirst transport now (p :: todo) =
      lost transport now (p :: todo.takeWhile (·.operation ≠ .channel)) .refresh := by
  rw [refreshLostFirst, List.takeWhile_cons, if_pos (decide_eq_true hop)]

theorem refreshLostFirst_of_kept {transport : TurnControlTransport}
    (hop : p.operation ≠ .channel) (hkept : ¬ p.timesOut transport now) :
    refreshLostFirst transport now (p :: todo) = refreshLostFirst transport now todo := by
  rw [refreshLostFirst_cons hop, lost_cons_of_kept hkept]
  rfl

/-- Only one of the transactions is the ChannelBind. -/
theorem ne_channel_of_lost {transport : TurnControlTransport}
    (h : ((p :: todo).map Pending.operation).Nodup) (hlost : lost transport now todo .channel) :
    p.operation ≠ .channel := by
  intro hop
  have hnone := not_lost_of_not_mem transport now
    (List.nodup_cons.mp h).1
  rw [hop] at hnone
  exact absurd (hnone.symm.trans hlost) Bool.false_ne_true

theorem expireFrom_exhausted (h : Looping now s before todo)
    (hlost : lost s.transport now todo .channel)
    (hmany : maxChannelMaintenanceFailures ≤ s.channelFailures + 1) :
    GivenUp now s todo (s.expireFrom now before.length) := by
  induction todo generalizing s before with
  | nil => exact absurd hlost Bool.false_ne_true
  | cons p todo ih =>
    have hlen : ∀ q : Pending, before.length + 1 = (before ++ [q]).length :=
      fun q => by rw [List.length_append]; rfl
    by_cases hlater : now < p.nextAttempt
    · have hkept : ¬ p.timesOut s.transport now := not_timesOut_of_later hlater
      rw [lost_cons_of_kept hkept] at hlost
      have hne := ne_channel_of_lost h.once hlost
      rw [expireFrom_skip h.pending hlater, hlen p, GivenUp, refreshLostFirst_of_kept hne hkept]
      exact ih (h.next h.pending h.maintained hlater) hlost hmany
    by_cases hout : p.timesOut s.transport now
    · obtain ⟨controls, hexpire⟩ := expire_eq h.pending now
      have hmaintained : Maintained { s with pending := before ++ todo, controls } now :=
        h.maintained
      rw [expireFrom_expire h.pending hout, hexpire]
      cases hop : p.operation with
      | allocate => exact absurd (h.maintenance p List.mem_cons_self) (by rw [hop]; decide)
      | deallocate => exact absurd (h.maintenance p List.mem_cons_self) (by rw [hop]; decide)
      | refresh =>
        -- the failed refresh is scheduled again before the allocation is given up
        obtain ⟨events, failures, heq⟩ := completeFailure_refresh resultTimeout 0 hmaintained
        rw [lost_cons_of_ne hout (by rw [hop]; decide)] at hlost
        have hfirst : refreshLostFirst s.transport now (p :: todo) = true := by
          have hself := lost_cons_self (todo.takeWhile (·.operation ≠ .channel)) hout
          rw [hop] at hself
          rw [refreshLostFirst_cons (by rw [hop]; decide), hself]
        rw [heq, GivenUp, hfirst]
        obtain ⟨_, _, _, _, _, _, ht, hr⟩ := ih (s := { s with
          pending := before ++ todo
          controls, events
          refreshFailures := failures
          allocationRefresh := some (now + retryDelay failures) })
          (h.drop rfl hmaintained) hlost hmany
        exact ⟨_, _, _, _, _, _, ht, hr.again⟩
      | permission =>
        obtain ⟨events, failures, heq⟩ := completeFailure_permission resultTimeout 0 hmaintained
        rw [lost_cons_of_ne hout (by rw [hop]; decide)] at hlost
        have hfirst : refreshLostFirst s.transport now (p :: todo) =
            refreshLostFirst s.transport now todo := by
          rw [refreshLostFirst_cons (by rw [hop]; decide),
            lost_cons_of_ne hout (by rw [hop]; decide)]
          rfl
        rw [heq, GivenUp, hfirst]
        exact ih (h.drop rfl hmaintained) hlost hmany
      | channel =>
        obtain ⟨events, failures, heq⟩ :=
          completeFailure_channel_exhausted resultTimeout 0 hmaintained hmany
        have hfirst : refreshLostFirst s.transport now (p :: todo) = false := by
          rw [refreshLostFirst, List.takeWhile_cons, if_neg (by rw [hop]; decide)]
          rfl
        rw [heq, expireFrom_end (Nat.zero_le _), GivenUp, hfirst]
        exact ⟨_, _, _, _, _, _, rfl, .refl _ _⟩
    · have hp' := retransmitted_later now (h.rto p List.mem_cons_self)
      obtain ⟨controls, events, hq⟩ := queuePacket_quiet s p.packet
      rw [lost_cons_of_kept hout] at hlost
      have hne := ne_channel_of_lost h.once hlost
      rw [expireFrom_retransmit h.pending hlater hout, hq, hlen (p.retransmitted now), GivenUp,
        refreshLostFirst_of_kept hne hout]
      exact ih (s := { s with
        controls, events, pending := before ++ p.retransmitted now :: todo })
        (h.next rfl h.maintained hp') hlost hmany

/-- No deadline is left, and none will be set by the rest of the poll. -/
def Stopped (s : Inner) : Prop := s.deadlines = [] ∧ s.state ≠ .ready

theorem destroyAllocation_stopped (s : Inner) (operation : Operation) (status : ℤ)
    (stunCode : ℕ) : Stopped (s.destroyAllocation operation status stunCode) := by
  obtain ⟨events, heq⟩ := destroyAllocation_eq s operation status stunCode
  rw [heq]
  refine ⟨rfl, ?_⟩
  show (if operation = Operation.deallocate then TurnState.deallocated else .destroying) ≠ .ready
  split_ifs <;> decide

/-- Outside the lifetime of a READY core the first transaction that is given up
ends everything. -/
theorem expireFrom_unmaintained (before : List Pending) (hm : ¬ s.Maintained now)
    (h : s.pending = before ++ todo)
    (hahead : ∀ q ∈ before, now < q.nextAttempt) (hrto : ∀ q ∈ todo, 0 < q.rto) :
    Stopped (s.expireFrom now before.length) ∨
      ∃ controls events pending, (∀ q ∈ pending, now < q.nextAttempt) ∧
        s.expireFrom now before.length = { s with controls, events, pending } := by
  induction todo generalizing s before with
  | nil =>
    right
    rw [List.append_nil] at h
    rw [expireFrom_end (by rw [h])]
    exact ⟨s.controls, s.events, s.pending, h ▸ hahead, rfl⟩
  | cons p todo ih =>
    have hlen : ∀ q : Pending, before.length + 1 = (before ++ [q]).length :=
      fun q => by rw [List.length_append]; rfl
    have hrest : ∀ q ∈ todo, 0 < q.rto := fun q hq => hrto q (List.mem_cons_of_mem p hq)
    by_cases hlater : now < p.nextAttempt
    · rw [expireFrom_skip h hlater, hlen p]
      exact ih _ hm (by rw [h, List.append_assoc]; rfl) (Looping.ahead_snoc hahead hlater) hrest
    by_cases hout : p.timesOut s.transport now
    · left
      obtain ⟨controls, hexpire⟩ := expire_eq h now
      have hdestroys : { s with pending := before ++ todo, controls }.completeFailure p.operation
          resultTimeout 0 now = _ := completeFailure_destroys _ _ fun hc => hm hc.2
      obtain ⟨_, heq⟩ := destroyAllocation_eq { s with pending := before ++ todo, controls }
        p.operation resultTimeout 0
      rw [expireFrom_expire h hout, hexpire, hdestroys,
        expireFrom_end (by rw [heq]; exact Nat.zero_le _)]
      exact destroyAllocation_stopped _ _ _ _
    · have hp' := retransmitted_later now (hrto p List.mem_cons_self)
      obtain ⟨controls, events, hq⟩ := queuePacket_quiet s p.packet
      rw [expireFrom_retransmit h hlater hout, hq, hlen (p.retransmitted now)]
      have hgo := ih (s := { s with
        controls, events, pending := before ++ p.retransmitted now :: todo }) _ hm
        (by rw [List.append_assoc]; rfl) (Looping.ahead_snoc hahead hp') hrest
      exact hgo

/-! ### The maintenance that is due -/

theorem andThen_eq_ok {α β : Type} {r : Outcome α} {f : α → Inner → Outcome β} {b : β}
    (h : (r.andThen f).1 = .ok b) :
    ∃ a, r = (.ok a, r.2) ∧ r.andThen f = f a r.2 ∧ (f a r.2).1 = .ok b := by
  obtain ⟨e | a, s⟩ := r
  · exact nomatch h
  · exact ⟨a, rfl, rfl, h⟩

theorem transactionTimeout_pos (s : Inner) : 0 < s.transactionTimeout := by
  rw [transactionTimeout]
  split <;> decide

/-- Whatever is started answers later than now. -/
theorem startOperation_later {nonceRetries : ℕ}
    (hok : s.startOperation P env operation true nonceRetries = (.ok (), t)) :
    ∃ started controls events, (∀ q ∈ started, q.operation = operation ∧ env.now < q.nextAttempt) ∧
      t = { s with controls, events, pending := s.pending ++ started } := by
  have hcases := startOperation_cases P env s operation true nonceRetries
  rw [hok] at hcases
  rcases hcases with
    ⟨_, _, controls, events, heq⟩ | ⟨_, ⟨e, he⟩, _⟩ | ⟨_, _, _, p, hop, _, _, hnext, controls, events,
      heq⟩
  · refine ⟨[], controls, events, fun q hq => absurd hq List.not_mem_nil, ?_⟩
    rw [List.append_nil]
    exact heq
  · exact nomatch he
  · have hpos := transactionTimeout_pos s
    refine ⟨[p], controls, events, fun q hq => ?_, heq⟩
    rw [List.mem_singleton.mp hq]
    exact ⟨hop, by omega⟩

/-- A guarded retry clears its deadline unless the operation is pending already. -/
def Retried (now : ℕ) (old : Option ℕ) (pending : Bool) (new : Option ℕ) : Prop :=
  due now new = (due now old && pending)

theorem Retried.cleared {old : Option ℕ} {pending : Bool} (h : ¬ pending) :
    Retried now old pending none := by
  rw [Retried, Bool.eq_false_of_not_eq_true h, Bool.and_false]
  rfl

theorem Retried.skipped {old : Option ℕ} {wanted : Prop} {pending : Bool}
    (h : ¬ (wanted ∧ ¬ pending)) (hwanted : due now old → wanted) : Retried now old pending old := by
  rw [Retried]
  rcases hdue : due now old
  · rfl
  · rw [Bool.true_and]
    by_contra hne
    exact h ⟨hwanted hdue, fun hp => hne hp.symm⟩

theorem Retried.iff {old new : Option ℕ} {pending : Bool} (h : Retried now old pending new) :
    ¬ due now new ↔ ¬ (due now old ∧ pending) := by
  rw [show due now new = _ from h, Bool.and_eq_true]

/-- A guarded retry that succeeds; `set` puts its deadline into the core. -/
theorem retry_ok {wanted : Prop} [Decidable wanted] {old : Option ℕ} (set : Option ℕ → Inner)
    (hset : set old = s) (hwanted : due env.now old → wanted)
    (hok : (if wanted ∧ ¬ s.hasOperation operation then
        (set none).startOperation P env operation true 0 else (.ok (), s)) = (.ok (), t)) :
    ∃ started controls events deadline,
      (∀ q ∈ started, q.operation = operation ∧ env.now < q.nextAttempt) ∧
      Retried env.now old (s.hasOperation operation) deadline ∧
      t = { set deadline with controls, events, pending := (set deadline).pending ++ started } := by
  split_ifs at hok with hdue
  · obtain ⟨started, controls, events, hlater, heq⟩ := startOperation_later hok
    exact ⟨started, controls, events, none, hlater, .cleared hdue.2, heq⟩
  · refine ⟨[], s.controls, s.events, old, fun q hq => absurd hq List.not_mem_nil,
      .skipped hdue hwanted, ?_⟩
    rw [hset, List.append_nil]
    exact (Prod.mk.inj hok).2.symm

theorem pollRefresh_ok (hok : s.pollRefresh P env = (.ok (), t)) :
    ∃ started controls events refresh,
      (∀ q ∈ started, q.operation = .refresh ∧ env.now < q.nextAttempt) ∧
      Retried env.now s.allocationRefresh (s.hasOperation .refresh) refresh ∧
      t =
        { s with
          controls, events
          pending := s.pending ++ started
          allocationRefresh := refresh } :=
  retry_ok (fun refresh => { s with allocationRefresh := refresh }) rfl id hok

theorem pollPermission_ok {permissionDue : Bool}
    (hwanted : due env.now s.permissionRetry → permissionDue)
    (hok : s.pollPermission P env permissionDue = (.ok (), t)) :
    ∃ started controls events permission,
      (∀ q ∈ started, q.operation = .permission ∧ env.now < q.nextAttempt) ∧
      Retried env.now s.permissionRetry (s.hasOperation .permission) permission ∧
      t =
        { s with
          controls, events
          pending := s.pending ++ started
          permissionRetry := permission } :=
  retry_ok (fun permission => { s with permissionRetry := permission }) rfl hwanted hok

theorem pollChannel_ok {channelDue : Bool} (hwanted : due env.now s.channelRetry → channelDue)
    (hok : s.pollChannel P env channelDue = (.ok (), t)) :
    ∃ started controls events channel,
      (∀ q ∈ started, q.operation = .channel ∧ env.now < q.nextAttempt) ∧
      Retried env.now s.channelRetry (s.hasOperation .channel) channel ∧
      t =
        { s with
          controls, events
          pending := s.pending ++ started
          channelRetry := channel } :=
  retry_ok (fun channel => { s with channelRetry := channel }) rfl hwanted hok

theorem pollMaintenance_eq (env : Env) (s : Inner)
    (hprofile : 0 < s.profile.maintenanceRefresh) :
    ∃ maintenance, ¬ due env.now maintenance ∧
      s.pollMaintenance env (due env.now s.maintenanceRefresh) =
        { s with maintenanceRefresh := maintenance } := by
  rw [pollMaintenance]
  split_ifs with hdue
  · exact ⟨_, not_due_later hprofile, rfl⟩
  · exact ⟨s.maintenanceRefresh, hdue, rfl⟩

theorem pollKeepalive_eq (env : Env) (s : Inner) (hprofile : 0 < s.profile.keepaliveInterval) :
    ∃ controls events keepalive, ¬ due env.now keepalive ∧
      s.pollKeepalive env = { s with controls, events, keepalive } := by
  rw [pollKeepalive]
  split_ifs with hdue
  · obtain ⟨controls, events, heq⟩ := queueKeepalive_quiet
      { s with keepalive := some (env.now + s.profile.keepaliveInterval) }
    exact ⟨controls, events, _, not_due_later hprofile, heq⟩
  · exact ⟨s.controls, s.events, s.keepalive, hdue, rfl⟩

theorem hasOperation_append_of_ne {ps started : List Pending} {other : Operation}
    (h : ∀ q ∈ started, q.operation = other ∧ now < q.nextAttempt) (hne : other ≠ operation) :
    (ps ++ started).any (·.operation = operation) = ps.any (·.operation = operation) := by
  have hnone : started.any (·.operation = operation) = false := by
    rw [List.any_eq_false]
    intro q hq
    rw [(h q hq).1]
    exact fun hc => hne (of_decide_eq_true hc)
  rw [List.any_append, hnone, Bool.or_false]

/-- The stages of a maintenance that succeeds. -/
theorem pollReady_ok (hok : (s.pollReady P env).1 = .ok ()) :
    ∃ s₁ s₂ s₃, s.pollRefresh P env = (.ok (), s₁) ∧
      (s₁.pollMaintenance env (due env.now s.maintenanceRefresh)).pollPermission P env
        (due env.now s.maintenanceRefresh || due env.now s.permissionRetry) = (.ok (), s₂) ∧
      s₂.pollChannel P env
        (due env.now s.maintenanceRefresh || due env.now s.channelRetry) = (.ok (), s₃) ∧
      (s.pollReady P env).2 = s₃.pollKeepalive env := by
  rw [pollReady] at hok ⊢
  obtain ⟨_, h₁, heq₁, hok⟩ := andThen_eq_ok hok
  obtain ⟨_, h₂, heq₂, hok⟩ := andThen_eq_ok hok
  obtain ⟨_, h₃, heq₃, hok⟩ := andThen_eq_ok hok
  refine ⟨_, _, _, h₁, h₂, h₃, ?_⟩
  rw [heq₁, heq₂, heq₃]

/-- After the maintenance of a READY core a deadline lies in the past only when
its operation was pending already. -/
theorem pollReady_later (hahead : ∀ q ∈ s.pending, env.now < q.nextAttempt)
    (hprofile : s.profile = .pjnathCompat) (hok : (s.pollReady P env).1 = .ok ()) :
    Later env.now (s.pollReady P env).2 ↔
      ¬ (due env.now s.allocationRefresh ∧ s.hasOperation .refresh) ∧
        ¬ (due env.now s.permissionRetry ∧ s.hasOperation .permission) ∧
        ¬ (due env.now s.channelRetry ∧ s.hasOperation .channel) := by
  obtain ⟨s₁, s₂, s₃, h₁, h₂, h₃, hfinal⟩ := pollReady_ok hok
  have hmaintain : 0 < s.profile.maintenanceRefresh := by rw [hprofile]; decide
  have hkeep : 0 < s.profile.keepaliveInterval := by rw [hprofile]; decide
  -- every stage changes the pending transactions and the deadline it is about
  obtain ⟨started₁, c₁, e₁, refresh, hs₁, hrefresh, heq₁⟩ := pollRefresh_ok h₁
  obtain ⟨maintenance, hmaintenance, hset⟩ :=
    pollMaintenance_eq env s₁ (by rw [heq₁]; exact hmaintain)
  rw [heq₁] at hset h₂
  rw [hset] at h₂
  obtain ⟨started₂, c₂, e₂, permission, hs₂, hpermission, heq₂⟩ :=
    pollPermission_ok (fun hd => Bool.or_eq_true_iff.mpr (.inr hd)) h₂
  rw [heq₂] at h₃
  obtain ⟨started₃, c₃, e₃, channel, hs₃, hchannel, heq₃⟩ :=
    pollChannel_ok (fun hd => Bool.or_eq_true_iff.mpr (.inr hd)) h₃
  obtain ⟨c₄, e₄, keepalive, hkeepalive, heq₄⟩ :=
    pollKeepalive_eq env s₃ (by rw [heq₃]; exact hkeep)
  rw [hfinal, heq₄, heq₃]
  -- an operation started by an earlier stage is none of those that guard a later one
  have hhas₂ : (s.pending ++ started₁).any (·.operation = .permission) =
      s.hasOperation .permission := hasOperation_append_of_ne hs₁ (by decide)
  have hhas₃ : (s.pending ++ started₁ ++ started₂).any (·.operation = .channel) =
      s.hasOperation .channel :=
    (hasOperation_append_of_ne hs₂ (by decide)).trans (hasOperation_append_of_ne hs₁ (by decide))
  have hlater : ∀ q ∈ s.pending ++ started₁ ++ started₂ ++ started₃, env.now < q.nextAttempt := by
    intro q hq
    simp only [List.mem_append] at hq
    rcases hq with ((hq | hq) | hq) | hq
    · exact hahead q hq
    · exact (hs₁ q hq).2
    · exact (hs₂ q hq).2
    · exact (hs₃ q hq).2
  have hpermission' : Retried env.now s.permissionRetry
      ((s.pending ++ started₁).any (·.operation = .permission)) permission := hpermission
  have hchannel' : Retried env.now s.channelRetry
      ((s.pending ++ started₁ ++ started₂).any (·.operation = .channel)) channel := hchannel
  rw [hhas₂] at hpermission'
  rw [hhas₃] at hchannel'
  rw [later_iff]
  show (∀ q ∈ s.pending ++ started₁ ++ started₂ ++ started₃, env.now < q.nextAttempt) ∧
    ¬ due env.now refresh ∧ ¬ due env.now maintenance ∧ ¬ due env.now permission ∧
      ¬ due env.now channel ∧ ¬ due env.now keepalive ↔ _
  rw [hrefresh.iff, hpermission'.iff, hchannel'.iff]
  exact ⟨fun ⟨_, hr, _, hp, hc, _⟩ => ⟨hr, hp, hc⟩,
    fun ⟨hr, hp, hc⟩ => ⟨hlater, hr, hmaintenance, hp, hc, hkeepalive⟩⟩

/-! ### A whole poll -/

/-- The loop over a core whose maintenance can go on. -/
theorem Base.looping (h : Base s) (hm : s.Maintained now) : Looping now s [] s.pending := by
  refine ⟨rfl, hm, fun q hq => absurd hq List.not_mem_nil, h.rto, fun q hq => ?_, h.once⟩
  have hhome := h.home q hq
  rw [hm.1] at hhome
  rcases hop : q.operation <;> rw [hop] at hhome <;> first | rfl | exact absurd hhome (by decide)

theorem poll_eq (halive : s.destroyed = false) :
    NativeCore.poll P env s =
      (((s.expireTransactions env.now).pollExpiry env).pollActive P env).andThen fun _ t =>
        (.ok (t.nextDeadline.map fun deadline => max (deadline - env.now) (millis 1)), t) := by
  rw [NativeCore.poll, halive, if_neg Bool.false_ne_true]

/-- A core that is not READY is left alone after the loop. -/
theorem poll_of_not_ready (halive : s.destroyed = false)
    (hstate : (s.expireTransactions env.now).state ≠ .ready) :
    NativeCore.poll P env s =
      (.ok ((s.expireTransactions env.now).nextDeadline.map fun deadline =>
        max (deadline - env.now) (millis 1)), s.expireTransactions env.now) := by
  have hinactive : ¬ (s.expireTransactions env.now).active := fun h => hstate (active_iff.mp h).2
  rw [poll_eq halive, pollExpiry, if_neg fun h => hinactive h.1, pollActive, if_neg hinactive]
  rfl

theorem Stopped.nextDeadline (h : Stopped s) : s.nextDeadline = none := by
  rw [Inner.nextDeadline, h.1]
  rfl

/-- The loop has nothing to do before the first attempt is due. -/
theorem expireTransactions_of_ahead (h : ∀ q ∈ s.pending, now < q.nextAttempt) :
    s.expireTransactions now = s := by
  suffices hloop : ∀ todo before, s.pending = before ++ todo →
      s.expireFrom now before.length = s from hloop s.pending [] rfl
  intro todo
  induction todo with
  | nil =>
    intro before hpending
    exact expireFrom_end (by rw [hpending, List.append_nil])
  | cons p todo ih =>
    intro before hpending
    have hp : now < p.nextAttempt := h p (by rw [hpending]; simp)
    rw [expireFrom_skip hpending hp, show before.length + 1 = (before ++ [p]).length by
      rw [List.length_append]; rfl]
    exact ih (before ++ [p]) (by rw [hpending, List.append_assoc]; rfl)

/-- A core that is not READY only waits for its transactions. -/
theorem poll_waiting (env : Env) (halive : s.destroyed = false) (hstate : s.state ≠ .ready)
    (hahead : ∀ q ∈ s.pending, env.now < q.nextAttempt) :
    NativeCore.poll P env s =
      (.ok (s.nextDeadline.map fun deadline => max (deadline - env.now) (millis 1)), s) := by
  have hloop := expireTransactions_of_ahead hahead
  rw [poll_of_not_ready halive (by rw [hloop]; exact hstate), hloop]

/-- A poll with nothing due changes nothing. -/
theorem poll_idle (env : Env) (halive : s.destroyed = false) (hlater : Later env.now s)
    (hlives : ¬ due env.now s.allocationExpiresAt) :
    NativeCore.poll P env s =
      (.ok (s.nextDeadline.map fun deadline => max (deadline - env.now) (millis 1)), s) := by
  obtain ⟨hahead, hr, hm, hp, hc, hk⟩ := later_iff.mp hlater
  have hrefresh : s.pollRefresh P env = (.ok (), s) := if_neg fun h => hr h.1
  have hmaintain : s.pollMaintenance env (due env.now s.maintenanceRefresh) = s := if_neg hm
  have hpermission : s.pollPermission P env
      (due env.now s.maintenanceRefresh || due env.now s.permissionRetry) = (.ok (), s) :=
    if_neg fun h => (Bool.or_eq_true_iff.mp h.1).elim hm hp
  have hchannel : s.pollChannel P env
      (due env.now s.maintenanceRefresh || due env.now s.channelRetry) = (.ok (), s) :=
    if_neg fun h => (Bool.or_eq_true_iff.mp h.1).elim hm hc
  have hkeepalive : s.pollKeepalive env = s := if_neg hk
  have hready : s.pollReady P env = (.ok (), s) := by
    rw [pollReady, hrefresh]
    show ((s.pollMaintenance env _).pollPermission P env _).andThen _ = _
    rw [hmaintain, hpermission]
    show (s.pollChannel P env _).andThen _ = _
    rw [hchannel]
    show (Except.ok (), s.pollKeepalive env) = _
    rw [hkeepalive]
  have hactive : s.pollActive P env = (.ok (), s) := by
    rw [pollActive, hready, ite_self]
  rw [poll_eq halive, expireTransactions_of_ahead hahead, pollExpiry, if_neg fun h => hlives h.2,
    hactive]
  rfl

theorem expireTransactions_unmaintained (hb : Base s) (now : ℕ) (hm : ¬ s.Maintained now) :
    Stopped (s.expireTransactions now) ∨
      ∃ controls events pending, (∀ q ∈ pending, now < q.nextAttempt) ∧
        s.expireTransactions now = { s with controls, events, pending } :=
  expireFrom_unmaintained [] hm rfl (fun _ hq => absurd hq List.not_mem_nil) hb.rto

theorem poll_not_ready {d : ℕ} (hb : Base s) (halive : s.destroyed = false)
    (hstate : s.state ≠ .ready) (hpoll : NativeCore.poll P env s = (.ok (some d), t)) :
    Later env.now t ↔ ¬ due env.now s.allocationRefresh ∧ ¬ due env.now s.maintenanceRefresh ∧
      ¬ due env.now s.permissionRetry ∧ ¬ due env.now s.channelRetry ∧
      ¬ due env.now s.keepalive := by
  rcases expireTransactions_unmaintained hb env.now fun hm => hstate hm.1 with
    hstopped | ⟨controls, events, pending, hahead, heq⟩
  · rw [poll_of_not_ready halive hstopped.2, hstopped.nextDeadline] at hpoll
    exact nomatch Except.ok.inj (Prod.mk.inj hpoll).1
  · rw [poll_of_not_ready halive (by rw [heq]; exact hstate)] at hpoll
    rw [← (Prod.mk.inj hpoll).2, heq, later_iff]
    exact and_iff_right hahead

/-- Once the allocation has expired, a poll leaves no deadline. -/
theorem poll_expired (hb : Base s) (halive : s.destroyed = false) (hready : s.state = .ready)
    (hm : ¬ s.Maintained env.now) {r : Option ℕ} (hpoll : NativeCore.poll P env s = (.ok r, t)) :
    r = none := by
  rcases expireTransactions_unmaintained hb _ hm with
    hstopped | ⟨controls, events, pending, hahead, heq⟩
  · rw [poll_of_not_ready halive hstopped.2, hstopped.nextDeadline] at hpoll
    exact (Except.ok.inj (Prod.mk.inj hpoll).1).symm
  · obtain ⟨_, hexpires, _, _, _, hstaying, _⟩ := hb.ready hready
    obtain ⟨expires, hsome⟩ := Option.isSome_iff_exists.mp hexpires
    have hdue : due env.now s.allocationExpiresAt := by
      rw [hsome, due, Option.any_some, decide_eq_true_eq]
      by_contra hlater
      refine hm ⟨hready, ?_⟩
      rw [hsome, Option.any_some, decide_eq_true_eq]
      omega
    have hactive : { s with controls, events, pending }.active := active_iff.mpr ⟨hstaying, hready⟩
    have hstopped := destroyAllocation_stopped { s with controls, events, pending } .refresh
      resultTimeout 0
    have hinactive : ¬ ({ s with controls, events, pending }.destroyAllocation .refresh
        resultTimeout 0).active := fun h => hstopped.2 (active_iff.mp h).2
    rw [poll_eq halive, heq, pollExpiry, if_pos ⟨hactive, hdue⟩, pollActive, if_neg hinactive]
      at hpoll
    obtain ⟨hr, _⟩ := Prod.mk.inj hpoll
    rw [← Except.ok.inj hr, hstopped.nextDeadline]
    rfl

theorem poll_exhausted {d : ℕ} (hb : Base s) (halive : s.destroyed = false)
    (hm : s.Maintained env.now) (hexhausted : s.channelExhausted env.now)
    (hpoll : NativeCore.poll P env s = (.ok (some d), t)) :
    Later env.now t ↔
      ¬ due env.now s.allocationRefresh ∨ refreshLostFirst s.transport env.now s.pending := by
  rw [channelExhausted, Bool.and_eq_true, decide_eq_true_eq] at hexhausted
  obtain ⟨controls, events, refresh, rf, pf, cf, heq, hrefresh⟩ :=
    expireFrom_exhausted (hb.looping hm) hexhausted.1 hexhausted.2
  have hexpired : s.expireTransactions env.now = _ := heq
  rw [poll_of_not_ready halive (by rw [hexpired]; exact fun h => nomatch h)] at hpoll
  rw [← (Prod.mk.inj hpoll).2, hexpired, later_iff]
  show (∀ q ∈ [], env.now < Pending.nextAttempt q) ∧ ¬ due env.now refresh ∧
    ¬ due env.now none ∧ ¬ due env.now none ∧ ¬ due env.now none ∧ ¬ due env.now none ↔ _
  have hnone : ¬ due env.now none := Bool.false_ne_true
  have hnil : ∀ q ∈ [], env.now < Pending.nextAttempt q := fun _ hq => absurd hq List.not_mem_nil
  rw [show due env.now refresh = _ from hrefresh, Bool.and_eq_true, Bool.not_eq_true',
    ← Bool.not_eq_true, not_and_or, not_not]
  exact ⟨fun h => h.2.1, fun h => ⟨hnil, h, hnone, hnone, hnone, hnone⟩⟩

/-- An operation is pending once at most, so it is lost or kept. -/
theorem kept_of_not_lost {transport : TurnControlTransport} {ps : List Pending}
    (honce : (ps.map Pending.operation).Nodup) (hkept : kept transport now ps operation) :
    lost transport now ps operation = false := by
  induction ps with
  | nil => rfl
  | cons p ps ih =>
    rw [List.map_cons, List.nodup_cons] at honce
    by_cases hout : p.timesOut transport now
    · rw [kept_cons_of_lost hout] at hkept
      have hne : p.operation ≠ operation := by
        rintro rfl
        obtain ⟨q, hq, hop⟩ := List.any_eq_true.mp hkept
        rw [Bool.and_eq_true, decide_eq_true_eq] at hop
        exact honce.1 (List.mem_map.mpr ⟨q, hq, hop.1⟩)
      rw [lost_cons_of_ne hout hne]
      exact ih honce.2 hkept
    · rw [lost_cons_of_kept hout]
      rw [kept_cons_of_kept hout, Bool.or_eq_true, decide_eq_true_eq] at hkept
      rcases hkept with rfl | hkept
      · exact not_lost_of_not_mem _ _ honce.1
      · exact ih honce.2 hkept

theorem Rescheduled.and_kept {transport : TurnControlTransport} {ps : List Pending}
    {old new : Option ℕ} (honce : (ps.map Pending.operation).Nodup)
    (h : Rescheduled now old (lost transport now ps operation) new) :
    due now new ∧ kept transport now ps operation ↔ due now old ∧ kept transport now ps operation := by
  rw [show due now new = _ from h, Bool.and_eq_true, Bool.not_eq_true', and_assoc]
  exact ⟨fun ⟨hd, _, hk⟩ => ⟨hd, hk⟩, fun ⟨hd, hk⟩ => ⟨hd, kept_of_not_lost honce hk, hk⟩⟩

theorem poll_ready {r : Option ℕ} (hb : Base s) (hm : s.Maintained env.now)
    (hfew : ¬ s.channelExhausted env.now) (hpoll : NativeCore.poll P env s = (.ok r, t)) :
    Later env.now t ↔
      ¬ (due env.now s.allocationRefresh ∧ kept s.transport env.now s.pending .refresh) ∧
        ¬ (due env.now s.permissionRetry ∧ kept s.transport env.now s.pending .permission) ∧
        ¬ (due env.now s.channelRetry ∧ kept s.transport env.now s.pending .channel) := by
  obtain ⟨_, _, _, _, _, hstaying, halive⟩ := hb.ready hm.1
  have hfew' : lost s.transport env.now s.pending .channel →
      s.channelFailures + 1 < maxChannelMaintenanceFailures := by
    intro hlost
    by_contra hmany
    rw [channelExhausted, hlost, Bool.true_and, decide_eq_true_eq] at hfew
    exact hfew (Nat.not_lt.mp hmany)
  obtain ⟨controls, events, pending, refresh, permission, channel, rf, pf, cf, heq, hahead, hkeeps, hr,
    hp, hc⟩ := expireFrom_ready (hb.looping hm) hfew'
  have hexpired : s.expireTransactions env.now = _ := heq
  generalize hu : s.expireTransactions env.now = u at hexpired
  have hactive : u.active := by
    rw [hexpired]
    exact active_iff.mpr ⟨hstaying, hm.1⟩
  have hlives : ¬ due env.now u.allocationExpiresAt := by
    rw [hexpired]
    obtain ⟨expires, hexpires, hlater⟩ := (Option.any_eq_true _ _).mp hm.2
    show ¬ due env.now s.allocationExpiresAt
    rw [hexpires, due, Option.any_some, decide_eq_true_eq]
    exact Nat.not_le.mpr (of_decide_eq_true hlater)
  rw [poll_eq halive, hu, pollExpiry, if_neg fun h => hlives h.2, pollActive, if_pos hactive] at hpoll
  obtain ⟨_, hok, hresult, _⟩ := andThen_eq_ok (congrArg Prod.fst hpoll)
  rw [hresult] at hpoll
  have ht : (u.pollReady P env).2 = t := (Prod.mk.inj hpoll).2
  have hahead' : ∀ q ∈ u.pending, env.now < q.nextAttempt := by rw [hexpired]; exact hahead
  have hprofile : u.profile = .pjnathCompat := by rw [hexpired]; exact hb.profile
  rw [← ht, pollReady_later hahead' hprofile (congrArg Prod.fst hok)]
  have hhas : ∀ operation, u.hasOperation operation =
      kept s.transport env.now s.pending operation := by
    intro operation
    rw [hexpired]
    exact hkeeps operation
  rw [hhas, hhas, hhas]
  have hr' : u.allocationRefresh = refresh := by rw [hexpired]
  have hp' : u.permissionRetry = permission := by rw [hexpired]
  have hc' : u.channelRetry = channel := by rw [hexpired]
  rw [hr', hp', hc', hr.and_kept hb.once, hp.and_kept hb.once, hc.and_kept hb.once]

/-- After a poll every deadline lies ahead, unless one has come whose action a
guard suppresses. -/
theorem poll_punctual {d : ℕ} (hb : Base s) (halive : s.destroyed = false)
    (hpoll : NativeCore.poll P env s = (.ok (some d), t)) :
    Later env.now t ↔ s.Punctual env.now := by
  rw [Punctual]
  split_ifs with hready hexhausted
  · by_cases hm : s.Maintained env.now
    · exact poll_exhausted hb halive hm hexhausted hpoll
    · exact nomatch poll_expired hb halive hready hm hpoll
  · by_cases hm : s.Maintained env.now
    · exact poll_ready hb hm hexhausted hpoll
    · exact nomatch poll_expired hb halive hready hm hpoll
  · exact poll_not_ready hb halive hready hpoll

/-- **When the TURN timer makes progress.**  In every reachable core that is not
destroyed, a poll that returns a delay leaves all deadlines ahead exactly when
the core was punctual. -/
theorem poll_punctual_iff {s₀ : Inner} {server peer : SocketAddr} {username password : Bytes}
    {transport : TurnControlTransport} {calls : List (Env × Call)} {d : ℕ}
    (hcreate : NativeCore.create server username password peer transport = .ok s₀)
    (hrun : Transition.run (NativeCore.step P) s₀ calls = some s) (halive : s.destroyed = false)
    (hpoll : NativeCore.poll P env s = (.ok (some d), t)) :
    (∀ deadline ∈ t.deadlines, env.now < deadline) ↔ s.Punctual env.now :=
  poll_punctual (base_of_run hcreate hrun) halive hpoll

theorem Quiet.deadlines (h : Quiet s t) : t.deadlines = s.deadlines := by
  obtain ⟨_, _, rfl⟩ := h
  rfl

theorem Quiet.destroyed (h : Quiet s t) : t.destroyed = s.destroyed := by
  obtain ⟨_, _, rfl⟩ := h
  rfl

theorem readyCore_deadlines (P : Primitives) :
    (readyCore P).deadlines = [secs 300, secs 175, millis 11878] := by
  show [allocationRefreshDeadline 0 none (secs 300), 0 + secs 175,
    firstKeepaliveDeadline 0 (secs 10) relayAddr] = _
  decide +kernel

/-- One second after the handshake nothing is due. -/
theorem poll_after_handshake (P : Primitives) (id : BitVec 8) (h : Quiet (readyCore P) s) :
    NativeCore.poll P (moment (secs 1) id) s = (.ok (some (millis 10878)), s) := by
  have hdeadlines := h.deadlines.trans (readyCore_deadlines P)
  have hexpires : s.allocationExpiresAt = some (0 + secs requestedAllocationLifetime.toNat) := by
    obtain ⟨_, _, rfl⟩ := h
    rfl
  have hlater : Later (secs 1) s := by
    rw [Later, hdeadlines]
    decide
  have hlives : ¬ due (secs 1) s.allocationExpiresAt := by
    rw [hexpires]
    decide
  have hnext : s.nextDeadline = some (millis 11878) := by
    rw [nextDeadline, hdeadlines]
    decide
  have hdelay : max (millis 11878 - secs 1) (millis 1) = millis 10878 := by decide
  rw [poll_idle (moment (secs 1) id) h.destroyed hlater hlives, hnext, Option.map_some]
  show (Except.ok (some (max (millis 11878 - secs 1) (millis 1))), s) = _
  rw [hdelay]

theorem punctual_after_handshake :
    ∃ s t, Transition.run (NativeCore.step zeroDigests) freshCore (handshake zeroDigests) = some s ∧
      NativeCore.poll zeroDigests (moment (secs 1) 3) s = (.ok (some (millis 10878)), t) ∧
      ((∀ deadline ∈ t.deadlines, secs 1 < deadline) ↔ s.Punctual (secs 1)) := by
  obtain ⟨s, hrun, hquiet⟩ := handshake_ready zeroDigests
  have hpoll := poll_after_handshake zeroDigests 3 hquiet
  exact ⟨s, s, hrun, hpoll, poll_punctual_iff create_freshCore hrun hquiet.destroyed hpoll⟩

/-- The core after a shutdown in its 299.9th second, up to its queues. -/
def deallocatingCore (P : Primitives) (packet : Bytes) : Inner :=
  { readyCore P with
    shuttingDown := true
    maintenanceRefresh := none
    keepalive := none
    state := .deallocating
    pending := [freshCore.begun (moment (millis 299900) 3) .deallocate packet true 0] }

theorem deallocatingCore_deadlines (P : Primitives) (packet : Bytes) :
    (deallocatingCore P packet).deadlines = [millis 300100, secs 300] := by
  show [millis 299900 + 0 + initialRto, allocationRefreshDeadline 0 none (secs 300)] = _
  decide +kernel

theorem gracefulShutdown_of_ready (hstaying : ¬ (s.destroyed ∨ s.shuttingDown))
    (hready : s.state = .ready) :
    NativeCore.gracefulShutdown P env s =
      ({ s with
        shuttingDown := true
        channel := none
        maintenanceRefresh := none
        permissionRetry := none
        channelRetry := none
        keepalive := none
        controls := []
        pending := [] }.setState .deallocating).startOperation P env .deallocate true 0 := by
  rw [NativeCore.gracefulShutdown, if_neg hstaying]
  exact if_pos (.inl hready)

theorem shutdown_after_handshake (P : Primitives) (h : Quiet (readyCore P) s) :
    ∃ packet, Quiet (deallocatingCore P packet)
      (NativeCore.gracefulShutdown P (moment (millis 299900) 3) s).2 := by
  obtain ⟨controls, events, rfl⟩ := h
  rw [gracefulShutdown_of_ready (by rintro (h | h) <;> exact nomatch h) rfl]
  obtain ⟨events', hstate⟩ := setState_eq { readyCore P with
    controls := []
    events
    shuttingDown := true
    maintenanceRefresh := none
    keepalive := none
    pending := [] } .deallocating
  have hfits : Fits { readyCore P with
      controls := []
      events := events'
      shuttingDown := true
      maintenanceRefresh := none
      keepalive := none
      pending := []
      state := .deallocating } := by
    show 4 ≤ 512 ∧ 1 ≤ 4096 ∧ 1 ≤ 4096
    decide
  obtain ⟨packet, controls', events'', hquiet⟩ :=
    hfits.begins P (moment (millis 299900) 3) .deallocate (fun _ => ⟨rfl, rfl, rfl⟩) rfl 0
  refine ⟨packet, controls', events'', ?_⟩
  rw [← hstate] at hquiet
  exact hquiet

/-- The refresh is due, and the Deallocate request is on its way. -/
theorem poll_while_deallocating (P : Primitives) {packet : Bytes}
    (h : Quiet (deallocatingCore P packet) s) :
    NativeCore.poll P (moment (secs 300) 4) s = (.ok (some (millis 1)), s) := by
  have hpending : s.pending =
      [freshCore.begun (moment (millis 299900) 3) .deallocate packet true 0] := by
    obtain ⟨_, _, rfl⟩ := h
    rfl
  have hdeadlines := h.deadlines.trans (deallocatingCore_deadlines P packet)
  have hstate : s.state ≠ .ready := by
    obtain ⟨_, _, rfl⟩ := h
    exact fun h => nomatch h
  have hahead : ∀ q ∈ s.pending, secs 300 < q.nextAttempt := by
    intro q hq
    rw [hpending] at hq
    rw [List.mem_singleton.mp hq]
    show secs 300 < millis 299900 + 0 + initialRto
    decide
  have hnext : s.nextDeadline = some (secs 300) := by
    rw [nextDeadline, hdeadlines]
    decide
  have hdelay : max (secs 300 - secs 300) (millis 1) = millis 1 := by decide
  rw [poll_waiting (moment (secs 300) 4) h.destroyed hstate hahead, hnext, Option.map_some]
  show (Except.ok (some (max (secs 300 - secs 300) (millis 1))), s) = _
  rw [hdelay]

/-- A Refresh that falls due while the allocation is given back is due for as long
as that takes. -/
theorem refresh_due_while_deallocating :
    ¬ ∃ P : Primitives, ∀ (s₀ s t : Inner) (server peer : SocketAddr) (username password : Bytes)
      (transport : TurnControlTransport) (calls : List (Env × Call)) (env : Env) (d : ℕ),
      NativeCore.create server username password peer transport = .ok s₀ →
      Transition.run (NativeCore.step P) s₀ calls = some s → s.destroyed = false →
      NativeCore.poll P env s = (.ok (some d), t) →
      ∀ deadline ∈ t.deadlines, env.now < deadline := by
  rintro ⟨P, hclaim⟩
  obtain ⟨s, hrun, hready⟩ := handshake_ready P
  obtain ⟨packet, hquiet⟩ := shutdown_after_handshake P hready
  set u := NativeCore.after P (moment (millis 299900) 3) s .gracefulShutdown
  have hshut : Transition.run (NativeCore.step P) freshCore
      (handshake P ++ [(moment (millis 299900) 3, .gracefulShutdown)]) = some u := by
    rw [Transition.run_append, hrun]
    rfl
  have hquiet : Quiet (deallocatingCore P packet) u := hquiet
  have hlater := hclaim freshCore u u _ _ _ _ _ _ (moment (secs 300) 4) _ create_freshCore hshut
    hquiet.destroyed (poll_while_deallocating P hquiet)
  have hdue : secs 300 ∈ u.deadlines := by
    rw [hquiet.deadlines, deallocatingCore_deadlines]
    exact List.mem_cons_of_mem _ List.mem_cons_self
  exact Nat.lt_irrefl _ (hlater _ hdue)

end Inner

end Csqtt.Turn
