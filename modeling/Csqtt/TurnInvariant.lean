/-
What holds of every reachable TURN core, whatever the packets it is given.

`Base` is kept by every call (`Base.after`), so it holds along every run from a
core just created (`base_of_run`).  Its main points: a transaction is pending
only in the state that its operation belongs to, one per operation, and a READY
core has everything that its maintenance reads.
-/
import Mathlib.Data.List.Perm.Basic
import Csqtt.TurnCore

namespace Csqtt.Turn

open Stun

/-- The state in which an operation can be pending. -/
def Operation.home : Operation → TurnState
  | .allocate => .allocating
  | .deallocate => .deallocating
  | .refresh | .permission | .channel => .ready

namespace Inner

variable {P : Primitives} {env : Env} {s t : Inner} {operation : Operation} {p : Pending}
  {rest : List Pending} {now : ℕ}

def AuthSet (s : Inner) : Prop := s.realm.isSome ∧ s.nonce.isSome ∧ s.key.isSome

/-- What a READY core has. -/
def Armed (s : Inner) : Prop :=
  s.relay.isSome ∧ s.allocationExpiresAt.isSome ∧ s.maintenanceRefresh.isSome ∧
    s.keepalive.isSome ∧ s.AuthSet ∧ s.shuttingDown = false ∧ s.destroyed = false

structure Base (s : Inner) : Prop where
  ready : s.state = .ready → s.Armed
  once : (s.pending.map Pending.operation).Nodup
  home : ∀ p ∈ s.pending, s.state = p.operation.home
  signed : ∀ p ∈ s.pending, p.authenticated → s.AuthSet
  rto : ∀ p ∈ s.pending, 0 < p.rto
  destroyed : s.destroyed → s.state = .destroying
  profile : s.profile = .pjnathCompat

/-! ### Starting an operation -/

theorem startOperation_begins {authenticated : Bool} {nonceRetries : ℕ} {packet : Bytes}
    (hnew : s.pending.find? (·.operation = operation) = none)
    (hauth : authenticated → s.AuthSet)
    (hbuild : s.buildRequest P operation (env.transaction operation) authenticated = .ok packet) :
    s.startOperation P env operation authenticated nonceRetries =
      (.ok (), { s.queuePacket packet with
        pending := s.pending ++ [s.begun env operation packet authenticated nonceRetries] }) := by
  have hset : ¬ (authenticated && (s.realm.isNone || s.nonce.isNone || s.key.isNone)) := by
    intro hnone
    rw [Bool.and_eq_true] at hnone
    obtain ⟨hr, hn, hk⟩ := hauth hnone.1
    simp only [← Option.not_isSome, hr, hn, hk] at hnone
    exact absurd hnone.2 (by decide)
  simp only [startOperation, hnew, if_neg hset, hbuild]

/-- What `start_operation` can do: nothing for an operation already pending, fail
without a change, or add one transaction. -/
theorem startOperation_cases (P : Primitives) (env : Env) (s : Inner) (operation : Operation)
    (authenticated : Bool) (nonceRetries : ℕ) :
    let r := s.startOperation P env operation authenticated nonceRetries
    (s.hasOperation operation ∧ r.1 = .ok () ∧ Quiet s r.2) ∨
    (¬ s.hasOperation operation ∧ (∃ e, r.1 = .error e) ∧ r.2 = s) ∨
    (¬ s.hasOperation operation ∧ r.1 = .ok () ∧ (authenticated → s.AuthSet) ∧
      ∃ p : Pending, p.operation = operation ∧ p.authenticated = authenticated ∧
        p.rto = initialRto ∧ env.now + s.transactionTimeout ≤ p.nextAttempt ∧
        Quiet { s with pending := s.pending ++ [p] } r.2) := by
  intro r
  rcases hfind : s.pending.find? (·.operation = operation) with _ | q
  · have hnone : ¬ s.hasOperation operation := by
      rw [hasOperation, List.any_eq_true]
      rintro ⟨q, hq, hop⟩
      exact List.find?_eq_none.mp hfind q hq hop
    right
    by_cases hauth : authenticated && (s.realm.isNone || s.nonce.isNone || s.key.isNone)
    · have hr : r = (.error "TURN authentication state is incomplete", s) := by
        simp only [r, startOperation, hfind, hauth, if_true]
      rw [hr]
      exact .inl ⟨hnone, ⟨_, rfl⟩, rfl⟩
    · have hset : authenticated → s.AuthSet := by
        intro h
        simpa [h, AuthSet, Option.isSome_iff_ne_none, and_assoc] using hauth
      rcases hbuild : s.buildRequest P operation (env.transaction operation) authenticated with
        e | packet
      · have hr : r = (.error e, s) := by
          simp only [r, startOperation, hfind, hauth, hbuild, if_false, Bool.false_eq_true]
        rw [hr]
        exact .inl ⟨hnone, ⟨e, rfl⟩, rfl⟩
      · have hr : r = (.ok (), { s.queuePacket packet with
            pending := s.pending ++ [s.begun env operation packet authenticated nonceRetries] }) := by
          exact startOperation_begins hfind hset hbuild
        obtain ⟨controls, events, hq⟩ := queuePacket_quiet s packet
        have hnext : env.now + s.transactionTimeout ≤
            env.now + env.lag operation + s.transactionTimeout := by omega
        rw [hr, hq]
        exact .inr ⟨hnone, rfl, hset, _, rfl, rfl, rfl, hnext, controls, events, rfl⟩
  · have hr : r = (.ok (), if operation = .channel then s.queuePacket q.packet else s) := by
      simp only [r, startOperation, hfind]
    have hqop := List.find?_some hfind
    have hop : s.hasOperation operation := by
      rw [hasOperation, List.any_eq_true]
      exact ⟨q, List.mem_of_find?_eq_some hfind, hqop⟩
    have hquiet : Quiet s (if operation = .channel then s.queuePacket q.packet else s) := by
      split_ifs
      · exact queuePacket_quiet s q.packet
      · exact .refl s
    rw [hr]
    exact .inl ⟨hop, rfl, hquiet⟩

/-! ### Keeping `Base` -/

theorem Base.quiet (h : Base s) (hst : Quiet s t) : Base t := by
  obtain ⟨controls, events, rfl⟩ := hst
  exact ⟨h.ready, h.once, h.home, h.signed, h.rto, h.destroyed, h.profile⟩

theorem Base.alive (h : Base s) (hp : p ∈ s.pending) : s.destroyed = false := by
  by_contra hd
  have hstate := h.home p hp
  rw [h.destroyed (Bool.not_eq_false _ ▸ hd)] at hstate
  rcases hop : p.operation <;> rw [hop] at hstate <;> exact absurd hstate (by decide)

theorem Base.remove (h : Base s) (hperm : (p :: rest).Perm s.pending) :
    Base { s with pending := rest } ∧ p ∈ s.pending ∧ p.operation ∉ rest.map Pending.operation := by
  have hmem : ∀ q ∈ rest, q ∈ s.pending := fun q hq => hperm.mem_iff.mp (List.mem_cons_of_mem p hq)
  have honce := (hperm.map Pending.operation).nodup_iff.mpr h.once
  rw [List.map_cons, List.nodup_cons] at honce
  exact ⟨⟨h.ready, honce.2, fun q hq => h.home q (hmem q hq), fun q hq => h.signed q (hmem q hq),
    fun q hq => h.rto q (hmem q hq), h.destroyed, h.profile⟩,
    hperm.mem_iff.mp List.mem_cons_self, honce.1⟩

theorem Base.destroyAllocation (h : Base s) (halive : s.destroyed = false) (status : ℤ)
    (stunCode : ℕ) : Base (s.destroyAllocation operation status stunCode) := by
  obtain ⟨events, heq⟩ := destroyAllocation_eq s operation status stunCode
  rw [heq]
  refine ⟨fun hr => ?_, List.nodup_nil, fun q hq => absurd hq List.not_mem_nil,
    fun q hq => absurd hq List.not_mem_nil, fun q hq => absurd hq List.not_mem_nil,
    fun hd => absurd hd (by rw [halive]; exact Bool.false_ne_true), h.profile⟩
  exfalso
  revert hr
  show (if operation = Operation.deallocate then TurnState.deallocated else .destroying) ≠ .ready
  split_ifs <;> decide

theorem Base.completeFailure (h : Base s) (halive : s.destroyed = false) (status : ℤ)
    (stunCode now : ℕ) : Base (s.completeFailure operation status stunCode now) := by
  have hfailed := completeFailure_failed s operation status stunCode now
  generalize s.completeFailure operation status stunCode now = t at hfailed ⊢
  cases hfailed with
  | refresh | permission | channel =>
    exact ⟨h.ready, h.once, h.home, h.signed, h.rto, h.destroyed, h.profile⟩
  | exhausted =>
    exact ⟨fun hr => (nomatch hr), List.nodup_nil,
      fun q hq => absurd hq List.not_mem_nil, fun q hq => absurd hq List.not_mem_nil,
      fun q hq => absurd hq List.not_mem_nil, fun _ => rfl, h.profile⟩
  | destroyed => exact h.destroyAllocation halive status stunCode

theorem Base.add (h : Base s) (hnew : ¬ s.hasOperation p.operation)
    (hhome : s.state = p.operation.home) (hsigned : p.authenticated → s.AuthSet)
    (hrto : 0 < p.rto) : Base { s with pending := s.pending ++ [p] } := by
  refine ⟨h.ready, ?_, ?_, ?_, ?_, h.destroyed, h.profile⟩
  · show ((s.pending ++ [p]).map Pending.operation).Nodup
    rw [List.map_append, List.nodup_append]
    refine ⟨h.once, List.nodup_singleton _, ?_⟩
    intro a ha b hb hab
    obtain ⟨q, hq, rfl⟩ := List.mem_map.mp ha
    rw [List.map_singleton, List.mem_singleton] at hb
    refine hnew (List.any_eq_true.mpr ⟨q, hq, ?_⟩)
    exact decide_eq_true (hab.trans hb)
  · intro q hq
    rcases List.mem_append.mp hq with hq | hq
    · exact h.home q hq
    · rw [List.mem_singleton.mp hq]
      exact hhome
  · intro q hq
    rcases List.mem_append.mp hq with hq | hq
    · exact h.signed q hq
    · rw [List.mem_singleton.mp hq]
      exact hsigned
  · intro q hq
    rcases List.mem_append.mp hq with hq | hq
    · exact h.rto q hq
    · rw [List.mem_singleton.mp hq]
      exact hrto

theorem Base.startOperation (h : Base s) (hhome : s.state = operation.home)
    (authenticated : Bool) (nonceRetries : ℕ) :
    Base (s.startOperation P env operation authenticated nonceRetries).2 := by
  rcases startOperation_cases P env s operation authenticated nonceRetries with
    ⟨_, _, hquiet⟩ | ⟨_, _, heq⟩ | ⟨hnew, _, hauth, p, hop, hpauth, hrto, _, hquiet⟩
  · exact h.quiet hquiet
  · rw [heq]
    exact h
  · refine (h.add (p := p) (hop ▸ hnew) (hop ▸ hhome) (hpauth ▸ hauth) ?_).quiet hquiet
    rw [hrto]
    decide

/-! ### Expiring transactions -/

theorem Base.expire {index : ℕ} (h : Base s) (hi : index < s.pending.length) (now : ℕ) :
    Base (s.expire index s.pending[index] now) := by
  obtain ⟨hb, hmem, _⟩ := h.remove (List.getElem_cons_eraseIdx_perm hi)
  have hq := removeQueuedTransaction_quiet { s with pending := s.pending.eraseIdx index }
    s.pending[index].transaction
  refine (hb.quiet hq).completeFailure ?_ _ _ _
  obtain ⟨_, _, heq⟩ := hq
  rw [heq]
  exact h.alive hmem

/-- A retransmission changes the timing of one transaction only. -/
theorem Base.retransmit {index : ℕ} (h : Base s) (hi : index < s.pending.length) (now : ℕ) :
    Base { s.queuePacket s.pending[index].packet with
      pending := s.pending.set index (s.pending[index].retransmitted now) } := by
  obtain ⟨controls, events, hq⟩ := queuePacket_quiet s s.pending[index].packet
  have hmap : (s.pending.set index (s.pending[index].retransmitted now)).map Pending.operation =
      s.pending.map Pending.operation := by
    have hi' : index < (s.pending.map Pending.operation).length := by rwa [List.length_map]
    have hop : (s.pending[index].retransmitted now).operation =
        (s.pending.map Pending.operation)[index] := by
      rw [List.getElem_map]
      rfl
    rw [List.map_set, hop, List.set_getElem_self]
  have hmem := List.getElem_mem hi
  -- whatever is pending now was pending before, up to its timing
  have hcases : ∀ q ∈ s.pending.set index (s.pending[index].retransmitted now),
      q ∈ s.pending ∨ q = s.pending[index].retransmitted now :=
    fun q hq => List.mem_or_eq_of_mem_set hq
  rw [hq]
  refine ⟨h.ready, hmap ▸ h.once, fun q hq => ?_, fun q hq => ?_, fun q hq => ?_,
    h.destroyed, h.profile⟩
  · rcases hcases q hq with hq | rfl
    · exact h.home q hq
    · exact h.home s.pending[index] hmem
  · rcases hcases q hq with hq | rfl
    · exact h.signed q hq
    · exact h.signed s.pending[index] hmem
  · rcases hcases q hq with hq | rfl
    · exact h.rto q hq
    · have hpos := h.rto s.pending[index] hmem
      show 0 < min (s.pending[index].rto * 2) maxRto
      exact lt_min (by omega) (by decide)

theorem Base.expireFrom (h : Base s) (now index : ℕ) : Base (s.expireFrom now index) := by
  fun_induction Inner.expireFrom s now index with
  | case1 s index hi p hlater ih => exact ih h
  | case2 s index hi p hcome hexhausted ih => exact ih (h.expire hi now)
  | case3 s index hi p hcome hmore ih => exact ih (h.retransmit hi now)
  | case4 s index hi => exact h

theorem Base.expireTransactions (h : Base s) (now : ℕ) : Base (s.expireTransactions now) :=
  h.expireFrom now 0

/-! ### Cores without a transaction -/

theorem Base.of_idle (hidle : s.pending = []) (hready : s.state = .ready → s.Armed)
    (hdestroyed : s.destroyed → s.state = .destroying) (hprofile : s.profile = .pjnathCompat) :
    Base s := by
  refine ⟨hready, ?_, ?_, ?_, ?_, hdestroyed, hprofile⟩
  · rw [hidle]
    exact List.nodup_nil
  · rw [hidle]
    exact fun q hq => absurd hq List.not_mem_nil
  · rw [hidle]
    exact fun q hq => absurd hq List.not_mem_nil
  · rw [hidle]
    exact fun q hq => absurd hq List.not_mem_nil

theorem setState_state (s : Inner) (state : TurnState) : (s.setState state).state = state := by
  obtain ⟨events, heq⟩ := setState_eq s state
  rw [heq]

/-- A core without a transaction may go to any state but READY. -/
theorem Base.enter {state : TurnState} (hidle : s.pending = []) (hstate : state ≠ .ready)
    (hdestroyed : s.destroyed → state = .destroying) (hprofile : s.profile = .pjnathCompat) :
    Base (s.setState state) := by
  obtain ⟨events, heq⟩ := setState_eq s state
  rw [heq]
  exact .of_idle hidle (fun hr => absurd hr hstate) hdestroyed hprofile

/-- In a state that is no operation's home nothing is pending. -/
theorem Base.idle (h : Base s) (hstate : ∀ operation : Operation, s.state ≠ operation.home) :
    s.pending = [] := by
  rw [List.eq_nil_iff_forall_not_mem]
  exact fun p hp => hstate p.operation (h.home p hp)

/-- An Allocate or a Deallocate is the only transaction of its core. -/
theorem Base.alone (h : Base s) (hperm : (p :: rest).Perm s.pending)
    (hp : isMaintenance p.operation = false) : rest = [] := by
  obtain ⟨_, hmem, hnot⟩ := h.remove hperm
  rw [List.eq_nil_iff_forall_not_mem]
  intro q hq
  have hhome : q.operation.home = p.operation.home :=
    (h.home q (hperm.mem_iff.mp (List.mem_cons_of_mem p hq))).symm.trans (h.home p hmem)
  have hsame : q.operation = p.operation := by
    rcases hpo : p.operation <;> rcases hqo : q.operation <;>
      rw [hpo, hqo] at hhome <;> rw [hpo] at hp <;>
      first | rfl | exact absurd hhome (by decide) | exact absurd hp (by decide)
  exact hnot (List.mem_map.mpr ⟨q, hq, hsame⟩)

/-! ### `poll` -/

theorem andThen_keeps {α β : Type} {Q : Inner → Prop} {r : Outcome α}
    {f : α → Inner → Outcome β} (hr : Q r.2) (hf : ∀ a t, Q t → Q (f a t).2) :
    Q (r.andThen f).2 := by
  obtain ⟨e | a, s⟩ := r
  · exact hr
  · exact hf a s hr

/-- Starting an operation changes the queues and the transactions only. -/
theorem startOperation_frame (P : Primitives) (env : Env) (s : Inner) (operation : Operation)
    (authenticated : Bool) (nonceRetries : ℕ) :
    ∃ pending, Quiet { s with pending }
      (s.startOperation P env operation authenticated nonceRetries).2 := by
  rcases startOperation_cases P env s operation authenticated nonceRetries with
    ⟨_, _, hquiet⟩ | ⟨_, _, heq⟩ | ⟨_, _, _, p, _, _, _, _, hquiet⟩
  · exact ⟨s.pending, hquiet⟩
  · refine ⟨s.pending, ?_⟩
    rw [heq]
    exact .refl s
  · exact ⟨_, hquiet⟩

def BaseReady (s : Inner) : Prop := Base s ∧ s.state = .ready

theorem BaseReady.start (h : BaseReady s) (hop : isMaintenance operation) :
    BaseReady (s.startOperation P env operation true 0).2 := by
  have hhome : s.state = operation.home := by
    rw [h.2]
    rcases operation <;> first | rfl | exact absurd hop (by decide)
  refine ⟨h.1.startOperation hhome true 0, ?_⟩
  obtain ⟨_, _, _, heq⟩ := startOperation_frame P env s operation true 0
  rw [heq]
  exact h.2

theorem BaseReady.maintain (h : BaseReady s) (deadline : ℕ) :
    BaseReady { s with maintenanceRefresh := some deadline } := by
  obtain ⟨hrelay, hexpires, _, hrest⟩ := h.1.ready h.2
  exact ⟨⟨fun _ => ⟨hrelay, hexpires, rfl, hrest⟩, h.1.once, h.1.home, h.1.signed, h.1.rto,
    h.1.destroyed, h.1.profile⟩, h.2⟩

theorem BaseReady.keep (h : BaseReady s) (deadline : ℕ) :
    BaseReady { s with keepalive := some deadline } := by
  obtain ⟨hrelay, hexpires, hmaintenance, _, hrest⟩ := h.1.ready h.2
  exact ⟨⟨fun _ => ⟨hrelay, hexpires, hmaintenance, rfl, hrest⟩, h.1.once, h.1.home, h.1.signed,
    h.1.rto, h.1.destroyed, h.1.profile⟩, h.2⟩

theorem BaseReady.quiet (h : BaseReady s) (hst : Quiet s t) : BaseReady t := by
  refine ⟨h.1.quiet hst, ?_⟩
  obtain ⟨_, _, rfl⟩ := hst
  exact h.2

theorem BaseReady.pollRefresh (h : BaseReady s) : BaseReady (s.pollRefresh P env).2 := by
  have hcleared : BaseReady { s with allocationRefresh := none } :=
    ⟨⟨h.1.ready, h.1.once, h.1.home, h.1.signed, h.1.rto, h.1.destroyed, h.1.profile⟩, h.2⟩
  rw [Inner.pollRefresh]
  split_ifs
  · exact hcleared.start rfl
  · exact h

theorem BaseReady.pollMaintenance (h : BaseReady s) (maintenanceDue : Bool) :
    BaseReady (s.pollMaintenance env maintenanceDue) := by
  rw [Inner.pollMaintenance]
  split_ifs
  · exact h.maintain _
  · exact h

theorem BaseReady.pollPermission (h : BaseReady s) (permissionDue : Bool) :
    BaseReady (s.pollPermission P env permissionDue).2 := by
  have hcleared : BaseReady { s with permissionRetry := none } :=
    ⟨⟨h.1.ready, h.1.once, h.1.home, h.1.signed, h.1.rto, h.1.destroyed, h.1.profile⟩, h.2⟩
  rw [Inner.pollPermission]
  split_ifs
  · exact hcleared.start rfl
  · exact h

theorem BaseReady.pollChannel (h : BaseReady s) (channelDue : Bool) :
    BaseReady (s.pollChannel P env channelDue).2 := by
  have hcleared : BaseReady { s with channelRetry := none } :=
    ⟨⟨h.1.ready, h.1.once, h.1.home, h.1.signed, h.1.rto, h.1.destroyed, h.1.profile⟩, h.2⟩
  rw [Inner.pollChannel]
  split_ifs
  · exact hcleared.start rfl
  · exact h

theorem BaseReady.pollKeepalive (h : BaseReady s) : BaseReady (s.pollKeepalive env) := by
  rw [Inner.pollKeepalive]
  split_ifs
  · exact (h.keep _).quiet (queueKeepalive_quiet _)
  · exact h

theorem BaseReady.pollReady (h : BaseReady s) : BaseReady (s.pollReady P env).2 := by
  refine andThen_keeps h.pollRefresh fun _ t ht => ?_
  refine andThen_keeps ((ht.pollMaintenance _).pollPermission _) fun _ t ht => ?_
  exact andThen_keeps (ht.pollChannel _) fun _ t ht => ht.pollKeepalive

theorem active_iff : s.active ↔ s.shuttingDown = false ∧ s.state = .ready := by
  rw [active, Bool.and_eq_true, Bool.not_eq_true', decide_eq_true_eq]

theorem Base.pollExpiry (h : Base s) : Base (s.pollExpiry env) := by
  rw [Inner.pollExpiry]
  split_ifs with hlapsed
  · have hready := h.ready (active_iff.mp hlapsed.1).2
    exact h.destroyAllocation hready.2.2.2.2.2.2 _ _
  · exact h

theorem Base.pollActive (h : Base s) : Base (s.pollActive P env).2 := by
  rw [Inner.pollActive]
  split_ifs with hactive
  · exact (BaseReady.pollReady ⟨h, (active_iff.mp hactive).2⟩).1
  · exact h

theorem Base.poll (h : Base s) : Base (NativeCore.poll P env s).2 := by
  rw [NativeCore.poll]
  split_ifs
  · exact h
  · exact andThen_keeps (h.expireTransactions env.now).pollExpiry.pollActive fun _ t ht => ht

/-! ### `input_stun` -/

/-- The first match and the others. -/
theorem find?_cons_eraseP_perm {α : Type} {f : α → Bool} {a : α} {l : List α}
    (h : l.find? f = some a) : (a :: l.eraseP f).Perm l := by
  obtain ⟨hfa, before, after, rfl, hbefore⟩ := List.find?_eq_some_iff_append.mp h
  have herase : (before ++ a :: after).eraseP f = before ++ after := by
    rw [List.eraseP_append_right _ (by simpa using hbefore), List.eraseP_cons_of_pos hfa]
  rw [herase]
  exact List.perm_middle.symm

theorem Base.setAuth (h : Base s) (realm nonce : Bytes) : Base (s.setAuth P realm nonce) := by
  refine ⟨fun hr => ?_, h.once, h.home, fun _ _ _ => ⟨rfl, rfl, rfl⟩, h.rto, h.destroyed, h.profile⟩
  obtain ⟨hrelay, hexpires, hmaintenance, hkeepalive, _, hrest⟩ := h.ready hr
  exact ⟨hrelay, hexpires, hmaintenance, hkeepalive, ⟨rfl, rfl, rfl⟩, hrest⟩

/-- A response is refused: it is reported, and its operation has failed. -/
theorem Base.refuse (h : Base s) (halive : s.destroyed = false) (m : Message) (status : ℤ)
    (stunCode reported : ℕ) (state : TurnState) : Base ((s.reportError m status reported
      state).completeFailure operation resultProtocol stunCode env.now) :=
  Base.completeFailure (h.quiet (pushEvent_quiet s _)) halive _ _ _

theorem retried_eq_some {m : Message} {code : ℕ} {r : Outcome Unit}
    (h : s.retried P env p m code = some r) :
    ∃ realm nonce, s.challenge m code = some (realm, nonce) ∧
      r = (s.setAuth P realm nonce).startOperation P env p.operation true (p.nonceRetries + 1) := by
  rw [retried] at h
  split_ifs at h
  obtain ⟨⟨realm, nonce⟩, hchallenge, hr⟩ := Option.map_eq_some_iff.mp h
  exact ⟨realm, nonce, hchallenge, hr.symm⟩

theorem startOperation_error {authenticated : Bool} {nonceRetries : ℕ} {e : String}
    (h : (s.startOperation P env operation authenticated nonceRetries).1 = .error e) :
    (s.startOperation P env operation authenticated nonceRetries).2 = s := by
  rcases startOperation_cases P env s operation authenticated nonceRetries with
    ⟨_, hok, _⟩ | ⟨_, _, heq⟩ | ⟨_, hok, _⟩
  · exact nomatch h.symm.trans hok
  · exact heq
  · exact nomatch h.symm.trans hok

theorem inputError_retry {m : Message} {code : ℕ} {realm nonce : Bytes}
    (hcode : errorCode m = some code) (hstale : code = 401 ∨ code = 438)
    (hretries : p.nonceRetries < s.profile.maxNonceRetries)
    (hchallenge : s.challenge m code = some (realm, nonce))
    (hok : ((s.setAuth P realm nonce).startOperation P env p.operation true
      (p.nonceRetries + 1)).1 = .ok ()) :
    s.inputError P env p m = ((s.setAuth P realm nonce).startOperation P env p.operation true
      (p.nonceRetries + 1)).2 := by
  have hretried : s.retried P env p m code = some ((s.setAuth P realm nonce).startOperation P env
      p.operation true (p.nonceRetries + 1)) := by
    rw [retried, if_pos ⟨hstale, hretries⟩, hchallenge]
    rfl
  have hzero : code ≠ 0 := by omega
  have hkeep : ¬ requiresAllocationRecreate p.operation code := by
    have h437 : code ≠ 437 := by omega
    have h400 : code ≠ 400 := by omega
    simp only [requiresAllocationRecreate, h437, h400, decide_false, Bool.and_false, Bool.or_false,
      Bool.false_eq_true, not_false_eq_true]
  rcases hr : (s.setAuth P realm nonce).startOperation P env p.operation true (p.nonceRetries + 1)
    with ⟨r, t⟩
  rw [hr] at hok hretried
  obtain rfl : r = .ok () := hok
  rw [inputError]
  simp only [hcode, Option.getD_some, if_neg hzero, if_neg hkeep, hretried]

theorem Base.inputError (h : Base s) (halive : s.destroyed = false)
    (hhome : s.state = p.operation.home) (m : Message) : Base (s.inputError P env p m) := by
  rw [Inner.inputError]
  split_ifs with hzero hrecreate
  · exact h.refuse halive m _ _ _ _
  · exact Base.destroyAllocation (h.quiet (pushEvent_quiet s _)) halive _ _
  · rcases hretried : s.retried P env p m ((errorCode m).getD 0) with _ | ⟨r, t⟩
    · exact h.refuse halive m _ _ _ _
    · obtain ⟨realm, nonce, _, hr⟩ := retried_eq_some hretried
      have hstart : Base ((s.setAuth P realm nonce).startOperation P env p.operation true
          (p.nonceRetries + 1)).2 := (h.setAuth realm nonce).startOperation hhome true _
      rw [← hr] at hstart
      rcases r with e | _
      · have ht : t = s.setAuth P realm nonce := by
          have herror := startOperation_error (congrArg Prod.fst hr).symm
          rw [← hr] at herror
          exact herror
        exact hstart.refuse (by rw [ht]; exact halive) m _ _ _ _
      · exact hstart

/-- The pending transaction `p` of `s` has been removed. -/
structure Removed (s t : Inner) (p : Pending) : Prop where
  base : Base t
  alive : t.destroyed = false
  home : t.state = p.operation.home
  signed : p.authenticated → t.AuthSet
  alone : isMaintenance p.operation = false → t.pending = []

theorem Base.removed {m : Message} (h : Base s) (hp : s.pending.find? (·.answeredBy m) = some p) :
    Removed s (s.withdraw m) p := by
  have hperm := find?_cons_eraseP_perm hp
  obtain ⟨hbase, hmem, _⟩ := h.remove hperm
  exact ⟨hbase.quiet (removeQueuedTransaction_quiet _ _), h.alive hmem, h.home p hmem,
    h.signed p hmem, h.alone hperm⟩

theorem Base.granted (h : Base s) (lifetime : Option (BitVec 32)) :
    Base (s.granted now lifetime) := by
  refine ⟨fun hr => ?_, h.once, h.home, h.signed, h.rto, h.destroyed, h.profile⟩
  obtain ⟨hrelay, _, hrest⟩ := h.ready hr
  exact ⟨hrelay, rfl, hrest⟩

theorem completeSuccess_allocate {m : Message} {relay : SocketAddr}
    (hrelay : s.relayed m = .ok relay)
    (hlifetime : (attributeU32 m attrLifetime).getD requestedAllocationLifetime ≠ 0) :
    s.completeSuccess P env .allocate m =
      if s.shuttingDown then
        ((s.allocated env.now relay (attributeU32 m attrLifetime)).setState
          .deallocating).startOperation P env .deallocate true 0
      else
        (.ok (), ((s.allocated env.now relay (attributeU32 m attrLifetime)).setState
          .ready).complete .allocate 0 0) := by
  simp only [completeSuccess, hrelay, hlifetime, if_false]
  rfl

theorem completeSuccess_allocate_error (P : Primitives) (env : Env) {m : Message}
    (h : (∃ e, s.relayed m = .error e) ∨
      (attributeU32 m attrLifetime).getD requestedAllocationLifetime = 0) :
    ∃ e, s.completeSuccess P env .allocate m = (.error e, s) := by
  rcases hrelay : s.relayed m with e | relay
  · exact ⟨e, by simp only [completeSuccess, hrelay]⟩
  · have hzero : (attributeU32 m attrLifetime).getD requestedAllocationLifetime = 0 := by
      rcases h with ⟨e, he⟩ | hzero
      · exact nomatch he.symm.trans hrelay
      · exact hzero
    exact ⟨"TURN Allocate response lifetime is zero", by
      simp only [completeSuccess, hrelay, hzero, if_true]⟩

theorem Removed.allocated {s₀ : Inner} (h : Removed s₀ s p) (hauth : p.authenticated)
    (hop : p.operation = .allocate) (m : Message) :
    Base (s.completeSuccess P env .allocate m).2 ∧
      (s.completeSuccess P env .allocate m).2.destroyed = false := by
  have hidle := h.alone (by rw [hop]; rfl)
  by_cases herror : (∃ e, s.relayed m = .error e) ∨
      (attributeU32 m attrLifetime).getD requestedAllocationLifetime = 0
  · obtain ⟨e, heq⟩ := completeSuccess_allocate_error P env herror
    rw [heq]
    exact ⟨h.base, h.alive⟩
  rw [not_or, not_exists] at herror
  obtain ⟨relay, hrelay⟩ : ∃ relay, s.relayed m = .ok relay := by
    rcases hr : s.relayed m with e | relay
    · exact absurd hr (herror.1 e)
    · exact ⟨relay, rfl⟩
  set t := s.allocated env.now relay (attributeU32 m attrLifetime) with ht
  have hdestroyed : ∀ state, s.destroyed → state = TurnState.destroying :=
    fun _ hd => absurd (h.alive.symm.trans hd) Bool.false_ne_true
  rw [completeSuccess_allocate hrelay herror.2]
  split_ifs with hshut
  · -- the shutdown came before the allocation: it is given back at once
    have hb : Base (t.setState .deallocating) :=
      .enter hidle (by decide) (hdestroyed _) h.base.profile
    refine ⟨hb.startOperation (setState_state t _) _ _, ?_⟩
    obtain ⟨events, heq⟩ := setState_eq t .deallocating
    obtain ⟨_, _, _, hframe⟩ :=
      startOperation_frame P env (t.setState .deallocating) .deallocate true 0
    rw [hframe, heq]
    exact h.alive
  · obtain ⟨events, heq⟩ := setState_eq t .ready
    have hb : Base (t.setState .ready) := by
      rw [heq]
      refine .of_idle hidle (fun _ => ?_) (hdestroyed _) h.base.profile
      exact ⟨rfl, rfl, rfl, rfl, h.signed hauth, Bool.eq_false_of_not_eq_true hshut, h.alive⟩
    refine ⟨hb.quiet (complete_quiet _ _ _ _), ?_⟩
    rw [heq]
    exact h.alive

/-- Whether it succeeds or not, the state after `complete_success` is a good one. -/
theorem Removed.completeSuccess (P : Primitives) (env : Env) {s₀ : Inner} (h : Removed s₀ s p)
    (hauth : p.authenticated) (m : Message) :
    Base (s.completeSuccess P env p.operation m).2 ∧
      (s.completeSuccess P env p.operation m).2.destroyed = false := by
  rcases hop : p.operation
  · exact h.allocated hauth hop m
  · rw [Inner.completeSuccess]
    split_ifs
    · exact ⟨h.base, h.alive⟩
    · exact ⟨(h.base.granted _).quiet (complete_quiet _ _ _ _), h.alive⟩
  · have hidle := h.alone (by rw [hop]; rfl)
    rw [Inner.completeSuccess]
    split_ifs
    · exact ⟨h.base, h.alive⟩
    · refine ⟨.enter hidle (by decide)
        (fun hd => absurd (h.alive.symm.trans hd) Bool.false_ne_true) h.base.profile, ?_⟩
      obtain ⟨events, heq⟩ := setState_eq ({ s with
          relay := none
          allocationRefresh := none
          allocationExpiresAt := none }.complete .deallocate 0 0) .deallocated
      rw [heq]
      exact h.alive
  · rw [Inner.completeSuccess]
    have hb : Base { s with permissionFailures := 0 } :=
      ⟨h.base.ready, h.base.once, h.base.home, h.base.signed, h.base.rto, h.base.destroyed,
        h.base.profile⟩
    exact ⟨hb.quiet (complete_quiet _ _ _ _), h.alive⟩
  · rw [Inner.completeSuccess]
    have hb : Base { s with channel := some channelNumber, channelFailures := 0 } :=
      ⟨h.base.ready, h.base.once, h.base.home, h.base.signed, h.base.rto, h.base.destroyed,
        h.base.profile⟩
    exact ⟨(hb.quiet (pushEvent_quiet _ _)).quiet (complete_quiet _ _ _ _), h.alive⟩

theorem Removed.inputSuccess {s₀ : Inner} (h : Removed s₀ s p) (hauth : p.authenticated)
    (m : Message) : Base (s.inputSuccess P env p m).2 := by
  obtain ⟨hbase, halive⟩ := h.completeSuccess P env hauth m
  rw [Inner.inputSuccess]
  rcases hr : s.completeSuccess P env p.operation m with ⟨e | _, t⟩
  · rw [hr] at hbase halive
    exact hbase.completeFailure halive _ _ _
  · rw [hr] at hbase
    exact hbase

theorem Removed.inputAccepted {s₀ : Inner} {m : Message} (h : Removed s₀ s p)
    (hclass : m.class = .success ∨ m.class = .error) :
    Base (s.inputAccepted P env p m).2 := by
  rw [Inner.inputAccepted]
  split_ifs with hunsigned herror
  · exact h.base.completeFailure h.alive _ _ _
  · exact h.base.inputError h.alive h.home m
  · have hauth : p.authenticated := by
      by_contra hauth
      exact hunsigned ⟨hclass.resolve_right herror, hauth⟩
    exact h.inputSuccess hauth m

/-- A response that cannot be believed is dropped or reported, and any other withdraws the
transaction it answers. -/
theorem inputResponse_cases (P : Primitives) (env : Env) (s : Inner) (packet : Bytes) (p : Pending)
    (m : Message) :
    s.unauthentic P packet p m ∧
        ((s.inputResponse P env packet p m).2 = s ∨ ∃ code, (s.inputResponse P env packet p m).2 =
          s.reportError m resultAuthentication code s.state) ∨
      ¬ s.unauthentic P packet p m ∧
        s.inputResponse P env packet p m = (s.withdraw m).inputAccepted P env p m := by
  by_cases hforged : s.unauthentic P packet p m
  · refine .inl ⟨hforged, ?_⟩
    simp only [Inner.inputResponse, if_pos hforged]
    split
    · next code _ _ => exact .inr ⟨code, rfl⟩
    · exact .inl rfl
  · exact .inr ⟨hforged, if_neg hforged⟩

theorem Base.inputResponse {m : Message} (h : Base s) (packet : Bytes)
    (hclass : m.class = .success ∨ m.class = .error)
    (hp : s.pending.find? (·.answeredBy m) = some p) :
    Base (s.inputResponse P env packet p m).2 := by
  rcases inputResponse_cases P env s packet p m with ⟨_, heq | ⟨code, heq⟩⟩ | ⟨_, heq⟩ <;> rw [heq]
  · exact h
  · exact h.quiet (pushEvent_quiet s _)
  · exact (h.removed hp).inputAccepted hclass

theorem inputStun_answers {packet : Bytes} {m : Message}
    (hdecode : Message.decode packet = .ok m) (hclass : m.class = .success ∨ m.class = .error)
    (hfingerprint : m.fingerprintValid P ≠ some false)
    (hp : s.pending.find? (·.answeredBy m) = some p) :
    NativeCore.inputStun P env s packet = s.inputResponse P env packet p m := by
  have hresponse : ¬ (m.class ≠ .success ∧ m.class ≠ .error) := by tauto
  simp only [NativeCore.inputStun, hdecode, if_neg hresponse, if_neg hfingerprint, hp]

/-- A packet is dropped without a trace, or it answers a pending transaction. -/
theorem inputStun_cases (P : Primitives) (env : Env) (s : Inner) (packet : Bytes) :
    (NativeCore.inputStun P env s packet).2 = s ∨
      ∃ m p, Message.decode packet = .ok m ∧ (m.class = .success ∨ m.class = .error) ∧
        s.pending.find? (·.answeredBy m) = some p ∧
        NativeCore.inputStun P env s packet = s.inputResponse P env packet p m := by
  rcases hdecode : Message.decode packet with e | m
  · left
    simp only [NativeCore.inputStun, hdecode]
  by_cases hclass : m.class ≠ .success ∧ m.class ≠ .error
  · left
    simp only [NativeCore.inputStun, hdecode, if_pos hclass]
  by_cases hfingerprint : m.fingerprintValid P = some false
  · left
    simp only [NativeCore.inputStun, hdecode, if_neg hclass, if_pos hfingerprint]
  rcases hp : s.pending.find? (·.answeredBy m) with _ | p
  · left
    simp only [NativeCore.inputStun, hdecode, if_neg hclass, if_neg hfingerprint, hp]
  · have hresponse : m.class = .success ∨ m.class = .error := by tauto
    exact .inr ⟨m, p, rfl, hresponse, hp,
      inputStun_answers hdecode hresponse hfingerprint hp⟩

theorem Base.inputStun (h : Base s) (packet : Bytes) :
    Base (NativeCore.inputStun P env s packet).2 := by
  rcases inputStun_cases P env s packet with heq | ⟨m, p, _, hclass, hp, heq⟩
  · rw [heq]
    exact h
  · rw [heq]
    exact h.inputResponse packet hclass hp

/-! ### The other calls -/

theorem requireOpen_eq_ok {operation : String}
    (h : NativeCore.requireOpen s operation = .ok ()) :
    s.destroyed = false ∧ s.shuttingDown = false := by
  rw [NativeCore.requireOpen] at h
  split_ifs at h with hclosed
  rw [not_or] at hclosed
  exact ⟨Bool.eq_false_of_not_eq_true hclosed.1, Bool.eq_false_of_not_eq_true hclosed.2⟩

theorem requireReady_eq_ok {operation : String}
    (h : NativeCore.requireReady s operation = .ok ()) : s.state = .ready := by
  rw [NativeCore.requireReady] at h
  rcases hopen : NativeCore.requireOpen s operation with e | _
  · rw [hopen] at h
    exact nomatch h
  · rw [hopen, Except.bind] at h
    split_ifs at h with hready
    exact not_not.mp hready

theorem Base.startAllocation (h : Base s) : Base (NativeCore.startAllocation P env s).2 := by
  rw [NativeCore.startAllocation]
  rcases hopen : NativeCore.requireOpen s "TURN Allocate start" with e | _
  · exact h
  · show Base (ite _ _ _ : Outcome Unit).2
    split_ifs with hnull
    · exact h
    · have hidle : s.pending = [] :=
        h.idle fun operation => by rw [not_not.mp hnull]; cases operation <;> decide
      have hb : Base (s.setState .allocating) := .enter hidle (by decide)
        (fun hd => absurd ((requireOpen_eq_ok hopen).1.symm.trans hd) Bool.false_ne_true) h.profile
      exact hb.startOperation (setState_state s _) _ _

theorem Base.startChannel (h : Base s) : Base (NativeCore.startChannel P env s).2 := by
  rw [NativeCore.startChannel]
  rcases hready : NativeCore.requireReady s "TURN ChannelBind start" with e | _
  · exact h
  · exact h.startOperation (show s.state = Operation.channel.home from requireReady_eq_ok hready) _ _

theorem Base.startPermission (h : Base s) : Base (NativeCore.startPermission P env s).2 := by
  rw [NativeCore.startPermission]
  rcases hready : NativeCore.requireReady s "TURN CreatePermission start" with e | _
  · exact h
  · exact h.startOperation (show s.state = Operation.permission.home from requireReady_eq_ok hready) _ _

theorem Base.resyncAfterSuspend (h : Base s) (gap : ℕ) :
    Base (NativeCore.resyncAfterSuspend env s gap).2 := by
  rw [NativeCore.resyncAfterSuspend]
  split_ifs with hskip
  · exact h
  · rw [not_or, not_or, not_not] at hskip
    obtain ⟨hrelay, _, _, _, hrest⟩ := h.ready hskip.2.2
    rcases hexpires : s.allocationExpiresAt with _ | expires
    · -- a READY core has an expiry
      obtain ⟨_, hsome, _⟩ := h.ready hskip.2.2
      rw [hexpires] at hsome
      exact absurd hsome Bool.false_ne_true
    · show Base (ite _ _ _ : Bool × Inner).2
      split_ifs
      · exact ⟨fun _ => ⟨hrelay, rfl, rfl, rfl, hrest⟩, h.once, h.home, h.signed, h.rto,
          h.destroyed, h.profile⟩
      · exact h.destroyAllocation (Bool.eq_false_of_not_eq_true hskip.1) _ _

theorem Base.pullControl (h : Base s) : Base (NativeCore.pullControl s).2 := by
  rw [NativeCore.pullControl]
  rcases s.controls with _ | ⟨control, controls⟩
  · exact h
  · show Base (ite _ _ _ : Outcome (Option (Bytes × SocketAddr))).2
    split_ifs
    · exact h.quiet ⟨controls, s.events, rfl⟩
    · exact h.quiet ⟨controls, s.events, rfl⟩

theorem Base.gracefulShutdown (h : Base s) : Base (NativeCore.gracefulShutdown P env s).2 := by
  rw [NativeCore.gracefulShutdown]
  split_ifs with hskip
  · exact h
  · have hdestroyed : ∀ state, s.destroyed → state = TurnState.destroying :=
      fun _ hd => absurd (.inl hd) hskip
    show Base (ite _ _ _ : Outcome Unit).2
    split_ifs with hgive hallocating
    · -- the allocation is given back
      refine Base.startOperation ?_ (setState_state _ _) _ _
      exact .enter rfl (by decide) (hdestroyed _) h.profile
    · exact .of_idle rfl (fun hr => absurd (.inl hr) hgive) h.destroyed h.profile
    · exact ⟨fun hr => absurd (.inl hr) hgive, h.once, h.home, h.signed, h.rto, h.destroyed,
        h.profile⟩

theorem Base.forceDestroy (h : Base s) (status : ℤ) : Base (NativeCore.forceDestroy s status) := by
  rw [NativeCore.forceDestroy]
  split_ifs
  · exact h
  · refine Base.quiet ?_ (pushEvent_quiet _ _)
    exact .enter rfl (by decide) (fun _ => rfl) h.profile

theorem Base.after (h : Base s) (call : Call) : Base (NativeCore.after P env s call) := by
  cases call with
  | startAllocation => exact h.startAllocation
  | startChannel => exact h.startChannel
  | startPermission => exact h.startPermission
  | inputStun packet => exact h.inputStun packet
  | poll => exact h.poll
  | resyncAfterSuspend gap => exact h.resyncAfterSuspend gap
  | pullControl => exact h.pullControl
  | pullEvent => exact h.quiet ⟨s.controls, s.events.tail, rfl⟩
  | gracefulShutdown => exact h.gracefulShutdown
  | forceDestroy status => exact h.forceDestroy status

theorem Base.create {server peer : SocketAddr} {username password : Bytes}
    {transport : TurnControlTransport}
    (h : NativeCore.create server username password peer transport = .ok s) : Base s := by
  rw [NativeCore.create] at h
  split_ifs at h
  rw [← Except.ok.inj h]
  exact .of_idle rfl (fun hr => nomatch hr) (fun hd => absurd hd Bool.false_ne_true) rfl

/-- Every reachable core, whatever it was given. -/
theorem base_of_run {s₀ : Inner} {server peer : SocketAddr} {username password : Bytes}
    {transport : TurnControlTransport} {calls : List (Env × Call)}
    (hcreate : NativeCore.create server username password peer transport = .ok s₀)
    (hrun : Transition.run (NativeCore.step P) s₀ calls = some s) : Base s := by
  have hany : ∀ c ∈ calls, True := fun _ _ => trivial
  refine Transition.run_invariant (fun s label s' hs _ hstep => ?_) (Base.create hcreate) hany hrun
  rw [← Option.some_inj.mp hstep]
  exact hs.after label.2

end Inner

end Csqtt.Turn
