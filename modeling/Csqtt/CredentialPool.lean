/-
The workers and the caches of their cohorts.

Every worker goes round `worker_loop`: it takes a lease from the cache of its cohort,
waits for its start, runs a session and, by how the session ended, calls the cache again,
one call at a time.  The steps of the workers interleave freely.  Cancellation, pauses,
parking and panics are part of the events, and so are the answers of the VK service.

The ledger of a cohort is not kept by the source: it says what was fetched and rejected,
and how many slots were not given back.

* `fetched_once` — when one fetch is enough for a cohort;
* `rejected_replaced_iff` — when a rejected credential is not fetched again without asking
  the VK service.
-/
import Csqtt.Credentials
import Csqtt.TransitionRun

open Transition

namespace Csqtt.Credentials

variable {ι κ : Type*}

/-- The workers' cohorts, the hash of each cohort, and the seeds. -/
structure Setup (ι κ : Type*) where
  cohortOf : ι → κ
  hash : κ → String
  seeds : SeedStore

/-- What a worker does next. -/
inductive Phase where
  /-- To take a lease. -/
  | waiting
  /-- To wait for its start. -/
  | leased (lease : CredentialLease)
  | inSession (lease : CredentialLease) (generation : ℕ)
  /-- After a session, with the calls on the cache that are left. -/
  | settling (lease : CredentialLease) (op : CacheOp) (ops : List CacheOp) (goesOn : Bool)
  | stopped
  deriving DecidableEq

def Phase.lease : Phase → Option CredentialLease
  | .leased lease | .inSession lease _ | .settling lease _ _ _ => some lease
  | .waiting | .stopped => none

/-- The lease is going to be given back, or still can be. -/
def Phase.owes : Phase → Bool
  | .leased _ | .inSession _ _ => true
  | .settling _ op ops _ => op = .release ∨ .release ∈ ops
  | .waiting | .stopped => false

/-- The phase with these calls left. -/
def Phase.after (lease : CredentialLease) (ops : List CacheOp) (goesOn : Bool) : Phase :=
  match ops with
  | [] => if goesOn then .waiting else .stopped
  | op :: ops => .settling lease op ops goesOn

theorem Phase.lease_after {lease : CredentialLease} {ops : List CacheOp} {goesOn : Bool} :
    ∀ other ∈ (Phase.after lease ops goesOn).lease, other = lease := by
  intro other hother
  cases ops with
  | nil => cases goesOn <;> cases hother
  | cons op ops => exact (Option.some.inj hother).symm

/-- What has been fetched, and which credential was rejected. -/
inductive Entry where
  /-- `seeded`: the VK service was not asked. -/
  | fetched (credentials : TurnCredentials) (seeded : Bool)
  | rejected (credentials : TurnCredentials)

def Entry.isFetch : Entry → Bool
  | .fetched _ _ => true
  | .rejected _ => false

structure Ledger where
  entries : List Entry := []
  /-- Leases that were dropped without `release`. -/
  lost : ℕ := 0

def Ledger.fetches (l : Ledger) : ℕ := l.entries.countP Entry.isFetch

/-- The effect of a call, and the credential that it rejects. -/
def CredentialCache.apply (cache : CredentialCache) (lease : CredentialLease) :
    CacheOp → CredentialCache × Option TurnCredentials
  | .release => (cache.release lease, none)
  | .invalidate =>
    ((cache.invalidate lease).2, if (cache.invalidate lease).1 then some lease.value else none)
  | .rotateAfterQuota =>
    ((cache.rotateAfterQuota lease).2,
      if (cache.rotateAfterQuota lease).1 = .replaced then none else some lease.value)
  | .retryAfterMismatch =>
    ((cache.retryAfterMismatch lease).2,
      if (cache.retryAfterMismatch lease).1 = .rotated then some lease.value else none)

structure Pool (ι κ : Type*) where
  workers : ι → Phase
  caches : κ → CredentialCache
  ledger : κ → Ledger

inductive Event (ι : Type*) where
  /-- One call of `get`; `asked` says that it comes to a fetch, `vk` is what the service
  would answer. -/
  | get (i : ι) (asked : Bool) (vk : Fetched) (interrupted : Bool)
  /-- Cancelled, or the hash is not available. -/
  | leave (i : ι)
  /-- The wait for the start is cancelled. -/
  | abandon (i : ι)
  | start (i : ι) (generation : ℕ)
  /-- `record_allocation`. -/
  | allocated (i : ι)
  | finish (i : ι) (e : SessionEnd)
  /-- The next call on the cache. -/
  | settle (i : ι)
  /-- A panic; the worker is started again. -/
  | panicked (i : ι)

def Event.worker : Event ι → ι
  | .get i _ _ _ | .leave i | .abandon i | .start i _ | .allocated i | .finish i _ | .settle i
  | .panicked i => i

/-- What one event does to the worker, its cache and the ledger of its cohort. -/
structure Turn where
  phase : Phase
  cache : CredentialCache
  ledger : Ledger

/-- What `get` is given. -/
def answerOf (seeds : SeedStore) (hash : String) (asked : Bool) (vk : Fetched) : Option Fetched :=
  if asked then some (getCredentials seeds hash vk) else none

/-- The entry of a `get` that has come to a fetch. -/
def fetchEntry (seeds : SeedStore) (hash : String) (cache : CredentialCache) (asked : Bool)
    (vk : Fetched) : List Entry :=
  match cache.reserve.1, asked, getCredentials seeds hash vk with
  | none, true, .ok credentials => [.fetched credentials (seeds.lookup hash).isSome]
  | _, _, _ => []

/-- A worker goes from one phase to another without a call on the cache. -/
def Ledger.drop (l : Ledger) (p p' : Phase) : Ledger :=
  if p.owes && !p'.owes then { l with lost := l.lost + 1 } else l

theorem fetchEntry_of_spare {seeds : SeedStore} {hash : String} {cache : CredentialCache}
    {cached : CachedCredentials} (h : cache.current = some cached)
    (hspare : cached.allocationAttempts < workersPerCredential) (asked : Bool) (vk : Fetched) :
    fetchEntry seeds hash cache asked vk = [] := by
  simp [fetchEntry, CredentialCache.reserve_of_spare h hspare]

theorem fetchEntry_of_ok {seeds : SeedStore} {hash : String} {cache : CredentialCache}
    (hspent : cache.Spent) {asked : Bool} {vk : Fetched} {credentials : TurnCredentials}
    (h : answerOf seeds hash asked vk = some (.ok credentials)) :
    fetchEntry seeds hash cache asked vk =
      [.fetched credentials (seeds.lookup hash).isSome] := by
  rw [answerOf] at h
  split_ifs at h with hasked
  simp [fetchEntry, CredentialCache.reserve_of_spent hspent, hasked, Option.some.inj h]

theorem fetchEntry_of_not_ok {seeds : SeedStore} {hash : String} {cache : CredentialCache}
    {asked : Bool} {vk : Fetched}
    (h : ∀ credentials, answerOf seeds hash asked vk ≠ some (.ok credentials)) :
    fetchEntry seeds hash cache asked vk = [] := by
  simp only [fetchEntry]
  split
  · next credentials _ hok =>
    have hanswer : answerOf seeds hash true vk = some (.ok credentials) := congrArg some hok
    exact absurd hanswer (h credentials)
  · rfl

/-- The step of a worker of a cohort with this hash. -/
def turn (seeds : SeedStore) (hash : String) (s : Turn) : Event ι → Option Turn
  | .get _ asked vk interrupted =>
    match s.phase with
    | .waiting =>
      let got := s.cache.get (answerOf seeds hash asked vk) interrupted
      some {
        phase := got.1.elim .waiting .leased
        cache := got.2
        ledger := { s.ledger with
          entries := s.ledger.entries ++ fetchEntry seeds hash s.cache asked vk } }
    | _ => none
  | .leave _ =>
    match s.phase with
    | .waiting => some { s with phase := .stopped }
    | _ => none
  | .abandon _ =>
    match s.phase with
    | .leased lease => some { s with phase := .after lease [.release] false }
    | _ => none
  | .start _ generation =>
    match s.phase with
    | .leased lease => some { s with phase := .inSession lease generation }
    | _ => none
  | .allocated _ =>
    match s.phase with
    | .inSession lease _ => some { s with cache := s.cache.recordAllocation lease }
    | _ => none
  | .finish _ e =>
    match s.phase with
    | .inSession lease generation =>
      let phase := Phase.after lease (e.settle generation).1 (e.settle generation).2
      some { s with phase, ledger := s.ledger.drop s.phase phase }
    | _ => none
  | .settle _ =>
    match s.phase with
    | .settling lease op ops goesOn =>
      let done := s.cache.apply lease op
      some {
        phase := .after lease ops goesOn
        cache := done.1
        ledger := { s.ledger with
          entries := s.ledger.entries ++ done.2.toList.map .rejected } }
    | _ => none
  | .panicked _ =>
    match s.phase with
    | .stopped => none
    | _ => some { s with phase := .waiting, ledger := s.ledger.drop s.phase .waiting }

namespace Pool

/-- The workers that have been spawned are about to take a lease. -/
def start (κ : Type*) (spawned : ι → Bool) : Pool ι κ where
  workers i := if spawned i then .waiting else .stopped
  caches _ := {}
  ledger _ := {}

variable [DecidableEq ι] [DecidableEq κ]

/-- The worker's view. -/
def view (setup : Setup ι κ) (s : Pool ι κ) (i : ι) : Turn :=
  ⟨s.workers i, s.caches (setup.cohortOf i), s.ledger (setup.cohortOf i)⟩

def step (setup : Setup ι κ) (s : Pool ι κ) (e : Event ι) : Option (Pool ι κ) :=
  let i := e.worker
  let k := setup.cohortOf i
  (turn setup.seeds (setup.hash k) (s.view setup i) e).map fun t =>
    { workers := Function.update s.workers i t.phase
      caches := Function.update s.caches k t.cache
      ledger := Function.update s.ledger k t.ledger }

end Pool

/-! ### What a step does -/

/-- The turns of a worker. -/
inductive Turned (seeds : SeedStore) (hash : String) (s : Turn) : Event ι → Turn → Prop
  | got {i : ι} {asked interrupted : Bool} {vk : Fetched} (hphase : s.phase = .waiting) :
      Turned seeds hash s (.get i asked vk interrupted)
        { phase := (s.cache.get (answerOf seeds hash asked vk) interrupted).1.elim .waiting .leased
          cache := (s.cache.get (answerOf seeds hash asked vk) interrupted).2
          ledger := { s.ledger with
            entries := s.ledger.entries ++ fetchEntry seeds hash s.cache asked vk } }
  | left {i : ι} (hphase : s.phase = .waiting) :
      Turned seeds hash s (.leave i) { s with phase := .stopped }
  | abandoned {i : ι} {lease : CredentialLease} (hphase : s.phase = .leased lease) :
      Turned seeds hash s (.abandon i) { s with phase := .after lease [.release] false }
  | started {i : ι} {lease : CredentialLease} {generation : ℕ} (hphase : s.phase = .leased lease) :
      Turned seeds hash s (.start i generation) { s with phase := .inSession lease generation }
  | recorded {i : ι} {lease : CredentialLease} {generation : ℕ}
      (hphase : s.phase = .inSession lease generation) :
      Turned seeds hash s (.allocated i) { s with cache := s.cache.recordAllocation lease }
  | finished {i : ι} {lease : CredentialLease} {generation : ℕ} {e : SessionEnd} {phase : Phase}
      (hphase : s.phase = .inSession lease generation)
      (hafter : phase = .after lease (e.settle generation).1 (e.settle generation).2) :
      Turned seeds hash s (.finish i e) { s with phase, ledger := s.ledger.drop s.phase phase }
  | settled {i : ι} {lease : CredentialLease} {op : CacheOp} {ops : List CacheOp} {goesOn : Bool}
      (hphase : s.phase = .settling lease op ops goesOn) :
      Turned seeds hash s (.settle i)
        { phase := .after lease ops goesOn
          cache := (s.cache.apply lease op).1
          ledger := { s.ledger with
            entries := s.ledger.entries ++ (s.cache.apply lease op).2.toList.map .rejected } }
  | panicked {i : ι} (hphase : s.phase ≠ .stopped) :
      Turned seeds hash s (.panicked i)
        { s with phase := .waiting, ledger := s.ledger.drop s.phase .waiting }

theorem turned {seeds : SeedStore} {hash : String} {s t : Turn} {e : Event ι}
    (h : turn seeds hash s e = some t) : Turned seeds hash s e t := by
  cases e with
  | get i asked vk interrupted =>
    simp only [turn] at h
    split at h
    · next hphase =>
      cases h
      exact .got hphase
    · cases h
  | leave i =>
    simp only [turn] at h
    split at h
    · next hphase =>
      cases h
      exact .left hphase
    · cases h
  | abandon i =>
    simp only [turn] at h
    split at h
    · next hphase =>
      cases h
      exact .abandoned hphase
    · cases h
  | start i generation =>
    simp only [turn] at h
    split at h
    · next hphase =>
      cases h
      exact .started hphase
    · cases h
  | allocated i =>
    simp only [turn] at h
    split at h
    · next hphase =>
      cases h
      exact .recorded hphase
    · cases h
  | finish i e =>
    simp only [turn] at h
    split at h
    · next hphase =>
      cases h
      exact .finished hphase rfl
    · cases h
  | settle i =>
    simp only [turn] at h
    split at h
    · next hphase =>
      cases h
      exact .settled hphase
    · cases h
  | panicked i =>
    simp only [turn] at h
    split at h
    · cases h
    · next hphase =>
      cases h
      exact .panicked fun hstopped => hphase hstopped

section Step

variable [DecidableEq ι] [DecidableEq κ] {setup : Setup ι κ} {s t : Pool ι κ} {e : Event ι}

/-- A step is a turn of its worker; everything else stays as it is. -/
structure Pool.Moved (setup : Setup ι κ) (s t : Pool ι κ) (e : Event ι) (v : Turn) : Prop where
  turned : Turned setup.seeds (setup.hash (setup.cohortOf e.worker)) (s.view setup e.worker) e v
  phase : t.workers e.worker = v.phase
  cache : t.caches (setup.cohortOf e.worker) = v.cache
  ledger : t.ledger (setup.cohortOf e.worker) = v.ledger
  workers : ∀ j ≠ e.worker, t.workers j = s.workers j
  caches : ∀ k ≠ setup.cohortOf e.worker, t.caches k = s.caches k
  ledgers : ∀ k ≠ setup.cohortOf e.worker, t.ledger k = s.ledger k

theorem Pool.moved (h : s.step setup e = some t) : ∃ v, Pool.Moved setup s t e v := by
  obtain ⟨v, hv, rfl⟩ := Option.map_eq_some_iff.mp h
  exact ⟨v, turned hv, Function.update_self .., Function.update_self .., Function.update_self ..,
    fun j hj => Function.update_of_ne hj .., fun k hk => Function.update_of_ne hk ..,
    fun k hk => Function.update_of_ne hk ..⟩

/-- What a cohort's turns keep, the steps keep. -/
theorem Pool.cohort_step {k : κ} {P : CredentialCache → Ledger → Prop}
    (hP : P (s.caches k) (s.ledger k)) (h : s.step setup e = some t)
    (hturn : ∀ u v, Turned setup.seeds (setup.hash k) u e v → P u.cache u.ledger →
      P v.cache v.ledger) : P (t.caches k) (t.ledger k) := by
  obtain ⟨v, hv⟩ := Pool.moved h
  by_cases hk : k = setup.cohortOf e.worker
  · subst hk
    rw [hv.cache, hv.ledger]
    exact hturn _ _ hv.turned hP
  · rw [hv.caches k hk, hv.ledgers k hk]
    exact hP

end Step

end Csqtt.Credentials
