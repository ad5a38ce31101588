/-
How often a cohort fetches credentials, and what it fetches after a rejection.

A slot of the cached credential comes back only from a session that is parked, from one
that has not started its allocation and from a start that is cancelled.  A soft handover
keeps it, so the counter of the cache climbs with every round (`rebind_fetches_again`).

A seed is looked up before the VK service is asked, whatever has become of it.

* `fetched_once` — one fetch is enough while a slot is left for each lease;
* `kept_iff_spare` — and exactly then the credential stays in the cache;
* `rejected_replaced_iff` — a rejected credential is never fetched again unasked exactly
  if the hash of the cohort has no seed;
* `blocked_seed_starves` — a seed that hit the quota leaves its cohort without a lease.
-/
import Csqtt.CredentialPool
import Mathlib.Data.Fintype.Basic
import Mathlib.Data.Finset.Card

open Transition

namespace Csqtt.Credentials

variable {ι κ : Type*} [DecidableEq ι] [DecidableEq κ] {setup : Setup ι κ} {s t : Pool ι κ}
  {e : Event ι} {k : κ} {i : ι}

/-! ### Rejected credentials -/

/-- The fetch after a rejection does not return the rejected user and password without
asking the VK service. -/
def Replaced (entries : List Entry) : Prop :=
  ∀ before after rejected fetched seeded,
    entries = before ++ .rejected rejected :: .fetched fetched seeded :: after →
      seeded = false ∨
        ¬ (fetched.username = rejected.username ∧ fetched.password = rejected.password)

/-- Whether a fetch was answered by a seed depends on the hash only. -/
theorem seeded_step (h : s.step setup e = some t)
    (hs : ∀ c seeded, Entry.fetched c seeded ∈ (s.ledger k).entries →
      seeded = (setup.seeds.lookup (setup.hash k)).isSome) :
    ∀ c seeded, Entry.fetched c seeded ∈ (t.ledger k).entries →
      seeded = (setup.seeds.lookup (setup.hash k)).isSome := by
  refine Pool.cohort_step (P := fun _ l => ∀ c seeded, Entry.fetched c seeded ∈ l.entries →
    seeded = (setup.seeds.lookup (setup.hash k)).isSome) hs h ?_
  intro u v hturned hu c seeded hmem
  cases hturned with
  | got =>
    rcases List.mem_append.mp hmem with hmem | hmem
    · exact hu c seeded hmem
    · simp only [fetchEntry] at hmem
      split at hmem
      · cases List.mem_singleton.mp hmem
        rfl
      · cases hmem
  | settled =>
    rcases List.mem_append.mp hmem with hmem | hmem
    · exact hu c seeded hmem
    · obtain ⟨_, _, hrejected⟩ := List.mem_map.mp hmem
      cases hrejected
  | finished | panicked =>
    rw [Ledger.drop] at hmem
    split at hmem
    · exact hu c seeded hmem
    · exact hu c seeded hmem
  | left | abandoned | started | recorded => exact hu c seeded hmem

/-- A session that ends with a rejection of its credential. -/
def unauthorized : SessionEnd where
  error := some { outer := { text := "TURN Refresh failed: STUN error 401", requestCode := some 401 } }
  started := true
  cancelled := false
  allowed := true
  credentialGeneration := 0

theorem unauthorized_settle : unauthorized.settle 0 = ([.invalidate], true) := by
  decide +kernel

omit [DecidableEq ι] in
/-- A fetch of a cohort with a seed. -/
theorem turn_get_seed {seeds : SeedStore} {hash : String} {seed : TurnCredentials}
    (hseed : seeds.lookup hash = some seed) {cache : CredentialCache} (hspent : cache.Spent)
    (hblocked : cache.quotaBlocked ≠ some seed) (l : Ledger) (i : ι) :
    turn seeds hash ⟨.waiting, cache, l⟩ (.get i true .failed false) =
      some ⟨.leased ⟨seed, cache.generation⟩, cache.holding seed 1,
        { l with entries := l.entries ++ [.fetched seed true] }⟩ := by
  have hanswer : answerOf seeds hash true .failed = some (.ok seed) := by
    simp [answerOf, getCredentials, hseed]
  have hentry : fetchEntry seeds hash cache true .failed = [.fetched seed true] := by
    simp [fetchEntry, CredentialCache.reserve_of_spent hspent, getCredentials, hseed]
  simp [turn, hanswer, CredentialCache.get_of_spent hspent hblocked, hentry]

omit [DecidableEq ι] in
/-- A worker of a cohort with a seed takes it, loses it to a 401 and takes it again. -/
theorem seed_fetched_again {seeds : SeedStore} {hash : String} {seed : TurnCredentials}
    (hseed : seeds.lookup hash = some seed) (i : ι) :
    ∃ u, run (turn seeds hash) ⟨.waiting, {}, {}⟩
        [.get i true .failed false, .start i 0, .finish i unauthorized, .settle i,
          .get i true .failed false] = some u ∧
      u.ledger.entries = [.fetched seed true, .rejected seed, .fetched seed true] := by
  have hspent : ∀ cache : CredentialCache, cache.current = none → cache.Spent := by
    intro cache hcurrent cached hcached
    rw [hcurrent] at hcached
    cases hcached
  -- the lease is taken, and invalidated after the session
  have hfirst := turn_get_seed hseed (hspent {} rfl) nofun {} i
  have hrejected : CredentialCache.apply (({} : CredentialCache).holding seed 1) ⟨seed, 1⟩
      .invalidate = ({ nextGeneration := 1 }, some seed) := by
    simp [CredentialCache.apply, CredentialCache.invalidate, CredentialCache.holding,
      CachedCredentials.leased, sameTurnCredentials_iff, CredentialCache.generation]
  have hmiddle : run (turn seeds hash)
      ⟨.leased ⟨seed, 1⟩, ({} : CredentialCache).holding seed 1, ⟨[.fetched seed true], 0⟩⟩
      [Event.start i 0, .finish i unauthorized, .settle i] =
      some ⟨.waiting, { nextGeneration := 1 }, ⟨[.fetched seed true, .rejected seed], 1⟩⟩ := by
    simp [run, turn, unauthorized_settle, Phase.after, hrejected, Ledger.drop, Phase.owes]
  have hlast := turn_get_seed hseed (hspent { nextGeneration := 1 } rfl)
    (Option.some_ne_none _).symm
    ⟨[.fetched seed true, .rejected seed], 1⟩ i
  refine ⟨⟨.leased ⟨seed, 2⟩, ({ nextGeneration := 1 } : CredentialCache).holding seed 1,
    ⟨[.fetched seed true, .rejected seed, .fetched seed true], 1⟩⟩, ?_, rfl⟩
  rw [run_cons, hfirst, Option.bind_some]
  refine (run_append _ [Event.start i 0, .finish i unauthorized, .settle i]
    [.get i true .failed false]).trans ?_
  refine (congrArg (Option.bind · _) hmiddle).trans ?_
  rw [Option.bind_some, run_cons, hlast]
  rfl

/-- A run of one worker is a run of its turns. -/
theorem Pool.run_of_turns {u : Turn} {es : List (Event ι)} (hes : ∀ e ∈ es, e.worker = i)
    (h : run (turn setup.seeds (setup.hash (setup.cohortOf i))) (s.view setup i) es = some u) :
    ∃ t, run (Pool.step setup) s es = some t ∧ t.view setup i = u ∧
      (∀ j ≠ i, t.workers j = s.workers j) ∧
      ∀ k ≠ setup.cohortOf i, t.caches k = s.caches k := by
  induction es generalizing s with
  | nil =>
    rw [run_nil, Option.some_inj] at h
    exact ⟨s, rfl, h, fun _ _ => rfl, fun _ _ => rfl⟩
  | cons e es ih =>
    obtain ⟨v, hv, h⟩ := Option.bind_eq_some_iff.mp h
    obtain rfl : e.worker = i := hes e List.mem_cons_self
    obtain ⟨s', hs'⟩ : ∃ s', s.step setup e = some s' := ⟨_, by rw [Pool.step, hv]; rfl⟩
    have hview : s'.view setup e.worker = v := by
      obtain ⟨w, hw, rfl⟩ := Option.map_eq_some_iff.mp hs'
      rw [hv, Option.some_inj] at hw
      simp [Pool.view, hw]
    obtain ⟨_, hmoved⟩ := Pool.moved hs'
    obtain ⟨t, ht, hu, hts, htk⟩ := ih (fun e' he' => hes e' (List.mem_cons_of_mem _ he'))
      (hview ▸ h)
    refine ⟨t, ?_, hu, fun j hj => (hts j hj).trans (hmoved.workers j hj), fun k hk => ?_⟩
    · rw [run_cons, hs']
      exact ht
    · exact (htk k hk).trans (hmoved.caches k hk)

/-- In every run a rejected credential is replaced, exactly if the hash of the cohort has
no seed. -/
theorem rejected_replaced_iff (setup : Setup ι κ) {spawned : ι → Bool} (hi : spawned i) :
    (∀ es t, run (Pool.step setup) (Pool.start κ spawned) es = some t →
        Replaced (t.ledger (setup.cohortOf i)).entries) ↔
      setup.seeds.lookup (setup.hash (setup.cohortOf i)) = none := by
  constructor
  · intro hreplaced
    by_contra hseeded
    obtain ⟨seed, hseed⟩ := Option.ne_none_iff_exists'.mp hseeded
    obtain ⟨u, hu, hentries⟩ := seed_fetched_again hseed i
    have hview : (Pool.start κ spawned).view setup i = ⟨.waiting, {}, {}⟩ := by
      simp [Pool.view, Pool.start, hi]
    obtain ⟨t, ht, htu, _⟩ := Pool.run_of_turns (by simp [Event.worker]) (hview ▸ hu)
    have hledger : t.ledger (setup.cohortOf i) = u.ledger := congrArg Turn.ledger htu
    rcases hreplaced _ t ht [.fetched seed true] [] seed seed true (hledger ▸ hentries) with h | h
    · cases h
    · exact h ⟨rfl, rfl⟩
  · intro hnone es t ht before after rejected fetched seeded hentries
    left
    have hseeded := run_of_step (P := fun s : Pool ι κ => ∀ c seeded,
        Entry.fetched c seeded ∈ (s.ledger (setup.cohortOf i)).entries →
          seeded = (setup.seeds.lookup (setup.hash (setup.cohortOf i))).isSome)
      (fun _ _ _ hs hstep => seeded_step hstep hs) (fun _ _ h => by cases h) ht
    have hmem : Entry.fetched fetched seeded ∈ (t.ledger (setup.cohortOf i)).entries := by
      rw [hentries]
      simp
    rw [hseeded fetched seeded hmem, hnone]
    rfl

/-- The seed of a cohort has hit the quota. -/
def Blocked (cache : CredentialCache) (seed : TurnCredentials) : Prop :=
  cache.current = none ∧ cache.quotaBlocked = some seed

theorem Blocked.get {cache : CredentialCache} {seed : TurnCredentials} (h : Blocked cache seed)
    {answer : Option Fetched} (hanswer : ∀ c, answer = some (.ok c) → c = seed)
    (interrupted : Bool) :
    (cache.get answer interrupted).1 = none ∧ Blocked (cache.get answer interrupted).2 seed := by
  have hgot := cache.got answer interrupted
  generalize cache.get answer interrupted = out at hgot ⊢
  cases hgot with
  | leased hcurrent => cases h.1.symm.trans hcurrent
  | missed | refused => exact ⟨rfl, rfl, h.2⟩
  | stored _ hok hblocked | fetched _ hok hblocked =>
    rw [hanswer _ hok] at hblocked
    exact absurd h.2 hblocked

/-- Nothing but a fetch puts a credential into an empty cache. -/
theorem Blocked.apply {cache : CredentialCache} {seed : TurnCredentials} (h : Blocked cache seed)
    (lease : CredentialLease) (op : CacheOp) : Blocked (cache.apply lease op).1 seed := by
  obtain ⟨hcurrent, hblocked⟩ := h
  cases op with
  | release => simp [CredentialCache.apply, CredentialCache.release, hcurrent, Blocked, hblocked]
  | invalidate =>
    simp [CredentialCache.apply, CredentialCache.invalidate, hcurrent, Blocked, hblocked]
  | rotateAfterQuota =>
    simp [CredentialCache.apply, CredentialCache.rotateAfterQuota, hcurrent, Blocked, hblocked]
  | retryAfterMismatch =>
    simp [CredentialCache.apply, CredentialCache.retryAfterMismatch, hcurrent, Blocked, hblocked]

/-- A seed that has hit the quota is never replaced: the cohort gets no lease in any run
that follows. -/
theorem blocked_seed_starves {seed : TurnCredentials}
    (hseed : setup.seeds.lookup (setup.hash k) = some seed) (hs : Blocked (s.caches k) seed)
    {es : List (Event ι)} (hrun : run (Pool.step setup) s es = some t) (asked interrupted : Bool)
    (vk : Fetched) :
    ((t.caches k).get (answerOf setup.seeds (setup.hash k) asked vk) interrupted).1 = none := by
  have hanswer : ∀ asked vk c,
      answerOf setup.seeds (setup.hash k) asked vk = some (.ok c) → c = seed := by
    intro asked vk c h
    rw [answerOf, getCredentials, hseed] at h
    split_ifs at h
    cases h
    rfl
  refine (Blocked.get ?_ (hanswer asked vk) interrupted).1
  refine run_of_step (P := fun s : Pool ι κ => Blocked (s.caches k) seed)
    (fun s e s' hs hstep => ?_) hs hrun
  refine Pool.cohort_step (P := fun cache _ => Blocked cache seed) hs hstep ?_
  intro u v hturned hu
  cases hturned with
  | got => exact (hu.get (hanswer _ _) _).2
  | settled => exact hu.apply _ _
  | recorded =>
    simp only [CredentialCache.recordAllocation]
    split
    · next hcurrent => cases hu.1.symm.trans hcurrent
    · exact hu
  | left | abandoned | started | finished | panicked => exact hu

/-- One cohort, whose hash has no seed. -/
def unseeded : Setup (Fin 9) Unit where
  cohortOf _ := ()
  hash _ := "hash"
  seeds := .clear

theorem unseeded_replaced : unseeded.seeds.lookup "hash" = none ∧ ∀ es t,
    run (Pool.step unseeded) (Pool.start Unit fun _ => true) es = some t →
      Replaced (t.ledger ()).entries :=
  have hspawned : (fun _ => true) (0 : Fin 9) := rfl
  ⟨rfl, (rejected_replaced_iff (i := 0) unseeded hspawned).mpr rfl⟩

/-- One cohort, whose hash has a seed. -/
def seeded : Setup (Fin 9) Unit where
  cohortOf _ := ()
  hash _ := "hash"
  seeds := SeedStore.clear.install "hash" "user" "secret" ["turn.example:3478"]

/-- A seed that was rejected with 401 is fetched again, and nobody is asked. -/
theorem seed_not_replaced : ∃ es t,
    run (Pool.step seeded) (Pool.start Unit fun _ => true) es = some t ∧
      ¬ Replaced (t.ledger ()).entries := by
  have hseed : seeded.seeds.lookup "hash" =
      some ⟨"user", "secret", ["turn.example:3478"]⟩ := by
    decide +kernel
  obtain ⟨u, hu, hentries⟩ := seed_fetched_again hseed (0 : Fin 9)
  have hworker : ∀ e ∈ [Event.get (0 : Fin 9) true .failed false, .start 0 0,
      .finish 0 unauthorized, .settle 0, .get 0 true .failed false], e.worker = 0 := by
    simp [Event.worker]
  have hrun : run (turn seeded.seeds "hash")
    ((Pool.start Unit fun _ => true).view seeded 0) _ = some u := hu
  obtain ⟨t, ht, htu, _⟩ := Pool.run_of_turns hworker hrun
  refine ⟨_, t, ht, fun hreplaced => ?_⟩
  have hledger : t.ledger () = u.ledger := congrArg Turn.ledger htu
  rcases hreplaced [.fetched _ true] [] _ _ true (hledger ▸ hentries) with h | h
  · cases h
  · exact h ⟨rfl, rfl⟩

/-! ### One fetch -/

section Fintype

variable [Fintype ι]

/-- The workers of the cohort whose lease has not been given back, and still may be. -/
def holders (setup : Setup ι κ) (s : Pool ι κ) (k : κ) : Finset ι :=
  Finset.univ.filter fun i => setup.cohortOf i = k ∧ (s.workers i).owes

/-- No session of the cohort ends with an authentication, quota or mismatch error, and no
repair raises the credential generation of its worker. -/
def Calm (setup : Setup ι κ) (k : κ) (s : Pool ι κ) : Event ι → Prop
  | .finish i e => setup.cohortOf i = k →
    (∀ error ∈ e.error, error.shouldInvalidateTurnCredentials = false ∧
      error.isTurnAllocationQuota = false ∧ error.isTurnAllocationMismatch = false) ∧
    ∀ lease generation, s.workers i = .inSession lease generation →
      e.credentialGeneration ≤ generation
  | _ => True

/-- When a worker of the cohort takes a lease after the fetch, there are fewer leases out
or lost than the credential has slots. -/
def Spare (setup : Setup ι κ) (k : κ) (s : Pool ι κ) : Event ι → Prop
  | .get i _ _ _ => setup.cohortOf i = k → (s.ledger k).fetches ≠ 0 →
    (holders setup s k).card + (s.ledger k).lost < workersPerCredential
  | _ => True

/-- Nothing has been fetched. -/
structure Unfetched (setup : Setup ι κ) (s : Pool ι κ) (k : κ) : Prop where
  fetches : (s.ledger k).fetches = 0
  current : (s.caches k).current = none
  leases : ∀ i, setup.cohortOf i = k → (s.workers i).lease = none
  lost : (s.ledger k).lost = 0

/-- One credential has been fetched and is cached, and its counter says how many leases
are out or lost. -/
structure Cached (setup : Setup ι κ) (s : Pool ι κ) (k : κ) (cached : CachedCredentials) :
    Prop where
  fetches : (s.ledger k).fetches = 1
  current : (s.caches k).current = some cached
  leases : ∀ i, setup.cohortOf i = k → ∀ lease ∈ (s.workers i).lease, cached.leased lease
  attempts : cached.allocationAttempts = (holders setup s k).card + (s.ledger k).lost

def Kept (setup : Setup ι κ) (k : κ) (s : Pool ι κ) : Prop :=
  Unfetched setup s k ∨ ∃ cached, Cached setup s k cached

/-- What calm steps keep, however many slots are left. -/
structure Quiet (setup : Setup ι κ) (k : κ) (s : Pool ι κ) : Prop where
  unblocked : (s.caches k).quotaBlocked = none
  releases : ∀ i, setup.cohortOf i = k → ∀ lease op ops goesOn,
    s.workers i = .settling lease op ops goesOn → op = .release ∧ ops = []

omit [DecidableEq ι] in
theorem mem_holders {j : ι} :
    j ∈ holders setup s k ↔ setup.cohortOf j = k ∧ (s.workers j).owes := by
  simp [holders]

/-- One worker of the cohort moves. -/
theorem card_holders (hi : setup.cohortOf i = k) (hother : ∀ j ≠ i, t.workers j = s.workers j) :
    (holders setup t k).card + (if (s.workers i).owes then 1 else 0) =
      (holders setup s k).card + (if (t.workers i).owes then 1 else 0) := by
  have herase : (holders setup t k).erase i = (holders setup s k).erase i := by
    ext j
    rw [Finset.mem_erase, Finset.mem_erase, mem_holders, mem_holders]
    constructor
    · rintro ⟨hj, h⟩
      exact ⟨hj, hother j hj ▸ h⟩
    · rintro ⟨hj, h⟩
      exact ⟨hj, (hother j hj).symm ▸ h⟩
  have hcard : ∀ u : Pool ι κ, (holders setup u k).card =
      ((holders setup u k).erase i).card + (if (u.workers i).owes then 1 else 0) := by
    intro u
    by_cases howes : (u.workers i).owes
    · rw [if_pos howes, Finset.card_erase_add_one (mem_holders.mpr ⟨hi, howes⟩)]
    · rw [if_neg howes, Finset.erase_eq_of_notMem fun h => howes (mem_holders.mp h).2]
      rfl
  rw [hcard s, hcard t, herase]
  omega

omit [DecidableEq ι] in
theorem holders_of_others (h : ∀ j, setup.cohortOf j = k → t.workers j = s.workers j) :
    holders setup t k = holders setup s k := by
  ext j
  rw [mem_holders, mem_holders]
  constructor
  · rintro ⟨hj, howes⟩
    exact ⟨hj, h j hj ▸ howes⟩
  · rintro ⟨hj, howes⟩
    exact ⟨hj, (h j hj).symm ▸ howes⟩

/-- A calm session is followed by a release, or by nothing. -/
theorem calm_settle {e : SessionEnd} {generation : ℕ}
    (herror : ∀ error ∈ e.error, error.shouldInvalidateTurnCredentials = false ∧
      error.isTurnAllocationQuota = false ∧ error.isTurnAllocationMismatch = false)
    (hgeneration : e.credentialGeneration ≤ generation) :
    (e.settle generation).1 = [] ∨ (e.settle generation).1 = [.release] := by
  have hnot : ¬ generation < e.credentialGeneration := Nat.not_lt.mpr hgeneration
  have hfirst : (if e.started then [] else [CacheOp.release]) = [] ∨
      (if e.started then [] else [CacheOp.release]) = [.release] := by
    split_ifs
    · exact .inl rfl
    · exact .inr rfl
  simp only [SessionEnd.settle]
  split
  · exact hfirst
  split
  · exact hfirst
  next error hsome =>
  obtain ⟨hinvalid, hquota, hmismatch⟩ := herror error hsome
  simp only [hinvalid, hquota, hmismatch, Bool.false_eq_true, if_false, List.append_nil]
  split_ifs
  all_goals simp_all

omit [DecidableEq ι] in
/-- Nothing happens to a cohort in a step of a worker of another one. -/
theorem Kept.other {v : Turn} (hs : Kept setup k s) (hv : Pool.Moved setup s t e v)
    (hk : setup.cohortOf e.worker ≠ k) : Kept setup k t := by
  have hworkers : ∀ j, setup.cohortOf j = k → t.workers j = s.workers j := by
    intro j hj
    refine hv.workers j ?_
    rintro rfl
    exact hk hj
  have hledger := hv.ledgers k (Ne.symm hk)
  have hcache := hv.caches k (Ne.symm hk)
  rcases hs with hs | ⟨cached, hs⟩
  · left
    refine ⟨hledger ▸ hs.fetches, hcache ▸ hs.current, fun j hj => ?_, hledger ▸ hs.lost⟩
    rw [hworkers j hj]
    exact hs.leases j hj
  · refine .inr ⟨cached, hledger ▸ hs.fetches, hcache ▸ hs.current, fun j hj => ?_, ?_⟩
    · rw [hworkers j hj]
      exact hs.leases j hj
    · rw [holders_of_others hworkers, hledger]
      exact hs.attempts

/-- The credential stays cached, and the counter goes with the leases. -/
theorem Cached.move {cached cached' : CachedCredentials} (hs : Cached setup s k cached)
    (hi : setup.cohortOf i = k) (hother : ∀ j ≠ i, t.workers j = s.workers j)
    (hfetches : (t.ledger k).fetches = (s.ledger k).fetches)
    (hcurrent : (t.caches k).current = some cached')
    (hsame : ∀ lease, cached.leased lease → cached'.leased lease)
    (hlease : ∀ lease ∈ (t.workers i).lease, cached'.leased lease)
    (hattempts : cached'.allocationAttempts + (if (s.workers i).owes then 1 else 0) +
        (s.ledger k).lost =
      cached.allocationAttempts + (if (t.workers i).owes then 1 else 0) + (t.ledger k).lost) :
    Cached setup t k cached' := by
  refine ⟨hfetches.trans hs.fetches, hcurrent, fun j hj => ?_, ?_⟩
  · by_cases hji : j = i
    · rw [hji]
      exact hlease
    · rw [hother j hji]
      exact fun lease hl => hsame lease (hs.leases j hj lease hl)
  · have hcard := card_holders hi hother
    have hcount := hs.attempts
    omega

/-- The first credentials are cached. -/
theorem Unfetched.first {c : TurnCredentials} {attempts : ℕ} {cache : CredentialCache}
    (hs : Unfetched setup s k) (hi : setup.cohortOf i = k)
    (hother : ∀ j ≠ i, t.workers j = s.workers j) (hfetches : (t.ledger k).fetches = 1)
    (hcache : t.caches k = cache.holding c attempts)
    (hlease : ∀ lease ∈ (t.workers i).lease, lease = ⟨c, cache.generation⟩)
    (hlost : (t.ledger k).lost = (s.ledger k).lost)
    (hattempts : attempts = if (t.workers i).owes then 1 else 0) :
    ∃ cached, Cached setup t k cached := by
  have hnone : ∀ j, setup.cohortOf j = k → (s.workers j).owes = false := by
    intro j hj
    have hlease := hs.leases j hj
    revert hlease
    cases s.workers j <;> simp [Phase.lease, Phase.owes]
  refine ⟨⟨c, cache.generation, attempts, 0⟩, hfetches, ?_, fun j hj lease hl => ?_, ?_⟩
  · rw [hcache]
    rfl
  · by_cases hji : j = i
    · rw [hji] at hl
      rw [hlease lease hl]
      simp [CachedCredentials.leased, sameTurnCredentials_iff]
    · rw [hother j hji, hs.leases j hj] at hl
      cases hl
  · have hempty : holders setup s k = ∅ := by
      refine Finset.eq_empty_of_forall_notMem fun j hj => ?_
      obtain ⟨hj, howes⟩ := mem_holders.mp hj
      exact Bool.false_ne_true ((hnone j hj).symm.trans howes)
    have hcard := card_holders hi hother
    rw [hempty, Finset.card_empty, hnone i hi] at hcard
    rw [hlost, hs.lost]
    simp only [Bool.false_eq_true, if_false] at hcard
    show attempts = _
    omega

theorem Ledger.fetches_append (l : Ledger) (entries : List Entry) :
    ({ l with entries := l.entries ++ entries } : Ledger).fetches =
      l.fetches + entries.countP Entry.isFetch :=
  List.countP_append ..

@[simp] theorem Ledger.drop_fetches (l : Ledger) (p p' : Phase) :
    (l.drop p p').fetches = l.fetches := by
  rw [Ledger.drop]
  split_ifs
  · rfl
  · rfl

theorem Ledger.drop_lost (l : Ledger) (p p' : Phase) :
    (l.drop p p').lost = l.lost + if p.owes && !p'.owes then 1 else 0 := by
  rw [Ledger.drop]
  split_ifs
  · rfl
  · rfl

/-- A worker without a lease does nothing but ask for one. -/
theorem no_lease {p : Phase} (h : p.lease = none) : p = .waiting ∨ p = .stopped := by
  cases p with
  | waiting => exact .inl rfl
  | stopped => exact .inr rfl
  | leased | inSession | settling => cases h

/-- The first fetch of a cohort, or a step that comes to none. -/
theorem Unfetched.step {v : Turn} (hs : Unfetched setup s (setup.cohortOf e.worker))
    (hq : Quiet setup (setup.cohortOf e.worker) s) (hv : Pool.Moved setup s t e v) :
    Kept setup (setup.cohortOf e.worker) t := by
  obtain ⟨hturned, hphase, hcache, hledger, hworkers, _, _⟩ := hv
  have hlease := hs.leases e.worker rfl
  have hspent : (s.caches (setup.cohortOf e.worker)).Spent := by
    intro cached hcached
    rw [hs.current] at hcached
    cases hcached
  -- without a fetch everything stays as it is
  have hkeep : v.phase.lease = none → v.cache.current = none → v.ledger.fetches = 0 →
      v.ledger.lost = 0 → Kept setup (setup.cohortOf e.worker) t := by
    intro hphase' hcache' hfetches hlost
    left
    refine ⟨by rw [hledger, hfetches], by rw [hcache, hcache'], fun j hj => ?_,
      by rw [hledger, hlost]⟩
    by_cases hji : j = e.worker
    · rw [hji, hphase]
      exact hphase'
    · rw [hworkers j hji]
      exact hs.leases j hj
  have hnone : (s.workers e.worker).owes = false := by
    rcases no_lease hlease with h | h
    · rw [h]
      rfl
    · rw [h]
      rfl
  cases hturned with
  | @got i asked interrupted vk hwaiting =>
    have hgot := (s.caches (setup.cohortOf i)).got
      (answerOf setup.seeds (setup.hash (setup.cohortOf i)) asked vk) interrupted
    simp only [Pool.view, Event.worker] at *
    generalize (s.caches (setup.cohortOf i)).get
      (answerOf setup.seeds (setup.hash (setup.cohortOf i)) asked vk) interrupted = out at *
    cases hgot with
    | leased hcurrent => cases hs.current.symm.trans hcurrent
    | missed _ hanswer =>
      refine hkeep rfl rfl ?_ hs.lost
      rw [fetchEntry_of_not_ok hanswer, List.append_nil]
      exact hs.fetches
    | refused _ _ hblocked => cases hq.unblocked.symm.trans hblocked
    | stored _ hanswer =>
      refine .inr (hs.first rfl hworkers ?_ hcache ?_ (by rw [hledger]) ?_)
      · rw [hledger, Ledger.fetches_append, fetchEntry_of_ok hspent hanswer, hs.fetches]
        rfl
      · rw [hphase]
        exact fun _ h => nomatch h
      · rw [hphase]
        rfl
    | fetched _ hanswer =>
      refine .inr (hs.first rfl hworkers ?_ hcache ?_ (by rw [hledger]) ?_)
      · rw [hledger, Ledger.fetches_append, fetchEntry_of_ok hspent hanswer, hs.fetches]
        rfl
      · rw [hphase]
        exact fun _ h => (Option.some.inj h).symm
      · rw [hphase]
        rfl
  | left => exact hkeep rfl hs.current hs.fetches hs.lost
  | panicked =>
    refine hkeep rfl hs.current ?_ ?_
    · exact (Ledger.drop_fetches _ _ _).trans hs.fetches
    · exact (Ledger.drop_lost _ _ _).trans (by simp [Pool.view, hnone, hs.lost])
  | abandoned hp | started hp | recorded hp | finished hp | settled hp =>
    rw [show s.workers _ = _ from hp] at hlease
    cases hlease

/-- A step of a worker of the cohort that does not ask for a lease. -/
theorem Cached.step {v : Turn} {cached : CachedCredentials}
    (hs : Cached setup s (setup.cohortOf e.worker) cached)
    (hq : Quiet setup (setup.cohortOf e.worker) s) (hv : Pool.Moved setup s t e v)
    (hget : ∀ i asked vk interrupted, e ≠ .get i asked vk interrupted) :
    ∃ cached', Cached setup t (setup.cohortOf e.worker) cached' := by
  obtain ⟨hturned, hphase, hcache, hledger, hworkers, _, _⟩ := hv
  generalize e.worker = i at *
  have hleases := hs.leases i rfl
  have hreleases := hq.releases i rfl
  -- the worker keeps its lease or drops it, and the counter goes with it
  have hmove : ∀ cached', v.ledger.fetches = (s.ledger (setup.cohortOf i)).fetches →
      v.cache.current = some cached' → (∀ lease, cached.leased lease → cached'.leased lease) →
      (∀ lease ∈ v.phase.lease, lease ∈ (s.workers i).lease) →
      cached'.allocationAttempts + (if (s.workers i).owes then 1 else 0) +
          (s.ledger (setup.cohortOf i)).lost =
        cached.allocationAttempts + (if v.phase.owes then 1 else 0) + v.ledger.lost →
      ∃ cached', Cached setup t (setup.cohortOf i) cached' := by
    intro cached' hfetches hcurrent hsame hlease hattempts
    refine ⟨cached', hs.move rfl hworkers (hledger ▸ hfetches) (hcache ▸ hcurrent) hsame ?_ ?_⟩
    · intro lease hl
      exact hsame lease (hleases lease (hlease lease (hphase ▸ hl)))
    · rw [hphase, hledger]
      exact hattempts
  have hview : s.view setup i =
      ⟨s.workers i, s.caches (setup.cohortOf i), s.ledger (setup.cohortOf i)⟩ := rfl
  rw [hview] at hturned
  cases hturned with
  | got => exact absurd rfl (hget _ _ _ _)
  | left hp =>
    refine hmove cached rfl hs.current (fun _ h => h) (fun _ h => nomatch h) ?_
    simp only at hp
    rw [hp]
    rfl
  | abandoned hp | started hp =>
    simp only at hp
    rw [hp] at hmove
    exact hmove cached rfl hs.current (fun _ h => h) (fun _ h => h) rfl
  | @recorded _ lease _ hp =>
    simp only at hp
    have hleased := hleases lease (by rw [hp]; rfl)
    refine hmove { cached with allocationMismatches := 0 } rfl ?_ (fun _ h => h) (fun _ h => h) rfl
    simp only [CredentialCache.recordAllocation, hs.current, hleased, if_true]
  | @finished _ lease _ _ phase hp hafter =>
    simp only at hp
    rw [hp] at hmove
    refine hmove cached (Ledger.drop_fetches _ _ _) hs.current (fun _ h => h) ?_ ?_
    · intro other hother
      rw [Phase.lease_after other (hafter ▸ hother)]
      rfl
    · rw [Ledger.drop_lost]
      cases phase.owes
      · simp [Phase.owes]
        omega
      · simp [Phase.owes]
  | @settled _ lease op ops goesOn hp =>
    simp only at hp
    obtain ⟨rfl, rfl⟩ := hreleases _ _ _ _ hp
    have hleased := hleases lease (by rw [hp]; rfl)
    have hcard : 0 < (holders setup s (setup.cohortOf i)).card :=
      Finset.card_pos.mpr ⟨i, mem_holders.mpr ⟨rfl, by rw [hp]; rfl⟩⟩
    have hattempts := hs.attempts
    rw [hp] at hmove
    refine hmove { cached with allocationAttempts := cached.allocationAttempts - 1 } ?_ ?_
      (fun _ h => h) ?_ ?_
    · simp [CredentialCache.apply]
    · simp only [CredentialCache.apply, CredentialCache.release, hs.current, hleased, if_true]
    · cases goesOn <;> exact fun _ h => nomatch h
    · cases goesOn <;> simp [Phase.after, Phase.owes] <;> omega
  | panicked hp =>
    refine hmove cached (Ledger.drop_fetches _ _ _) hs.current (fun _ h => h)
      (fun _ h => nomatch h) ?_
    rw [Ledger.drop_lost]
    cases (s.workers i).owes
    · simp [Phase.owes]
    · simp [Phase.owes]
      omega

/-- A worker that asks for a lease keeps the credential in the cache exactly if there is a
slot left. -/
theorem Cached.get {v : Turn} {cached : CachedCredentials} {asked interrupted : Bool}
    {vk : Fetched} (hs : Cached setup s (setup.cohortOf i) cached)
    (hv : Pool.Moved setup s t (.get i asked vk interrupted) v) :
    Kept setup (setup.cohortOf i) t ↔
      (holders setup s (setup.cohortOf i)).card + (s.ledger (setup.cohortOf i)).lost <
        workersPerCredential := by
  obtain ⟨hturned, hphase, hcache, hledger, hworkers, _, _⟩ := hv
  have hleases := hs.leases i rfl
  have hcurrent := hs.current
  rw [← hs.attempts]
  simp only [Pool.view, Event.worker] at *
  cases hturned with
  | got hwaiting =>
  simp only at hwaiting hphase hcache hledger
  have howes : (s.workers i).owes = false := by
    rw [hwaiting]
    rfl
  rcases Nat.lt_or_ge cached.allocationAttempts workersPerCredential with hspare | hspent
  · have hget : (s.caches (setup.cohortOf i)).get
        (answerOf setup.seeds (setup.hash (setup.cohortOf i)) asked vk) interrupted =
        (some ⟨cached.value, cached.generation⟩, { s.caches (setup.cohortOf i) with
          current := some { cached with
            allocationAttempts := cached.allocationAttempts + 1 } }) := by
      rw [CredentialCache.get, CredentialCache.reserve_of_spare hcurrent hspare]
    rw [hget] at hphase hcache
    rw [fetchEntry_of_spare hcurrent hspare, List.append_nil] at hledger
    have hheld : (t.caches (setup.cohortOf i)).current =
        some { cached with allocationAttempts := cached.allocationAttempts + 1 } := by
      rw [hcache]
    refine iff_of_true (.inr ⟨_, hs.move rfl hworkers (by rw [hledger]) hheld
      (fun _ h => h) ?_ ?_⟩) hspare
    · rw [hphase]
      intro lease hlease
      cases hlease
      simp [CachedCredentials.leased, sameTurnCredentials_iff]
    · rw [hphase, hledger, howes]
      simp [Phase.owes]
  · -- the credential is given up, and perhaps another one is fetched
    refine iff_of_false ?_ (Nat.not_lt.mpr hspent)
    have hgot := (s.caches (setup.cohortOf i)).got
      (answerOf setup.seeds (setup.hash (setup.cohortOf i)) asked vk) interrupted
    have hall : (s.caches (setup.cohortOf i)).Spent := by
      intro other hother
      rw [hcurrent, Option.mem_some_iff] at hother
      exact hother ▸ hspent
    have hfetches : (s.ledger (setup.cohortOf i)).fetches = 1 := hs.fetches
    have hgiven : ∀ cached', (t.caches (setup.cohortOf i)).current = some cached' →
        (t.ledger (setup.cohortOf i)).fetches = 2 := by
      intro cached' hcached'
      generalize (s.caches (setup.cohortOf i)).get
        (answerOf setup.seeds (setup.hash (setup.cohortOf i)) asked vk) interrupted = out
        at hgot hcache
      cases hgot with
      | leased hcurrent' hspare =>
        cases hcurrent.symm.trans hcurrent'
        exact absurd hspare (Nat.not_lt.mpr hspent)
      | missed | refused =>
        rw [hcache] at hcached'
        cases hcached'
      | stored _ hanswer | fetched _ hanswer =>
        rw [hledger, Ledger.fetches_append, fetchEntry_of_ok hall hanswer, hfetches]
        rfl
    have hmore : 1 ≤ (t.ledger (setup.cohortOf i)).fetches := by
      rw [hledger, Ledger.fetches_append, hfetches]
      exact Nat.le_add_right _ _
    rintro (hkept | ⟨cached', hkept⟩)
    · rw [hkept.fetches] at hmore
      cases hmore
    · cases hkept.fetches.symm.trans (hgiven cached' hkept.current)

omit [Fintype ι] in
/-- Calm steps leave no call but a release. -/
theorem Quiet.step (hs : Quiet setup k s) (hcalm : Calm setup k s e)
    (h : s.step setup e = some t) : Quiet setup k t := by
  obtain ⟨v, hturned, hphase, hcache, hledger, hworkers, hcaches, _⟩ := Pool.moved h
  by_cases hk : setup.cohortOf e.worker = k
  swap
  · refine ⟨by rw [hcaches k (Ne.symm hk), hs.unblocked], fun j hj => ?_⟩
    have hji : j ≠ e.worker := by
      rintro rfl
      exact hk hj
    rw [hworkers j hji]
    exact hs.releases j hj
  subst hk
  have hunblocked := hs.unblocked
  have hreleases := hs.releases e.worker rfl
  -- it is enough to look at the worker that moves
  suffices hmoves : v.cache.quotaBlocked = none ∧
      ∀ lease op ops goesOn, v.phase = .settling lease op ops goesOn →
        op = .release ∧ ops = [] by
    refine ⟨hcache ▸ hmoves.1, fun j hj => ?_⟩
    by_cases hji : j = e.worker
    · rw [hji, hphase]
      exact hmoves.2
    · rw [hworkers j hji]
      exact hs.releases j hj
  cases hturned with
  | @got i asked interrupted vk hwaiting =>
    simp only [Pool.view, Event.worker] at *
    have hgot := (s.caches (setup.cohortOf i)).got
      (answerOf setup.seeds (setup.hash (setup.cohortOf i)) asked vk) interrupted
    generalize (s.caches (setup.cohortOf i)).get
      (answerOf setup.seeds (setup.hash (setup.cohortOf i)) asked vk) interrupted = out at *
    cases hgot with
    | leased => exact ⟨hunblocked, fun _ _ _ _ h => nomatch h⟩
    | missed => exact ⟨hunblocked, fun _ _ _ _ h => nomatch h⟩
    | refused => exact ⟨hunblocked, fun _ _ _ _ h => nomatch h⟩
    | stored => exact ⟨rfl, fun _ _ _ _ h => nomatch h⟩
    | fetched => exact ⟨rfl, fun _ _ _ _ h => nomatch h⟩
  | left | started | panicked => exact ⟨hunblocked, fun _ _ _ _ h => nomatch h⟩
  | abandoned =>
    refine ⟨hunblocked, fun _ _ _ _ h => ?_⟩
    cases h
    exact ⟨rfl, rfl⟩
  | recorded hp =>
    refine ⟨?_, fun _ _ _ _ h => nomatch hp.symm.trans h⟩
    simp only [CredentialCache.recordAllocation]
    split
    · split_ifs
      · exact hunblocked
      · exact hunblocked
    · exact hunblocked
  | finished hp hafter =>
    refine ⟨hunblocked, fun _ _ _ _ h => ?_⟩
    obtain ⟨herror, hgeneration⟩ := hcalm rfl
    have hsettle := calm_settle herror (hgeneration _ _ hp)
    simp only at h
    rw [hafter] at h
    rcases hsettle with hnone | hrelease
    · rw [hnone, Phase.after] at h
      split_ifs at h
    · rw [hrelease] at h
      cases h
      exact ⟨rfl, rfl⟩
  | @settled _ lease op ops goesOn hp =>
    obtain ⟨rfl, rfl⟩ := hreleases _ _ _ _ hp
    refine ⟨?_, fun _ _ _ _ h => ?_⟩
    · simp only [CredentialCache.apply, CredentialCache.release]
      split
      · split_ifs
        · exact hunblocked
        · exact hunblocked
      · exact hunblocked
    · cases goesOn <;> cases h

/-- The step lemma. -/
theorem kept_step_iff (hq : Quiet setup k s) (hs : Kept setup k s)
    (h : s.step setup e = some t) : Kept setup k t ↔ Spare setup k s e := by
  obtain ⟨v, hv⟩ := Pool.moved h
  by_cases hk : setup.cohortOf e.worker = k
  swap
  · refine iff_of_true (hs.other hv hk) ?_
    cases e with
    | get i => exact fun hi => absurd hi hk
    | leave | abandon | start | allocated | finish | settle | panicked => trivial
  subst hk
  rcases hs with hs | ⟨cached, hs⟩
  · refine iff_of_true (hs.step hq hv) ?_
    cases e with
    | get i => exact fun _ hfetches => absurd hs.fetches hfetches
    | leave | abandon | start | allocated | finish | settle | panicked => trivial
  · cases e with
    | get i =>
      have hfetched : (s.ledger (setup.cohortOf i)).fetches ≠ 0 := by
        rw [show (s.ledger (setup.cohortOf i)).fetches = 1 from hs.fetches]
        exact Nat.one_ne_zero
      exact (Cached.get hs hv).trans ⟨fun hspare _ _ => hspare, fun hspare => hspare rfl hfetched⟩
    | leave | abandon | start | allocated | finish | settle | panicked =>
      exact iff_of_true (.inr (hs.step hq hv nofun)) trivial

omit [DecidableEq ι] in
theorem kept_start (spawned : ι → Bool) :
    Quiet setup k (Pool.start κ spawned) ∧ Kept setup k (Pool.start κ spawned) := by
  have hphase : ∀ i, (Pool.start κ spawned).workers i = .waiting ∨
      (Pool.start κ spawned).workers i = .stopped := by
    intro i
    simp only [Pool.start]
    split_ifs
    · exact .inl rfl
    · exact .inr rfl
  constructor
  · refine ⟨rfl, fun i _ lease op ops goesOn h => ?_⟩
    rcases hphase i with hi | hi
    · cases hi.symm.trans h
    · cases hi.symm.trans h
  · refine .inl ⟨rfl, rfl, fun i _ => ?_, rfl⟩
    rcases hphase i with hi | hi
    · rw [hi]
      rfl
    · rw [hi]
      rfl

/-- In a calm run the credential stays in the cache, exactly if a slot is left for every
lease. -/
theorem kept_iff_spare (setup : Setup ι κ) (k : κ) (spawned : ι → Bool) {es : List (Event ι)}
    (hcalm : Admits (Pool.step setup) (Calm setup k) (Pool.start κ spawned) es) :
    Always (Pool.step setup) (Kept setup k) (Pool.start κ spawned) es ↔
      Admits (Pool.step setup) (Spare setup k) (Pool.start κ spawned) es :=
  always_iff_admits_of_good (Q := Quiet setup k) (fun _ _ _ hq hcalm h => hq.step hcalm h)
    (fun _ _ _ hq hs _ h => kept_step_iff hq hs h) (kept_start spawned).1 (kept_start spawned).2
    hcalm

/-- In a calm run with a slot left for every lease, the credentials of a cohort are fetched
once. -/
theorem fetched_once (setup : Setup ι κ) (k : κ) (spawned : ι → Bool) {es : List (Event ι)}
    (hcalm : Admits (Pool.step setup) (Calm setup k) (Pool.start κ spawned) es)
    (hspare : Admits (Pool.step setup) (Spare setup k) (Pool.start κ spawned) es) :
    Always (Pool.step setup) (fun s => (s.ledger k).fetches ≤ 1) (Pool.start κ spawned) es := by
  refine ((kept_iff_spare setup k spawned hcalm).mpr hspare).mono fun s hs => ?_
  rcases hs with hs | ⟨cached, hs⟩
  · exact hs.fetches.trans_le (Nat.zero_le 1)
  · exact hs.fetches.le

instance Spare.decidable (s : Pool ι κ) (e : Event ι) : Decidable (Spare setup k s e) :=
  match e with
  | .get i _ _ _ => inferInstanceAs (Decidable (setup.cohortOf i = k →
      (s.ledger k).fetches ≠ 0 →
        (holders setup s k).card + (s.ledger k).lost < workersPerCredential))
  | .leave _ | .abandon _ | .start _ _ | .allocated _ | .finish _ _ | .settle _ | .panicked _ =>
    isTrue trivial

end Fintype

/-- A session that ends with a soft handover. -/
def rebound : SessionEnd where
  error := some { outer := { text := "NET_REBIND" } }
  started := true
  cancelled := false
  allowed := true
  credentialGeneration := 0

omit [DecidableEq ι] [DecidableEq κ] in
/-- A session that ends with a soft handover, of a worker with no repairs, is calm. -/
theorem calm_rebound (s : Pool ι κ) (i : ι) : Calm setup k s (.finish i rebound) := by
  intro _
  refine ⟨fun error herror => ?_, fun lease generation _ => Nat.zero_le generation⟩
  cases herror
  decide +kernel

/-- A cohort of two groups whose hash has no seed. -/
def cohort : Setup (Fin 18) Unit where
  cohortOf _ := ()
  hash _ := "hash"
  seeds := .clear

/-- What the VK service answers. -/
def joined : Fetched := .ok ⟨"user", "secret", ["turn.example:3478"]⟩

/-- The worker takes a lease. -/
def joins (i : Fin 18) : Event (Fin 18) := .get i true joined false

/-- The first worker starts, is handed over and takes a lease again. -/
def handover : List (Event (Fin 18)) := [.start 0 0, .allocated 0, .finish 0 rebound, joins 0]

theorem handover_calm (before : List (Fin 18)) :
    Admits (Pool.step cohort) (Calm cohort ()) (Pool.start Unit fun _ => true)
      (before.map joins ++ handover) := by
  refine admits_of_forall fun e he s => ?_
  rcases List.mem_append.mp he with he | he
  · obtain ⟨i, _, rfl⟩ := List.mem_map.mp he
    trivial
  · simp only [handover, List.mem_cons, List.not_mem_nil, or_false] at he
    rcases he with rfl | rfl | rfl | rfl
    · trivial
    · trivial
    · exact calm_rebound s 0
    · trivial

theorem handover_fetched_once :
    Always (Pool.step cohort) (fun s => (s.ledger ()).fetches ≤ 1)
      (Pool.start Unit fun _ => true) ([0, 1].map joins ++ handover) :=
  fetched_once cohort () _ (handover_calm [0, 1]) (by decide +kernel)

/-- With all workers of two groups in session, one soft handover costs a fetch. -/
theorem rebind_fetches_again :
    ∃ es, Admits (Pool.step cohort) (Calm cohort ()) (Pool.start Unit fun _ => true) es ∧
      ¬ Always (Pool.step cohort) (fun s => (s.ledger ()).fetches ≤ 1)
        (Pool.start Unit fun _ => true) es := by
  refine ⟨_, handover_calm (List.finRange 18), fun halways => ?_⟩
  have hfetches : (run (Pool.step cohort) (Pool.start Unit fun _ => true)
      ((List.finRange 18).map joins ++ handover)).map (fun s => (s.ledger ()).fetches) =
      some 2 := by
    decide +kernel
  obtain ⟨t, ht, htwo⟩ := Option.map_eq_some_iff.mp hfetches
  have hle := always_iff_prefixes.mp halways _ List.prefix_rfl t ht
  rw [htwo] at hle
  exact absurd hle (by decide)

end Csqtt.Credentials
