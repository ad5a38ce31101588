/-
TURN credentials: the seeds, the cache of a cohort, and how the end of a session is read.

A cohort of workers shares one cached credential.  Each lease takes a slot of it; after
`WORKERS_PER_CREDENTIAL` slots the credential is given up and fetched anew.  A fetch
looks into the table of seeds before it asks the VK service, whose answer is a parameter
here.  Errors are the chains of `anyhow`, as far as the worker loop looks at them.
-/
import Csqtt.Text
import Mathlib.Logic.Function.Basic
import Mathlib.Algebra.Group.Nat.Defs

open Csqtt.Text

namespace Csqtt.Credentials

/-- `WORKERS_PER_GROUP`. -/
def workersPerGroup : ℕ := 9

/-- `GROUPS_PER_CREDENTIAL`. -/
def groupsPerCredential : ℕ := 2

/-- `WORKERS_PER_CREDENTIAL`. -/
def workersPerCredential : ℕ := workersPerGroup * groupsPerCredential

structure TurnCredentials where
  username : String
  password : String
  serverAddresses : List String
  deriving DecidableEq

def sameTurnCredentials (left right : TurnCredentials) : Bool :=
  left.username = right.username && left.password = right.password &&
    left.serverAddresses = right.serverAddresses

theorem sameTurnCredentials_iff {left right : TurnCredentials} :
    sameTurnCredentials left right ↔ left = right := by
  obtain ⟨username, password, addresses⟩ := left
  obtain ⟨username', password', addresses'⟩ := right
  simp [sameTurnCredentials, and_assoc]

/-! ### Seeds -/

/-- The table of seeds. -/
abbrev SeedStore := String → Option TurnCredentials

namespace SeedStore

def clear : SeedStore := fun _ => none

def install (seeds : SeedStore) (hash username password : String) (urls : List String) :
    SeedStore :=
  if trim hash = "" ∨ username = "" ∨ password = "" ∨ urls = [] then seeds
  else Function.update seeds (trim hash) (some ⟨username, password, urls⟩)

def lookup (seeds : SeedStore) (hash : String) : Option TurnCredentials := seeds (trim hash)

end SeedStore

/-- What comes of asking the VK service. -/
inductive Fetched where
  | ok (credentials : TurnCredentials)
  /-- `CallUnavailable`. -/
  | callUnavailable
  | failed

/-- `VkAuth::get_credentials`; `vk` is what the service would answer. -/
def getCredentials (seeds : SeedStore) (link : String) (vk : Fetched) : Fetched :=
  match seeds.lookup link with
  | some seeded => .ok seeded
  | none => vk

/-! ### The cache -/

structure CachedCredentials where
  value : TurnCredentials
  generation : ℕ
  allocationAttempts : ℕ
  allocationMismatches : ℕ
  deriving DecidableEq

structure CredentialLease where
  value : TurnCredentials
  generation : ℕ
  deriving DecidableEq

structure CredentialCache where
  current : Option CachedCredentials := none
  quotaBlocked : Option TurnCredentials := none
  nextGeneration : ℕ := 0
  quotaRetries : ℕ := 0
  deriving DecidableEq

inductive QuotaRotation where
  /-- The delay in milliseconds. -/
  | rotated (delay : ℕ)
  | replaced
  deriving DecidableEq

inductive AllocationMismatch where
  | retryCurrent
  | rotated
  | replaced
  deriving DecidableEq

def quotaRotationDelay : ℕ → ℕ
  | 0 => 100
  | 1 => 300
  | 2 => 500
  | 3 => 800
  | _ => 1500

/-- The lease is of the credential that is cached. -/
def CachedCredentials.leased (cached : CachedCredentials) (lease : CredentialLease) : Bool :=
  cached.generation = lease.generation && sameTurnCredentials cached.value lease.value

namespace CredentialCache

def reserve (cache : CredentialCache) : Option CredentialLease × CredentialCache :=
  match cache.current with
  | none => (none, cache)
  | some cached =>
    if workersPerCredential ≤ cached.allocationAttempts then
      (none, { cache with current := none })
    else
      (some ⟨cached.value, cached.generation⟩, { cache with
        current := some { cached with allocationAttempts := cached.allocationAttempts + 1 } })

/-- The generation of the next credentials, a saturating `u64`. -/
def generation (cache : CredentialCache) : ℕ := max (min (cache.nextGeneration + 1) (2 ^ 64 - 1)) 1

/-- The cache once the credentials are in it, with so many attempts. -/
def holding (cache : CredentialCache) (credentials : TurnCredentials) (attempts : ℕ) :
    CredentialCache :=
  { cache with
    quotaBlocked := none
    nextGeneration := cache.generation
    current := some {
      value := credentials
      generation := cache.generation
      allocationAttempts := attempts
      allocationMismatches := 0 } }

/-- None when the credentials are the ones that hit the quota. -/
def store (cache : CredentialCache) (credentials : TurnCredentials) : Option CredentialCache :=
  if cache.quotaBlocked.any (sameTurnCredentials · credentials) then none
  else some (cache.holding credentials 0)

def recordAllocation (cache : CredentialCache) (lease : CredentialLease) : CredentialCache :=
  match cache.current with
  | some cached =>
    if cached.leased lease then
      { cache with current := some { cached with allocationMismatches := 0 }, quotaRetries := 0 }
    else cache
  | none => cache

def release (cache : CredentialCache) (lease : CredentialLease) : CredentialCache :=
  match cache.current with
  | some cached =>
    if cached.leased lease then
      { cache with
        current := some { cached with allocationAttempts := cached.allocationAttempts - 1 } }
    else cache
  | none => cache

def invalidate (cache : CredentialCache) (lease : CredentialLease) : Bool × CredentialCache :=
  if cache.current.any fun cached => cached.leased lease then
    (true, { cache with current := none })
  else (false, cache)

def rotateAfterQuota (cache : CredentialCache) (lease : CredentialLease) :
    QuotaRotation × CredentialCache :=
  match cache.current with
  | none => (.replaced, cache)
  | some cached =>
    if !cached.leased lease then (.replaced, cache)
    else
      (.rotated (quotaRotationDelay cache.quotaRetries), { cache with
        current := none
        quotaBlocked := some cached.value
        quotaRetries := cache.quotaRetries + 1 })

def nextQuotaDelay (cache : CredentialCache) : ℕ × CredentialCache :=
  (quotaRotationDelay cache.quotaRetries,
    { cache with quotaRetries := cache.quotaRetries + 1 })

def retryAfterMismatch (cache : CredentialCache) (lease : CredentialLease) :
    AllocationMismatch × CredentialCache :=
  match cache.current with
  | none => (.replaced, cache)
  | some cached =>
    if !cached.leased lease then (.replaced, cache)
    else if cached.allocationMismatches = 0 then
      (.retryCurrent, { cache with current := some { cached with allocationMismatches := 1 } })
    else (.rotated, { cache with current := none })

/-- `GroupCredentials::get`, which holds the lock of the cache all the time.  Without an
answer it is cancelled before the credentials have come, `interrupted` is a cancellation
after they are stored. -/
def get (cache : CredentialCache) (answer : Option Fetched) (interrupted : Bool) :
    Option CredentialLease × CredentialCache :=
  match cache.reserve with
  | (some lease, cache) => (some lease, cache)
  | (none, cache) =>
    match answer with
    | some (.ok credentials) =>
      match cache.store credentials with
      | none => (none, cache.nextQuotaDelay.2)
      | some cache => if interrupted then (none, cache) else cache.reserve
    | some .callUnavailable | some .failed | none => (none, cache)

/-! ### What `get` gives -/

/-- There is no slot left. -/
def Spent (cache : CredentialCache) : Prop :=
  ∀ cached ∈ cache.current, workersPerCredential ≤ cached.allocationAttempts

theorem reserve_of_spent {cache : CredentialCache} (h : cache.Spent) :
    cache.reserve = (none, { cache with current := none }) := by
  rw [reserve]
  rcases hcurrent : cache.current with _ | cached
  · obtain ⟨_, _, _, _⟩ := cache
    cases hcurrent
    rfl
  · exact if_pos (h cached hcurrent)

theorem reserve_of_spare {cache : CredentialCache} {cached : CachedCredentials}
    (h : cache.current = some cached)
    (hspare : cached.allocationAttempts < workersPerCredential) :
    cache.reserve = (some ⟨cached.value, cached.generation⟩, { cache with
      current := some { cached with allocationAttempts := cached.allocationAttempts + 1 } }) := by
  rw [reserve, h]
  exact if_neg (Nat.not_le.mpr hspare)

theorem store_eq (cache : CredentialCache) (credentials : TurnCredentials) :
    cache.store credentials =
      if cache.quotaBlocked = some credentials then none
      else some (cache.holding credentials 0) := by
  have hblocked : cache.quotaBlocked.any (sameTurnCredentials · credentials) ↔
      cache.quotaBlocked = some credentials := by
    simp [Option.any_eq_true, sameTurnCredentials_iff]
  rw [store]
  by_cases h : cache.quotaBlocked = some credentials
  · rw [if_pos (hblocked.mpr h), if_pos h]
  · rw [if_neg fun hany => h (hblocked.mp hany), if_neg h]

theorem reserve_holding (cache : CredentialCache) (credentials : TurnCredentials) :
    (cache.holding credentials 0).reserve =
      (some ⟨credentials, cache.generation⟩, cache.holding credentials 1) := rfl

/-- The outcomes of `get`. -/
inductive Got (cache : CredentialCache) (answer : Option Fetched) (interrupted : Bool) :
    Option CredentialLease × CredentialCache → Prop
  | leased {cached : CachedCredentials} (hcurrent : cache.current = some cached)
      (hspare : cached.allocationAttempts < workersPerCredential) :
      Got cache answer interrupted (some ⟨cached.value, cached.generation⟩, { cache with
        current := some { cached with allocationAttempts := cached.allocationAttempts + 1 } })
  | missed (hspent : cache.Spent) (hanswer : ∀ credentials, answer ≠ some (.ok credentials)) :
      Got cache answer interrupted (none, { cache with current := none })
  /-- The service has given the credentials that hit the quota. -/
  | refused {credentials : TurnCredentials} (hspent : cache.Spent)
      (hanswer : answer = some (.ok credentials)) (hblocked : cache.quotaBlocked = some credentials) :
      Got cache answer interrupted
        (none, { cache with current := none, quotaRetries := cache.quotaRetries + 1 })
  | stored {credentials : TurnCredentials} (hspent : cache.Spent)
      (hanswer : answer = some (.ok credentials))
      (hblocked : cache.quotaBlocked ≠ some credentials) (hinterrupted : interrupted) :
      Got cache answer interrupted (none, cache.holding credentials 0)
  | fetched {credentials : TurnCredentials} (hspent : cache.Spent)
      (hanswer : answer = some (.ok credentials))
      (hblocked : cache.quotaBlocked ≠ some credentials) :
      Got cache answer interrupted
        (some ⟨credentials, cache.generation⟩, cache.holding credentials 1)

/-- New credentials are fetched and leased. -/
theorem get_of_spent {cache : CredentialCache} {credentials : TurnCredentials} (h : cache.Spent)
    (hblocked : cache.quotaBlocked ≠ some credentials) :
    cache.get (some (.ok credentials)) false =
      (some ⟨credentials, cache.generation⟩, cache.holding credentials 1) := by
  have hstore : ({ cache with current := none } : CredentialCache).store credentials =
      some (cache.holding credentials 0) := by
    rw [store_eq]
    exact if_neg hblocked
  rw [get, reserve_of_spent h]
  simp only [hstore]
  exact cache.reserve_holding credentials

theorem spent_or_spare (cache : CredentialCache) :
    cache.Spent ∨ ∃ cached, cache.current = some cached ∧
      cached.allocationAttempts < workersPerCredential := by
  rw [Spent]
  rcases cache.current with _ | cached
  · exact .inl fun _ h => nomatch h
  · rcases Nat.lt_or_ge cached.allocationAttempts workersPerCredential with h | h
    · exact .inr ⟨cached, rfl, h⟩
    · refine .inl fun _ hcached => ?_
      cases hcached
      exact h

theorem got (cache : CredentialCache) (answer : Option Fetched) (interrupted : Bool) :
    Got cache answer interrupted (cache.get answer interrupted) := by
  rw [get]
  rcases cache.spent_or_spare with hspent | ⟨cached, hcurrent, hspare⟩
  · rw [reserve_of_spent hspent]
    rcases answer with _ | ⟨credentials⟩ | _ | _
    · exact .missed hspent fun _ h => nomatch h
    · have hstore := store_eq { cache with current := none } credentials
      simp only at hstore ⊢
      rw [hstore]
      by_cases hblocked : cache.quotaBlocked = some credentials
      · rw [if_pos hblocked]
        exact .refused hspent rfl hblocked
      · rw [if_neg hblocked]
        rcases interrupted with _ | _
        · exact .fetched hspent rfl hblocked
        · exact .stored hspent rfl hblocked rfl
    · exact .missed hspent fun _ h => nomatch h
    · exact .missed hspent fun _ h => nomatch h
  · rw [reserve_of_spare hcurrent hspare]
    exact .leased hcurrent hspare

end CredentialCache

/-! ### How a session has ended -/

/-- One error of a chain: its text, and the STUN codes of a `TurnRequestError` and of a
`TurnAllocateError`. -/
structure Cause where
  text : String
  requestCode : Option ℤ := none
  allocateCode : Option ℤ := none

structure SessionError where
  outer : Cause
  sources : List Cause := []

namespace SessionError

def chain (e : SessionError) : List Cause := e.outer :: e.sources

/-- `error.to_string()`. -/
def message (e : SessionError) : String := e.outer.text

def lower (e : SessionError) : String := toAsciiLowercase e.message

def turnAllocateStunCode (e : SessionError) : Option ℤ := e.chain.findSome? (·.allocateCode)

def turnStunCode (e : SessionError) : Option ℤ := e.chain.findSome? (·.requestCode)

def isTurnAllocationQuota (e : SessionError) : Bool :=
  e.turnAllocateStunCode = some 486 ||
    (contains e.lower "turn allocate" &&
      ["stun error 486", "allocation quota reached", "quota reached"].any (contains e.lower))

def errorIsAllocationMismatch (e : SessionError) : Bool :=
  let chain := toAsciiLowercase (String.intercalate "\n" (e.chain.map (·.text)))
  contains chain "stun error 437" ||
    (contains chain "stun error 400" && contains chain "channelbind")

def isTurnAllocationMismatch (e : SessionError) : Bool :=
  if e.turnStunCode = some 437 then true
  else if e.turnStunCode = some 400 && contains e.lower "channelbind" then true
  else
    contains e.lower "stun error 437" ||
      (contains e.lower "stun error 400" && contains e.lower "channelbind") ||
      e.errorIsAllocationMismatch

def shouldInvalidateTurnCredentials (e : SessionError) : Bool :=
  match e.turnStunCode with
  | some code => code ∈ ([401, 438, 441] : List ℤ)
  | none =>
    contains e.lower "turn " &&
      ["stun error 401", "stun error 438", "stun error 441", "unauthorized", "wrong credential",
        "authentication failed"].any (contains e.lower)

end SessionError

/-- What the worker does to the cache after a session. -/
inductive CacheOp where
  | release
  | invalidate
  | rotateAfterQuota
  | retryAfterMismatch
  deriving DecidableEq

/-- What the worker loop looks at when a session has ended. -/
structure SessionEnd where
  /-- None for a session that returned without an error. -/
  error : Option SessionError
  /-- The start of the allocation has been observed. -/
  started : Bool
  /-- Cancelled, or the hash is not available. -/
  cancelled : Bool
  /-- Neither paused nor parked. -/
  allowed : Bool
  /-- The credential generation of the worker now. -/
  credentialGeneration : ℕ

/-- The calls on the cache after a session has ended, in order, and whether the worker
goes on; `generation` is the credential generation at its start. -/
def SessionEnd.settle (e : SessionEnd) (generation : ℕ) : List CacheOp × Bool :=
  let first := if e.started then [] else [CacheOp.release]
  if e.cancelled then (first, false)
  else
    match e.error with
    | none => (first, true)
    | some error =>
      if contains error.message "IDLE_PARK" then
        (first ++ if e.started then [.release] else [], true)
      else if !e.allowed then (first, true)
      else if contains error.lower "net_rebind" then (first, true)
      else if contains error.lower "target_repair" then
        (first ++ if generation < e.credentialGeneration then [.invalidate] else [], true)
      else if contains error.lower "turn channel rebind retry exhausted" then (first, true)
      else
        (first ++ (if error.shouldInvalidateTurnCredentials then [.invalidate] else []) ++
          (if error.isTurnAllocationQuota then [.rotateAfterQuota]
            else if error.isTurnAllocationMismatch then [.retryAfterMismatch]
            else []), true)

end Csqtt.Credentials
