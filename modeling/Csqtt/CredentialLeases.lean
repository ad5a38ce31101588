/-
The leases of a credential cache, over any run of its operations.

A run keeps a list of the leases handed out, and every operation that takes a lease names
one of the list; a lease is released at most once.  The record also counts the credentials
stored and notes those that hit the quota.  Generations are distinct until the counter is
at its end: from the store number `2 ^ 64` on the last one is given again.

* `leases_accounted` — until then no generation has more leases out than workers may share,
  none comes back, and a lease of another generation has no effect;
* `rejected_not_reused_iff` — credentials that hit the quota stay away exactly as long as
  nobody stores one of them which is not the last.
-/
import Csqtt.Credentials
import Csqtt.TransitionRun

namespace Csqtt.CredentialLeases

open Credentials

structure Handed where
  lease : CredentialLease
  released : Bool
  deriving DecidableEq

structure Ledger where
  cache : CredentialCache := {}
  /-- The leases handed out, the oldest first. -/
  handed : List Handed := []
  /-- How many credentials have been stored. -/
  stores : ℕ := 0
  /-- The credentials that hit the quota. -/
  rejected : List TurnCredentials := []
  deriving DecidableEq

/-- A call on the cache; a lease is named by its place in the list. -/
inductive Call where
  | store (credentials : TurnCredentials)
  | reserve
  | recordAllocation (k : ℕ)
  | release (k : ℕ)
  | invalidate (k : ℕ)
  | rotateAfterQuota (k : ℕ)
  | nextQuotaDelay
  | retryAfterMismatch (k : ℕ)
  deriving DecidableEq

namespace Ledger

def store (s : Ledger) (credentials : TurnCredentials) : Ledger :=
  match s.cache.store credentials with
  | none => s
  | some cache => { s with cache, stores := s.stores + 1 }

def reserve (s : Ledger) : Ledger :=
  match s.cache.reserve with
  | (none, cache) => { s with cache }
  | (some lease, cache) =>
    { s with cache, handed := s.handed ++ [{ lease, released := false }] }

def release (s : Ledger) (k : ℕ) (lease : CredentialLease) : Ledger :=
  { s with
    cache := s.cache.release lease
    handed := s.handed.set k { lease, released := true } }

def rotateAfterQuota (s : Ledger) (lease : CredentialLease) : Ledger :=
  match s.cache.rotateAfterQuota lease with
  | (.rotated _, cache) => { s with cache, rejected := lease.value :: s.rejected }
  | (.replaced, cache) => { s with cache }

/-- The lease at a place of the list. -/
def lease (s : Ledger) (k : ℕ) : Option CredentialLease := s.handed[k]?.map (·.lease)

end Ledger

/-- None for a lease that was not handed out, or that is released a second time. -/
def step (s : Ledger) : Call → Option Ledger
  | .store credentials => some (s.store credentials)
  | .reserve => some s.reserve
  | .recordAllocation k =>
    (s.lease k).map fun lease => { s with cache := s.cache.recordAllocation lease }
  | .release k =>
    match s.handed[k]? with
    | none => none
    | some handed => if handed.released then none else some (s.release k handed.lease)
  | .invalidate k => (s.lease k).map fun lease => { s with cache := (s.cache.invalidate lease).2 }
  | .rotateAfterQuota k => (s.lease k).map s.rotateAfterQuota
  | .nextQuotaDelay => some { s with cache := s.cache.nextQuotaDelay.2 }
  | .retryAfterMismatch k =>
    (s.lease k).map fun lease => { s with cache := (s.cache.retryAfterMismatch lease).2 }

/-- The lease that a call takes. -/
def Call.lease (s : Ledger) : Call → Option CredentialLease
  | .recordAllocation k | .release k | .invalidate k | .rotateAfterQuota k
  | .retryAfterMismatch k => s.lease k
  | .store _ | .reserve | .nextQuotaDelay => none

namespace Ledger

def handedOut (s : Ledger) (generation : ℕ) : ℕ :=
  s.handed.countP fun h => h.lease.generation = generation

def released (s : Ledger) (generation : ℕ) : ℕ :=
  s.handed.countP fun h => h.lease.generation = generation && h.released

/-- The leases of a generation that are still out. -/
def outstanding (s : Ledger) (generation : ℕ) : ℕ :=
  s.handed.countP fun h => h.lease.generation = generation && !h.released

/-- The generation of the credentials in the cache. -/
def Current (s : Ledger) (generation : ℕ) : Prop :=
  ∃ cached ∈ s.cache.current, cached.generation = generation

end Ledger

variable {s t : Ledger} {call : Call} {cache : CredentialCache} {lease : CredentialLease}
  {generation : ℕ}

theorem handedOut_eq (s : Ledger) (generation : ℕ) :
    s.handedOut generation = s.released generation + s.outstanding generation := by
  rw [Ledger.handedOut, Ledger.released, Ledger.outstanding]
  induction s.handed with
  | nil => rfl
  | cons h handed ih =>
    simp only [List.countP_cons, ih]
    by_cases hgeneration : h.lease.generation = generation
    · cases hreleased : h.released
      · simp [hgeneration]
        omega
      · simp [hgeneration]
        omega
    · simp [hgeneration]

/-! ### A lease of another generation -/

theorem leased_generation {cached : CachedCredentials} (h : cached.leased lease = true) :
    cached.generation = lease.generation ∧ cached.value = lease.value := by
  rw [CachedCredentials.leased, Bool.and_eq_true, decide_eq_true_eq] at h
  exact ⟨h.1, sameTurnCredentials_iff.mp h.2⟩

theorem leased_of_eq {cached : CachedCredentials}
    (hgeneration : lease.generation = cached.generation) (hvalue : lease.value = cached.value) :
    cached.leased lease = true := by
  rw [CachedCredentials.leased, Bool.and_eq_true, decide_eq_true_eq]
  exact ⟨hgeneration.symm, sameTurnCredentials_iff.mpr hvalue.symm⟩

/-- The lease is not of the credentials in the cache. -/
def Foreign (cache : CredentialCache) (lease : CredentialLease) : Prop :=
  ∀ cached ∈ cache.current, cached.leased lease = false

theorem recordAllocation_of_foreign (h : Foreign cache lease) :
    cache.recordAllocation lease = cache := by
  rw [CredentialCache.recordAllocation]
  cases hcurrent : cache.current with
  | none => rfl
  | some cached => simp [h cached hcurrent]

theorem release_of_foreign (h : Foreign cache lease) : cache.release lease = cache := by
  rw [CredentialCache.release]
  cases hcurrent : cache.current with
  | none => rfl
  | some cached => simp [h cached hcurrent]

theorem invalidate_of_foreign (h : Foreign cache lease) :
    cache.invalidate lease = (false, cache) := by
  rw [CredentialCache.invalidate]
  cases hcurrent : cache.current with
  | none => rfl
  | some cached => simp [h cached hcurrent]

theorem rotateAfterQuota_of_foreign (h : Foreign cache lease) :
    cache.rotateAfterQuota lease = (.replaced, cache) := by
  rw [CredentialCache.rotateAfterQuota]
  cases hcurrent : cache.current with
  | none => rfl
  | some cached => simp [h cached hcurrent]

theorem retryAfterMismatch_of_foreign (h : Foreign cache lease) :
    cache.retryAfterMismatch lease = (.replaced, cache) := by
  rw [CredentialCache.retryAfterMismatch]
  cases hcurrent : cache.current with
  | none => rfl
  | some cached => simp [h cached hcurrent]

/-- No call with such a lease changes the cache. -/
theorem cache_of_foreign (hstep : step s call = some t) (hlease : call.lease s = some lease)
    (h : Foreign s.cache lease) : t.cache = s.cache := by
  cases call with
  | store credentials => exact absurd hlease (by simp [Call.lease])
  | reserve => exact absurd hlease (by simp [Call.lease])
  | nextQuotaDelay => exact absurd hlease (by simp [Call.lease])
  | recordAllocation k =>
    have hlease : s.lease k = some lease := hlease
    simp only [step, hlease, Option.map_some, Option.some.injEq] at hstep
    rw [← hstep]
    exact recordAllocation_of_foreign h
  | release k =>
    have hlease : s.lease k = some lease := hlease
    rw [Ledger.lease, Option.map_eq_some_iff] at hlease
    obtain ⟨handed, hhanded, rfl⟩ := hlease
    simp only [step, hhanded] at hstep
    split_ifs at hstep
    rw [← Option.some.inj hstep]
    exact release_of_foreign h
  | invalidate k =>
    have hlease : s.lease k = some lease := hlease
    simp only [step, hlease, Option.map_some, Option.some.injEq] at hstep
    rw [← hstep]
    exact congrArg Prod.snd (invalidate_of_foreign h)
  | rotateAfterQuota k =>
    have hlease : s.lease k = some lease := hlease
    simp only [step, hlease, Option.map_some, Option.some.injEq] at hstep
    rw [← hstep, Ledger.rotateAfterQuota, rotateAfterQuota_of_foreign h]
  | retryAfterMismatch k =>
    have hlease : s.lease k = some lease := hlease
    simp only [step, hlease, Option.map_some, Option.some.injEq] at hstep
    rw [← hstep]
    exact congrArg Prod.snd (retryAfterMismatch_of_foreign h)

/-! ### The count of attempts -/

/-- The credentials in the cache are gone or the same, with as many attempts. -/
structure Kept (cache cache' : CredentialCache) : Prop where
  next_eq : cache'.nextGeneration = cache.nextGeneration
  current : ∀ cached' ∈ cache'.current, ∃ cached ∈ cache.current,
    cached'.value = cached.value ∧ cached'.generation = cached.generation ∧
      cached'.allocationAttempts = cached.allocationAttempts

theorem Kept.refl (cache : CredentialCache) : Kept cache cache where
  next_eq := rfl
  current cached hcached := ⟨cached, hcached, rfl, rfl, rfl⟩

theorem Kept.emptied {cache cache' : CredentialCache}
    (hnext : cache'.nextGeneration = cache.nextGeneration) (hcurrent : cache'.current = none) :
    Kept cache cache' := by
  refine ⟨hnext, ?_⟩
  intro cached' hcached'
  rw [hcurrent] at hcached'
  exact absurd hcached' (Option.not_mem_none _)

theorem Kept.same {cache cache' : CredentialCache} {cached cached' : CachedCredentials}
    (hnext : cache'.nextGeneration = cache.nextGeneration) (hcurrent : cache.current = some cached)
    (hcurrent' : cache'.current = some cached') (hvalue : cached'.value = cached.value)
    (hgeneration : cached'.generation = cached.generation)
    (hattempts : cached'.allocationAttempts = cached.allocationAttempts) : Kept cache cache' := by
  refine ⟨hnext, ?_⟩
  intro other hother
  rw [hcurrent', Option.mem_some] at hother
  subst hother
  exact ⟨cached, hcurrent, hvalue, hgeneration, hattempts⟩

theorem kept_recordAllocation (cache : CredentialCache) (lease : CredentialLease) :
    Kept cache (cache.recordAllocation lease) := by
  rw [CredentialCache.recordAllocation]
  cases hcurrent : cache.current with
  | none => exact Kept.refl cache
  | some cached =>
    by_cases hleased : cached.leased lease = true
    · simp only [if_pos hleased]
      exact Kept.same rfl hcurrent rfl rfl rfl rfl
    · simp only [if_neg hleased]
      exact Kept.refl cache

theorem kept_invalidate (cache : CredentialCache) (lease : CredentialLease) :
    Kept cache (cache.invalidate lease).2 := by
  rw [CredentialCache.invalidate]
  split_ifs
  · exact Kept.emptied rfl rfl
  · exact Kept.refl cache

theorem kept_rotateAfterQuota (cache : CredentialCache) (lease : CredentialLease) :
    Kept cache (cache.rotateAfterQuota lease).2 := by
  rw [CredentialCache.rotateAfterQuota]
  cases hcurrent : cache.current with
  | none => exact Kept.refl cache
  | some cached =>
    by_cases hleased : cached.leased lease = true
    · simp only [hleased, Bool.not_true, Bool.false_eq_true, if_false]
      exact Kept.emptied rfl rfl
    · simp only [hleased, Bool.not_false, if_true]
      exact Kept.refl cache

theorem kept_retryAfterMismatch (cache : CredentialCache) (lease : CredentialLease) :
    Kept cache (cache.retryAfterMismatch lease).2 := by
  rw [CredentialCache.retryAfterMismatch]
  cases hcurrent : cache.current with
  | none => exact Kept.refl cache
  | some cached =>
    by_cases hleased : cached.leased lease = true
    · simp only [hleased, Bool.not_true, Bool.false_eq_true, if_false]
      split_ifs
      · exact Kept.same rfl hcurrent rfl rfl rfl rfl
      · exact Kept.emptied rfl rfl
    · simp only [hleased, Bool.not_false, if_true]
      exact Kept.refl cache

theorem nextGeneration_release (cache : CredentialCache) (lease : CredentialLease) :
    (cache.release lease).nextGeneration = cache.nextGeneration := by
  rw [CredentialCache.release]
  split
  · split_ifs
    · rfl
    · rfl
  · rfl

/-- A release takes one attempt from the credentials that were leased. -/
theorem current_release {cached' : CachedCredentials}
    (h : cached' ∈ (cache.release lease).current) :
    ∃ cached ∈ cache.current, cached'.value = cached.value ∧
      cached'.generation = cached.generation ∧
      cached'.allocationAttempts =
        cached.allocationAttempts - if cached.leased lease then 1 else 0 := by
  rw [CredentialCache.release] at h
  cases hcurrent : cache.current with
  | none =>
    simp only [hcurrent] at h
    exact absurd h (Option.not_mem_none _)
  | some cached =>
    simp only [hcurrent] at h
    refine ⟨cached, rfl, ?_⟩
    split_ifs at h with hleased
    · obtain rfl := Option.some.inj h
      exact ⟨rfl, rfl, by rw [if_pos hleased]⟩
    · rw [hcurrent] at h
      obtain rfl := Option.some.inj h
      exact ⟨rfl, rfl, by rw [if_neg hleased, Nat.sub_zero]⟩

/-- What a run keeps as long as generations are distinct. -/
structure Sound (s : Ledger) : Prop where
  next_eq : s.cache.nextGeneration = s.stores
  current_eq : ∀ cached ∈ s.cache.current, cached.generation = s.stores
  handed_le : ∀ h ∈ s.handed, h.lease.generation ≤ s.stores
  value_eq : ∀ cached ∈ s.cache.current, ∀ h ∈ s.handed,
    h.lease.generation = cached.generation → h.lease.value = cached.value
  attempts_eq : ∀ cached ∈ s.cache.current,
    cached.allocationAttempts = s.outstanding cached.generation
  outstanding_le : ∀ generation, s.outstanding generation ≤ workersPerCredential

theorem sound_start : Sound {} where
  next_eq := rfl
  current_eq _ h := absurd h (Option.not_mem_none _)
  handed_le _ h := absurd h List.not_mem_nil
  value_eq _ h := absurd h (Option.not_mem_none _)
  attempts_eq _ h := absurd h (Option.not_mem_none _)
  outstanding_le _ := Nat.zero_le _

/-- Nothing was handed out or taken back. -/
theorem Sound.kept (h : Sound s) (hcache : Kept s.cache t.cache) (hhanded : t.handed = s.handed)
    (hstores : t.stores = s.stores) : Sound t := by
  have houtstanding : t.outstanding = s.outstanding := by
    funext generation
    rw [Ledger.outstanding, hhanded, Ledger.outstanding]
  refine ⟨?_, ?_, ?_, ?_, ?_, ?_⟩
  · rw [hcache.next_eq, hstores]
    exact h.next_eq
  · intro cached' hcached'
    obtain ⟨cached, hcached, -, hgeneration, -⟩ := hcache.current cached' hcached'
    rw [hgeneration, hstores]
    exact h.current_eq cached hcached
  · rw [hhanded, hstores]
    exact h.handed_le
  · intro cached' hcached'
    obtain ⟨cached, hcached, hvalue, hgeneration, -⟩ := hcache.current cached' hcached'
    rw [hhanded, hvalue, hgeneration]
    exact h.value_eq cached hcached
  · intro cached' hcached'
    obtain ⟨cached, hcached, -, hgeneration, hattempts⟩ := hcache.current cached' hcached'
    rw [houtstanding, hgeneration, hattempts]
    exact h.attempts_eq cached hcached
  · rw [houtstanding]
    exact h.outstanding_le

theorem Sound.store (h : Sound s) (credentials : TurnCredentials)
    (hstores : (s.store credentials).stores < 2 ^ 64) : Sound (s.store credentials) := by
  rw [Ledger.store, CredentialCache.store_eq] at hstores ⊢
  by_cases hblocked : s.cache.quotaBlocked = some credentials
  · simp only [if_pos hblocked]
    exact h
  · simp only [if_neg hblocked] at hstores ⊢
    have hgeneration : s.cache.generation = s.stores + 1 := by
      rw [CredentialCache.generation, h.next_eq]
      omega
    -- no lease is of the new generation
    have hnew : ∀ handed ∈ s.handed, handed.lease.generation ≠ s.stores + 1 := by
      intro handed hhanded
      have hle := h.handed_le handed hhanded
      omega
    have hnone : s.outstanding (s.stores + 1) = 0 := by
      rw [Ledger.outstanding, List.countP_eq_zero]
      intro handed hhanded
      simp [hnew handed hhanded]
    refine ⟨hgeneration, ?_, ?_, ?_, ?_, h.outstanding_le⟩
    · rintro cached ⟨⟩
      exact hgeneration
    · intro handed hhanded
      exact Nat.le_succ_of_le (h.handed_le handed hhanded)
    · rintro cached ⟨⟩ handed hhanded hsame
      rw [hgeneration] at hsame
      exact absurd hsame (hnew handed hhanded)
    · rintro cached ⟨⟩
      rw [hgeneration]
      exact hnone.symm

theorem outstanding_append (s : Ledger) (cache : CredentialCache) (lease : CredentialLease)
    (generation : ℕ) :
    ({ s with cache, handed := s.handed ++ [{ lease, released := false }] } : Ledger).outstanding
        generation =
      s.outstanding generation + if lease.generation = generation then 1 else 0 := by
  simp [Ledger.outstanding, List.countP_append, List.countP_singleton]

theorem Sound.reserve (h : Sound s) : Sound s.reserve := by
  rw [Ledger.reserve]
  rcases s.cache.spent_or_spare with hspent | ⟨cached, hcurrent, hspare⟩
  · rw [CredentialCache.reserve_of_spent hspent]
    exact h.kept (Kept.emptied rfl rfl) rfl rfl
  · rw [CredentialCache.reserve_of_spare hcurrent hspare]
    have hstores := h.current_eq cached hcurrent
    have hattempts := h.attempts_eq cached hcurrent
    refine ⟨h.next_eq, ?_, ?_, ?_, ?_, ?_⟩
    · rintro _ ⟨⟩
      exact hstores
    · intro handed hhanded
      rcases List.mem_append.mp hhanded with hhanded | hhanded
      · exact h.handed_le handed hhanded
      · rw [List.mem_singleton.mp hhanded]
        exact Nat.le_of_eq hstores
    · rintro _ ⟨⟩ handed hhanded hsame
      rcases List.mem_append.mp hhanded with hhanded | hhanded
      · exact h.value_eq cached hcurrent handed hhanded hsame
      · rw [List.mem_singleton.mp hhanded]
    · rintro _ ⟨⟩
      rw [outstanding_append, if_pos rfl, ← hattempts]
    · intro generation
      rw [outstanding_append]
      split_ifs with hsame
      · -- the lease is of the credentials in the cache, which have a slot left
        have hsame : cached.generation = generation := hsame
        rw [← hsame, ← hattempts]
        exact hspare
      · exact h.outstanding_le generation

/-- A lease that is taken back counts for its own generation only. -/
theorem outstanding_release {k : ℕ} {handed : Handed} (hhanded : s.handed[k]? = some handed)
    (hout : handed.released = false) (generation : ℕ) :
    (s.release k handed.lease).outstanding generation +
        (if handed.lease.generation = generation then 1 else 0) = s.outstanding generation := by
  obtain ⟨hk, hget⟩ := List.getElem?_eq_some_iff.mp hhanded
  rw [Ledger.outstanding, Ledger.outstanding, Ledger.release, List.countP_set hk, hget]
  by_cases hsame : handed.lease.generation = generation
  · have hpositive : 0 < s.handed.countP
        fun h => h.lease.generation = generation && !h.released := by
      refine List.countP_pos_iff.mpr ⟨handed, List.mem_of_getElem? hhanded, ?_⟩
      simp [hsame, hout]
    simp only [hsame, hout, decide_true, Bool.not_false, Bool.and_self, if_true, Bool.not_true,
      Bool.and_false, Bool.false_eq_true, if_false]
    omega
  · simp [hsame]

theorem Sound.release (h : Sound s) {k : ℕ} {handed : Handed}
    (hhanded : s.handed[k]? = some handed) (hout : handed.released = false) :
    Sound (s.release k handed.lease) := by
  have hmem : handed ∈ s.handed := List.mem_of_getElem? hhanded
  have hcount := outstanding_release hhanded hout
  -- the leases are the same, but for the mark
  have hleases : ∀ other ∈ (s.release k handed.lease).handed, ∃ before ∈ s.handed,
      other.lease = before.lease := by
    intro other hother
    rcases List.mem_or_eq_of_mem_set hother with hother | rfl
    · exact ⟨other, hother, rfl⟩
    · exact ⟨handed, hmem, rfl⟩
  have hle : ∀ generation, (s.release k handed.lease).outstanding generation ≤
      s.outstanding generation := by
    intro generation
    rw [← hcount generation]
    exact Nat.le_add_right _ _
  -- a lease of their generation is of the credentials in the cache
  have hleased : ∀ cached ∈ s.cache.current,
      cached.leased handed.lease = true ↔ handed.lease.generation = cached.generation := by
    intro cached hcached
    constructor
    · intro hleased
      exact (leased_generation hleased).1.symm
    · intro hsame
      exact leased_of_eq hsame (h.value_eq cached hcached handed hmem hsame)
  refine ⟨(nextGeneration_release s.cache handed.lease).trans h.next_eq, ?_, ?_, ?_, ?_, ?_⟩
  · intro cached' hcached'
    obtain ⟨cached, hcached, -, hgeneration, -⟩ := current_release hcached'
    rw [hgeneration]
    exact h.current_eq cached hcached
  · intro other hother
    obtain ⟨before, hbefore, hsame⟩ := hleases other hother
    rw [hsame]
    exact h.handed_le before hbefore
  · intro cached' hcached' other hother
    obtain ⟨cached, hcached, hvalue, hgeneration, -⟩ := current_release hcached'
    obtain ⟨before, hbefore, hsame⟩ := hleases other hother
    rw [hvalue, hgeneration, hsame]
    exact h.value_eq cached hcached before hbefore
  · intro cached' hcached'
    obtain ⟨cached, hcached, -, hgeneration, hattempts⟩ := current_release hcached'
    have hbefore := h.attempts_eq cached hcached
    have hgone := hcount cached.generation
    simp only [hleased cached hcached] at hattempts
    rw [hattempts, hgeneration, hbefore]
    omega
  · intro generation
    exact Nat.le_trans (hle generation) (h.outstanding_le generation)

theorem current_of_rotated (cache : CredentialCache) (lease : CredentialLease) (delay : ℕ)
    (h : (cache.rotateAfterQuota lease).1 = .rotated delay) :
    (cache.rotateAfterQuota lease).2.current = none := by
  rw [CredentialCache.rotateAfterQuota] at h ⊢
  cases hcurrent : cache.current with
  | none => simp [hcurrent] at h
  | some cached =>
    by_cases hleased : cached.leased lease = true
    · simp [hleased]
    · simp [hcurrent, hleased] at h

/-- What a call can do. -/
inductive Stepped (s : Ledger) : Call → Ledger → Prop
  | stored (credentials : TurnCredentials) : Stepped s (.store credentials) (s.store credentials)
  | reserved : Stepped s .reserve s.reserve
  | released {k : ℕ} {handed : Handed} (hhanded : s.handed[k]? = some handed)
      (hout : handed.released = false) : Stepped s (.release k) (s.release k handed.lease)
  | kept {call : Call} {t : Ledger} (hcache : Kept s.cache t.cache) (hhanded : t.handed = s.handed)
      (hstores : t.stores = s.stores)
      (hrejected : t.rejected = s.rejected ∨ t.cache.current = none) :
      Stepped s call t

theorem stepped (h : step s call = some t) : Stepped s call t := by
  cases call with
  | store credentials =>
    obtain rfl := Option.some.inj h
    exact .stored credentials
  | reserve =>
    obtain rfl := Option.some.inj h
    exact .reserved
  | nextQuotaDelay =>
    obtain rfl := Option.some.inj h
    exact .kept ⟨rfl, (Kept.refl s.cache).current⟩ rfl rfl (.inl rfl)
  | recordAllocation k =>
    obtain ⟨lease, -, rfl⟩ := Option.map_eq_some_iff.mp h
    exact .kept (kept_recordAllocation s.cache lease) rfl rfl (.inl rfl)
  | invalidate k =>
    obtain ⟨lease, -, rfl⟩ := Option.map_eq_some_iff.mp h
    exact .kept (kept_invalidate s.cache lease) rfl rfl (.inl rfl)
  | retryAfterMismatch k =>
    obtain ⟨lease, -, rfl⟩ := Option.map_eq_some_iff.mp h
    exact .kept (kept_retryAfterMismatch s.cache lease) rfl rfl (.inl rfl)
  | rotateAfterQuota k =>
    obtain ⟨lease, -, rfl⟩ := Option.map_eq_some_iff.mp h
    have hkept := kept_rotateAfterQuota s.cache lease
    have hgone := current_of_rotated s.cache lease
    rw [Ledger.rotateAfterQuota]
    -- credentials that are noted as rejected are gone from the cache
    rcases hrotate : s.cache.rotateAfterQuota lease with ⟨delay | _, cache⟩
    · rw [hrotate] at hkept hgone
      exact .kept hkept rfl rfl (.inr (hgone delay rfl))
    · rw [hrotate] at hkept
      exact .kept hkept rfl rfl (.inl rfl)
  | release k =>
    rw [step] at h
    cases hhanded : s.handed[k]? with
    | none => simp [hhanded] at h
    | some handed =>
      cases hout : handed.released with
      | true => simp [hhanded, hout] at h
      | false =>
        simp only [hhanded, hout, Bool.false_eq_true, if_false, Option.some.injEq] at h
        rw [← h]
        exact .released hhanded hout

theorem stores_store (s : Ledger) (credentials : TurnCredentials) :
    s.stores ≤ (s.store credentials).stores := by
  rw [Ledger.store]
  split
  · exact Nat.le_refl _
  · exact Nat.le_succ _

theorem stores_reserve (s : Ledger) : s.reserve.stores = s.stores := by
  rw [Ledger.reserve]
  split
  · rfl
  · rfl

/-- The stores of a run only add up. -/
theorem stores_le_step (h : step s call = some t) : s.stores ≤ t.stores := by
  cases stepped h with
  | stored credentials => exact stores_store s credentials
  | reserved => exact Nat.le_of_eq (stores_reserve s).symm
  | released hhanded hout => exact Nat.le_refl _
  | kept hcache hhanded hstores hrejected => exact Nat.le_of_eq hstores.symm

theorem stores_le_run {es : List Call} (h : Transition.run step s es = some t) :
    s.stores ≤ t.stores := by
  refine Transition.run_of_step (P := fun u => s.stores ≤ u.stores) ?_ (Nat.le_refl _) h
  intro u call v hu hv
  exact Nat.le_trans hu (stores_le_step hv)

theorem Sound.step (h : Sound s) (hstep : step s call = some t) (hstores : t.stores < 2 ^ 64) :
    Sound t := by
  cases stepped hstep with
  | stored credentials => exact h.store credentials hstores
  | reserved => exact h.reserve
  | released hhanded hout => exact h.release hhanded hout
  | kept hcache hhanded hstores' hrejected => exact h.kept hcache hhanded hstores'

theorem Sound.run {es : List Call} (h : Sound s)
    (hrun : Transition.run CredentialLeases.step s es = some t) (hstores : t.stores < 2 ^ 64) :
    Sound t := by
  induction es generalizing s with
  | nil =>
    obtain rfl := Option.some.inj hrun
    exact h
  | cons call es ih =>
    obtain ⟨u, hu, hrun⟩ := Option.bind_eq_some_iff.mp hrun
    exact ih (h.step hu (Nat.lt_of_le_of_lt (stores_le_run hrun) hstores)) hrun

/-! ### A generation that is over -/

/-- The generation has been stored, and is not in the cache. -/
structure Over (s : Ledger) (generation : ℕ) : Prop where
  le_stores : generation ≤ s.stores
  not_current : ¬ s.Current generation

theorem current_of_kept (hcache : Kept s.cache t.cache)
    (h : t.Current generation) : s.Current generation := by
  obtain ⟨cached', hcached', hgeneration'⟩ := h
  obtain ⟨cached, hcached, -, hgeneration, -⟩ := hcache.current cached' hcached'
  exact ⟨cached, hcached, hgeneration.symm.trans hgeneration'⟩

theorem handedOut_release {k : ℕ} {handed : Handed} (hhanded : s.handed[k]? = some handed)
    (generation : ℕ) :
    (s.release k handed.lease).handedOut generation = s.handedOut generation := by
  obtain ⟨hk, hget⟩ := List.getElem?_eq_some_iff.mp hhanded
  rw [Ledger.handedOut, Ledger.handedOut, Ledger.release, List.countP_set hk, hget]
  by_cases hsame : handed.lease.generation = generation
  · have hpositive : 0 < s.handed.countP fun h => h.lease.generation = generation := by
      refine List.countP_pos_iff.mpr ⟨handed, List.mem_of_getElem? hhanded, ?_⟩
      simp [hsame]
    simp only [hsame, decide_true, if_true]
    omega
  · simp [hsame]

/-- It never comes back, and nothing of it is handed out. -/
theorem Over.step (h : Over s generation) (hs : Sound s) (hstep : step s call = some t)
    (hstores : t.stores < 2 ^ 64) :
    Over t generation ∧ t.handedOut generation = s.handedOut generation := by
  have hle := Nat.le_trans h.le_stores (stores_le_step hstep)
  have hnot := h.not_current
  cases stepped hstep with
  | kept hcache hhanded _ _ =>
    refine ⟨⟨hle, fun hcurrent => hnot (current_of_kept hcache hcurrent)⟩, ?_⟩
    rw [Ledger.handedOut, hhanded, Ledger.handedOut]
  | released hhanded hout =>
    refine ⟨⟨hle, ?_⟩, handedOut_release hhanded _⟩
    rintro ⟨cached', hcached', hgeneration'⟩
    obtain ⟨cached, hcached, -, hgeneration, -⟩ := current_release hcached'
    exact hnot ⟨cached, hcached, hgeneration.symm.trans hgeneration'⟩
  | stored credentials =>
    rw [Ledger.store, CredentialCache.store_eq] at hstores hle ⊢
    by_cases hblocked : s.cache.quotaBlocked = some credentials
    · simp only [if_pos hblocked, and_true]
      exact h
    · simp only [if_neg hblocked] at hstores hle ⊢
      refine ⟨⟨hle, ?_⟩, rfl⟩
      -- what is in the cache now has a generation of its own
      rintro ⟨_, ⟨⟩, hgeneration⟩
      have hnext : s.cache.generation = generation := hgeneration
      have hbefore := h.le_stores
      rw [CredentialCache.generation, hs.next_eq] at hnext
      omega
  | reserved =>
    rw [Ledger.reserve] at hle ⊢
    rcases s.cache.spent_or_spare with hspent | ⟨cached, hcurrent, hspare⟩
    · rw [CredentialCache.reserve_of_spent hspent] at hle ⊢
      refine ⟨⟨hle, ?_⟩, rfl⟩
      rintro ⟨_, hnone, _⟩
      exact absurd hnone (Option.not_mem_none _)
    · rw [CredentialCache.reserve_of_spare hcurrent hspare] at hle ⊢
      have hother : cached.generation ≠ generation := fun hsame => hnot ⟨cached, hcurrent, hsame⟩
      refine ⟨⟨hle, ?_⟩, ?_⟩
      · rintro ⟨_, ⟨⟩, hsame⟩
        exact hother hsame
      · simp [Ledger.handedOut, List.countP_append, hother]

theorem Over.run {es : List Call} (h : Over s generation) (hs : Sound s)
    (hrun : Transition.run CredentialLeases.step s es = some t) (hstores : t.stores < 2 ^ 64) :
    t.handedOut generation = s.handedOut generation := by
  induction es generalizing s with
  | nil =>
    obtain rfl := Option.some.inj hrun
    rfl
  | cons call es ih =>
    obtain ⟨u, hu, hrun⟩ := Option.bind_eq_some_iff.mp hrun
    have hbound := Nat.lt_of_le_of_lt (stores_le_run hrun) hstores
    obtain ⟨hover, hcount⟩ := h.step hs hu hbound
    rw [ih hover (hs.step hu hbound) hrun, hcount]

/-- As long as fewer than `2 ^ 64` credentials have been stored: at no time are more leases
of a generation out than workers may share; once it is over none is handed out again; and a
call with a lease of a generation that is not in the cache leaves the cache as it is. -/
theorem leases_accounted {es : List Call} (h : Transition.run step {} es = some s)
    (hstores : s.stores < 2 ^ 64) :
    (∀ generation, s.handedOut generation ≤ s.released generation + workersPerCredential) ∧
      (∀ before between later u v, es = before ++ between ++ later →
        Transition.run step {} before = some u → Transition.run step u between = some v →
        ∀ generation, u.Current generation → ¬ v.Current generation →
          s.handedOut generation = v.handedOut generation) ∧
      ∀ call t lease, step s call = some t → call.lease s = some lease →
        ¬ s.Current lease.generation → t.cache = s.cache := by
  refine ⟨?_, ?_, ?_⟩
  · intro generation
    rw [handedOut_eq]
    exact Nat.add_le_add_left ((sound_start.run h hstores).outstanding_le generation) _
  · rintro before between later u v rfl hu hv generation hcurrent hgone
    have hlater : Transition.run step v later = some s := by
      have hboth : Transition.run step {} (before ++ between) = some v := by
        rw [Transition.run_append, hu]
        exact hv
      rw [Transition.run_append, hboth] at h
      exact h
    have hvstores := Nat.lt_of_le_of_lt (stores_le_run hlater) hstores
    have hustores := Nat.lt_of_le_of_lt (stores_le_run hv) hvstores
    -- the generation was in the cache, so it is one of those stored by then
    have husound := sound_start.run hu hustores
    obtain ⟨cached, hcached, rfl⟩ := hcurrent
    have hstored : cached.generation ≤ v.stores := by
      rw [husound.current_eq cached hcached]
      exact stores_le_run hv
    exact Over.run ⟨hstored, hgone⟩ (husound.run hv hvstores) hlater hstores
  · intro call t lease hstep hlease hother
    refine cache_of_foreign hstep hlease ?_
    intro cached hcached
    rw [Bool.eq_false_iff]
    exact fun hleased => hother ⟨cached, hcached, (leased_generation hleased).1⟩

def first : TurnCredentials := ⟨"first", "secret-a", ["turn.example:3478"]⟩

def second : TurnCredentials := ⟨"second", "secret-b", ["turn.example:3478"]⟩

/-- Credentials are leased, given up after a quota error, and replaced. -/
def rotation : List Call :=
  [.store first, .reserve, .reserve, .release 1, .rotateAfterQuota 0, .store second, .reserve]

theorem rotation_accounted :
    ∃ s, Transition.run step {} rotation = some s ∧
      ∀ generation, s.handedOut generation ≤ s.released generation + workersPerCredential := by
  have hstores : (Transition.run step {} rotation).map (·.stores) = some 2 := by
    decide
  obtain ⟨s, hs, htwo⟩ := Option.map_eq_some_iff.mp hstores
  refine ⟨s, hs, (leases_accounted hs ?_).1⟩
  rw [htwo]
  decide

/-! ### The end of the counter -/

/-- After so many stores, with nothing leased. -/
def filled (stores : ℕ) : Ledger :=
  { cache :=
      { current := some ⟨first, min stores (2 ^ 64 - 1), 0, 0⟩
        nextGeneration := min stores (2 ^ 64 - 1) }
    stores }

theorem run_stores (count stores : ℕ) :
    Transition.run step (filled (stores + 1)) (List.replicate count (.store first)) =
      some (filled (stores + 1 + count)) := by
  induction count generalizing stores with
  | zero => rfl
  | succ count ih =>
    have hgeneration : (filled (stores + 1)).cache.generation = min (stores + 2) (2 ^ 64 - 1) := by
      rw [CredentialCache.generation]
      show max (min (min (stores + 1) (2 ^ 64 - 1) + 1) (2 ^ 64 - 1)) 1 = _
      omega
    have hstore : step (filled (stores + 1)) (.store first) = some (filled (stores + 2)) := by
      have hblocked : (filled (stores + 1)).cache.quotaBlocked ≠ some first :=
        (Option.some_ne_none _).symm
      rw [step, Ledger.store, CredentialCache.store_eq, if_neg hblocked]
      simp only [CredentialCache.holding, hgeneration]
      rfl
    rw [List.replicate_succ, Transition.run_cons, hstore, Option.bind_some, ih (stores + 1),
      Nat.add_right_comm stores 1 1]
    congr 2
    omega

/-- The last generation fills up, and the next credentials get it too. -/
def lastGeneration : List Call :=
  List.replicate workersPerCredential Call.reserve ++ [Call.store second, .reserve]

theorem generation_given_twice :
    ∃ s, Transition.run step {}
        (List.replicate (2 ^ 64 - 1) (.store first) ++ lastGeneration) = some s ∧
      ¬ s.handedOut (2 ^ 64 - 1) ≤ s.released (2 ^ 64 - 1) + workersPerCredential := by
  have hfilled : Transition.run step {} (List.replicate (2 ^ 64 - 1) (.store first)) =
      some (filled (2 ^ 64 - 1)) := by
    have hcount : 2 ^ 64 - 1 = (2 ^ 64 - 2) + 1 := by omega
    rw [hcount, List.replicate_succ, Transition.run_cons]
    have hone : step {} (.store first) = some (filled (0 + 1)) := by
      decide
    rw [hone, Option.bind_some, run_stores, Nat.zero_add, Nat.add_comm 1]
  rw [Transition.run_append, hfilled, Option.bind_some]
  refine ⟨_, rfl, ?_⟩
  decide

/-! ### Credentials that hit the quota -/

/-- A reserve now would not hand out credentials that hit the quota. -/
def Clean (s : Ledger) : Prop := ∀ lease ∈ s.cache.reserve.1, lease.value ∉ s.rejected

/-- What is stored has not hit the quota before, or it is refused as the last that did. -/
def StoresFresh (s : Ledger) : Call → Prop
  | .store credentials =>
    credentials ∉ s.rejected ∨ s.cache.quotaBlocked = some credentials
  | _ => True

instance (s : Ledger) (call : Call) : Decidable (StoresFresh s call) :=
  match call with
  | .store _ => inferInstanceAs (Decidable (_ ∨ _))
  | .reserve | .recordAllocation _ | .release _ | .invalidate _ | .rotateAfterQuota _
  | .nextQuotaDelay | .retryAfterMismatch _ => isTrue trivial

/-- The credentials in the cache have not hit the quota. -/
def Away (s : Ledger) : Prop := ∀ cached ∈ s.cache.current, cached.value ∉ s.rejected

theorem Away.clean (h : Away s) : Clean s := by
  intro lease hlease
  rcases s.cache.spent_or_spare with hspent | ⟨cached, hcurrent, hspare⟩
  · rw [CredentialCache.reserve_of_spent hspent] at hlease
    exact absurd hlease (Option.not_mem_none _)
  · rw [CredentialCache.reserve_of_spare hcurrent hspare, Option.mem_some] at hlease
    rw [← hlease]
    exact h cached hcurrent

/-- New credentials are handed out by the next reserve. -/
theorem clean_store_iff (h : Away s) (credentials : TurnCredentials) :
    (Away (s.store credentials) ↔ StoresFresh s (.store credentials)) ∧
      (Clean (s.store credentials) ↔ Away (s.store credentials)) := by
  rw [Ledger.store, CredentialCache.store_eq]
  by_cases hblocked : s.cache.quotaBlocked = some credentials
  · simp only [if_pos hblocked]
    exact ⟨iff_of_true h (Or.inr hblocked), iff_of_true h.clean h⟩
  · simp only [if_neg hblocked]
    constructor
    · constructor
      · intro haway
        exact Or.inl (haway _ rfl)
      · rintro (hfresh | hrefused)
        · rintro _ ⟨⟩
          exact hfresh
        · exact absurd hrefused hblocked
    · constructor
      · rintro hclean _ ⟨⟩
        exact hclean _ rfl
      · exact Away.clean

/-- Only a store brings credentials into the cache. -/
theorem Away.step (h : Away s) (hstep : step s call = some t)
    (hcall : ∀ credentials, call ≠ .store credentials) : Away t := by
  cases stepped hstep with
  | stored credentials => exact absurd rfl (hcall credentials)
  | reserved =>
    rw [Ledger.reserve]
    rcases s.cache.spent_or_spare with hspent | ⟨cached, hcurrent, hspare⟩
    · rw [CredentialCache.reserve_of_spent hspent]
      intro cached hnone
      exact absurd hnone (Option.not_mem_none _)
    · rw [CredentialCache.reserve_of_spare hcurrent hspare]
      rintro _ ⟨⟩
      exact h cached hcurrent
  | released hhanded hout =>
    intro cached' hcached'
    obtain ⟨cached, hcached, hvalue, -⟩ := current_release hcached'
    rw [hvalue]
    exact h cached hcached
  | kept hcache hhanded hstores hrejected =>
    intro cached' hcached'
    obtain ⟨cached, hcached, hvalue, -⟩ := hcache.current cached' hcached'
    rcases hrejected with hrejected | hgone
    · rw [hrejected, hvalue]
      exact h cached hcached
    · rw [hgone] at hcached'
      exact absurd hcached' (Option.not_mem_none _)

theorem away_step_iff (h : Away s) (hstep : step s call = some t) :
    (Away t ↔ StoresFresh s call) ∧ (Clean t ↔ Away t) := by
  cases call with
  | store credentials =>
    obtain rfl := Option.some.inj hstep
    exact clean_store_iff h credentials
  | reserve | recordAllocation | release | invalidate | rotateAfterQuota | nextQuotaDelay
    | retryAfterMismatch =>
    have haway : Away t := h.step hstep (by rintro _ ⟨⟩)
    exact ⟨iff_of_true haway trivial, iff_of_true haway.clean haway⟩

/-- Credentials that hit the quota are not handed out again in a run exactly when no store
of it brings one of them that is not the last. -/
theorem rejected_not_reused_iff (es : List Call) :
    Transition.Always step Clean {} es ↔ Transition.Admits step StoresFresh {} es := by
  have haway : Away {} := by
    intro cached hnone
    exact absurd hnone (Option.not_mem_none _)
  rw [Transition.always_congr (fun s call t _ h hstep => (away_step_iff h hstep).2)
    (iff_of_true haway.clean haway)]
  exact Transition.always_iff_admits (Q := fun _ => True) (fun _ _ _ _ _ => trivial)
    (fun s call t _ h hstep => (away_step_iff h hstep).1) trivial haway

/-- The quota rejects the first credentials; once others are stored they are taken again. -/
def rejectedAgain : List Call :=
  [.store first, .reserve, .rotateAfterQuota 0, .store second, .store first]

theorem rejected_reused :
    ¬ Transition.Always step Clean {} rejectedAgain ∧
      (Transition.run step {} (rejectedAgain ++ [.reserve])).map
        (fun s => (s.rejected, s.handed.map fun h => h.lease.value)) =
        some ([first], [first, first]) := by
  refine ⟨?_, by decide⟩
  intro h
  have hclean : Clean
      { cache := { current := some ⟨first, 3, 0, 0⟩, nextGeneration := 3, quotaRetries := 1 }
        handed := [⟨⟨first, 1⟩, false⟩], stores := 3, rejected := [first] } :=
    Transition.always_iff_prefixes.mp h rejectedAgain List.prefix_rfl _ (by decide)
  exact hclean ⟨first, 3⟩ rfl (by decide)

end Csqtt.CredentialLeases
