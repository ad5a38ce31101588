/-
How many leases of one credential are out, over all cohorts.

`run_groups` deals the groups out to the hashes in turn, and the groups of one hash two by
two to cohorts.  A cohort has a cache of its own, and no cache knows of another one.

* `runGroups_cohorts` — every cohort is shared by at most two groups;
* `shared_within_cap_iff` — a credential is over-subscribed in no run, exactly if at most
  two groups have a hash with that seed.
-/
import Csqtt.CredentialPool
import Mathlib.Data.Fintype.Prod
import Mathlib.Data.Fintype.Fin
import Mathlib.Data.List.Count

open Transition

namespace Csqtt.Credentials

/-! ### The cohorts -/

/-- `group_hash_index`. -/
def groupHashIndex (groupIndex hashCount : ℕ) : ℕ := groupIndex % hashCount

/-- `credential_cohort_index`. -/
def credentialCohortIndex (groupIndexForHash : ℕ) : ℕ := groupIndexForHash / groupsPerCredential

/-- A cohort. -/
structure GroupCredentials where
  credentialId : ℕ
  hash : String
  deriving DecidableEq

/-- The variables of the loop of `run_groups`. -/
structure Grouping where
  credentialsByHash : ℕ → List GroupCredentials := fun _ => []
  groupsByHash : ℕ → ℕ := fun _ => 0
  groupCredentials : List GroupCredentials := []
  nextCredentialId : ℕ := 1

/-- One round of the loop; none for an index that is out of range. -/
def Grouping.add (hashes : List String) (s : Grouping) (groupIndex : ℕ) : Option Grouping :=
  let hashIndex := groupHashIndex groupIndex hashes.length
  let groupIndexForHash := s.groupsByHash hashIndex
  let cohortIndex := credentialCohortIndex groupIndexForHash
  let cohorts := s.credentialsByHash hashIndex
  let fresh := cohorts.length ≤ cohortIndex
  hashes[hashIndex]?.bind fun hash =>
    let cohorts := if fresh then cohorts ++ [⟨s.nextCredentialId, hash⟩] else cohorts
    cohorts[cohortIndex]?.map fun credentials =>
      { credentialsByHash := Function.update s.credentialsByHash hashIndex cohorts
        groupsByHash := Function.update s.groupsByHash hashIndex (groupIndexForHash + 1)
        groupCredentials := s.groupCredentials ++ [credentials]
        nextCredentialId := if fresh then s.nextCredentialId + 1 else s.nextCredentialId }

/-- The cohort of every group. -/
def runGroups (hashes : List String) (groups : ℕ) : Option (List GroupCredentials) :=
  if hashes.length = 0 then some []
  else ((List.range groups).foldlM (Grouping.add hashes) {}).map (·.groupCredentials)

/-- The cohorts of a hash, in order. -/
def Grouping.At (s : Grouping) (h j : ℕ) (x : GroupCredentials) : Prop :=
  (s.credentialsByHash h)[j]? = some x

/-- The loop after so many rounds. -/
structure Grouping.Sound (hashes : List String) (groups : ℕ) (s : Grouping) : Prop where
  ids : ∀ h j x, s.At h j x → x.credentialId < s.nextCredentialId
  apart : ∀ h h' j j' x, s.At h j x → s.At h' j' x → h = h' ∧ j = j'
  named : ∀ h j x, s.At h j x → hashes[h]? = some x.hash
  count : ∀ h j x, s.At h j x → s.groupCredentials.count x = min 2 (s.groupsByHash h - 2 * j)
  known : ∀ x ∈ s.groupCredentials, ∃ h j, s.At h j x
  hash : s.groupCredentials.map (fun x => some x.hash) =
    (List.range groups).map fun g => hashes[groupHashIndex g hashes.length]?

theorem Grouping.Sound.start (hashes : List String) : Grouping.Sound hashes 0 {} where
  ids _ _ _ h := by cases h
  apart _ _ _ _ _ h := by cases h
  named _ _ _ h := by cases h
  count _ _ _ h := by cases h
  known _ h := by cases h
  hash := rfl

/-- The state with another cohort for this hash. -/
def Grouping.opened (s : Grouping) (h : ℕ) (hash : String) : Grouping :=
  { s with
    credentialsByHash := Function.update s.credentialsByHash h
      (s.credentialsByHash h ++ [⟨s.nextCredentialId, hash⟩])
    nextCredentialId := s.nextCredentialId + 1 }

/-- The state with another group for this hash, in this cohort. -/
def Grouping.assigned (s : Grouping) (h : ℕ) (x : GroupCredentials) : Grouping :=
  { s with
    groupsByHash := Function.update s.groupsByHash h (s.groupsByHash h + 1)
    groupCredentials := s.groupCredentials ++ [x] }

theorem Grouping.opened_at {s : Grouping} {h : ℕ} {hash : String} {h' j : ℕ}
    {x : GroupCredentials} :
    (s.opened h hash).At h' j x ↔ s.At h' j x ∨
      (h' = h ∧ j = (s.credentialsByHash h).length ∧ x = ⟨s.nextCredentialId, hash⟩) := by
  simp only [Grouping.At, Grouping.opened]
  by_cases hh : h' = h
  · subst hh
    rw [Function.update_self, List.getElem?_append]
    split_ifs with hj
    · constructor
      · exact .inl
      · rintro (hold | ⟨_, rfl, _⟩)
        · exact hold
        · exact absurd hj (Nat.lt_irrefl _)
    · rw [List.getElem?_singleton, List.getElem?_eq_none (Nat.le_of_not_lt hj)]
      split_ifs with hzero
      · simp [show j = (s.credentialsByHash h').length by omega, eq_comm]
      · simp [show ¬ j = (s.credentialsByHash h').length by omega]
  · rw [Function.update_of_ne hh]
    simp [hh]

/-- No cohort has the next id. -/
theorem Grouping.Sound.unused {hashes : List String} {g : ℕ} {s : Grouping}
    (hs : Grouping.Sound hashes g s) {h j : ℕ} {hash : String} :
    ¬ s.At h j ⟨s.nextCredentialId, hash⟩ :=
  fun hx => Nat.lt_irrefl _ (hs.ids h j _ hx)

theorem Grouping.Sound.opened {hashes : List String} {g : ℕ} {s : Grouping}
    (hs : Grouping.Sound hashes g s) {h : ℕ} {hash : String} (hh : hashes[h]? = some hash)
    (hfull : s.groupsByHash h ≤ 2 * (s.credentialsByHash h).length) :
    Grouping.Sound hashes g (s.opened h hash) where
  ids h' j x hx := by
    rcases Grouping.opened_at.mp hx with hx | ⟨_, _, rfl⟩
    · exact (hs.ids h' j x hx).trans (Nat.lt_succ_self _)
    · exact Nat.lt_succ_self _
  apart h₁ h₂ j₁ j₂ x h₁x h₂x := by
    rcases Grouping.opened_at.mp h₁x with h₁x | ⟨rfl, rfl, rfl⟩
    · rcases Grouping.opened_at.mp h₂x with h₂x | ⟨_, _, rfl⟩
      · exact hs.apart h₁ h₂ j₁ j₂ x h₁x h₂x
      · exact absurd h₁x hs.unused
    · rcases Grouping.opened_at.mp h₂x with h₂x | ⟨rfl, rfl, _⟩
      · exact absurd h₂x hs.unused
      · exact ⟨rfl, rfl⟩
  named h' j x hx := by
    rcases Grouping.opened_at.mp hx with hx | ⟨rfl, _, rfl⟩
    · exact hs.named h' j x hx
    · exact hh
  count h' j x hx := by
    rcases Grouping.opened_at.mp hx with hx | ⟨rfl, rfl, rfl⟩
    · exact hs.count h' j x hx
    · have hnone : s.groupCredentials.count ⟨s.nextCredentialId, hash⟩ = 0 := by
        refine List.count_eq_zero.mpr fun hmem => ?_
        obtain ⟨_, _, hmem⟩ := hs.known _ hmem
        exact hs.unused hmem
      refine hnone.trans ?_
      show 0 = min 2 (s.groupsByHash h' - _)
      omega
  known x hx := by
    obtain ⟨h', j, hx⟩ := hs.known x hx
    exact ⟨h', j, Grouping.opened_at.mpr (.inl hx)⟩
  hash := hs.hash

theorem Grouping.Sound.assigned {hashes : List String} {g : ℕ} {s : Grouping}
    (hs : Grouping.Sound hashes g s) {x : GroupCredentials}
    (hx : s.At (groupHashIndex g hashes.length)
      (credentialCohortIndex (s.groupsByHash (groupHashIndex g hashes.length))) x) :
    Grouping.Sound hashes (g + 1) (s.assigned (groupHashIndex g hashes.length) x) where
  ids := hs.ids
  apart := hs.apart
  named := hs.named
  count h' j y hy := by
    simp only [Grouping.assigned, List.count_append, List.count_singleton, hs.count h' j y hy]
    rw [credentialCohortIndex, groupsPerCredential] at hx
    by_cases hxy : x = y
    · subst hxy
      obtain ⟨rfl, rfl⟩ := hs.apart _ _ _ _ _ hx hy
      rw [Function.update_self]
      simp only [BEq.rfl, if_true]
      omega
    · simp only [beq_iff_eq, hxy, if_false]
      by_cases hh : h' = groupHashIndex g hashes.length
      · -- another cohort of the hash is full, or has not been opened
        subst hh
        have hj : j ≠ s.groupsByHash (groupHashIndex g hashes.length) / 2 := by
          rintro rfl
          exact hxy (Option.some.inj (hx.symm.trans hy))
        rw [Function.update_self]
        omega
      · rw [Function.update_of_ne hh]
        rfl
  known y hy := by
    rcases List.mem_append.mp hy with hy | hy
    · exact hs.known y hy
    · rw [List.mem_singleton.mp hy]
      exact ⟨_, _, hx⟩
  hash := by
    rw [Grouping.assigned, List.map_append, hs.hash, List.range_succ, List.map_append]
    simp [hs.named _ _ x hx]

/-- One round of the loop. -/
theorem Grouping.Sound.add {hashes : List String} (hhashes : hashes.length ≠ 0) {g : ℕ}
    {s : Grouping} (hs : Grouping.Sound hashes g s)
    (hlength : ∀ h, (s.credentialsByHash h).length = (s.groupsByHash h + 1) / 2) :
    ∃ t, Grouping.add hashes s g = some t ∧ Grouping.Sound hashes (g + 1) t ∧
      ∀ h, (t.credentialsByHash h).length = (t.groupsByHash h + 1) / 2 := by
  have hlt : groupHashIndex g hashes.length < hashes.length :=
    Nat.mod_lt g (Nat.pos_of_ne_zero hhashes)
  have hhash := List.getElem?_eq_getElem hlt
  have hassigned : ∀ {t : Grouping} {x}, Grouping.Sound hashes g t →
      t.At (groupHashIndex g hashes.length)
        (credentialCohortIndex (t.groupsByHash (groupHashIndex g hashes.length))) x →
      Grouping.Sound hashes (g + 1) (t.assigned (groupHashIndex g hashes.length) x) :=
    fun ht hx => ht.assigned hx
  simp only [Grouping.add, hhash, Option.bind_some]
  generalize hashes[groupHashIndex g hashes.length] = hash at hhash ⊢
  generalize groupHashIndex g hashes.length = h at *
  have hlen := hlength h
  have hcohort : credentialCohortIndex (s.groupsByHash h) = s.groupsByHash h / 2 := rfl
  by_cases hfresh : (s.credentialsByHash h).length ≤ credentialCohortIndex (s.groupsByHash h)
  · -- the number of groups is even, and this one opens a cohort
    have hindex : credentialCohortIndex (s.groupsByHash h) = (s.credentialsByHash h).length := by
      omega
    have hget : (s.credentialsByHash h ++ [⟨s.nextCredentialId, hash⟩])[credentialCohortIndex
        (s.groupsByHash h)]? = some ⟨s.nextCredentialId, hash⟩ := by
      rw [hindex, List.getElem?_concat_length]
    rw [if_pos hfresh, hget, Option.map_some, if_pos hfresh]
    refine ⟨_, rfl, hassigned (hs.opened hhash (by omega))
      (Grouping.opened_at.mpr (.inr ⟨rfl, hindex, rfl⟩)), fun h' => ?_⟩
    by_cases hh : h' = h
    · subst hh
      simp only [Function.update_self, List.length_append, List.length_singleton]
      omega
    · simp only [Function.update_of_ne hh]
      exact hlength h'
  · obtain ⟨x, hx⟩ : ∃ x, s.At h (credentialCohortIndex (s.groupsByHash h)) x :=
      ⟨_, List.getElem?_eq_getElem (Nat.lt_of_not_le hfresh)⟩
    rw [if_neg hfresh, Function.update_eq_self, show (s.credentialsByHash h)[_]? = some x from hx,
      Option.map_some, if_neg hfresh]
    refine ⟨_, rfl, hassigned hs hx, fun h' => ?_⟩
    by_cases hh : h' = h
    · subst hh
      simp only [Function.update_self]
      omega
    · simp only [Function.update_of_ne hh]
      exact hlength h'

theorem Grouping.foldlM_add {hashes : List String} (hhashes : hashes.length ≠ 0) (groups : ℕ) :
    ∃ t, (List.range groups).foldlM (Grouping.add hashes) {} = some t ∧
      Grouping.Sound hashes groups t ∧
      ∀ h, (t.credentialsByHash h).length = (t.groupsByHash h + 1) / 2 := by
  induction groups with
  | zero => exact ⟨{}, rfl, .start hashes, fun _ => by simp⟩
  | succ groups ih =>
    obtain ⟨s, hs, hsound, hlength⟩ := ih
    obtain ⟨t, ht, hadded⟩ := hsound.add hhashes hlength
    refine ⟨t, ?_, hadded⟩
    rw [List.range_succ, List.foldlM_append, hs]
    simp [ht]

/-- The loop goes through; each group has a cohort of its hash, and a cohort has at most two
groups. -/
theorem runGroups_cohorts (hashes : List String) (groups : ℕ) :
    ∃ cohorts, runGroups hashes groups = some cohorts ∧
      (∀ x, cohorts.count x ≤ groupsPerCredential) ∧
      cohorts.map (fun x => some x.hash) =
        if hashes.length = 0 then []
        else (List.range groups).map fun g => hashes[groupHashIndex g hashes.length]? := by
  rw [runGroups]
  by_cases hhashes : hashes.length = 0
  · rw [if_pos hhashes, if_pos hhashes]
    exact ⟨[], rfl, fun _ => Nat.zero_le _, rfl⟩
  · rw [if_neg hhashes, if_neg hhashes]
    obtain ⟨s, hs, hsound, _⟩ := Grouping.foldlM_add hhashes groups
    refine ⟨s.groupCredentials, by rw [hs]; rfl, fun x => ?_, hsound.hash⟩
    by_cases hx : x ∈ s.groupCredentials
    · obtain ⟨h, j, hx⟩ := hsound.known x hx
      rw [hsound.count h j x hx]
      exact Nat.min_le_left _ _
    · rw [List.count_eq_zero.mpr hx]
      exact Nat.zero_le _

/-! ### Where a lease comes from -/

section Source

variable {ι κ : Type*} [DecidableEq ι] [DecidableEq κ] {setup : Setup ι κ} {s t : Pool ι κ}
  {e : Event ι} {owner : String × String → κ}

/-- The username and the password. -/
def TurnCredentials.pair (c : TurnCredentials) : String × String := (c.username, c.password)

/-- The VK service gives a pair to one cohort only, and no pair that a seed has. -/
def Owned (setup : Setup ι κ) (owner : String × String → κ) : Event ι → Prop
  | .get i _ (.ok c) _ => setup.seeds.lookup (setup.hash (setup.cohortOf i)) = none →
    owner c.pair = setup.cohortOf i ∧
      ∀ hash seed, setup.seeds.lookup hash = some seed → seed.pair ≠ c.pair
  | _ => True

/-- The credentials are the seed of the cohort, or come from the VK service. -/
inductive Source (setup : Setup ι κ) (owner : String × String → κ) (k : κ) (c : TurnCredentials) :
    Prop
  | seed (hseed : setup.seeds.lookup (setup.hash k) = some c)
  | vk (howner : owner c.pair = k)
      (hseeds : ∀ hash seed, setup.seeds.lookup hash = some seed → seed.pair ≠ c.pair)

/-- The calls after a session do not change what is cached. -/
theorem CredentialCache.apply_value {cache : CredentialCache} {lease : CredentialLease}
    {op : CacheOp} {cached' : CachedCredentials}
    (h : (cache.apply lease op).1.current = some cached') :
    ∃ cached, cache.current = some cached ∧ cached.value = cached'.value := by
  rcases hcurrent : cache.current with _ | cached
  · cases op <;> simp [CredentialCache.apply, CredentialCache.release, CredentialCache.invalidate,
      CredentialCache.rotateAfterQuota, CredentialCache.retryAfterMismatch, hcurrent] at h
  · refine ⟨cached, rfl, ?_⟩
    cases op
    all_goals
      simp only [CredentialCache.apply, CredentialCache.release, CredentialCache.invalidate,
        CredentialCache.rotateAfterQuota, CredentialCache.retryAfterMismatch, hcurrent] at h
      split_ifs at h <;> simp_all
    all_goals
      rw [← h]

omit [DecidableEq ι] in
/-- What is leased and cached after a turn was so before it or has just been fetched. -/
theorem Turned.values {seeds : SeedStore} {hash : String} {s t : Turn}
    {P : TurnCredentials → Prop} (h : Turned seeds hash s e t)
    (hlease : ∀ lease ∈ s.phase.lease, P lease.value)
    (hcached : ∀ cached ∈ s.cache.current, P cached.value)
    (hanswer : ∀ i asked vk interrupted c, e = .get i asked vk interrupted →
      answerOf seeds hash asked vk = some (.ok c) → P c) :
    (∀ lease ∈ t.phase.lease, P lease.value) ∧ ∀ cached ∈ t.cache.current, P cached.value := by
  cases h with
  | @got i asked interrupted vk =>
    have hgot := s.cache.got (answerOf seeds hash asked vk) interrupted
    generalize s.cache.get (answerOf seeds hash asked vk) interrupted = out at hgot ⊢
    cases hgot with
    | leased hcurrent =>
      have hvalue := hcached _ hcurrent
      constructor
      · intro lease hmem
        cases hmem
        exact hvalue
      · intro cached hmem
        cases hmem
        exact hvalue
    | missed | refused => exact ⟨fun _ hmem => (nomatch hmem), fun _ hmem => (nomatch hmem)⟩
    | stored _ hok =>
      have hvalue := hanswer i asked vk interrupted _ rfl hok
      refine ⟨fun _ hmem => (nomatch hmem), fun cached hmem => ?_⟩
      cases hmem
      exact hvalue
    | fetched _ hok =>
      have hvalue := hanswer i asked vk interrupted _ rfl hok
      constructor
      · intro lease hmem
        cases hmem
        exact hvalue
      · intro cached hmem
        cases hmem
        exact hvalue
  | left => exact ⟨fun _ hmem => (nomatch hmem), hcached⟩
  | abandoned hphase | started hphase =>
    rw [hphase] at hlease
    exact ⟨fun _ hmem => hlease _ hmem, hcached⟩
  | @recorded _ lease =>
    refine ⟨hlease, fun cached hmem => ?_⟩
    simp only [CredentialCache.recordAllocation] at hmem
    split at hmem
    · next cached' hcurrent =>
      split_ifs at hmem
      · cases hmem
        exact hcached cached' hcurrent
      · exact hcached cached hmem
    · exact hcached cached hmem
  | finished hphase hafter =>
    refine ⟨fun lease hmem => ?_, hcached⟩
    rw [Phase.lease_after lease (hafter ▸ hmem)]
    exact hlease _ (by rw [hphase]; rfl)
  | settled hphase =>
    refine ⟨fun lease hmem => ?_, fun cached hmem => ?_⟩
    · rw [Phase.lease_after lease hmem]
      exact hlease _ (by rw [hphase]; rfl)
    · obtain ⟨cached', hcurrent, hvalue⟩ := CredentialCache.apply_value hmem
      exact hvalue ▸ hcached cached' hcurrent
  | panicked => exact ⟨fun _ hmem => (nomatch hmem), hcached⟩

/-- Every lease and every cached credential has a source. -/
structure Sourced (setup : Setup ι κ) (owner : String × String → κ) (s : Pool ι κ) : Prop where
  leases : ∀ i, ∀ lease ∈ (s.workers i).lease, Source setup owner (setup.cohortOf i) lease.value
  caches : ∀ k, ∀ cached ∈ (s.caches k).current, Source setup owner k cached.value

theorem Sourced.step (hs : Sourced setup owner s) (howned : Owned setup owner e)
    (h : s.step setup e = some t) : Sourced setup owner t := by
  obtain ⟨v, hv⟩ := Pool.moved h
  have hvalues := hv.turned.values (P := Source setup owner (setup.cohortOf e.worker))
    (hs.leases e.worker) (hs.caches _) ?_
  · constructor
    · intro i
      by_cases hi : i = e.worker
      · rw [hi, hv.phase]
        exact hvalues.1
      · rw [hv.workers i hi]
        exact hs.leases i
    · intro k
      by_cases hk : k = setup.cohortOf e.worker
      · rw [hk, hv.cache]
        exact hvalues.2
      · rw [hv.caches k hk]
        exact hs.caches k
  · rintro i asked vk interrupted c rfl hanswer
    rw [answerOf] at hanswer
    split_ifs at hanswer
    rw [Option.some_inj, getCredentials] at hanswer
    rcases hseed : setup.seeds.lookup (setup.hash (setup.cohortOf i)) with _ | seed
    · simp only [Event.worker, hseed] at hanswer
      rw [hanswer] at howned
      obtain ⟨howner, hseeds⟩ := howned hseed
      exact .vk howner hseeds
    · simp only [Event.worker, hseed] at hanswer
      cases hanswer
      exact .seed hseed

omit [DecidableEq ι] [DecidableEq κ] in
theorem sourced_start (spawned : ι → Bool) : Sourced setup owner (Pool.start κ spawned) := by
  constructor
  · intro i lease hmem
    simp only [Pool.start] at hmem
    split_ifs at hmem <;> cases hmem
  · exact fun _ _ hmem => nomatch hmem

/-! ### Seeds that are shared -/

/-- A cache that holds nothing but this seed and has not refused it. -/
def Primed (cache : CredentialCache) (seed : TurnCredentials) : Prop :=
  cache.quotaBlocked = none ∧ ∀ cached ∈ cache.current, cached.value = seed

theorem Primed.get {cache : CredentialCache} {seed : TurnCredentials} (h : Primed cache seed) :
    (∃ generation, (cache.get (some (.ok seed)) false).1 = some ⟨seed, generation⟩) ∧
      Primed (cache.get (some (.ok seed)) false).2 seed := by
  obtain ⟨hblocked, hcached⟩ := h
  have hgot := cache.got (some (.ok seed)) false
  generalize cache.get (some (.ok seed)) false = out at hgot ⊢
  cases hgot with
  | leased hcurrent =>
    have hvalue := hcached _ hcurrent
    refine ⟨⟨_, congrArg some (congrArg (CredentialLease.mk · _) hvalue)⟩, hblocked, ?_⟩
    intro cached hmem
    cases hmem
    exact hvalue
  | missed _ hanswer => exact absurd rfl (hanswer seed)
  | refused _ hok hrefused => cases hblocked.symm.trans hrefused
  | stored _ _ _ hinterrupted => cases hinterrupted
  | fetched _ hok =>
    cases hok
    refine ⟨⟨_, rfl⟩, rfl, ?_⟩
    intro cached hmem
    cases hmem
    rfl

/-- The worker takes a lease, and nobody is asked. -/
def takes (i : ι) : Event ι := .get i true .failed false

/-- Workers of cohorts with a seed all take a lease. -/
theorem leases_of_seeds {is : List ι} (hnodup : is.Nodup)
    (hseed : ∀ i ∈ is, ∃ seed, setup.seeds.lookup (setup.hash (setup.cohortOf i)) = some seed)
    (hwaiting : ∀ i ∈ is, s.workers i = .waiting)
    (hprimed : ∀ k seed, setup.seeds.lookup (setup.hash k) = some seed →
      Primed (s.caches k) seed) :
    ∃ t, run (Pool.step setup) s (is.map takes) = some t ∧
      (∀ j ∉ is, t.workers j = s.workers j) ∧
      ∀ i ∈ is, ∀ seed, setup.seeds.lookup (setup.hash (setup.cohortOf i)) = some seed →
        ∃ generation, t.workers i = .leased ⟨seed, generation⟩ := by
  induction is generalizing s with
  | nil => exact ⟨s, rfl, fun _ _ => rfl, fun _ h => nomatch h⟩
  | cons i is ih =>
    obtain ⟨hi, hnodup⟩ := List.nodup_cons.mp hnodup
    obtain ⟨seed, hiseed⟩ := hseed i List.mem_cons_self
    -- the first worker leases the seed, and leaves it there for the others of its cohort
    obtain ⟨⟨generation, hlease⟩, hkept⟩ := (hprimed _ seed hiseed).get
    have hanswer : answerOf setup.seeds (setup.hash (setup.cohortOf i)) true .failed =
        some (.ok seed) := by
      simp [answerOf, getCredentials, hiseed]
    obtain ⟨s', hs'⟩ : ∃ s', s.step setup (takes i) = some s' := by
      simp [Pool.step, takes, Pool.view, Event.worker, turn, hwaiting i List.mem_cons_self]
    obtain ⟨v, hturned, hphase, hcache, _, hworkers, hcaches, _⟩ := Pool.moved hs'
    simp only [takes, Event.worker, Pool.view] at hturned hphase hcache hworkers hcaches
    cases hturned with
    | got =>
    rw [hanswer] at hphase hcache
    simp only [hlease, Option.elim_some] at hphase
    have hne : ∀ j ∈ is, j ≠ i := fun j hj hji => hi (hji ▸ hj)
    obtain ⟨t, ht, hothers, hleases⟩ := ih hnodup
      (fun j hj => hseed j (List.mem_cons_of_mem i hj))
      (fun j hj => (hworkers j (hne j hj)).trans (hwaiting j (List.mem_cons_of_mem i hj)))
      (fun k other hother => by
        by_cases hk : k = setup.cohortOf i
        · subst hk
          cases hiseed.symm.trans hother
          rw [hcache]
          exact hkept
        · rw [hcaches k hk]
          exact hprimed k other hother)
    refine ⟨t, ?_, fun j hj => ?_, fun j hj other hother => ?_⟩
    · rw [List.map_cons, run_cons, hs']
      exact ht
    · have hji : j ≠ i := List.ne_of_not_mem_cons hj
      exact (hothers j (List.not_mem_of_not_mem_cons hj)).trans (hworkers j hji)
    · rcases List.mem_cons.mp hj with rfl | hj
      · cases hiseed.symm.trans hother
        exact ⟨generation, (hothers j hi).trans hphase⟩
      · exact hleases j hj other hother

end Source

/-! ### The cap -/

/-- The workers that hold a lease of this user and password. -/
def outstanding {ι κ : Type*} [Fintype ι] (s : Pool ι κ) (pair : String × String) : Finset ι :=
  Finset.univ.filter fun i => (s.workers i).lease.any fun lease => lease.value.pair = pair

/-- The hash has a seed with this user and password. -/
def seededWith (seeds : SeedStore) (pair : String × String) (hash : Option String) : Bool :=
  (hash.bind seeds.lookup).any fun seed => seed.pair = pair

/-- The workers that `run_groups` starts. -/
def sharing (cohorts : List GroupCredentials) (seeds : SeedStore) :
    Setup (Fin cohorts.length × Fin workersPerGroup) GroupCredentials where
  cohortOf i := cohorts[i.1]
  hash := GroupCredentials.hash
  seeds := seeds

/-- The groups whose hash has a seed with this user and password. -/
def seededGroups (hashes : List String) (groups : ℕ) (seeds : SeedStore)
    (pair : String × String) : Finset ℕ :=
  (Finset.range groups).filter fun g =>
    seededWith seeds pair hashes[groupHashIndex g hashes.length]?

theorem card_groups {α : Type*} (l : List α) (P : α → Bool) :
    (Finset.univ.filter fun g : Fin l.length => P l[g]).card = l.countP P := by
  induction l with
  | nil => rfl
  | cons x l ih =>
    refine (Fin.card_filter_univ_succ' fun g : Fin (l.length + 1) => (P (x :: l)[g] : Prop)).trans ?_
    rw [List.countP_cons, Nat.add_comm, ← ih]
    rfl

theorem card_workers {α : Type*} (l : List α) (n : ℕ) (P : α → Bool) :
    (Finset.univ.filter fun i : Fin l.length × Fin n => P l[i.1]).card = l.countP P * n := by
  rw [← Finset.univ_product_univ, Finset.filter_product_left fun g : Fin l.length => (P l[g] : Prop),
    Finset.card_product, card_groups, Finset.card_univ, Fintype.card_fin]

theorem card_seededGroups {hashes : List String} {groups : ℕ} {cohorts : List GroupCredentials}
    (hhash : cohorts.map (fun x => some x.hash) = if hashes.length = 0 then []
      else (List.range groups).map fun g => hashes[groupHashIndex g hashes.length]?)
    (seeds : SeedStore) (pair : String × String) :
    (seededGroups hashes groups seeds pair).card =
      cohorts.countP fun x => seededWith seeds pair (some x.hash) := by
  have hcount : (cohorts.countP fun x => seededWith seeds pair (some x.hash)) =
      (cohorts.map fun x => some x.hash).countP (seededWith seeds pair) := by
    rw [List.countP_map]
    rfl
  rw [hcount, hhash, seededGroups]
  split_ifs with hhashes
  · rw [List.eq_nil_of_length_eq_zero hhashes]
    simp [seededWith]
  · rw [List.countP_map, ← List.toFinset_range, List.nodup_range.card_eq_countP]
    simp only [Bool.decide_eq_true]
    rfl

/-- With at most two groups for each seed, no credential is over-subscribed. -/
theorem outstanding_le {cohorts : List GroupCredentials} {seeds : SeedStore}
    {owner : String × String → GroupCredentials}
    {s : Pool (Fin cohorts.length × Fin workersPerGroup) GroupCredentials}
    (hs : Sourced (sharing cohorts seeds) owner s) (hcount : ∀ x, cohorts.count x ≤ groupsPerCredential)
    {pair : String × String}
    (hgroups : (cohorts.countP fun x => seededWith seeds pair (some x.hash)) ≤ groupsPerCredential) :
    (outstanding s pair).card ≤ workersPerCredential := by
  have hsource : ∀ i ∈ outstanding s pair, ∃ c : TurnCredentials, c.pair = pair ∧
      Source (sharing cohorts seeds) owner cohorts[i.1] c := by
    intro i hi
    obtain ⟨lease, hlease, hpair⟩ := (Option.any_eq_true _ _).mp (Finset.mem_filter.mp hi).2
    exact ⟨lease.value, of_decide_eq_true hpair, hs.leases i lease hlease⟩
  have hcap : ∀ P : GroupCredentials → Bool, cohorts.countP P ≤ groupsPerCredential →
      (∀ i ∈ outstanding s pair, P cohorts[i.1]) →
      (outstanding s pair).card ≤ workersPerCredential := by
    intro P hP hall
    calc (outstanding s pair).card
        ≤ (Finset.univ.filter fun i : Fin cohorts.length × Fin workersPerGroup =>
            P cohorts[i.1]).card :=
          Finset.card_le_card fun i hi => Finset.mem_filter.mpr ⟨Finset.mem_univ i, hall i hi⟩
      _ = cohorts.countP P * workersPerGroup := card_workers cohorts workersPerGroup P
      _ ≤ groupsPerCredential * workersPerGroup := Nat.mul_le_mul_right _ hP
      _ = workersPerCredential := Nat.mul_comm _ _
  by_cases hvk : ∃ hash seed, seeds.lookup hash = some seed ∧ seed.pair = pair
  · -- the pair is a seed's, so all the leases are of that seed
    refine hcap _ hgroups fun i hi => ?_
    obtain ⟨hash, seed, hseed, hpair⟩ := hvk
    obtain ⟨c, rfl, hc⟩ := hsource i hi
    cases hc with
    | seed hlookup =>
      have hlookup' : (some cohorts[i.1].hash).bind seeds.lookup = some c := hlookup
      rw [seededWith, hlookup']
      exact decide_eq_true rfl
    | vk _ hseeds => exact absurd hpair (hseeds hash seed hseed)
  · refine hcap (· == owner pair) (hcount _) fun i hi => ?_
    obtain ⟨c, rfl, hc⟩ := hsource i hi
    cases hc with
    | seed hlookup => exact absurd ⟨_, c, hlookup, rfl⟩ hvk
    | vk howner => exact beq_iff_eq.mpr howner.symm

/-- With three groups for a seed, there is a run that over-subscribes it. -/
theorem oversubscribed {cohorts : List GroupCredentials} {seeds : SeedStore}
    {pair : String × String}
    (hgroups : groupsPerCredential < cohorts.countP fun x => seededWith seeds pair (some x.hash)) :
    ∃ (is : List (Fin cohorts.length × Fin workersPerGroup)) (t : _),
      run (Pool.step (sharing cohorts seeds)) (Pool.start GroupCredentials fun _ => true)
        (is.map takes) = some t ∧ workersPerCredential < (outstanding t pair).card := by
  let all := Finset.univ.filter fun i : Fin cohorts.length × Fin workersPerGroup =>
    seededWith seeds pair (some cohorts[i.1].hash)
  have hseed : ∀ i ∈ all.toList, ∃ seed, seeds.lookup cohorts[i.1].hash = some seed ∧
      seed.pair = pair := by
    intro i hi
    have hseeded := (Finset.mem_filter.mp (Finset.mem_toList.mp hi)).2
    obtain ⟨seed, hseed, hpair⟩ := (Option.any_eq_true _ _).mp hseeded
    exact ⟨seed, hseed, of_decide_eq_true hpair⟩
  have hseeded : ∀ i ∈ all.toList, ∃ seed, (sharing cohorts seeds).seeds.lookup
      ((sharing cohorts seeds).hash ((sharing cohorts seeds).cohortOf i)) = some seed :=
    fun i hi => (hseed i hi).imp fun _ h => h.1
  have hwaiting : ∀ i ∈ all.toList,
      (Pool.start GroupCredentials fun _ => true).workers i = .waiting := fun _ _ => rfl
  obtain ⟨t, ht, _, hleases⟩ := leases_of_seeds all.nodup_toList hseeded hwaiting
    fun _ _ _ => ⟨rfl, fun _ h => nomatch h⟩
  refine ⟨all.toList, t, ht, ?_⟩
  calc workersPerCredential = groupsPerCredential * workersPerGroup := Nat.mul_comm _ _
    _ < (cohorts.countP fun x => seededWith seeds pair (some x.hash)) * workersPerGroup :=
      Nat.mul_lt_mul_of_pos_right hgroups (by decide)
    _ = all.card := (card_workers cohorts workersPerGroup _).symm
    _ ≤ (outstanding t pair).card := by
      refine Finset.card_le_card fun i hi => Finset.mem_filter.mpr ⟨Finset.mem_univ i, ?_⟩
      have hi := Finset.mem_toList.mpr hi
      obtain ⟨seed, hlookup, hpair⟩ := hseed i hi
      obtain ⟨generation, hlease⟩ := hleases i hi seed hlookup
      rw [hlease]
      exact decide_eq_true hpair

/-- For any hashes, groups and seeds, a credential is over-subscribed in no run, exactly if
at most two groups have a hash with a seed of the same user and password. -/
theorem shared_within_cap_iff (hashes : List String) (groups : ℕ) (seeds : SeedStore)
    (owner : String × String → GroupCredentials) :
    ∃ cohorts, runGroups hashes groups = some cohorts ∧
      ((∀ es t, (∀ e ∈ es, Owned (sharing cohorts seeds) owner e) →
          run (Pool.step (sharing cohorts seeds)) (Pool.start GroupCredentials fun _ => true) es =
            some t →
          ∀ pair, (outstanding t pair).card ≤ workersPerCredential) ↔
        ∀ pair, (seededGroups hashes groups seeds pair).card ≤ groupsPerCredential) := by
  obtain ⟨cohorts, hcohorts, hcount, hhash⟩ := runGroups_cohorts hashes groups
  refine ⟨cohorts, hcohorts, ?_⟩
  simp only [card_seededGroups hhash]
  constructor
  · intro hwithin pair
    by_contra hmany
    obtain ⟨is, t, ht, hover⟩ := oversubscribed (Nat.lt_of_not_le hmany)
    have howned : ∀ e ∈ is.map takes, Owned (sharing cohorts seeds) owner e := by
      intro e he
      obtain ⟨i, _, rfl⟩ := List.mem_map.mp he
      trivial
    exact absurd (hwithin _ t howned ht pair) (Nat.not_le.mpr hover)
  · intro hgroups es t howned ht pair
    exact outstanding_le (run_invariant (fun _ _ _ hs howned h => hs.step howned h)
      (sourced_start _) howned ht) hcount (hgroups pair)

/-- One hash with a seed, and three groups: 27 leases of one credential. -/
theorem three_groups_oversubscribe :
    ∃ cohorts, runGroups ["hash"] 3 = some cohorts ∧
      ∃ es t, run (Pool.step (sharing cohorts (SeedStore.clear.install "hash" "user" "secret"
          ["turn.example:3478"]))) (Pool.start GroupCredentials fun _ => true) es = some t ∧
        ∃ pair, workersPerCredential < (outstanding t pair).card := by
  refine ⟨[⟨1, "hash"⟩, ⟨1, "hash"⟩, ⟨2, "hash"⟩], by decide +kernel, ?_⟩
  have hmany : groupsPerCredential <
      ([⟨1, "hash"⟩, ⟨1, "hash"⟩, ⟨2, "hash"⟩] : List GroupCredentials).countP fun x =>
        seededWith (SeedStore.clear.install "hash" "user" "secret" ["turn.example:3478"])
          ("user", "secret") (some x.hash) := by
    decide +kernel
  obtain ⟨is, t, ht, hover⟩ := oversubscribed hmany
  exact ⟨_, t, ht, _, hover⟩

end Csqtt.Credentials
