/-
The resolver of the helper's dial targets, and a change of the network.

`LookupHost` looks into the cache, joins a query of the same host that is in flight, or
makes one itself: it takes a snapshot of the servers, asks them without the lock and stores
what they say.  `SetServers` replaces the servers and empties the cache.  The sections
under the lock of any number of lookups, and the calls of `SetServers`, come in any order;
the clock and the answers of the servers are arbitrary.

The era of an answer is not kept by the source: it counts the lists of servers that have
been set when the servers were read.

* `fresh_of_timely` — no lookup returns an answer of servers that were replaced before it
  started, if no query is stored after its servers have been replaced;
* `clean_iff_timely` — and exactly then the cache never holds such an answer;
* `stale_of_unclean` — once it does, the next lookup of the host returns it.
-/
import Csqtt.Text
import Csqtt.TransitionRun
import Mathlib.Logic.Function.Basic

open Transition Csqtt.Text

namespace Csqtt.Dns

/-! ### Servers and queries -/

/-- `net.JoinHostPort`. -/
def joinHostPort (host port : String) : String :=
  if host.contains ':' then "[" ++ host ++ "]:" ++ port else host ++ ":" ++ port

/-- `normalizeDNSServers`; `parseIP` says whether `net.ParseIP` succeeds. -/
def normalizeDNSServers (parseIP : String → Bool) (servers : List String) : List String :=
  servers.filterMap fun s =>
    let s := trim s
    if s = "" then none else some (if parseIP s then joinHostPort s "53" else s)

/-- The addresses, or the text of the error. -/
abbrev Reply := Except String (List String)

def noRecords (host : String) : String := "dns: no records for " ++ host

/-- The loop of `queryTypeParallel` over the answers in the order of their arrival. -/
def firstSuccess (host : String) : Option String → List Reply → Reply
  | lastErr, [] => .error (lastErr.getD (noRecords host))
  | lastErr, .ok ips :: replies =>
    if ips = [] then firstSuccess host lastErr replies else .ok ips
  | _, .error err :: replies => firstSuccess host (some err) replies

/-- `queryTypeParallel`; there is an answer of every server. -/
def queryTypeParallel (host : String) (servers : List String) (replies : List Reply) : Reply :=
  match servers, replies with
  | [_], [reply] => reply
  | _, replies => firstSuccess host none replies

/-- `queryAll`, with the answers for A and for AAAA. -/
def queryAll (host : String) (servers : List String) (a aaaa : List Reply) : Reply :=
  match queryTypeParallel host servers a, queryTypeParallel host servers aaaa with
  | .ok (ip :: ips), _ => .ok (ip :: ips)
  | _, .ok (ip :: ips) => .ok (ip :: ips)
  | .error err, _ => .error err
  | .ok [], .error err => .error err
  | .ok [], .ok [] => .error (noRecords host)

/-! ### The cache -/

/-- `dnsCacheTTL`, in milliseconds. -/
def dnsCacheTTL : ℕ := 60000

/-- `dnsNegCacheTTL`. -/
def dnsNegCacheTTL : ℕ := 15000

def dnsCacheMax : ℕ := 256

structure CacheEntry where
  ips : List String
  expires : ℕ
  negative : Bool
  /-- Not in the source: the list of servers that was asked. -/
  era : ℕ
  deriving DecidableEq

/-- A map; no host is in it twice. -/
abbrev Cache := List (String × CacheEntry)

/-- What is stored for an answer. -/
def entryOf (reply : Reply) (now era : ℕ) : CacheEntry :=
  match reply with
  | .ok ips => ⟨ips, now + dnsCacheTTL, false, era⟩
  | .error _ => ⟨[], now + dnsNegCacheTTL, true, era⟩

def cachedLookup (host : String) (e : CacheEntry) : Reply :=
  if e.negative then .error (noRecords host) else .ok e.ips

/-- The loop of `rememberLocked` over the cache, in the order that the map gives. -/
def victim (now : ℕ) : String → Cache → String
  | evicted, [] => evicted
  | evicted, (k, v) :: rest =>
    if v.expires < now then k else victim now (if evicted = "" then k else evicted) rest

namespace Cache

def delete (cache : Cache) (host : String) : Cache := cache.filter (·.1 ≠ host)

/-- `rememberLocked`. -/
def remember (cache order : Cache) (now : ℕ) (host : String) (e : CacheEntry) : Cache :=
  let evicted := victim now "" order
  let full := dnsCacheMax ≤ cache.length ∧ cache.lookup host = none
  let kept := if full ∧ evicted ≠ "" then cache.delete evicted else cache
  (host, e) :: kept.delete host

/-- The entry of the host that has not expired. -/
def live (cache : Cache) (host : String) (now : ℕ) : Option CacheEntry :=
  (cache.lookup host).filter (now < ·.expires)

end Cache

/-! ### The steps -/

/-- A call of `LookupHost`; `since` is the era when it started. -/
inductive Lookup (ι : Type*) where
  | fresh
  /-- Before the look into the cache. -/
  | checking (host : String) (since : ℕ)
  /-- In flight, before the snapshot of the servers. -/
  | asking (host : String) (since : ℕ)
  | querying (host : String) (since : ℕ) (servers : List String) (era : ℕ)
  /-- Stored, before the channel is closed. -/
  | stored (since : ℕ) (reply : Reply) (era : ℕ)
  /-- Waits for the channel of another lookup. -/
  | joined (host : String) (since : ℕ) (owner : ι)
  /-- `era`: the list of servers that was asked for the answer, if any was. -/
  | returned (since : ℕ) (reply : Reply) (era : Option ℕ)

structure Resolver (ι : Type*) where
  servers : List String
  /-- Not in the source: how many lists of servers have been set. -/
  era : ℕ
  cache : Cache
  inFlight : String → Option ι
  lookups : ι → Lookup ι

inductive Event (ι : Type*) where
  | setServers (servers : List String)
  /-- `LookupHost` is called; `system` is the answer of the system's resolvers. -/
  | call (i : ι) (host : String) (system : Reply)
  | check (i : ι) (now : ℕ)
  | snapshot (i : ι)
  /-- The servers have answered, and the answer is stored; `order` is the order in which
  the map is walked. -/
  | answered (i : ι) (a aaaa : List Reply) (now : ℕ) (order : Cache)
  /-- The channel is closed, and the lookup returns. -/
  | close (i : ι)
  /-- The channel of the other lookup is closed, and the cache is read. -/
  | join (i : ι) (now : ℕ)

namespace Resolver

variable {ι : Type*}

/-- `newProtectedResolver`. -/
def new (ι : Type*) (parseIP : String → Bool) (servers : List String) : Resolver ι where
  servers := normalizeDNSServers parseIP servers
  era := 0
  cache := []
  inFlight _ := none
  lookups _ := .fresh

variable [DecidableEq ι]

def set (s : Resolver ι) (i : ι) (l : Lookup ι) : Resolver ι :=
  { s with lookups := Function.update s.lookups i l }

def step (parseIP : String → Bool) (s : Resolver ι) : Event ι → Option (Resolver ι)
  | .setServers servers =>
    let normalized := normalizeDNSServers parseIP servers
    some (if normalized = [] then s
      else { s with servers := normalized, era := s.era + 1, cache := [] })
  | .call i host system =>
    match s.lookups i with
    | .fresh => some (s.set i (if parseIP host then .returned s.era (.ok [host]) none
      else if s.servers = [] then .returned s.era system none
      else .checking host s.era))
    | _ => none
  | .check i now =>
    match s.lookups i with
    | .checking host since =>
      match s.cache.live host now, s.inFlight host with
      | some e, _ => some (s.set i (.returned since (cachedLookup host e) (some e.era)))
      | none, some owner => some (s.set i (.joined host since owner))
      | none, none => some { s.set i (.asking host since) with
          inFlight := Function.update s.inFlight host (some i) }
    | _ => none
  | .snapshot i =>
    match s.lookups i with
    | .asking host since => some (s.set i (.querying host since s.servers s.era))
    | _ => none
  | .answered i a aaaa now order =>
    match s.lookups i with
    | .querying host since servers era =>
      if a.length = servers.length ∧ aaaa.length = servers.length ∧ order.Perm s.cache then
        let reply := queryAll host servers a aaaa
        some { s.set i (.stored since reply era) with
          inFlight := Function.update s.inFlight host none
          cache := s.cache.remember order now host (entryOf reply now era) }
      else none
    | _ => none
  | .close i =>
    match s.lookups i with
    | .stored since reply era => some (s.set i (.returned since reply (some era)))
    | _ => none
  | .join i now =>
    match s.lookups i with
    | .joined host since owner =>
      match s.lookups owner with
      | .returned _ _ _ => some (s.set i (match s.cache.live host now with
        | some e => .returned since (cachedLookup host e) (some e.era)
        | none => .returned since
          (.error ("dns: concurrent resolve of " ++ host ++ " failed")) none))
      | _ => none
    | _ => none

/-! ### What a step does -/

/-- What happens to a lookup, up to the storing of its answer. -/
inductive Next (s : Resolver ι) : Lookup ι → Lookup ι → Prop
  | literal {reply : Reply} : Next s .fresh (.returned s.era reply none)
  | called {host : String} : Next s .fresh (.checking host s.era)
  | hit {host : String} {since now : ℕ} {e : CacheEntry} (hlive : s.cache.live host now = some e) :
      Next s (.checking host since) (.returned since (cachedLookup host e) (some e.era))
  | joins {host : String} {since : ℕ} {owner : ι} :
      Next s (.checking host since) (.joined host since owner)
  | asks {host : String} {since : ℕ} : Next s (.checking host since) (.asking host since)
  | snapshot {host : String} {since : ℕ} :
      Next s (.asking host since) (.querying host since s.servers s.era)
  | closed {since era : ℕ} {reply : Reply} :
      Next s (.stored since reply era) (.returned since reply (some era))
  | joinedHit {host : String} {since now : ℕ} {owner : ι} {e : CacheEntry}
      (hlive : s.cache.live host now = some e) :
      Next s (.joined host since owner) (.returned since (cachedLookup host e) (some e.era))
  | joinedMiss {host : String} {since : ℕ} {owner : ι} {reply : Reply} :
      Next s (.joined host since owner) (.returned since reply none)

/-- The steps. -/
inductive Stepped (s : Resolver ι) : Event ι → Resolver ι → Prop
  | kept {servers : List String} : Stepped s (.setServers servers) s
  | replaced {servers normalized : List String} (hne : normalized ≠ []) :
      Stepped s (.setServers servers)
        { s with servers := normalized, era := s.era + 1, cache := [] }
  | moved {e : Event ι} {t : Resolver ι} {i : ι} {l : Lookup ι}
      (hevent : ∀ i a aaaa now order, e ≠ .answered i a aaaa now order)
      (hnext : Next s (s.lookups i) l) (hservers : t.servers = s.servers) (hera : t.era = s.era)
      (hcache : t.cache = s.cache) (hlookups : t.lookups = Function.update s.lookups i l) :
      Stepped s e t
  | answered {i : ι} {a aaaa : List Reply} {now : ℕ} {order : Cache} {host : String} {since : ℕ}
      {servers : List String} {era : ℕ} {t : Resolver ι}
      (hquerying : s.lookups i = .querying host since servers era) (hservers : t.servers = s.servers)
      (hera : t.era = s.era)
      (hcache : t.cache = s.cache.remember order now host
        (entryOf (queryAll host servers a aaaa) now era))
      (hlookups : t.lookups = Function.update s.lookups i
        (.stored since (queryAll host servers a aaaa) era)) :
      Stepped s (.answered i a aaaa now order) t

variable {parseIP : String → Bool} {s t : Resolver ι} {e : Event ι}

theorem stepped (h : s.step parseIP e = some t) : s.Stepped e t := by
  -- everything but `setServers` and `answered` moves one lookup
  have hmoved : ∀ {e : Event ι} {i : ι} {old l : Lookup ι},
      (∀ i a aaaa now order, e ≠ .answered i a aaaa now order) → s.lookups i = old →
      s.Next old l → s.Stepped e (s.set i l) := by
    rintro e i _ l hevent rfl hnext
    exact .moved hevent hnext rfl rfl rfl rfl
  cases e with
  | setServers servers =>
    simp only [step, Option.some_inj] at h
    split_ifs at h with hnone
    · exact h ▸ .kept
    · exact h ▸ .replaced hnone
  | call i host system =>
    simp only [step] at h
    split at h
    · next hfresh =>
      cases h
      split_ifs
      · exact hmoved nofun hfresh .literal
      · exact hmoved nofun hfresh .literal
      · exact hmoved nofun hfresh .called
    · cases h
  | check i now =>
    simp only [step] at h
    split at h
    · next host since hchecking =>
      split at h
      · next hlive =>
        cases h
        exact hmoved nofun hchecking (.hit hlive)
      · cases h
        exact hmoved nofun hchecking .joins
      · cases h
        refine .moved (i := i) nofun ?_ rfl rfl rfl rfl
        rw [hchecking]
        exact .asks
    · cases h
  | snapshot i =>
    simp only [step] at h
    split at h
    · next hasking =>
      cases h
      exact hmoved nofun hasking .snapshot
    · cases h
  | answered i a aaaa now order =>
    simp only [step] at h
    split at h
    · next hquerying =>
      split_ifs at h
      cases h
      exact .answered hquerying rfl rfl rfl rfl
    · cases h
  | close i =>
    simp only [step] at h
    split at h
    · next hstored =>
      cases h
      exact hmoved nofun hstored .closed
    · cases h
  | join i now =>
    simp only [step] at h
    split at h
    · next hjoined =>
      split at h
      · cases h
        split
        · next hlive => exact hmoved nofun hjoined (.joinedHit hlive)
        · exact hmoved nofun hjoined .joinedMiss
      · cases h
    · cases h

end Resolver

/-! ### Stale answers -/

variable {ι : Type*}

/-- What a lookup knows is not older than its start. -/
def Lookup.NotStale (era : ℕ) : Lookup ι → Prop
  | .fresh => True
  | .checking _ since | .asking _ since | .joined _ since _ => since ≤ era
  | .querying _ since _ asked | .stored since _ asked => since ≤ asked
  | .returned since _ asked => ∀ era ∈ asked, since ≤ era

/-- The list of servers that the lookup is asking. -/
def Lookup.asked : Lookup ι → Option ℕ
  | .querying _ _ _ era => some era
  | .fresh | .checking _ _ | .asking _ _ | .stored _ _ _ | .joined _ _ _ | .returned _ _ _ => none

theorem Lookup.NotStale.succ {l : Lookup ι} {era : ℕ} (h : l.NotStale era) :
    l.NotStale (era + 1) := by
  cases l with
  | checking | asking | joined => exact Nat.le_succ_of_le h
  | fresh | querying | stored | returned => exact h

theorem Cache.mem_of_live {cache : Cache} {host : String} {now : ℕ} {e : CacheEntry}
    (h : cache.live host now = some e) : (host, e) ∈ cache := by
  obtain ⟨hlookup, _⟩ := Option.filter_eq_some_iff.mp h
  obtain ⟨l₁, l₂, rfl, _⟩ := List.lookup_eq_some_iff.mp hlookup
  simp

theorem Cache.mem_remember {cache order : Cache} {now : ℕ} {host : String} {e : CacheEntry}
    {p : String × CacheEntry} (h : p ∈ cache.remember order now host e) :
    p = (host, e) ∨ p ∈ cache := by
  rcases List.mem_cons.mp h with h | h
  · exact .inl h
  · have hkept := List.mem_of_mem_filter h
    split_ifs at hkept
    · exact .inr (List.mem_of_mem_filter hkept)
    · exact .inr hkept

theorem entryOf_era (reply : Reply) (now asked : ℕ) : (entryOf reply now asked).era = asked := by
  cases reply with
  | ok => rfl
  | error => rfl

namespace Resolver

variable [DecidableEq ι] {parseIP : String → Bool} {s t : Resolver ι} {e : Event ι}

/-- No lookup has returned an answer of servers that were replaced before it started. -/
def Fresh (s : Resolver ι) : Prop :=
  ∀ i since reply era, s.lookups i = .returned since reply (some era) → since ≤ era

/-- Everything in the cache was asked of the servers that are set. -/
def Clean (s : Resolver ι) : Prop := ∀ p ∈ s.cache, p.2.era = s.era

/-- When a lookup stores its answer, the servers it has asked are still set. -/
def Timely (s : Resolver ι) : Event ι → Prop
  | .answered i _ _ _ _ => ∀ era ∈ (s.lookups i).asked, era = s.era
  | .setServers _ | .call _ _ _ | .check _ _ | .snapshot _ | .close _ | .join _ _ => True

instance Timely.decidable (s : Resolver ι) (e : Event ι) : Decidable (s.Timely e) :=
  match e with
  | .answered i _ _ _ _ => inferInstanceAs (Decidable (∀ era ∈ (s.lookups i).asked, era = s.era))
  | .setServers _ | .call _ _ _ | .check _ _ | .snapshot _ | .close _ | .join _ _ => isTrue trivial

/-- The cache is kept clean exactly by timely steps. -/
theorem clean_step_iff (hs : s.Clean) (h : s.step parseIP e = some t) :
    t.Clean ↔ s.Timely e := by
  cases stepped h with
  | kept => exact iff_of_true hs trivial
  | replaced => exact iff_of_true nofun trivial
  | moved hevent _ _ hera hcache =>
    refine iff_of_true ?_ ?_
    · rw [Clean, hera, hcache]
      exact hs
    · cases e with
      | answered => exact absurd rfl (hevent _ _ _ _ _)
      | setServers | call | check | snapshot | close | join => trivial
  | @answered _ _ _ _ _ _ _ _ asked _ hquerying _ hera hcache =>
    rw [Clean, hera, hcache]
    constructor
    · intro hclean era hasked
      rw [hquerying] at hasked
      cases hasked
      exact (entryOf_era _ _ asked).symm.trans (hclean _ List.mem_cons_self)
    · intro htimely p hp
      rcases Cache.mem_remember hp with rfl | hp
      · rw [entryOf_era]
        refine htimely asked ?_
        rw [hquerying]
        rfl
      · exact hs p hp

omit [DecidableEq ι] in
theorem Next.notStale {old l : Lookup ι} (h : s.Next old l) (hs : s.Clean)
    (hold : old.NotStale s.era) : l.NotStale s.era := by
  have hlive : ∀ {host now e}, s.cache.live host now = some e → e.era = s.era :=
    fun h => hs _ (Cache.mem_of_live h)
  cases h with
  | literal | joinedMiss => exact nofun
  | called => exact Nat.le_refl s.era
  | hit h | joinedHit h =>
    rintro era ⟨⟩
    rw [hlive h]
    exact hold
  | joins | asks | snapshot => exact hold
  | closed =>
    rintro era ⟨⟩
    exact hold

/-- The step lemma. -/
theorem notStale_step (hs : s.Clean) (h : s.step parseIP e = some t)
    (hold : ∀ i, (s.lookups i).NotStale s.era) (i : ι) : (t.lookups i).NotStale t.era := by
  cases stepped h with
  | kept => exact hold i
  | replaced => exact (hold i).succ
  | @moved _ _ j l _ hnext _ hera _ hlookups =>
    rw [hera, hlookups]
    by_cases hij : i = j
    · rw [hij, Function.update_self]
      exact hnext.notStale hs (hold j)
    · rw [Function.update_of_ne hij]
      exact hold i
  | @answered j _ _ _ _ _ _ _ _ _ hquerying _ hera _ hlookups =>
    rw [hera, hlookups]
    by_cases hij : i = j
    · rw [hij, Function.update_self]
      have hasked := hold j
      rw [hquerying] at hasked
      exact hasked
    · rw [Function.update_of_ne hij]
      exact hold i

/-- In every run the cache is clean all along, exactly if no lookup stores its answer after
the servers it has asked were replaced. -/
theorem clean_iff_timely (parseIP : String → Bool) (servers : List String) (es : List (Event ι)) :
    Always (step parseIP) Clean (new ι parseIP servers) es ↔
      Admits (step parseIP) Timely (new ι parseIP servers) es :=
  always_iff_admits (Q := fun _ => True) (fun _ _ _ _ _ => trivial)
    (fun _ _ _ _ hs h => clean_step_iff hs h) trivial fun _ hp => nomatch hp

/-- If no lookup stores its answer after the servers it has asked were replaced, then no
lookup returns an answer of servers that were replaced before it started. -/
theorem fresh_of_timely (parseIP : String → Bool) (servers : List String) {es : List (Event ι)}
    (htimely : Admits (step parseIP) Timely (new ι parseIP servers) es) :
    Always (step parseIP) Fresh (new ι parseIP servers) es := by
  have hstep : ∀ (s : Resolver ι) e t, (s.Clean ∧ ∀ i, (s.lookups i).NotStale s.era) →
      s.Timely e → s.step parseIP e = some t → t.Clean ∧ ∀ i, (t.lookups i).NotStale t.era :=
    fun s e t hs htimely h => ⟨(clean_step_iff hs.1 h).mpr htimely, notStale_step hs.1 h hs.2⟩
  have hstart : (new ι parseIP servers).Clean ∧
      ∀ i, ((new ι parseIP servers).lookups i).NotStale (new ι parseIP servers).era :=
    ⟨fun _ hp => (nomatch hp), fun _ => trivial⟩
  have hkept := always_of_admits hstep hstart htimely
  refine hkept.mono fun s hs i since reply era hreturned => ?_
  have hi := hs.2 i
  rw [hreturned] at hi
  exact hi era rfl

/-- A lookup returns what the cache holds, however old it is. -/
theorem stale_of_unclean {i : ι} {host : String} {now : ℕ} {entry : CacheEntry}
    (hentry : s.cache.live host now = some entry) (hold : entry.era < s.era)
    (hservers : s.servers ≠ []) (hhost : parseIP host = false) (hi : s.lookups i = .fresh)
    (system : Reply) :
    ∃ t, run (step parseIP) s [.call i host system, .check i now] = some t ∧ ¬ t.Fresh := by
  refine ⟨s.set i (.returned s.era (cachedLookup host entry) (some entry.era)), ?_, ?_⟩
  · simp [step, set, hi, hhost, hservers, hentry]
  · intro hfresh
    have hle := hfresh i s.era _ entry.era (Function.update_self ..)
    exact absurd hold (Nat.not_lt.mpr hle)

/-- The addresses of two networks' resolvers. -/
def isAddress (s : String) : Bool := s = "192.0.2.53" ∨ s = "198.51.100.5"

/-- A lookup that has finished before the network changes, and one after it. -/
def settled : List (Event (Fin 2)) :=
  [.call 0 "example.test" (.ok []), .check 0 0, .snapshot 0,
    .answered 0 [.ok ["10.0.0.1"]] [.ok []] 0 [], .close 0, .setServers ["198.51.100.5"],
    .call 1 "example.test" (.ok []), .check 1 1, .snapshot 1]

theorem settled_fresh :
    Always (step isAddress) Fresh (new (Fin 2) isAddress ["192.0.2.53"]) settled :=
  fresh_of_timely isAddress _ (by decide +kernel)

/-- A lookup that is in flight while the network changes, and one after it. -/
def overtaken : List (Event (Fin 2)) :=
  [.call 0 "example.test" (.ok []), .check 0 0, .snapshot 0, .setServers ["198.51.100.5"],
    .answered 0 [.ok ["10.0.0.1"]] [.ok []] 0 [], .close 0,
    .call 1 "example.test" (.ok []), .check 1 1]

/-- The list of servers that was asked is older than the call. -/
def stale {ι : Type*} : Lookup ι → Bool
  | .returned since _ (some era) => era < since
  | _ => false

theorem stale_iff {ι : Type*} {l : Lookup ι} :
    stale l ↔ ∃ since reply era, l = .returned since reply (some era) ∧ era < since := by
  rw [stale.eq_def]
  split
  · next since reply era =>
    simp only [decide_eq_true_eq, Lookup.returned.injEq, Option.some.injEq]
    exact ⟨fun hlt => ⟨_, _, _, ⟨rfl, rfl, rfl⟩, hlt⟩, fun ⟨_, _, _, ⟨rfl, _, rfl⟩, hlt⟩ => hlt⟩
  · next hnot =>
    exact iff_of_false Bool.false_ne_true fun ⟨since, reply, era, heq, _⟩ => hnot since reply era heq

/-- The second lookup returns what the servers of the first network have said. -/
theorem overtaken_stale :
    ¬ Always (step isAddress) Fresh (new (Fin 2) isAddress ["192.0.2.53"]) overtaken := by
  intro hfresh
  have hstale : (run (step isAddress) (new (Fin 2) isAddress ["192.0.2.53"]) overtaken).any
      (fun t => stale (t.lookups 1)) = true := by
    decide +kernel
  obtain ⟨t, ht, hreturned⟩ := (Option.any_eq_true _ _).mp hstale
  have hle := always_iff_prefixes.mp hfresh _ List.prefix_rfl t ht
  obtain ⟨since, reply, era, hlookup, hlate⟩ := stale_iff.mp hreturned
  exact absurd (hle 1 since reply era hlookup) (Nat.not_le.mpr hlate)

end Resolver

end Csqtt.Dns
