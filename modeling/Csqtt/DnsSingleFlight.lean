/-
One query of a host at a time, and what those that wait for it are told.

A lookup that finds a query of its host in flight waits for the leader's channel to be
closed and then reads the cache again. The answer is not handed over: between the leader's
store and the reading other lookups may evict the entry, `SetServers` may empty the cache,
or the entry may expire.

* **`flight_step`**: the map of what is in flight names the one lookup that asks for a host,
  whatever the order of the steps;
* **`lead_run`**: a leader's channel is closed exactly once, by the last of its own steps, of
  which there are at most three;
* **`sound_step`**: if what is awaited is kept, it stays in the cache, which stays small;
* **`single_flight`**: all of it for every run.
-/
import Csqtt.DnsResolver
import Mathlib.Data.Fintype.Basic

open Transition Csqtt.Text

namespace Csqtt.Dns

/-! ### The cache -/

namespace Cache

theorem lookup_delete (cache : Cache) (host host' : String) :
    (cache.delete host).lookup host' = if host' = host then none else cache.lookup host' := by
  induction cache with
  | nil => simp [delete]
  | cons p cache ih =>
    rw [delete] at ih ⊢
    by_cases hp : p.1 = host
    · rw [List.filter_cons_of_neg (by simpa using hp), ih]
      split
      · rfl
      · rename_i hne
        have hother : (host' == p.1) = false := by
          simpa using fun h : host' = p.1 => hne (h.trans hp)
        rw [List.lookup_cons, hother]
    · rw [List.filter_cons_of_pos (by simpa using hp), List.lookup_cons, List.lookup_cons, ih]
      split
      · rename_i heq
        have hkey : host' = p.1 := by simpa using heq
        rw [if_neg (hkey ▸ hp)]
      · rfl

theorem length_delete_le (cache : Cache) (host : String) :
    (cache.delete host).length ≤ cache.length := List.length_filter_le _ _

/-- An entry that is there is missing afterwards. -/
theorem length_delete_lt {cache : Cache} {host : String} {e : CacheEntry}
    (h : (host, e) ∈ cache) : (cache.delete host).length < cache.length := by
  refine List.length_filter_lt_length_iff_exists.mpr ⟨(host, e), h, ?_⟩
  simp

theorem mem_of_lookup {cache : Cache} {host : String} {e : CacheEntry}
    (h : cache.lookup host = some e) : (host, e) ∈ cache := by
  obtain ⟨l₁, l₂, rfl, -⟩ := List.lookup_eq_some_iff.mp h
  simp

/-- The victim is one of the cache, if there is one. -/
theorem victim_mem {now : ℕ} {order : Cache} {evicted : String} (hne : victim now evicted order ≠ "") :
    victim now evicted order = evicted ∨ ∃ e, (victim now evicted order, e) ∈ order := by
  induction order generalizing evicted with
  | nil => exact .inl rfl
  | cons p order ih =>
    obtain ⟨k, v⟩ := p
    by_cases hexpired : v.expires < now
    · rw [victim, if_pos hexpired]
      exact .inr ⟨v, List.mem_cons_self⟩
    · rw [victim, if_neg hexpired] at hne ⊢
      rcases ih hne with h | ⟨e, he⟩
      · rw [h]
        split
        · exact .inr ⟨v, List.mem_cons_self⟩
        · exact .inl rfl
      · exact .inr ⟨e, List.mem_cons_of_mem _ he⟩

/-- Is there no room for an entry of the host? -/
def Full (cache : Cache) (host : String) : Prop :=
  dnsCacheMax ≤ cache.length ∧ cache.lookup host = none

instance (cache : Cache) (host : String) : Decidable (cache.Full host) :=
  inferInstanceAs (Decidable (_ ∧ _))

theorem lookup_remember_self (cache order : Cache) (now : ℕ) (host : String) (e : CacheEntry) :
    (cache.remember order now host e).lookup host = some e := by
  simp [remember]

/-- An entry of another host is kept unless it is the victim of a full cache. -/
theorem lookup_remember_ne {cache order : Cache} {now : ℕ} {host host' : String} {e : CacheEntry}
    (hne : host' ≠ host) (hkept : cache.Full host → victim now "" order ≠ host') :
    (cache.remember order now host e).lookup host' = cache.lookup host' := by
  have hcons : (host' == host) = false := by simpa using hne
  rw [remember, List.lookup_cons, hcons, lookup_delete, if_neg hne]
  dsimp only
  split
  · rename_i hevict
    rw [lookup_delete, if_neg (hkept hevict.1).symm]
  · rfl

/-- What is stored for another host was there before. -/
theorem lookup_remember_of_ne {cache order : Cache} {now : ℕ} {host host' : String}
    {e e' : CacheEntry} (hne : host' ≠ host)
    (h : (cache.remember order now host e).lookup host' = some e') :
    cache.lookup host' = some e' := by
  have hcons : (host' == host) = false := by simpa using hne
  rw [remember, List.lookup_cons, hcons, lookup_delete, if_neg hne] at h
  dsimp only at h
  split at h
  · rw [lookup_delete] at h
    split at h
    · cases h
    · exact h
  · exact h

/-- The cache grows over its limit only where the victim has the empty name. -/
theorem length_remember_le {cache order : Cache} {now : ℕ} {host : String} {e : CacheEntry}
    (hle : cache.length ≤ dnsCacheMax) (hperm : order.Perm cache)
    (hnamed : cache.Full host → victim now "" order ≠ "") :
    (cache.remember order now host e).length ≤ dnsCacheMax := by
  rw [remember]
  by_cases hfull : cache.Full host
  · have hne := hnamed hfull
    obtain ⟨e', he'⟩ := (victim_mem hne).resolve_left hne
    have hlt := length_delete_lt (hperm.subset he')
    have hle' := length_delete_le (cache.delete (victim now "" order)) host
    rw [if_pos ⟨hfull, hne⟩, List.length_cons]
    omega
  · have hkept : ¬ ((dnsCacheMax ≤ cache.length ∧ cache.lookup host = none) ∧
        victim now "" order ≠ "") := fun h => hfull h.1
    rw [if_neg hkept, List.length_cons]
    by_cases hroom : dnsCacheMax ≤ cache.length
    · -- the host is in the cache already
      obtain ⟨e', he'⟩ := Option.ne_none_iff_exists'.mp fun hnone => hfull ⟨hroom, hnone⟩
      have hlt := length_delete_lt (mem_of_lookup he')
      omega
    · have hle' := length_delete_le cache host
      omega

/-- There it does grow. -/
theorem length_remember_gt {cache order : Cache} {now : ℕ} {host : String} {e : CacheEntry}
    (hfull : cache.Full host) (hnameless : victim now "" order = "") :
    dnsCacheMax < (cache.remember order now host e).length := by
  have habsent : ∀ p ∈ cache, p.1 ≠ host := fun p hp heq => by
    have := List.lookup_eq_none_iff.mp hfull.2 p hp
    simp [heq] at this
  have hdelete : cache.delete host = cache :=
    List.filter_eq_self.mpr fun p hp => by simpa using habsent p hp
  rw [remember, hnameless, if_neg (by simp), hdelete, List.length_cons]
  exact Nat.lt_succ_of_le hfull.1

end Cache

/-! ### Lookups -/

variable {ι : Type*}

namespace Lookup

/-- Its query of the host is in flight. -/
def Outstanding (host : String) : Lookup ι → Prop
  | .asking h _ | .querying h _ _ _ => h = host
  | .fresh | .checking _ _ | .stored _ _ _ | .joined _ _ _ | .returned _ _ _ => False

/-- Its query of the host is in flight or was. -/
def Leads (host : String) : Lookup ι → Prop
  | .asking h _ | .querying h _ _ _ => h = host
  | .stored _ _ _ | .returned _ _ _ => True
  | .fresh | .checking _ _ | .joined _ _ _ => False

/-- What its query has come to. -/
def outcome : Lookup ι → Option Reply
  | .stored _ reply _ | .returned _ reply _ => some reply
  | .fresh | .checking _ _ | .asking _ _ | .querying _ _ _ _ | .joined _ _ _ => none

/-- It has made a channel. -/
def Leading : Lookup ι → Bool
  | .asking _ _ | .querying _ _ _ _ | .stored _ _ _ => true
  | .returned _ _ _ => true
  | .fresh | .checking _ _ | .joined _ _ _ => false

/-- The steps that a leader still has to take until its channel is closed. -/
def left : Lookup ι → ℕ
  | .asking _ _ => 3
  | .querying _ _ _ _ => 2
  | .stored _ _ _ => 1
  | .fresh | .checking _ _ | .joined _ _ _ | .returned _ _ _ => 0

/-- Could it still close a channel? -/
def mayClose : Lookup ι → ℕ
  | .fresh | .checking _ _ | .asking _ _ | .querying _ _ _ _ | .stored _ _ _ => 1
  | .joined _ _ _ | .returned _ _ _ => 0

theorem Outstanding.leads {host : String} {l : Lookup ι} (h : l.Outstanding host) :
    l.Leads host := by
  cases l with
  | asking | querying => exact h
  | fresh | checking | stored | joined | returned => cases h

theorem Outstanding.outcome_eq_none {host : String} {l : Lookup ι} (h : l.Outstanding host) :
    l.outcome = none := by
  cases l with
  | asking | querying => rfl
  | fresh | checking | stored | joined | returned => cases h

end Lookup

namespace Event

variable [DecidableEq ι]

/-- Is it a step of this lookup? -/
def own (i : ι) : Event ι → Bool
  | .setServers _ => false
  | .call j _ _ | .check j _ | .snapshot j | .answered j _ _ _ _ | .close j | .join j _ => j = i

/-- Is it the closing of this lookup's channel? -/
def closes (i : ι) : Event ι → Bool
  | .close j => j = i
  | .setServers _ | .call _ _ _ | .check _ _ | .snapshot _ | .answered _ _ _ _ _ | .join _ _ => false

theorem closes_of_not_own {i : ι} {e : Event ι} (h : e.own i = false) : e.closes i = false := by
  cases e with
  | close => exact h
  | setServers | call | check | snapshot | answered | join => rfl

end Event

namespace Resolver

variable [DecidableEq ι]

/-- The steps, each with the state that it leaves. -/
inductive Took (parseIP : String → Bool) (s : Resolver ι) : Event ι → Resolver ι → Prop
  | kept {servers : List String} (hnone : normalizeDNSServers parseIP servers = []) :
      Took parseIP s (.setServers servers) s
  | replaced {servers : List String} (hsome : normalizeDNSServers parseIP servers ≠ []) :
      Took parseIP s (.setServers servers)
        { s with servers := normalizeDNSServers parseIP servers, era := s.era + 1, cache := [] }
  | called {i : ι} {host : String} {system : Reply} {l : Lookup ι} (hi : s.lookups i = .fresh)
      (hl : l = .checking host s.era ∨ ∃ reply, l = .returned s.era reply none) :
      Took parseIP s (.call i host system) (s.set i l)
  | hit {i : ι} {now since : ℕ} {host : String} {e : CacheEntry}
      (hi : s.lookups i = .checking host since) :
      Took parseIP s (.check i now) (s.set i (.returned since (cachedLookup host e) (some e.era)))
  | joins {i owner : ι} {now since : ℕ} {host : String} (hi : s.lookups i = .checking host since)
      (hflight : s.inFlight host = some owner) :
      Took parseIP s (.check i now) (s.set i (.joined host since owner))
  | asks {i : ι} {now since : ℕ} {host : String} (hi : s.lookups i = .checking host since)
      (hflight : s.inFlight host = none) :
      Took parseIP s (.check i now) { s.set i (.asking host since) with
        inFlight := Function.update s.inFlight host (some i) }
  | snapshot {i : ι} {since : ℕ} {host : String} (hi : s.lookups i = .asking host since) :
      Took parseIP s (.snapshot i) (s.set i (.querying host since s.servers s.era))
  | answered {i : ι} {a aaaa : List Reply} {now since era : ℕ} {order : Cache} {host : String}
      {servers : List String} (hi : s.lookups i = .querying host since servers era)
      (hperm : order.Perm s.cache) :
      Took parseIP s (.answered i a aaaa now order)
        { s.set i (.stored since (queryAll host servers a aaaa) era) with
          inFlight := Function.update s.inFlight host none
          cache := s.cache.remember order now host
            (entryOf (queryAll host servers a aaaa) now era) }
  | closed {i : ι} {since era : ℕ} {reply : Reply} (hi : s.lookups i = .stored since reply era) :
      Took parseIP s (.close i) (s.set i (.returned since reply (some era)))
  | join {i owner : ι} {now since since' : ℕ} {host : String} {reply : Reply} {era : Option ℕ}
      {l : Lookup ι} (hi : s.lookups i = .joined host since owner)
      (howner : s.lookups owner = .returned since' reply era)
      (hl : l = match s.cache.live host now with
        | some e => .returned since (cachedLookup host e) (some e.era)
        | none => .returned since
          (.error ("dns: concurrent resolve of " ++ host ++ " failed")) none) :
      Took parseIP s (.join i now) (s.set i l)

variable {parseIP : String → Bool} {s t : Resolver ι} {e : Event ι}

theorem took (h : s.step parseIP e = some t) : s.Took parseIP e t := by
  cases e with
  | setServers servers =>
    simp only [step, Option.some_inj] at h
    split_ifs at h with hnone
    · exact h ▸ .kept hnone
    · exact h ▸ .replaced hnone
  | call i host system =>
    simp only [step] at h
    split at h
    · next hfresh =>
      cases h
      refine .called hfresh ?_
      split_ifs
      · exact .inr ⟨_, rfl⟩
      · exact .inr ⟨_, rfl⟩
      · exact .inl rfl
    · cases h
  | check i now =>
    simp only [step] at h
    split at h
    · next hchecking =>
      split at h
      · cases h
        exact .hit hchecking
      · next hflight =>
        cases h
        exact .joins hchecking hflight
      · next hflight =>
        cases h
        exact .asks hchecking hflight
    · cases h
  | snapshot i =>
    simp only [step] at h
    split at h
    · next hasking =>
      cases h
      exact .snapshot hasking
    · cases h
  | answered i a aaaa now order =>
    simp only [step] at h
    split at h
    · next hquerying =>
      split_ifs at h with hall
      cases h
      exact .answered hquerying hall.2.2
    · cases h
  | close i =>
    simp only [step] at h
    split at h
    · next hstored =>
      cases h
      exact .closed hstored
    · cases h
  | join i now =>
    simp only [step] at h
    split at h
    · next hjoined =>
      split at h
      · next howner =>
        cases h
        exact .join hjoined howner rfl
      · cases h
    · cases h

/-! ### One query at a time -/

/-- The map of what is in flight, and the leaders of those that wait. -/
structure Flight (s : Resolver ι) : Prop where
  flight : ∀ host i, s.inFlight host = some i ↔ (s.lookups i).Outstanding host
  joined : ∀ i host since owner, s.lookups i = .joined host since owner →
    (s.lookups owner).Leads host

@[simp] theorem set_lookups_self (s : Resolver ι) (i : ι) (l : Lookup ι) :
    (s.set i l).lookups i = l := Function.update_self ..

theorem set_lookups_ne {s : Resolver ι} {i j : ι} {l : Lookup ι} (h : j ≠ i) :
    (s.set i l).lookups j = s.lookups j := Function.update_of_ne h ..

/-- A step of one lookup that is no leader, neither before nor after. -/
theorem Flight.set (hs : s.Flight) {i : ι} {l : Lookup ι}
    (hbefore : ∀ host, ¬ (s.lookups i).Leads host) (hafter : ∀ host, ¬ l.Outstanding host)
    (hjoined : ∀ host since owner, l = .joined host since owner →
      owner ≠ i ∧ (s.lookups owner).Leads host) : (s.set i l).Flight where
  flight := by
    intro host j
    by_cases hj : j = i
    · subst hj
      rw [set_lookups_self]
      refine iff_of_false (fun hflight => ?_) (hafter host)
      exact hbefore host ((hs.flight host j).mp hflight).leads
    · rw [set_lookups_ne hj]
      exact hs.flight host j
  joined := by
    intro j host since owner hj
    have howner : owner ≠ i ∧ (s.lookups owner).Leads host := by
      by_cases hji : j = i
      · subst hji
        rw [set_lookups_self] at hj
        exact hjoined host since owner hj
      · rw [set_lookups_ne hji] at hj
        have hleads := hs.joined j host since owner hj
        exact ⟨fun h => hbefore host (h ▸ hleads), hleads⟩
    rw [set_lookups_ne howner.1]
    exact howner.2

/-- A step of a leader. -/
theorem Flight.lead (hs : s.Flight) {i : ι} {l : Lookup ι}
    (hlookups : t.lookups = Function.update s.lookups i l)
    (hflight : ∀ host j, t.inFlight host = some j ↔ (t.lookups j).Outstanding host)
    (hleads : ∀ host, (s.lookups i).Leads host → l.Leads host)
    (hjoined : ∀ host since owner, l ≠ .joined host since owner) : t.Flight where
  flight := hflight
  joined := by
    intro j host since owner hj
    rw [hlookups] at hj ⊢
    have hji : j ≠ i := by
      rintro rfl
      exact hjoined host since owner ((Function.update_self j l s.lookups).symm.trans hj)
    rw [Function.update_of_ne hji] at hj
    have howner := hs.joined j host since owner hj
    by_cases ho : owner = i
    · subst ho
      rw [Function.update_self]
      exact hleads host howner
    · rw [Function.update_of_ne ho]
      exact howner

/-- Outstanding as before, and so in flight as before. -/
theorem Flight.flight_same (hs : s.Flight) {i : ι} {l : Lookup ι}
    (hout : ∀ host, l.Outstanding host ↔ (s.lookups i).Outstanding host) (host : String) (j : ι) :
    s.inFlight host = some j ↔ ((s.set i l).lookups j).Outstanding host := by
  by_cases hj : j = i
  · subst hj
    rw [set_lookups_self, hout]
    exact hs.flight host j
  · rw [set_lookups_ne hj]
    exact hs.flight host j

theorem flight_step (hs : s.Flight) (h : s.step parseIP e = some t) : t.Flight := by
  cases took h with
  | kept => exact hs
  | replaced => exact ⟨hs.flight, hs.joined⟩
  | @called i host _ l hi hl =>
    refine hs.set (by rw [hi]; exact fun _ => id) ?_ ?_
    · rcases hl with rfl | ⟨_, rfl⟩
      · exact fun _ => id
      · exact fun _ => id
    · rcases hl with rfl | ⟨_, rfl⟩ <;> rintro _ _ _ ⟨⟩
  | hit hi => exact hs.set (by rw [hi]; exact fun _ => id) (fun _ => id) (by rintro _ _ _ ⟨⟩)
  | @joins i owner _ _ host hi hflight =>
    refine hs.set (by rw [hi]; exact fun _ => id) (fun _ => id) ?_
    rintro _ _ _ ⟨⟩
    have hout := (hs.flight host owner).mp hflight
    refine ⟨?_, hout.leads⟩
    rintro rfl
    rw [hi] at hout
    exact hout
  | @asks i _ since host hi hnone =>
    refine hs.lead rfl (fun g j => ?_) (by rw [hi]; exact fun _ => False.elim) (by rintro _ _ _ ⟨⟩)
    by_cases hj : j = i
    · subst hj
      show Function.update s.inFlight host (some j) g = some j ↔
        ((s.set j (.asking host since)).lookups j).Outstanding g
      rw [set_lookups_self, Function.update_apply]
      split
      · rename_i hh
        exact iff_of_true rfl hh.symm
      · rename_i hh
        refine iff_of_false (fun hflight => ?_) (fun heq => hh heq.symm)
        have hout := (hs.flight g j).mp hflight
        rw [hi] at hout
        exact hout
    · show Function.update s.inFlight host (some i) g = some j ↔
        ((s.set i (.asking host since)).lookups j).Outstanding g
      rw [set_lookups_ne hj, Function.update_apply]
      split
      · rename_i hh
        -- nobody else had the host in flight
        refine iff_of_false (fun heq => hj (Option.some.inj heq).symm) fun hout => ?_
        have := (hs.flight g j).mpr hout
        rw [hh, hnone] at this
        cases this
      · exact hs.flight g j
  | @snapshot i since host hi =>
    exact hs.lead rfl (hs.flight_same (by rw [hi]; exact fun _ => Iff.rfl))
      (by rw [hi]; exact fun _ => id) (by rintro _ _ _ ⟨⟩)
  | @answered i a aaaa now since era order host servers hi =>
    refine hs.lead rfl (fun g j => ?_) (by rw [hi]; exact fun _ _ => trivial) (by rintro _ _ _ ⟨⟩)
    have hmine : s.inFlight host = some i := (hs.flight host i).mpr (by rw [hi]; exact rfl)
    show Function.update s.inFlight host none g = some j ↔
      ((s.set i (.stored since (queryAll host servers a aaaa) era)).lookups j).Outstanding g
    rw [Function.update_apply]
    by_cases hj : j = i
    · subst hj
      rw [set_lookups_self]
      refine iff_of_false (fun hflight => ?_) id
      split at hflight
      · cases hflight
      · rename_i hh
        have hout := (hs.flight g j).mp hflight
        rw [hi] at hout
        exact hh hout.symm
    · rw [set_lookups_ne hj]
      split
      · rename_i hh
        refine iff_of_false (Option.some_ne_none j).symm fun hout => ?_
        have := (hs.flight g j).mpr hout
        rw [hh, hmine] at this
        exact hj (Option.some.inj this).symm
      · exact hs.flight g j
  | @closed i since era reply hi =>
    exact hs.lead rfl (hs.flight_same (by rw [hi]; exact fun _ => Iff.rfl))
      (by rw [hi]; exact fun _ => id) (by rintro _ _ _ ⟨⟩)
  | @join i owner now since _ host _ _ l hi howner hl =>
    have hreturned : ∃ reply era, l = .returned since reply era := by
      rw [hl]
      split
      · exact ⟨_, _, rfl⟩
      · exact ⟨_, _, rfl⟩
    obtain ⟨reply, era, rfl⟩ := hreturned
    exact hs.set (by rw [hi]; exact fun _ => id) (fun _ => id) (by rintro _ _ _ ⟨⟩)

/-- At most one query of a host is outstanding. -/
def Single (s : Resolver ι) : Prop :=
  ∀ host i j, (s.lookups i).Outstanding host → (s.lookups j).Outstanding host → i = j

omit [DecidableEq ι] in
theorem Flight.single (hs : s.Flight) : s.Single := fun host i j hi hj =>
  Option.some.inj (((hs.flight host i).mpr hi).symm.trans ((hs.flight host j).mpr hj))

omit [DecidableEq ι] in
theorem flight_new (parseIP : String → Bool) (servers : List String) :
    (new ι parseIP servers).Flight where
  flight := fun _ _ => iff_of_false nofun id
  joined := nofun

/-! ### Channels -/

/-- Nobody else moves a lookup. -/
theorem lookups_of_not_own {i : ι} (h : s.step parseIP e = some t) (hown : e.own i = false) :
    t.lookups i = s.lookups i := by
  have hne : ∀ {j : ι}, decide (j = i) = false → i ≠ j := fun hji => by
    rintro rfl
    simp at hji
  cases took h with
  | kept | replaced => rfl
  | called | hit | joins | asks | snapshot | answered | closed | join =>
    exact Function.update_of_ne (hne hown) ..

/-- What becomes of the lookup whose step it is. -/
theorem own_step {i : ι} (h : s.step parseIP e = some t) (hown : e.own i = true) :
    (s.lookups i).Leading = false ∧ e.closes i = false ∧
        (t.lookups i).mayClose ≤ (s.lookups i).mayClose ∨
      (t.lookups i).Leading = true ∧ (t.lookups i).left + 1 = (s.lookups i).left ∧
        (s.lookups i).mayClose = 1 ∧
        (if e.closes i then 1 else 0) + (t.lookups i).mayClose = 1 := by
  have hmine : ∀ {j : ι}, decide (j = i) = true → j = i := of_decide_eq_true
  cases took h with
  | kept | replaced => cases hown
  | @called j _ _ l hi hl =>
    obtain rfl := hmine hown
    rw [hi, set_lookups_self]
    rcases hl with rfl | ⟨_, rfl⟩
    · exact .inl ⟨rfl, rfl, Nat.le_refl 1⟩
    · exact .inl ⟨rfl, rfl, Nat.zero_le 1⟩
  | @hit j _ _ _ _ hi =>
    obtain rfl := hmine hown
    rw [hi, set_lookups_self]
    exact .inl ⟨rfl, rfl, Nat.zero_le 1⟩
  | @joins j _ _ _ _ hi =>
    obtain rfl := hmine hown
    rw [hi, set_lookups_self]
    exact .inl ⟨rfl, rfl, Nat.zero_le 1⟩
  | @asks j _ since host hi =>
    obtain rfl := hmine hown
    have ht : (s.set j (.asking host since)).lookups j = .asking host since := set_lookups_self ..
    rw [hi]
    exact .inl ⟨rfl, rfl, by rw [show _ = _ from ht]; exact Nat.le_refl 1⟩
  | @snapshot j _ _ hi =>
    obtain rfl := hmine hown
    rw [hi, set_lookups_self]
    exact .inr ⟨rfl, rfl, rfl, rfl⟩
  | @answered j a aaaa _ since era _ host servers hi =>
    obtain rfl := hmine hown
    have ht : (s.set j (.stored since (queryAll host servers a aaaa) era)).lookups j =
        .stored since (queryAll host servers a aaaa) era := set_lookups_self ..
    rw [hi]
    refine .inr ⟨?_, ?_, rfl, ?_⟩ <;> rw [show _ = _ from ht] <;> rfl
  | @closed j _ _ _ hi =>
    obtain rfl := hmine hown
    rw [hi, set_lookups_self]
    exact .inr ⟨rfl, rfl, rfl, by simp [Event.closes, Lookup.mayClose]⟩
  | @join j _ _ _ _ _ _ _ l hi _ hl =>
    obtain rfl := hmine hown
    have hzero : l.mayClose = 0 := by
      rw [hl]
      split <;> rfl
    rw [hi, set_lookups_self, hzero]
    exact .inl ⟨rfl, rfl, Nat.zero_le _⟩

/-- The step lemma for the closings of a channel. -/
theorem mayClose_step {i : ι} (h : s.step parseIP e = some t) :
    (if e.closes i then 1 else 0) + (t.lookups i).mayClose ≤ (s.lookups i).mayClose := by
  cases hown : e.own i with
  | false =>
    rw [lookups_of_not_own h hown, Event.closes_of_not_own hown]
    exact Nat.le_of_eq (Nat.zero_add _)
  | true =>
    rcases own_step h hown with ⟨-, hcloses, hle⟩ | ⟨-, -, hs, hsum⟩
    · rw [hcloses]
      exact Nat.le_trans (Nat.le_of_eq (Nat.zero_add _)) hle
    · omega

/-- No lookup closes a channel twice. -/
theorem closings_le {i : ι} {es : List (Event ι)} (h : run (step parseIP) s es = some t) :
    es.countP (·.closes i) + (t.lookups i).mayClose ≤ (s.lookups i).mayClose := by
  induction es generalizing s with
  | nil =>
    obtain rfl : s = t := by simpa using h
    simp
  | cons e es ih =>
    obtain ⟨u, hu, ht⟩ := Option.bind_eq_some_iff.mp ((run_cons s e es).symm.trans h)
    have hstep := mayClose_step (i := i) hu
    have hrest := ih ht
    rw [List.countP_cons]
    omega

/-- The step lemma for a leader. -/
theorem lead_step {i : ι} (h : s.step parseIP e = some t) (hlead : (s.lookups i).Leading = true) :
    (t.lookups i).Leading = true ∧
      (if e.own i then 1 else 0) + (t.lookups i).left = (s.lookups i).left ∧
      (if e.closes i then 1 else 0) + (t.lookups i).mayClose = (s.lookups i).mayClose := by
  cases hown : e.own i with
  | false =>
    rw [lookups_of_not_own h hown, Event.closes_of_not_own hown]
    exact ⟨hlead, by simp, by simp⟩
  | true =>
    rcases own_step h hown with ⟨hnot, -⟩ | ⟨ht, hleft, hs, hsum⟩
    · rw [hnot] at hlead
      cases hlead
    · refine ⟨ht, ?_, hsum.trans hs.symm⟩
      rw [if_pos rfl]
      omega

/-- The run lemma: every own step of a leader counts, and the last one closes its channel. -/
theorem lead_run {i : ι} {es : List (Event ι)} (hlead : (s.lookups i).Leading = true)
    (h : run (step parseIP) s es = some t) :
    (t.lookups i).Leading = true ∧
      es.countP (·.own i) + (t.lookups i).left = (s.lookups i).left ∧
      es.countP (·.closes i) + (t.lookups i).mayClose = (s.lookups i).mayClose := by
  induction es generalizing s with
  | nil =>
    obtain rfl : s = t := by simpa using h
    simp [hlead]
  | cons e es ih =>
    obtain ⟨u, hu, ht⟩ := Option.bind_eq_some_iff.mp ((run_cons s e es).symm.trans h)
    obtain ⟨hu_lead, hleft, hclose⟩ := lead_step hu hlead
    obtain ⟨ht_lead, hrest, hrest'⟩ := ih hu_lead ht
    rw [List.countP_cons, List.countP_cons]
    refine ⟨ht_lead, ?_, ?_⟩
    · omega
    · omega

/-- A leader that has not closed its channel can take its next step. -/
theorem lead_enabled {i : ι} (parseIP : String → Bool) (h : 0 < (s.lookups i).left) :
    ∃ e : Event ι, e.own i = true ∧ (s.step parseIP e).isSome := by
  cases hi : s.lookups i with
  | asking host since => exact ⟨.snapshot i, decide_eq_true rfl, by simp [step, hi]⟩
  | querying host since servers era =>
    -- whatever the servers answer, or the time-out
    let replies : List Reply := List.replicate servers.length (.error "i/o timeout")
    have hlen : replies.length = servers.length := List.length_replicate
    refine ⟨.answered i replies replies 0 s.cache, decide_eq_true rfl, ?_⟩
    simp [step, hi, hlen]
  | stored since reply era => exact ⟨.close i, decide_eq_true rfl, by simp [step, hi]⟩
  | fresh | checking | joined | returned =>
    rw [hi] at h
    exact absurd h (Nat.lt_irrefl 0)

/-! ### What is awaited -/

end Resolver

/-- Both failed, or both brought these addresses. -/
def SameOutcome : Reply → Reply → Prop
  | .ok ips, .ok ips' => ips = ips'
  | .error _, .error _ => True
  | .ok _, .error _ | .error _, .ok _ => False

instance : DecidableRel SameOutcome := fun reply reply' =>
  match reply, reply' with
  | .ok ips, .ok ips' => inferInstanceAs (Decidable (ips = ips'))
  | .error _, .error _ => isTrue trivial
  | .ok _, .error _ | .error _, .ok _ => isFalse id

def failed : Reply → Bool
  | .ok _ => false
  | .error _ => true

/-- The cache tells those that wait what has come of the query. -/
def Cache.Tells (cache : Cache) (host : String) : Reply → Prop
  | .ok ips => ∃ e, cache.lookup host = some e ∧ e.negative = false ∧ e.ips = ips
  | .error _ => ∀ e, cache.lookup host = some e → e.negative = true

theorem Cache.tells_entryOf {cache : Cache} {host : String} {reply reply' : Reply} {now era : ℕ}
    (h : cache.lookup host = some (entryOf reply' now era)) (hsame : SameOutcome reply reply') :
    cache.Tells host reply := by
  cases reply with
  | ok ips =>
    cases reply' with
    | ok ips' => exact ⟨_, h, rfl, hsame.symm⟩
    | error => cases hsame
  | error =>
    cases reply' with
    | ok => cases hsame
    | error =>
      intro e he
      rw [h] at he
      obtain rfl := Option.some.inj he
      rfl

theorem SameOutcome.refl (reply : Reply) : SameOutcome reply reply := by
  cases reply with
  | ok => exact rfl
  | error => exact trivial

namespace Resolver

variable [DecidableEq ι] {parseIP : String → Bool} {s t : Resolver ι} {e : Event ι}

/-- The host that a lookup waits for, and what has come of the query that it joined. -/
def awaited (s : Resolver ι) (i : ι) : Option (String × Reply) :=
  match s.lookups i with
  | .joined host _ owner => (s.lookups owner).outcome.map fun reply => (host, reply)
  | .fresh | .checking _ _ | .asking _ _ | .querying _ _ _ _ | .stored _ _ _ | .returned _ _ _ =>
    none

omit [DecidableEq ι] in
theorem awaited_eq_some {i : ι} {host : String} {reply : Reply} :
    s.awaited i = some (host, reply) ↔
      ∃ since owner, s.lookups i = .joined host since owner ∧
        (s.lookups owner).outcome = some reply := by
  rw [awaited]
  split
  · rename_i host' since owner hi
    rw [hi]
    constructor
    · intro h
      obtain ⟨reply', hreply, heq⟩ := Option.map_eq_some_iff.mp h
      obtain ⟨rfl, rfl⟩ := Prod.mk.inj heq
      exact ⟨since, owner, rfl, hreply⟩
    · rintro ⟨since', owner', heq, hreply⟩
      cases heq
      rw [hreply]
      rfl
  all_goals
    rename_i hi
    rw [hi]
    exact iff_of_false nofun nofun

/-- Until it has been read, an answer that is awaited stays in the cache: `SetServers` does
not empty it, it is no victim, it does not expire, and no later query of the host brings
something else. And no victim of a full cache has the empty name. -/
def Kept (parseIP : String → Bool) (s : Resolver ι) : Event ι → Prop
  | .setServers servers => normalizeDNSServers parseIP servers = [] ∨
      ∀ i, ∀ p ∈ s.awaited i, failed p.2 = true
  | .answered j a aaaa now order =>
    match s.lookups j with
    | .querying host _ servers _ =>
      (s.cache.Full host → victim now "" order ≠ "") ∧
      ∀ i, ∀ p ∈ s.awaited i,
        (p.1 = host → SameOutcome p.2 (queryAll host servers a aaaa)) ∧
        (s.cache.Full host → victim now "" order = p.1 → failed p.2 = true)
    | .fresh | .checking _ _ | .asking _ _ | .stored _ _ _ | .joined _ _ _ | .returned _ _ _ => True
  | .join i now => ∀ p ∈ s.awaited i, (failed p.2 = true) ∨
      ∀ e ∈ s.cache.lookup p.1, now < e.expires
  | .call _ _ _ | .check _ _ | .snapshot _ | .close _ => True

structure Sound (s : Resolver ι) : Prop extends s.Flight where
  tells : ∀ i host reply, s.awaited i = some (host, reply) → s.cache.Tells host reply
  small : s.cache.length ≤ dnsCacheMax

/-- A step by which no query comes to its end makes no answer awaited. -/
theorem awaited_update (hs : s.Flight) {i : ι} {l : Lookup ι}
    (hlookups : t.lookups = Function.update s.lookups i l)
    (hl : ∀ host since owner, l = .joined host since owner → (t.lookups owner).outcome = none)
    (hout : ∀ host, (s.lookups i).Leads host → ∀ reply, l.outcome = some reply →
      (s.lookups i).outcome = some reply) {j : ι} {host : String} {reply : Reply}
    (h : t.awaited j = some (host, reply)) : s.awaited j = some (host, reply) := by
  obtain ⟨since, owner, hj, howner⟩ := awaited_eq_some.mp h
  by_cases hji : j = i
  · subst hji
    rw [hlookups, Function.update_self] at hj
    rw [hl host since owner hj] at howner
    cases howner
  · rw [hlookups, Function.update_of_ne hji] at hj
    refine awaited_eq_some.mpr ⟨since, owner, hj, ?_⟩
    rw [hlookups] at howner
    by_cases ho : owner = i
    · subst ho
      rw [Function.update_self] at howner
      exact hout host (hs.joined j host since owner hj) reply howner
    · rwa [Function.update_of_ne ho] at howner

omit [DecidableEq ι] in
/-- The same cache for the same that wait. -/
theorem Sound.of_awaited (hs : s.Sound) (ht : t.Flight) (hcache : t.cache = s.cache)
    (hawaited : ∀ j host reply, t.awaited j = some (host, reply) →
      s.awaited j = some (host, reply)) : t.Sound where
  toFlight := ht
  tells := fun j host reply hj => hcache ▸ hs.tells j host reply (hawaited j host reply hj)
  small := hcache ▸ hs.small

theorem sound_step (hs : s.Sound) (hkept : s.Kept parseIP e) (h : s.step parseIP e = some t) :
    t.Sound := by
  have ht := flight_step hs.toFlight h
  cases took h with
  | kept => exact hs
  | replaced hsome =>
    refine ⟨ht, fun i host reply hi => ?_, Nat.zero_le _⟩
    rcases hkept with hnone | herr
    · exact absurd hnone hsome
    · have hfailed := herr i (host, reply) hi
      cases reply with
      | ok => cases hfailed
      | error => exact nofun
  | called hi hl =>
    refine hs.of_awaited ht rfl fun _ _ _ => awaited_update hs.toFlight rfl ?_ ?_
    · rcases hl with rfl | ⟨_, rfl⟩ <;> nofun
    · rw [hi]
      exact fun _ => False.elim
  | hit hi =>
    refine hs.of_awaited ht rfl fun _ _ _ => awaited_update hs.toFlight rfl ?_ ?_
    · exact fun _ _ _ heq => nomatch heq
    · rw [hi]
      exact fun _ => False.elim
  | @joins i owner _ _ host hi hflight =>
    refine hs.of_awaited ht rfl fun _ _ _ => awaited_update hs.toFlight rfl ?_ ?_
    · rintro _ _ _ ⟨⟩
      have hout := (hs.flight host owner).mp hflight
      have hne : owner ≠ i := by
        rintro rfl
        rw [hi] at hout
        exact hout
      rw [set_lookups_ne hne]
      exact hout.outcome_eq_none
    · rw [hi]
      exact fun _ => False.elim
  | asks hi =>
    refine hs.of_awaited ht rfl fun _ _ _ => awaited_update hs.toFlight rfl ?_ ?_
    · exact fun _ _ _ heq => nomatch heq
    · exact fun _ _ _ heq => nomatch heq
  | snapshot hi =>
    refine hs.of_awaited ht rfl fun _ _ _ => awaited_update hs.toFlight rfl ?_ ?_
    · exact fun _ _ _ heq => nomatch heq
    · exact fun _ _ _ heq => nomatch heq
  | @answered i a aaaa now since era order host servers hi hperm =>
    simp only [Kept, hi] at hkept
    obtain ⟨hnamed, hall⟩ := hkept
    refine ⟨ht, fun j host' reply hj => ?_, Cache.length_remember_le hs.small hperm hnamed⟩
    obtain ⟨since', owner, hjoined, howner⟩ := awaited_eq_some.mp hj
    replace hjoined : (s.set i (.stored since (queryAll host servers a aaaa) era)).lookups j =
        .joined host' since' owner := hjoined
    replace howner : ((s.set i (.stored since (queryAll host servers a aaaa) era)).lookups
        owner).outcome = some reply := howner
    have hji : j ≠ i := by
      rintro rfl
      rw [set_lookups_self] at hjoined
      cases hjoined
    rw [set_lookups_ne hji] at hjoined
    have hself := Cache.lookup_remember_self s.cache order now host
      (entryOf (queryAll host servers a aaaa) now era)
    by_cases ho : owner = i
    · -- it waits for this very query
      subst ho
      have hleads := hs.joined j host' since' owner hjoined
      rw [hi] at hleads
      obtain rfl : host = host' := hleads
      rw [set_lookups_self] at howner
      obtain rfl : queryAll host servers a aaaa = reply := Option.some.inj howner
      exact Cache.tells_entryOf hself (SameOutcome.refl _)
    · rw [set_lookups_ne ho] at howner
      have hbefore : s.awaited j = some (host', reply) :=
        awaited_eq_some.mpr ⟨since', owner, hjoined, howner⟩
      obtain ⟨hsame, hvictim⟩ := hall j (host', reply) hbefore
      by_cases hhost : host' = host
      · subst hhost
        exact Cache.tells_entryOf hself (hsame rfl)
      · have htells := hs.tells j host' reply hbefore
        cases reply with
        | ok ips =>
          obtain ⟨e', he', hpos, hips⟩ := htells
          refine ⟨e', ?_, hpos, hips⟩
          rw [← he']
          refine Cache.lookup_remember_ne hhost fun hfull heq => ?_
          cases hvictim hfull heq
        | error err =>
          intro e' he'
          exact htells e' (Cache.lookup_remember_of_ne hhost he')
  | closed hi =>
    refine hs.of_awaited ht rfl fun _ _ _ => awaited_update hs.toFlight rfl ?_ ?_
    · exact fun _ _ _ heq => nomatch heq
    · rw [hi]
      exact fun _ _ _ => id
  | @join i owner now since _ host _ _ l hi _ hl =>
    have hreturned : ∀ host' since' owner', l ≠ .joined host' since' owner' := by
      rw [hl]
      split <;> nofun
    refine hs.of_awaited ht rfl fun _ _ _ => awaited_update hs.toFlight rfl ?_ ?_
    · exact fun _ _ _ heq => absurd heq (hreturned _ _ _)
    · rw [hi]
      exact fun _ => False.elim

/-- The lookup that has waited returns what has come of the query. -/
def Told (parseIP : String → Bool) (s : Resolver ι) : Event ι → Prop
  | .join i now => ∀ t, s.step parseIP (.join i now) = some t →
      ∃ host reply since reply' era, s.awaited i = some (host, reply) ∧
        t.lookups i = .returned since reply' era ∧ SameOutcome reply reply'
  | .setServers _ | .call _ _ _ | .check _ _ | .snapshot _ | .answered _ _ _ _ _ | .close _ => True

theorem told_of_sound (hs : s.Sound) (hkept : s.Kept parseIP e) : s.Told parseIP e := by
  cases e with
  | setServers | call | check | snapshot | answered | close => trivial
  | join i now =>
    intro t ht
    cases took ht with
    | @join _ owner _ since since' host reply era l hi howner hl =>
      have hawaited : s.awaited i = some (host, reply) :=
        awaited_eq_some.mpr ⟨since, owner, hi, by rw [howner]; rfl⟩
      have htells := hs.tells i host reply hawaited
      have hfresh := hkept (host, reply) hawaited
      refine ⟨host, reply, ?_⟩
      rw [set_lookups_self, hl]
      cases reply with
      | ok ips =>
        obtain ⟨e, he, hpos, hips⟩ := htells
        have hlive : s.cache.live host now = some e := by
          rcases hfresh with hfailed | hfresh
          · cases hfailed
          · rw [Cache.live, he, Option.filter_some, if_pos (decide_eq_true (hfresh e he))]
        rw [hlive]
        refine ⟨since, _, _, hawaited, rfl, ?_⟩
        rw [cachedLookup, if_neg (by simp [hpos])]
        exact hips.symm
      | error err =>
        split
        · rename_i e he
          have hneg := htells e (Option.filter_eq_some_iff.mp he).1
          refine ⟨since, _, _, hawaited, rfl, ?_⟩
          rw [cachedLookup, if_pos hneg]
          trivial
        · exact ⟨since, _, _, hawaited, rfl, trivial⟩

omit [DecidableEq ι] in
theorem sound_new (parseIP : String → Bool) (servers : List String) :
    (new ι parseIP servers).Sound where
  toFlight := flight_new parseIP servers
  tells := nofun
  small := Nat.zero_le _

omit [DecidableEq ι] in
theorem mayClose_of_leading {l : Lookup ι} (h : l.Leading = true) :
    l.mayClose = if l.left = 0 then 0 else 1 := by
  cases l with
  | asking | querying | stored | returned => rfl
  | fresh | checking | joined => cases h

omit [DecidableEq ι] in
theorem leading_of_left {l : Lookup ι} (h : 0 < l.left) : l.Leading = true := by
  cases l with
  | asking | querying | stored => rfl
  | fresh | checking | joined | returned => exact absurd h (Nat.lt_irrefl 0)

/-- In every run whose steps keep what is awaited, at most one query of a host is outstanding,
the cache stays within its limit, and those that joined a query return its outcome. And in
every run a channel is closed at most once; the lookup that made it closes it with the last
of its own steps, of which it can always take the next. -/
theorem single_flight (parseIP : String → Bool) (servers : List String) {es : List (Event ι)}
    (hkept : Admits (step parseIP) (Kept parseIP) (new ι parseIP servers) es) :
    Always (step parseIP) (fun s => s.Single ∧ s.cache.length ≤ dnsCacheMax)
      (new ι parseIP servers) es ∧
    Admits (step parseIP) (Told parseIP) (new ι parseIP servers) es ∧
    ∀ (before after : List (Event ι)) (s t : Resolver ι) (i : ι),
      run (step parseIP) (new ι parseIP servers) before = some s →
      run (step parseIP) s after = some t →
      (before ++ after).countP (·.closes i) ≤ 1 ∧
      (0 < (s.lookups i).left →
        before.countP (·.closes i) = 0 ∧
        after.countP (·.own i) + (t.lookups i).left = (s.lookups i).left ∧
        (after.countP (·.closes i) = 1 ↔ (t.lookups i).left = 0) ∧
        (0 < (t.lookups i).left → ∃ e : Event ι, e.own i = true ∧ (t.step parseIP e).isSome)) := by
  have hsound := sound_new (ι := ι) parseIP servers
  have hall := always_of_admits (fun s e t => sound_step (s := s) (t := t) (e := e)) hsound hkept
  refine ⟨hall.mono fun s hs => ⟨hs.toFlight.single, hs.small⟩, ?_, ?_⟩
  · exact hkept.of_invariant (fun _ _ _ hs hk h => sound_step hs hk h)
      (fun _ _ hs hk => told_of_sound hs hk) hsound
  · intro before after s t i hbefore hafter
    have hle := closings_le (i := i) hbefore
    have hle' := closings_le (i := i) hafter
    have hstart : ((new ι parseIP servers).lookups i).mayClose = 1 := rfl
    rw [hstart] at hle
    refine ⟨by rw [List.countP_append]; omega, fun hleft => ?_⟩
    have hlead := leading_of_left hleft
    obtain ⟨ht, howns, hcloses⟩ := lead_run hlead hafter
    have hs_may := mayClose_of_leading hlead
    have ht_may := mayClose_of_leading ht
    rw [if_neg hleft.ne'] at hs_may
    refine ⟨by omega, howns, ?_, lead_enabled parseIP⟩
    split at ht_may
    · rename_i hzero
      exact iff_of_true (by omega) hzero
    · rename_i hpos
      exact iff_of_false (by omega) hpos

instance Kept.decidable [Fintype ι] (s : Resolver ι) (e : Event ι) :
    Decidable (Kept parseIP s e) :=
  match e with
  | .setServers servers => inferInstanceAs (Decidable (normalizeDNSServers parseIP servers = [] ∨
      ∀ i, ∀ p ∈ s.awaited i, failed p.2 = true))
  | .answered j a aaaa now order =>
    match h : s.lookups j with
    | .querying host _ servers _ =>
      decidable_of_iff ((s.cache.Full host → victim now "" order ≠ "") ∧
        ∀ i, ∀ p ∈ s.awaited i,
          (p.1 = host → SameOutcome p.2 (queryAll host servers a aaaa)) ∧
          (s.cache.Full host → victim now "" order = p.1 → failed p.2 = true))
        (by simp only [Kept, h])
    | .fresh | .checking _ _ | .asking _ _ | .stored _ _ _ | .joined _ _ _ | .returned _ _ _ =>
      isTrue (by simp only [Kept, h])
  | .join i now => inferInstanceAs (Decidable (∀ p ∈ s.awaited i, failed p.2 = true ∨
      ∀ e ∈ s.cache.lookup p.1, now < e.expires))
  | .call _ _ _ | .check _ _ | .snapshot _ | .close _ => isTrue trivial

/-- Two lookups of a host, the second while the first asks; what comes between the answer
and its reading is left open. -/
def twoLookups (between : List (Event Bool)) : List (Event Bool) :=
  [.call false "example.test" (.ok []), .call true "example.test" (.ok []), .check false 0,
    .check true 0, .snapshot false, .answered false [.ok ["10.0.0.1"]] [.ok []] 0 [],
    .close false] ++
  between ++ [.join true 1]

theorem two_told :
    Admits (step isAddress) (Told isAddress) (new Bool isAddress ["192.0.2.53"])
      (twoLookups []) :=
  (single_flight isAddress ["192.0.2.53"] (by decide +kernel)).2.1

/-- The query has brought an address, and the lookup that waited for it fails: the cache was
emptied before it was read. -/
theorem cleared_before_read :
    ¬ Admits (step isAddress) (Told isAddress) (new Bool isAddress ["192.0.2.53"])
      (twoLookups [.setServers ["198.51.100.5"]]) := by
  intro htold
  let front := (twoLookups [.setServers ["198.51.100.5"]]).dropLast
  have hlast : twoLookups [.setServers ["198.51.100.5"]] = front ++ [.join true 1] := rfl
  have hread : ((run (step isAddress) (new Bool isAddress ["192.0.2.53"]) front).bind fun s =>
      (s.step isAddress (.join true 1)).map fun t => (s.awaited true, (t.lookups true).outcome)) =
        some (some ("example.test", .ok ["10.0.0.1"]),
          some (.error "dns: concurrent resolve of example.test failed")) := by
    decide +kernel
  obtain ⟨s, hs, hjoin⟩ := Option.bind_eq_some_iff.mp hread
  obtain ⟨t, ht, heq⟩ := Option.map_eq_some_iff.mp hjoin
  obtain ⟨hawaited, houtcome⟩ := Prod.mk.inj heq
  rw [hlast, admits_append hs, admits_cons ht] at htold
  obtain ⟨host, reply, since, reply', era, hawaited', ht', hsame⟩ := htold.2.1 t ht
  rw [hawaited] at hawaited'
  rw [ht'] at houtcome
  obtain ⟨rfl, rfl⟩ := Prod.mk.inj (Option.some.inj hawaited')
  obtain rfl : reply' = .error _ := Option.some.inj houtcome
  exact hsame

end Resolver

end Csqtt.Dns
