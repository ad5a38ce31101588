/-
No created call is forgotten, and when that fails.

A batch that ends with a rejected token drops the calls that it has created; more hashes
than there is room for drop the hashes and, at the next start, the ids; and a process that
has not restored the state overwrites it.

* `remembered_of_tame` — the saved ids and hashes are those of the calls that are still to be
  finished, if VK does not reject the token in the middle of a batch, its hashes are plain,
  new and not too many, and no process that has not restored the state saves it.
-/
import Csqtt.AutoCallsRun

open Transition Csqtt.Text

namespace Csqtt.AutoCalls

/-- The saved lists are those of the calls `live`, which are all that is not finished. -/
structure Tracks (st : SavedState) (created finished live : List ActiveCall) : Prop where
  ids : st.autoCallIds = live.map (·.callId)
  hashes : st.autoHashes = live.map (·.hash)
  plain : ∀ c ∈ live, Plain c.hash
  nodup : (live.map (·.hash)).Nodup
  length : live.length ≤ maxVkHashes
  made : ∀ c ∈ live, c ∈ created
  all : ∀ c ∈ created, c ∈ finished ∨ c ∈ live

namespace Tracks

variable {st st' : SavedState} {created finished live new : List ActiveCall}

theorem uniq (h : Tracks st created finished live) : uniqHashes st.autoHashes = st.autoHashes := by
  rw [h.hashes]
  refine uniqHashes_of_plain ?_ h.nodup (by rw [List.length_map]; exact h.length)
  intro hash hmem
  obtain ⟨c, hc, rfl⟩ := List.mem_map.mp hmem
  exact h.plain c hc

theorem of_eq (h : Tracks st created finished live) (hids : st'.autoCallIds = st.autoCallIds)
    (hhashes : st'.autoHashes = st.autoHashes) : Tracks st' created finished live :=
  { h with ids := hids.trans h.ids, hashes := hhashes.trans h.hashes }

/-- What is restored is what was saved. -/
theorem restore (h : Tracks st created finished live) :
    Tracks (restoreSavedState st) created finished live := by
  refine h.of_eq ?_ h.uniq
  simp only [restoreSavedState, h.uniq]
  rw [h.ids, h.hashes, List.length_map, ← List.length_map (f := fun c : ActiveCall => c.callId),
    List.take_length]

theorem helperStateFields (h : Tracks st created finished live) :
    Tracks (helperStateFields st) created finished live := by
  rw [AutoCalls.helperStateFields]
  split_ifs with hnone
  · refine h.of_eq ?_ rfl
    rw [h.hashes, List.map_eq_nil_iff] at hnone
    rw [h.ids, hnone]
    rfl
  · exact h

theorem nil_iff (h : Tracks st created finished live) : st.autoHashes = [] ↔ live = [] := by
  rw [h.hashes, List.map_eq_nil_iff]

end Tracks

/-- No call is forgotten, and each id is that of the call that gave the hash. -/
def Remembered (s : Helper) : Prop :=
  (∀ c ∈ s.created, c ∉ s.finished → c.callId ∈ s.saved.autoCallIds) ∧
    ∀ (i : ℕ) (id : String), s.saved.autoCallIds[i]? = some id →
      ∃ c ∈ s.created, c.callId = id ∧ s.saved.autoHashes[i]? = some c.hash

theorem Tracks.remembered {s : Helper} {live : List ActiveCall}
    (h : Tracks s.saved s.created s.finished live) : Remembered s := by
  constructor
  · intro c hc hnot
    rw [h.ids]
    exact List.mem_map_of_mem ((h.all c hc).resolve_left hnot)
  · intro i id hid
    rw [h.ids, List.getElem?_map, Option.map_eq_some_iff] at hid
    obtain ⟨c, hc, rfl⟩ := hid
    refine ⟨c, h.made c (List.mem_of_getElem? hc), rfl, ?_⟩
    rw [h.hashes, List.getElem?_map, hc]
    rfl

/-- The process and the host agree. -/
structure Both (s : Helper) (live : List ActiveCall) : Prop where
  persisted : Tracks s.persisted s.created s.finished live
  saved : Tracks s.saved s.created s.finished live
  restored : s.restored

namespace Both

variable {s : Helper} {live : List ActiveCall}

theorem restore (h : Tracks s.saved s.created s.finished live) : Both s.restore live :=
  ⟨h.restore, h, rfl⟩

/-- Saving a state with other fields changed. -/
theorem persist (h : Both s live) {st : SavedState}
    (hids : st.autoCallIds = s.persisted.autoCallIds)
    (hhashes : st.autoHashes = s.persisted.autoHashes) :
    Both (Helper.persistState { s with persisted := st }) live :=
  ⟨h.persisted.of_eq hids hhashes, h.persisted.of_eq hids hhashes, h.restored⟩

theorem saveVkToken (h : Both s live) (token : String) : Both (s.saveVkToken token) live :=
  h.persist rfl rfl

theorem ensureVkToken (h : Both s live) (blob : SavedState) (login : Option Helper.Token) :
    Both (s.ensureVkToken blob login).2 live ∧
      ∀ token ∈ (s.ensureVkToken blob login).1, trim token ≠ "" := by
  simp only [Helper.ensureVkToken]
  split_ifs with htoken hrestored
  · refine ⟨h, ?_⟩
    rintro _ ⟨⟩
    rw [trim_trim]
    exact htoken
  · refine ⟨⟨h.persisted.of_eq rfl rfl, h.saved, h.restored⟩, ?_⟩
    rintro _ ⟨⟩
    simp only [restoreSavedState] at hrestored ⊢
    rw [trim_trim]
    exact hrestored
  · rcases login with _ | token
    · exact ⟨h, nofun⟩
    · refine ⟨h.saveVkToken token.val, ?_⟩
      rintro _ ⟨⟩
      exact token.property

/-- The calls of an expired set are all finished. -/
theorem expire (h : Both s live) {token : String} (htoken : trim token ≠ "") :
    Both (if s.persisted.autoHashes = [] then s else s.expireAutoHashes token) [] := by
  split_ifs with hnone
  · exact h.persisted.nil_iff.mp hnone ▸ h
  · have hcalls : (s.persisted.autoCallIds.mapIdx fun i id =>
        ActiveCall.mk id (s.persisted.autoHashes[i]?.getD "")) = live := by
      rw [h.persisted.ids, h.persisted.hashes]
      refine List.ext_getElem? fun i => ?_
      simp only [List.getElem?_mapIdx, List.getElem?_map]
      rcases live[i]? with _ | c <;> rfl
    have htracks : Tracks { s.persisted with autoHashes := [], autoCallIds := [], autoHashesAt := 0 }
        s.created (s.finished ++ live) [] :=
      { ids := rfl
        hashes := rfl
        plain := nofun
        nodup := List.nodup_nil
        length := Nat.zero_le _
        made := nofun
        all := fun c hc => .inl (List.mem_append.mpr (h.persisted.all c hc)) }
    rw [Helper.expireAutoHashes, if_neg fun hboth => hnone hboth.2]
    simp only [if_pos htoken, hcalls]
    exact ⟨htracks, htracks, h.restored⟩

/-! #### A batch -/

variable (token : String) (count : ℤ) {api : ℕ → ℕ → ApiAnswer}

theorem startCalls_whole (s : Helper) (hsteady : Steady api) :
    Whole api count (s.startCalls token count api).1 := by
  simp only [Helper.startCalls]
  exact startVkAutoCallsCount_whole hsteady token count

/-- A batch that has failed has created nothing. -/
theorem startCalls_nothing (h : Both s live) (api : ℕ → ℕ → ApiAnswer)
    (hcalls : (s.startCalls token count api).1.1.calls = []) :
    Both (s.startCalls token count api).2 live := by
  have hcreated : (s.startCalls token count api).2.created = s.created := by
    rw [Helper.startCalls] at hcalls ⊢
    simp only at hcalls ⊢
    rw [hcalls, List.append_nil]
  exact ⟨hcreated ▸ h.persisted, hcreated ▸ h.saved, h.restored⟩

/-- The ids that are noted are those of the calls. -/
theorem noted_ids {calls : List ActiveCall} (hgiven : ∀ c ∈ calls, Given api 0 c) :
    (calls.map fun c => trim c.callId).filter (· ≠ "") = calls.map (·.callId) := by
  have hmap : (calls.map fun c => trim c.callId) = calls.map (·.callId) :=
    List.map_congr_left fun c hc => (hgiven c hc).callId.1
  rw [hmap, List.filter_eq_self]
  intro id hid
  obtain ⟨c, hc, rfl⟩ := List.mem_map.mp hid
  exact decide_eq_true (hgiven c hc).callId.2

/-- The calls `calls` can be added to `live`. -/
structure Fits (live calls : List ActiveCall) : Prop where
  plain : ∀ c ∈ calls, Plain c.hash
  nodup : ((live ++ calls).map (·.hash)).Nodup
  length : (live ++ calls).length ≤ maxVkHashes

/-- The lists with the calls of a batch at their ends. -/
theorem add {calls : List ActiveCall} {st : SavedState} (h : Both s live)
    (hfits : Fits live calls) (hgiven : ∀ c ∈ calls, Given api 0 c)
    (hids : st.autoCallIds = s.persisted.autoCallIds ++
      (calls.map fun c => trim c.callId).filter (· ≠ ""))
    (hhashes : st.autoHashes = uniqHashes (s.persisted.autoHashes ++ calls.map (·.hash))) :
    Both (Helper.persistState { s with created := s.created ++ calls, persisted := st })
      (live ++ calls) := by
  have hplain : ∀ c ∈ live ++ calls, Plain c.hash := by
    intro c hc
    rcases List.mem_append.mp hc with hc | hc
    · exact h.persisted.plain c hc
    · exact hfits.plain c hc
  have htracks : Tracks st (s.created ++ calls) s.finished (live ++ calls) :=
    { ids := by rw [hids, noted_ids hgiven, h.persisted.ids, List.map_append]
      hashes := by
        rw [hhashes, h.persisted.hashes, ← List.map_append]
        refine uniqHashes_of_plain ?_ hfits.nodup (by rw [List.length_map]; exact hfits.length)
        intro hash hmem
        obtain ⟨c, hc, rfl⟩ := List.mem_map.mp hmem
        exact hplain c hc
      plain := hplain
      nodup := hfits.nodup
      length := hfits.length
      made := by
        intro c hc
        rcases List.mem_append.mp hc with hc | hc
        · exact List.mem_append_left calls (h.persisted.made c hc)
        · exact List.mem_append_right s.created hc
      all := by
        intro c hc
        rcases List.mem_append.mp hc with hc | hc
        · exact (h.persisted.all c hc).imp_right (List.mem_append_left calls)
        · exact .inr (List.mem_append_right live hc) }
  exact ⟨htracks, htracks, h.restored⟩

theorem append (h : Both s live) (hsteady : Steady api)
    (hfits : Fits live (s.startCalls token count api).1.1.calls) (now : ℤ) :
    Both ((s.startCalls token count api).2.appendAutoHashes (s.startCalls token count api).1.1 now)
      (live ++ (s.startCalls token count api).1.1.calls) := by
  have hwhole := startVkAutoCallsCount_whole hsteady token count
  simp only [Helper.startCalls] at hfits ⊢
  generalize startVkAutoCallsCount token count api = started at hwhole hfits ⊢
  refine h.add hfits hwhole.given rfl ?_
  rw [← hwhole.hashes]

theorem store (h : Both s []) (hsteady : Steady api)
    (hfits : Fits [] (s.startCalls token count api).1.1.calls) (now : ℤ) :
    Both ((s.startCalls token count api).2.storeAutoHashes (s.startCalls token count api).1.1 now)
      (s.startCalls token count api).1.1.calls := by
  have hwhole := startVkAutoCallsCount_whole hsteady token count
  simp only [Helper.startCalls] at hfits ⊢
  generalize startVkAutoCallsCount token count api = started at hwhole hfits ⊢
  refine h.add hfits hwhole.given ?_ ?_
  · rw [h.persisted.ids]
    rfl
  · rw [h.persisted.hashes, ← hwhole.hashes]
    rfl

end Both

/-! ### Fresh hashes -/

/-- The hashes that the batches `api` can create are plain, new and all different. -/
structure Fresh {β : Type} (api : β → ℕ → ℕ → ApiAnswer) (known : List String) : Prop where
  plain : ∀ b i c, vkStartCallWithRetry (api b i) = .ok c → Plain c.hash
  new : ∀ b i c, vkStartCallWithRetry (api b i) = .ok c → c.hash ∉ known
  apart : ∀ b i c b' i' c', vkStartCallWithRetry (api b i) = .ok c →
    vkStartCallWithRetry (api b' i') = .ok c' → c.hash = c'.hash → b = b' ∧ i = i'

variable {β : Type} {api : β → ℕ → ℕ → ApiAnswer} {known : List String}

/-- The calls of a batch fit behind calls that are known or come from other batches. -/
theorem Fresh.fits (hfresh : Fresh api known) {b : β} (hsteady : Steady (api b)) (token : String)
    (count : ℤ) (s : Helper) {live : List ActiveCall} (hnodup : (live.map (·.hash)).Nodup)
    (horigin : ∀ c ∈ live, c.hash ∈ known ∨ ∃ b' ≠ b, Given (api b') 0 c)
    (hlength : live.length + okSlots (api b) 0 (clampCount count) ≤ maxVkHashes) :
    Both.Fits live (s.startCalls token count (api b)).1.1.calls := by
  have hwhole := Both.startCalls_whole token count s hsteady
  refine ⟨fun c hc => ?_, ?_, ?_⟩
  · obtain ⟨i, _, hok⟩ := hwhole.given c hc
    exact hfresh.plain b i c hok
  · rw [List.map_append, List.nodup_append]
    refine ⟨hnodup, ?_, ?_⟩
    · rw [List.Nodup, List.pairwise_map]
      refine hwhole.apart.imp ?_
      rintro c c' ⟨i, j, hij, hi, hj⟩ heq
      have hsame := hfresh.apart b i c b j c' hi hj heq
      omega
    · intro x hx y hy hxy
      obtain ⟨c, hc, rfl⟩ := List.mem_map.mp hx
      obtain ⟨c', hc', rfl⟩ := List.mem_map.mp hy
      obtain ⟨i, _, hok⟩ := hwhole.given c' hc'
      rcases horigin c hc with hknown | ⟨b', hb', i', _, hok'⟩
      · exact hfresh.new b i c' hok (hxy ▸ hknown)
      · exact hb' (hfresh.apart b' i' c b i c' hok' hok hxy).1
  · rw [List.length_append]
    exact (Nat.add_le_add_left hwhole.length live.length).trans hlength

/-! ### The processes -/

namespace CsqttRun

variable (env : CsqttRun) {s : Helper} {live : List ActiveCall}

/-- What the variables of the process say when the hashes are created by the helper. -/
def Coherent (session : Session) (live : List ActiveCall) : Prop :=
  session.hashMode = .autoApi →
    (session.hashes ≠ [] → session.hashes = live.map (·.hash)) ∧
      (session.hashes = [] → trim session.vkToken ≠ "")

theorem fallback_none (seed : List String) (s : Helper) {session : Session}
    (h : (fallback seed s).1 = some session) : session.hashMode = .manual := by
  simp only [fallback] at h
  split_ifs at h
  cases h
  rfl

/-- The cached hashes are those of the calls that are still to be finished. -/
theorem cached_hashes (h : Both s live) {now : ℤ} {hashes : List String}
    (hcached : s.takeCachedAutoHashes now = some hashes) : hashes = live.map (·.hash) := by
  simp only [Helper.takeCachedAutoHashes] at hcached
  split_ifs at hcached
  cases hcached
  exact h.persisted.hashes

theorem callCount_pos : 0 < env.needHashes := (callCountForWorkers_bounds env.workers).1

theorem signIn_both (h : Both s live) (blob : SavedState) (seed : List String) :
    Both (env.signIn blob seed s).2 live ∧
      ∀ session ∈ (env.signIn blob seed s).1, Coherent session live := by
  have hhashes : ∀ hashes, (if env.hashMode = .autoApi then
      (s.takeCachedAutoHashes env.now).getD [] else []) = hashes →
        hashes ≠ [] → hashes = live.map (·.hash) := by
    rintro hashes rfl hsome
    split_ifs at hsome ⊢
    · rcases hcached : s.takeCachedAutoHashes env.now with _ | hashes
      · rw [hcached] at hsome
        exact absurd rfl hsome
      · exact cached_hashes h hcached
    · exact absurd rfl hsome
  simp only [signIn]
  generalize hgen : (if env.hashMode = .autoApi then
    (s.takeCachedAutoHashes env.now).getD [] else []) = hashes
  specialize hhashes hashes hgen
  clear hgen
  split
  · obtain ⟨hboth, htoken⟩ := h.ensureVkToken blob (env.logins 0)
    generalize s.ensureVkToken blob (env.logins 0) = ensured at hboth htoken
    obtain ⟨_ | token, s'⟩ := ensured
    · -- the login has failed: from here on the hashes count as manual
      simp only
      split_ifs
      · refine ⟨hboth, fun session hsession hauto => ?_⟩
        obtain ⟨cached, _, rfl⟩ := Option.map_eq_some_iff.mp hsession
        cases hauto
      · refine ⟨hboth, fun session hsession hauto => ?_⟩
        rw [fallback_none seed s' hsession] at hauto
        cases hauto
    · refine ⟨hboth, ?_⟩
      rintro _ ⟨⟩ _
      exact ⟨hhashes, fun _ => htoken token rfl⟩
  · next hneed =>
    refine ⟨h, ?_⟩
    rintro _ ⟨⟩ (hauto : env.hashMode = .autoApi)
    refine ⟨hhashes, fun (hnil : hashes = []) => ?_⟩
    -- without a login there are enough hashes, so there is one
    have hcovered : env.needHashes ≤ hashes.length := by
      by_contra hfew
      exact hneed ⟨.inl (by rw [hauto]; nofun), fun hcov => hfew hcov.2.1⟩
    have hpos := env.callCount_pos
    rw [hnil] at hcovered
    exact absurd (hpos.trans_le hcovered) (Nat.lt_irrefl 0)

/-- What `create` leaves: the calls of the lists are known or from the first two batches,
and the process uses their hashes. -/
structure Created (result : Option Session × Helper) (live created : List ActiveCall) : Prop where
  both : Both result.2 created
  session : ∀ session ∈ result.1, session.hashMode = .autoApi →
    session.hashes = created.map (·.hash)
  origin : ∀ c ∈ created, c ∈ live ∨ ∃ b < 2, Given (env.api b) 0 c

theorem Created.of_manual {result : Option Session × Helper} (h : Both result.2 live)
    (hmanual : ∀ session ∈ result.1, session.hashMode ≠ .autoApi) :
    env.Created result live live :=
  ⟨h, fun session hsession hauto => absurd hauto (hmanual session hsession),
    fun _ hc => .inl hc⟩

/-- How many calls a batch of a CSQTT process can create. -/
theorem okSlots_needHashes (count : ℤ) (api : ℕ → ℕ → ApiAnswer) {room : ℕ} (hpos : 0 < room)
    (hcount : count ≤ room) : okSlots api 0 (clampCount count) ≤ room := by
  refine (okSlots_le api 0 _).trans ?_
  rw [clampCount]
  omega

/-- A batch into an empty set. -/
theorem settleStart_created (h : Both s []) (hfresh : Fresh env.api known) {b : Fin 4} (hb : b < 2)
    (hsteady : Steady (env.api b)) (seed : List String) (token token' : String) :
    ∃ created, env.Created
      (env.settleStart seed token (s.startCalls token' env.needHashes (env.api b))) [] created := by
  have hwhole : Whole (env.api b) env.needHashes
      (s.startCalls token' env.needHashes (env.api b)).1 :=
    Both.startCalls_whole token' env.needHashes s hsteady
  have hnothing := h.startCalls_nothing token' env.needHashes (env.api b)
  have hstore := h.store token' env.needHashes hsteady
    (hfresh.fits hsteady token' env.needHashes s List.nodup_nil (fun _ hc => nomatch hc) (by
      have hslots := okSlots_needHashes (env.needHashes : ℤ) (env.api b) (by decide : 0 < maxVkHashes)
        (Int.ofNat_le.mpr (callCountForWorkers_bounds env.workers).2)
      simpa using hslots)) env.now
  generalize s.startCalls token' env.needHashes (env.api b) = started at hwhole hnothing hstore ⊢
  obtain ⟨⟨out, err⟩, s'⟩ := started
  simp only [settleStart]
  split_ifs with hfailed
  · have hcalls : out.calls = [] := by
      rcases hfailed with herr | hnil
      · exact hwhole.none_of_error herr
      · exact List.map_eq_nil_iff.mp (hwhole.hashes.symm.trans hnil)
    refine ⟨[], .of_manual env (hnothing hcalls) fun session hsession => ?_⟩
    rw [fallback_none seed _ hsession]
    nofun
  · refine ⟨out.calls, hstore, ?_, fun c hc => .inr ⟨b, hb, hwhole.given c hc⟩⟩
    rintro _ ⟨⟩ _
    exact hwhole.hashes

theorem Created.of_none {result : Option Session × Helper} {created : List ActiveCall}
    (h : env.Created result [] created) : env.Created result live created :=
  ⟨h.both, h.session, fun c hc => .inr ((h.origin c hc).resolve_left (fun hnone => nomatch hnone))⟩

theorem manual_created (h : Both s live) (hashes : List String) (session : Session)
    (hmode : session.hashMode ≠ .autoApi) :
    env.Created (manual hashes session s) live live := by
  refine .of_manual env (h.persist rfl rfl) ?_
  rintro _ ⟨⟩
  exact hmode

theorem create_created (h : Both s live) (hfresh : Fresh env.api known)
    (hsteady : ∀ b, Steady (env.api b)) (seed : List String) (session : Session)
    (hcoherent : Coherent session live) :
    ∃ created, env.Created (env.create seed session s) live created := by
  rw [create]
  by_cases hnone : session.hashes = []
  · rw [if_pos hnone]
    rcases hmode : session.hashMode
    · simp only
      split
      · exact ⟨live, .of_manual env h nofun⟩
      · exact ⟨live, .of_manual env h nofun⟩
      · exact ⟨live, manual_created env h _ session (by rw [hmode]; nofun)⟩
    · -- the old set is finished before the new one is created
      have hexpired := h.expire ((hcoherent hmode).2 hnone)
      simp only
      generalize (if s.persisted.autoHashes = [] then s
        else s.expireAutoHashes session.vkToken) = s₁ at hexpired ⊢
      split_ifs with hinvalid
      · have hcalls : (s₁.startCalls session.vkToken env.needHashes (env.api 0)).1.1.calls = [] :=
          (Both.startCalls_whole session.vkToken env.needHashes s₁ (hsteady 0)).none_of_error
            (by rw [hinvalid]; nofun)
        have hrejected := (hexpired.startCalls_nothing _ _ _ hcalls).saveVkToken ""
        rcases env.logins 1 with _ | fresh
        · refine ⟨[], .of_none env (.of_manual env hrejected fun session hsession => ?_)⟩
          rw [fallback_none seed _ hsession]
          nofun
        · obtain ⟨created, hcreated⟩ := settleStart_created env
            (hrejected.saveVkToken fresh.val) hfresh (b := 1) (by decide) (hsteady 1) seed fresh.val
            fresh.val
          exact ⟨created, hcreated.of_none⟩
      · obtain ⟨created, hcreated⟩ := settleStart_created env hexpired hfresh (b := 0) (by decide)
          (hsteady 0) seed session.vkToken session.vkToken
        exact ⟨created, hcreated.of_none⟩
    · exact ⟨live, .of_manual env h (by rintro _ ⟨⟩; rw [hmode]; nofun)⟩
  · rw [if_neg hnone]
    split_ifs with hmode
    · exact ⟨live, manual_created env h session.hashes session (by rw [hmode]; nofun)⟩
    · refine ⟨live, h, ?_, fun c hc => .inl hc⟩
      rintro _ ⟨⟩ hauto
      exact (hcoherent hauto).1 hnone

/-- A batch that is added to the set. -/
theorem append_both {created : List ActiveCall} (h : Both s created) (hfresh : Fresh env.api known)
    (horigin : ∀ c ∈ created, c.hash ∈ known ∨ ∃ b < 2, Given (env.api b) 0 c) {b : Fin 4}
    (hb : 2 ≤ b) (hsteady : Steady (env.api b)) (token : String) {missing : ℕ} (hpos : 0 < missing)
    (hlength : created.length + missing ≤ maxVkHashes)
    {started : (AutoStart × Option StartError) × Helper}
    (hstarted : s.startCalls token missing (env.api b) = started) :
    ∃ live', Both (if started.1.2 = none ∧ started.1.1.hashes ≠ [] then
      started.2.appendAutoHashes started.1.1 env.now else started.2) live' := by
  have hwhole : Whole (env.api b) missing started.1 :=
    hstarted ▸ Both.startCalls_whole token missing s hsteady
  have hother : ∀ c ∈ created, c.hash ∈ known ∨ ∃ b' ≠ b, Given (env.api b') 0 c := by
    intro c hc
    refine (horigin c hc).imp_right ?_
    rintro ⟨b', hb', hgiven⟩
    exact ⟨b', by omega, hgiven⟩
  have hslots := okSlots_needHashes (missing : ℤ) (env.api b) hpos (Int.le_refl _)
  have hfits := hfresh.fits hsteady token missing s h.persisted.nodup hother (by omega)
  split_ifs with hok
  · rw [← hstarted]
    exact ⟨_, h.append _ _ hsteady hfits env.now⟩
  · have hcalls : started.1.1.calls = [] := by
      by_cases herr : started.1.2 = none
      · have hnil : started.1.1.hashes = [] := by
          by_contra hsome
          exact hok ⟨herr, hsome⟩
        rw [hwhole.hashes] at hnil
        exact List.map_eq_nil_iff.mp hnil
      · exact hwhole.none_of_error herr
    subst hstarted
    exact ⟨created, h.startCalls_nothing _ _ _ hcalls⟩

theorem topUp_both {result : Option Session × Helper} {created : List ActiveCall}
    (h : env.Created result live created) (hknown : ∀ c ∈ live, c.hash ∈ known)
    (hfresh : Fresh env.api known) (hsteady : ∀ b, Steady (env.api b)) (blob : SavedState)
    {session : Session} (hsession : session ∈ result.1) :
    ∃ live', Both (env.topUp blob session result.2) live' := by
  have horigin : ∀ c ∈ created, c.hash ∈ known ∨ ∃ b < 2, Given (env.api b) 0 c :=
    fun c hc => (h.origin c hc).imp_left (hknown c)
  rw [topUp]
  split
  · next hneed =>
    obtain ⟨hauto, _, hpos⟩ := hneed
    have hlength := congrArg List.length (h.session session hsession hauto)
    rw [List.length_map] at hlength
    rw [hlength] at hpos ⊢
    -- there is room for what is missing
    generalize hmissing : min (env.needHashes - created.length) (maxVkHashes - created.length) =
      missing at hpos ⊢
    have hroom : created.length + missing ≤ maxVkHashes := by omega
    have hsigned : Both (if session.vkToken = "" then result.2.ensureVkToken blob (env.logins 2)
        else (some session.vkToken, result.2)).2 created := by
      split_ifs
      · exact (h.both.ensureVkToken blob (env.logins 2)).1
      · exact h.both
    generalize (if session.vkToken = "" then result.2.ensureVkToken blob (env.logins 2)
        else (some session.vkToken, result.2)) = signed at hsigned ⊢
    obtain ⟨_ | token, s⟩ := signed
    · exact ⟨created, hsigned⟩
    · simp only
      by_cases hinvalid : (s.startCalls token missing (env.api 2)).1.2 = some .tokenInvalid
      · have hcalls : (s.startCalls token missing (env.api 2)).1.1.calls = [] :=
          (Both.startCalls_whole token missing s (hsteady 2)).none_of_error
            (by rw [hinvalid]; nofun)
        have hrejected := (Both.startCalls_nothing _ _ hsigned _ hcalls).saveVkToken ""
        rw [if_pos hinvalid]
        rcases env.logins 3 with _ | fresh
        · refine ⟨created, ?_⟩
          simp only [hinvalid]
          exact hrejected
        · exact append_both env (hrejected.saveVkToken fresh.val) hfresh horigin
            (b := 3) (by decide) (hsteady 3) fresh.val hpos hroom rfl
      · rw [if_neg hinvalid]
        exact append_both env hsigned hfresh horigin (b := 2) (by decide) (hsteady 2)
          token hpos hroom rfl
  · exact ⟨created, h.both⟩

/-- A process of CSQTT keeps track of its calls. -/
theorem run_both (h : Tracks s.saved s.created s.finished live)
    (hfresh : Fresh env.api s.saved.autoHashes) (hsteady : ∀ b, Steady (env.api b)) :
    ∃ live', Both (env.run s) live' := by
  have hknown : ∀ c ∈ live, c.hash ∈ s.saved.autoHashes := by
    intro c hc
    rw [h.hashes]
    exact List.mem_map_of_mem hc
  rw [run]
  have hrestored : Both (Helper.persistState { s.restore with persisted := { s.restore.persisted with
      deviceId := env.deviceId
      generation := max (min (s.restore.persisted.generation + 1) (2 ^ 64 - 1)) 1 } }) live :=
    (Both.restore h).persist rfl rfl
  simp only
  generalize Helper.persistState { s.restore with persisted := { s.restore.persisted with
      deviceId := env.deviceId
      generation := max (min (s.restore.persisted.generation + 1) (2 ^ 64 - 1)) 1 } } = s₁
    at hrestored ⊢
  obtain ⟨hsigned, hcoherent⟩ := env.signIn_both hrestored s.saved (env.seedHashes s₁)
  generalize env.signIn s.saved (env.seedHashes s₁) s₁ = signed at hsigned hcoherent ⊢
  obtain ⟨_ | session, s₂⟩ := signed
  · exact ⟨live, hsigned⟩
  · obtain ⟨created, hcreated⟩ := env.create_created hsigned hfresh hsteady (env.seedHashes s₁)
      session (hcoherent session rfl)
    simp only at hcreated ⊢
    generalize env.create (env.seedHashes s₁) session s₂ = result at hcreated ⊢
    obtain ⟨_ | session', s₃⟩ := result
    · exact ⟨created, hcreated.both⟩
    · exact env.topUp_both hcreated hknown hfresh hsteady s.saved rfl

end CsqttRun

/-- And so does one of qWDTT that creates no more calls than there is room for. -/
theorem QwdttRun.run_both (env : QwdttRun) {s : Helper} {live : List ActiveCall}
    (h : Tracks s.saved s.created s.finished live) (hfresh : Fresh (fun _ : Unit => env.api) [])
    (hsteady : Steady env.api) (hroom : okSlots env.api 0 (clampCount env.wantHashes) ≤ maxVkHashes) :
    ∃ live', Both (env.run s) live' := by
  have hrestored := Both.restore h
  rw [run]
  simp only
  generalize s.restore = s₁ at hrestored ⊢
  split
  · exact ⟨live, hrestored⟩
  · obtain ⟨hensured, htoken⟩ := hrestored.ensureVkToken s.saved env.login
    generalize s₁.ensureVkToken s.saved env.login = ensured at hensured htoken ⊢
    obtain ⟨_ | token, s₂⟩ := ensured
    · exact ⟨live, hensured⟩
    · have hexpired := hensured.expire (htoken token rfl)
      simp only at hexpired ⊢
      generalize (if s₂.persisted.autoHashes = [] then s₂ else s₂.expireAutoHashes token) = s₃
        at hexpired ⊢
      have hwhole : Whole env.api env.wantHashes (s₃.startCalls token env.wantHashes env.api).1 :=
        Both.startCalls_whole token env.wantHashes s₃ hsteady
      have hfits : Both.Fits [] (s₃.startCalls token env.wantHashes env.api).1.1.calls :=
        hfresh.fits (b := ()) hsteady token env.wantHashes s₃ List.nodup_nil
          (fun _ hc => nomatch hc) (by simpa using hroom)
      split
      · next hfailed =>
        refine ⟨[], hexpired.startCalls_nothing _ _ _ ?_⟩
        rcases hfailed with herr | hnil
        · exact hwhole.none_of_error herr
        · rw [hwhole.hashes] at hnil
          exact List.map_eq_nil_iff.mp hnil
      · exact ⟨_, hexpired.store _ _ hsteady hfits env.now⟩

/-! ### Runs -/

/-- The event drops no call and makes up no id. -/
def Tame (s : Helper) : Event → Prop
  | .csqtt env => (∀ b, Steady (env.api b)) ∧ Fresh env.api s.saved.autoHashes
  | .qwdtt env => Steady env.api ∧ Fresh (fun _ : Unit => env.api) [] ∧
      okSlots env.api 0 (clampCount env.wantHashes) ≤ maxVkHashes
  | .qwdttWithHashes => True
  | .saveCreds => s.restored ∨ s.saved.autoCallIds = []

structure Kept (s : Helper) : Prop where
  saved : ∃ live, Tracks s.saved s.created s.finished live
  persisted : s.restored → ∃ live, Tracks s.persisted s.created s.finished live
  blank : s.restored = false → s.persisted.autoHashes = []

theorem Both.kept {s : Helper} {live : List ActiveCall} (h : Both s live) : Kept s :=
  ⟨⟨live, h.saved⟩, fun _ => ⟨live, h.persisted⟩, fun hnot => by
    rw [h.restored] at hnot
    cases hnot⟩

theorem kept_step (s : Helper) (e : Event) (s' : Helper) (h : Kept s) (htame : Tame s e)
    (hstep : step s e = some s') : Kept s' := by
  obtain ⟨live, hlive⟩ := h.saved
  cases e with
  | csqtt env =>
    cases hstep
    obtain ⟨_, hboth⟩ := env.run_both hlive htame.2 htame.1
    exact hboth.kept
  | qwdtt env =>
    cases hstep
    obtain ⟨_, hboth⟩ := env.run_both hlive htame.2.1 htame.1 htame.2.2
    exact hboth.kept
  | qwdttWithHashes =>
    cases hstep
    exact ⟨⟨live, hlive⟩, nofun, fun _ => rfl⟩
  | saveCreds =>
    cases hstep
    refine ⟨?_, h.persisted, h.blank⟩
    rcases hrestored : s.restored with _ | _
    · -- nothing has been restored, and there is nothing that could get lost
      have hids : s.saved.autoCallIds = [] := htame.resolve_left (by rw [hrestored]; nofun)
      rw [hlive.ids, List.map_eq_nil_iff] at hids
      refine ⟨[], ?_⟩
      rw [hids] at hlive
      refine hlive.of_eq ?_ ?_
      · rw [AutoCalls.helperStateFields, if_pos (h.blank hrestored), hlive.ids]
        rfl
      · rw [AutoCalls.helperStateFields, if_pos (h.blank hrestored), hlive.hashes]
        exact h.blank hrestored
    · obtain ⟨live', hpersisted⟩ := h.persisted hrestored
      exact ⟨live', hpersisted.helperStateFields⟩

theorem kept_init : Kept {} :=
  ⟨⟨[], rfl, rfl, nofun, List.nodup_nil, Nat.zero_le _, nofun, nofun⟩,
    fun _ => ⟨[], rfl, rfl, nofun, List.nodup_nil, Nat.zero_le _, nofun, nofun⟩, nofun⟩

/-- A process that needs two calls; the first one can be created. -/
def exampleRun (now : ℤ) (hash : String) (second : ApiAnswer) : CsqttRun where
  hashMode := .autoApi
  autoJsAuth := false
  deviceId := "device"
  workers := 54
  linkHashes := []
  now
  prompt := none
  logins := fun i => if i.val = 0 then some ⟨"token", by decide +kernel⟩ else none
  api := fun b slot _ =>
    if b.val = 0 ∧ slot = 0 then .response hash "" hash else if slot = 1 then second else .failed

theorem exampleRun_failed {now : ℤ} {hash : String} {b : Fin 4} {slot : ℕ}
    (h : ¬ (b.val = 0 ∧ slot = 0)) :
    vkStartCallWithRetry ((exampleRun now hash .failed).api b slot) = .failed := by
  have hanswers : (exampleRun now hash .failed).api b slot = fun _ => .failed := by
    simp only [exampleRun, if_neg h, ite_self]
  rw [hanswers]
  rfl

theorem exampleRun_ok {now : ℤ} {hash : String} {b : Fin 4} {slot : ℕ} {call : ActiveCall}
    (h : vkStartCallWithRetry ((exampleRun now hash .failed).api b slot) = .ok call) :
    b.val = 0 ∧ slot = 0 ∧ call.hash = trim hash := by
  by_cases hfirst : b.val = 0 ∧ slot = 0
  · refine ⟨hfirst.1, hfirst.2, ?_⟩
    have hanswers : (exampleRun now hash .failed).api b slot = fun _ => .response hash "" hash := by
      simp only [exampleRun, if_pos hfirst]
    rw [hanswers] at h
    by_cases hblank : trim hash = ""
    · simp [vkStartCallWithRetry, autoCallMaxAttempts, retryStart, vkStartCall, hblank] at h
    · simp only [vkStartCallWithRetry, autoCallMaxAttempts, retryStart, vkStartCall,
        hashFromJoinLink, ne_eq, hblank, not_false_eq_true, if_true, false_or, if_false] at h
      cases h
      rfl
  · rw [exampleRun_failed hfirst] at h
    cases h

theorem exampleRun_tame {now : ℤ} {hash : String} {s : Helper} (hplain : Plain (trim hash))
    (hnew : trim hash ∉ s.saved.autoHashes) : Tame s (.csqtt (exampleRun now hash .failed)) := by
  refine ⟨fun b i j call hij _ hinvalid => ?_, ?_, ?_, ?_⟩
  · have hlater : ¬ (b.val = 0 ∧ j = 0) := by omega
    rw [exampleRun_failed hlater] at hinvalid
    cases hinvalid
  · intro b i call hok
    rw [(exampleRun_ok hok).2.2]
    exact hplain
  · intro b i call hok
    rw [(exampleRun_ok hok).2.2]
    exact hnew
  · intro b i call b' i' call' hok hok' _
    obtain ⟨hbatch, hslot, _⟩ := exampleRun_ok hok
    obtain ⟨hbatch', hslot', _⟩ := exampleRun_ok hok'
    exact ⟨Fin.ext (hbatch.trans hbatch'.symm), hslot.trans hslot'.symm⟩

end Csqtt.AutoCalls
