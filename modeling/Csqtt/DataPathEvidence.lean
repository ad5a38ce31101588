/-
Does a pause end on fresh evidence only?

A pause ends when somebody says that the network is back.  A probe carries the
generation of its pause, which is looked at once more when it has succeeded; a notice
carries nothing.  In between, and in `pendingHandover`, what was heard before a
`netlost` outlives it.

* `cleared_by_fresh` — whoever ends a pause acts on a notice or a probe since the last
  `netlost`, as long as that finds nobody half way and no handover noted;
* `handover_replayed` — a handover that is noted during a recycle ends the pause that
  came after it.
-/
import Csqtt.DataPath

open Transition

namespace Csqtt.DataPath

/-- What is remembered of the evidence since the last `netlost`. -/
structure Evidence where
  /-- The goroutines that act on a notice received, or on a probe started, since. -/
  fresh : List ℕ
  /-- `pendingHandover` was noted by one of them. -/
  noted : Bool

/-- It is at a probe of the network. -/
def Thread.isProbe : Thread → Bool
  | .probing .. | .wakeProbing _ => true
  | _ => false

namespace Evidence

/-- What goroutine `i` starts acts on the same evidence. -/
def inherit (s : System) (i : ℕ) (out : Out) (fresh : List ℕ) : List ℕ :=
  if out.started.isSome ∧ i ∈ fresh then s.threads.length :: fresh else fresh

/-- The turn of goroutine `i`, which is at `t`. -/
def turn (s : System) (l : Evidence) (i : ℕ) (t : Thread) (out : Out) : Evidence :=
  match t with
  | .handover _ =>
    if s.shared.recycling && !s.shared.exiting then { l with noted := l.noted || i ∈ l.fresh } else l
  | .recycling .finishing .. =>
    -- it acts on what was noted from here on
    if s.shared.pendingHandover.isSome then
      ⟨if l.noted then i :: l.fresh else l.fresh.filter (· ≠ i), false⟩
    else l
  | _ => { l with fresh := inherit s i out (if out.next.isProbe then i :: l.fresh else l.fresh) }

def note (hooks : Hooks) (s : System) (l : Evidence) : Event → Evidence
  | .netlost => ⟨[], false⟩
  | .notice _ => { l with fresh := s.threads.length :: l.fresh }
  | .go i r =>
    match s.threads[i]? with
    | none => l
    | some t => (t.step hooks s.shared r).elim l (l.turn s i t)
  | _ => l

end Evidence

def evidenceStep (hooks : Hooks) : System × Evidence → Event → Option (System × Evidence) :=
  recording (System.step hooks) (Evidence.note hooks)

/-- Who ends a pause acts on a notice or a probe since the last `netlost`. -/
def Fresh (hooks : Hooks) (p : System × Evidence) (ev : Event) : Prop :=
  ∀ t, p.1.step hooks ev = some t → p.1.shared.paused → t.shared.paused = false →
    ∃ i r, ev = .go i r ∧ i ∈ p.2.fresh

/-- It will end a pause, or note a handover for the end of a recycle, without another look
at where its evidence is from. -/
def Thread.holdsEvidence (recycling : Bool) : Thread → Bool
  | .resume .. => true
  | .resumed _ _ _ (.onHandover _) | .handover _ => recycling
  | _ => false

/-- The network is lost when nobody holds evidence, and no handover is noted. -/
def Calm (s : System) : Event → Prop
  | .netlost => s.shared.pendingHandover = none ∧
      ∀ t ∈ s.threads, t.holdsEvidence s.shared.recycling = false
  | _ => True

instance (s : System) : DecidablePred (Calm s)
  | .netlost => inferInstanceAs (Decidable (_ ∧ ∀ t ∈ s.threads, _))
  | .tick _ | .dial _ | .notice _ | .wake | .connect | .go .. | .publish | .die => isTrue trivial

/-! ### What a turn does to a pause -/

/-- The generation of the probe that it is at. -/
def Thread.probeGen : Thread → Option ℕ
  | .probing gen _ | .wakeProbing gen | .probed gen _ => some gen
  | _ => none

variable {hooks : Hooks} {g : Guard} {r : Reply} {t : Thread} {out : Out}

/-- It is about to hand on the handover that was noted. -/
def Thread.replays (g : Guard) : Thread → Bool
  | .recycling .finishing .. => g.pendingHandover.isSome
  | _ => false

theorem Act.ends_pause (h : Act hooks g r t out) (hpaused : g.paused)
    (hend : out.shared.paused = false) : t.holdsEvidence g.recycling := by
  cases h with
  | unpause => rfl
  | pass hnot => exact nomatch hnot.symm.trans hpaused
  | @refused gen | @finish gen =>
    obtain ⟨b, hb⟩ := g.finishRebind_eq gen
    rw [hb] at hend
    exact absurd (hpaused.symm.trans hend) nofun
  | _ => exact absurd (hpaused.symm.trans hend) nofun

/-- The generation only grows, and a probe has the one at its start. -/
theorem Act.probeGen (h : Act hooks g r t out) : g.pauseGen ≤ out.shared.pauseGen ∧
    ∀ gen, out.next.probeGen = some gen →
      t.probeGen = some gen ∨ (gen = g.pauseGen ∧ out.next.isProbe) := by
  cases h with
  | look h =>
    refine ⟨Nat.le_refl _, fun gen hgen => ?_⟩
    cases h with
    | probe _ hgen' =>
      obtain rfl := Option.some.inj hgen
      exact .inr ⟨hgen'.symm, rfl⟩
    | probeOk | wakeOk => exact .inl hgen
    | _ => exact nomatch hgen
  | @pass _ k | @resumed _ _ _ k =>
    refine ⟨Nat.le_refl _, fun gen hgen => ?_⟩
    cases k with
    | done | onHandover | probeSucceeded => exact nomatch hgen
  | unpause => exact ⟨Nat.le_succ _, nofun⟩
  | @refused gen =>
    obtain ⟨b, hb⟩ := g.finishRebind_eq gen
    rw [hb]
    exact ⟨Nat.le_refl _, nofun⟩
  | @finish gen reason =>
    obtain ⟨b, hb⟩ := g.finishRebind_eq gen
    rw [hb]
    refine ⟨Nat.le_refl _, fun gen hgen => ?_⟩
    cases reason with
    | none | some => exact nomatch hgen
  | wakePaused =>
    refine ⟨Nat.le_refl _, fun gen hgen => ?_⟩
    simp only at hgen ⊢
    split_ifs at hgen ⊢ with hprobe
    · exact .inr ⟨(Option.some.inj hgen).symm, rfl⟩
    · exact nomatch hgen
  | _ => exact ⟨Nat.le_refl _, nofun⟩

/-- What is held after a turn that leaves the guard paused was held before. -/
theorem Act.holdsEvidence (h : Act hooks g r t out) (hpaused : out.shared.paused)
    (hnext : out.next.holdsEvidence out.shared.recycling) :
    t.holdsEvidence g.recycling ∨ t.probeGen = some g.pauseGen ∨ t.replays g := by
  cases h with
  | look h =>
    cases h with
    | healSoft _ hnot => exact nomatch hnot.symm.trans hpaused
    | probed _ hgen => exact .inr (.inl (congrArg some hgen.symm))
    | _ => exact nomatch hnext
  | pass hnot => exact nomatch hnot.symm.trans hpaused
  | unpause => exact nomatch hpaused
  | @resumed _ _ _ k =>
    cases k with
    | onHandover => exact .inl hnext
    | done | probeSucceeded => exact nomatch hnext
  | @finish gen reason =>
    cases reason with
    | none | some => exact nomatch hnext
  | replay hnoted => exact .inr (.inr (hnoted ▸ rfl : Option.isSome _ = true))
  | wakePaused =>
    simp only at hnext
    split_ifs at hnext
    · exact nomatch hnext
    · exact nomatch hnext
  | _ => exact nomatch hnext

theorem Act.stays_paused (h : Act hooks g r t out) (hpaused : out.shared.paused) :
    g.paused ∧ out.shared.pauseGen = g.pauseGen ∧ (out.shared.recycling → g.recycling) := by
  cases h with
  | unpause => exact nomatch hpaused
  | recycleStart _ hnot => exact nomatch hnot.symm.trans hpaused
  | @refused gen | @finish gen =>
    obtain ⟨b, hb⟩ := g.finishRebind_eq gen
    rw [hb] at hpaused ⊢
    exact ⟨hpaused, rfl, id⟩
  | ipChanged | finishing | replay | failOffline | failOnline => exact ⟨hpaused, rfl, nofun⟩
  | _ => exact ⟨hpaused, rfl, id⟩

/-- A handover is noted during a recycle. -/
theorem Act.pendingHandover (h : Act hooks g r t out) (hnoted : out.shared.pendingHandover ≠ none) :
    (g.pendingHandover ≠ none ∧ t.replays g = false) ∨
      (∃ source, t = .handover source) ∧ g.recycling ∧ g.exiting = false := by
  cases h with
  | handoverNoted hexit hrec => exact .inr ⟨⟨_, rfl⟩, hrec, hexit⟩
  | finishing | replay => exact absurd rfl hnoted
  | @refused gen | @finish gen =>
    obtain ⟨b, hb⟩ := g.finishRebind_eq gen
    rw [hb] at hnoted
    exact .inl ⟨hnoted, rfl⟩
  | look h =>
    cases h with
    | @recycling pc _ _ _ hlook =>
      cases pc with
      | finishing => exact nomatch hlook
      | _ => exact .inl ⟨hnoted, rfl⟩
    | _ => exact .inl ⟨hnoted, rfl⟩
  | _ => exact .inl ⟨hnoted, rfl⟩

/-- What a goroutine starts holds nothing, and is at no probe. -/
theorem Act.started_bare (h : Act hooks g r t out) {u : Thread} (hu : out.started = some u)
    (recycling : Bool) : u.holdsEvidence recycling = false ∧ u.probeGen = none := by
  cases h.forked hu with
  | watchdog | recycle | heal | softResume | probeWait => exact ⟨rfl, rfl⟩

/-! ### The record of a turn -/

variable {s : System} {l : Evidence} {i j : ℕ}

theorem Evidence.note_go (ht : s.threads[i]? = some t) (hout : t.step hooks s.shared r = some out) :
    l.note hooks s (.go i r) = l.turn s i t out := by
  rw [Evidence.note, ht]
  show (t.step hooks s.shared r).elim l (l.turn s i t) = _
  rw [hout, Option.elim_some]

theorem Evidence.mem_inherit {fresh : List ℕ} (h : j ∈ fresh) : j ∈ inherit s i out fresh := by
  rw [inherit]
  split_ifs
  · exact List.mem_cons_of_mem _ h
  · exact h

/-- Nobody but the goroutine that replays a handover loses its evidence. -/
theorem Evidence.fresh_turn (hj : j ∈ l.fresh) (hself : j = i → t.replays s.shared = false) :
    j ∈ (l.turn s i t out).fresh := by
  unfold Evidence.turn
  split
  · split_ifs <;> exact hj
  · split_ifs with hnoted hfresh
    · exact List.mem_cons_of_mem _ hj
    · refine List.mem_filter.mpr ⟨hj, decide_eq_true fun hji => ?_⟩
      exact nomatch (hself hji).symm.trans hnoted
    · exact hj
  · refine mem_inherit ?_
    split_ifs
    · exact List.mem_cons_of_mem _ hj
    · exact hj

/-- Whoever starts a probe acts on it. -/
theorem Evidence.probe_turn (hact : Act hooks g r t out) (hprobe : out.next.isProbe) :
    i ∈ (l.turn s i t out).fresh := by
  have hself : i ∈ inherit s i out (if out.next.isProbe then i :: l.fresh else l.fresh) := by
    rw [if_pos hprobe]
    exact mem_inherit List.mem_cons_self
  cases hact with
  | look h =>
    cases h with
    | probe => exact hself
    | _ => exact nomatch hprobe
  | wakePaused => exact hself
  | @pass _ k | @resumed _ _ _ k =>
    cases k with
    | done | onHandover | probeSucceeded => exact nomatch hprobe
  | @finish gen reason =>
    cases reason with
    | none | some => exact nomatch hprobe
  | _ => exact nomatch hprobe

theorem Evidence.replay_turn (hreplay : t.replays s.shared) (hnoted : l.noted) :
    i ∈ (l.turn s i t out).fresh := by
  cases t with
  | recycling pc =>
    cases pc with
    | finishing =>
      replace hreplay : s.shared.pendingHandover.isSome := hreplay
      simp only [Evidence.turn, if_pos hreplay, if_pos hnoted]
      exact List.mem_cons_self
    | _ => exact nomatch hreplay
  | _ => exact nomatch hreplay

theorem Evidence.noted_turn (hnoted : l.noted) (hself : t.replays s.shared = false) :
    (l.turn s i t out).noted := by
  unfold Evidence.turn
  split
  · split_ifs
    · exact Bool.or_eq_true_iff.mpr (.inl hnoted)
    · exact hnoted
  · split_ifs with hreplay
    · exact nomatch hself.symm.trans hreplay
    · exact hnoted
  · exact hnoted

theorem Evidence.handover_turn {source : Reason} (hrec : s.shared.recycling)
    (hexit : s.shared.exiting = false) (hi : i ∈ l.fresh) :
    (l.turn s i (.handover source) out).noted := by
  have hnoting : (s.shared.recycling && !s.shared.exiting) = true := by rw [hrec, hexit]; rfl
  simp only [Evidence.turn, if_pos hnoting]
  exact Bool.or_eq_true_iff.mpr (.inr (decide_eq_true hi))

/-! ### Over a run -/

theorem Thread.replays_of_holds {b : Bool} (h : t.holdsEvidence b) : t.replays g = false := by
  cases t with
  | recycling => exact nomatch h
  | _ => rfl

theorem Thread.replays_of_probe {gen : ℕ} (h : t.probeGen = some gen) : t.replays g = false := by
  cases t with
  | recycling => exact nomatch h
  | _ => rfl

theorem Thread.noted_of_replays (h : t.replays g) : g.pendingHandover ≠ none := by
  cases t with
  | recycling pc =>
    cases pc with
    | finishing => exact Option.isSome_iff_ne_none.mp h
    | _ => exact nomatch h
  | _ => exact nomatch h

theorem Thread.holdsEvidence_mono {b b' : Bool} (hb : b → b') (h : t.holdsEvidence b) :
    t.holdsEvidence b' := by
  cases t with
  | resume => rfl
  | handover => exact hb h
  | resumed source need reason k =>
    cases k with
    | onHandover => exact hb h
    | done | probeSucceeded => exact nomatch h
  | _ => exact nomatch h

/-- While the guard is paused, whoever could end the pause acts on fresh evidence. -/
structure Sourced (p : System × Evidence) : Prop where
  past : ∀ (i gen : ℕ) (t : Thread), p.1.threads[i]? = some t → t.probeGen = some gen →
    gen ≤ p.1.shared.pauseGen
  holds : p.1.shared.paused → ∀ (i : ℕ) (t : Thread), p.1.threads[i]? = some t →
    t.holdsEvidence p.1.shared.recycling → i ∈ p.2.fresh
  probe : p.1.shared.paused → ∀ (i : ℕ) (t : Thread), p.1.threads[i]? = some t →
    t.probeGen = some p.1.shared.pauseGen → i ∈ p.2.fresh
  noted : p.1.shared.paused → p.1.shared.pendingHandover ≠ none → p.2.noted

/-- A step that concerns no pause. -/
theorem Sourced.put {p : System × Evidence} (h : Sourced p) {g : Guard} {o : Option Thread}
    (hpaused : g.paused = p.1.shared.paused) (hgen : g.pauseGen = p.1.shared.pauseGen)
    (hrec : g.recycling = p.1.shared.recycling)
    (hnoted : g.pendingHandover = p.1.shared.pendingHandover)
    (ho : ∀ u, o = some u → (∀ b, u.holdsEvidence b = false) ∧ u.probeGen = none) :
    Sourced (p.1.put g o, p.2) where
  past i gen t ht hprobe := by
    rcases Pool.put_cases ht with hold | ⟨-, hnew⟩
    · exact hgen ▸ h.past i gen t hold hprobe
    · exact nomatch (ho t hnew).2.symm.trans hprobe
  holds hp i t ht hholds := by
    rcases Pool.put_cases ht with hold | ⟨-, hnew⟩
    · exact h.holds (hpaused.symm.trans hp) i t hold (hrec ▸ hholds)
    · exact nomatch ((ho t hnew).1 _).symm.trans hholds
  probe hp i t ht hprobe := by
    rcases Pool.put_cases ht with hold | ⟨-, hnew⟩
    · exact h.probe (hpaused.symm.trans hp) i t hold (hprobe.trans (congrArg some hgen))
    · exact nomatch (ho t hnew).2.symm.trans hprobe
  noted hp hn := h.noted (hpaused.symm.trans hp) (hnoted ▸ hn)

theorem Sourced.notice {p : System × Evidence} (h : Sourced p) (n : Notice) :
    Sourced (p.1.put p.1.shared (some n.thread),
      { p.2 with fresh := p.1.threads.length :: p.2.fresh }) where
  past i gen t ht hprobe := by
    rcases Pool.put_cases ht with hold | ⟨-, hnew⟩
    · exact h.past i gen t hold hprobe
    · obtain rfl := Option.some.inj hnew
      cases n with
      | netback | stall | handover | netchange => exact nomatch hprobe
  holds hp i t ht hholds := by
    rcases Pool.put_cases ht with hold | ⟨rfl, -⟩
    · exact List.mem_cons_of_mem _ (h.holds hp i t hold hholds)
    · exact List.mem_cons_self
  probe hp i t ht hprobe := by
    rcases Pool.put_cases ht with hold | ⟨rfl, -⟩
    · exact List.mem_cons_of_mem _ (h.probe hp i t hold hprobe)
    · exact List.mem_cons_self
  noted := h.noted

/-- The network is lost in a calm state: nobody has anything on it. -/
theorem Sourced.netlost {p : System × Evidence} (h : Sourced p) (hcalm : Calm p.1 .netlost) :
    Sourced (p.1.put p.1.shared.netlost (some (.netlost (p.1.shared.pauseGen + 1))),
      ⟨[], false⟩) where
  past i gen t ht hprobe := by
    rcases Pool.put_cases ht with hold | ⟨-, hnew⟩
    · exact Nat.le_succ_of_le (h.past i gen t hold hprobe)
    · obtain rfl := Option.some.inj hnew
      exact nomatch hprobe
  holds _ i t ht hholds := by
    rcases Pool.put_cases ht with hold | ⟨-, hnew⟩
    · exact nomatch (hcalm.2 t (List.mem_of_getElem? hold)).symm.trans hholds
    · obtain rfl := Option.some.inj hnew
      exact nomatch hholds
  probe _ i t ht hprobe := by
    rcases Pool.put_cases ht with hold | ⟨-, hnew⟩
    · exact absurd (h.past i _ t hold hprobe) (Nat.not_succ_le_self _)
    · obtain rfl := Option.some.inj hnew
      exact nomatch hprobe
  noted _ hn := absurd hcalm.1 hn

theorem Sourced.go {p : System × Evidence} (h : Sourced p) (ht : p.1.threads[i]? = some t)
    (hact : Act hooks p.1.shared r t out) : Sourced (p.1.after i out, p.2.turn p.1 i t out) where
  past j gen u hu hprobe := by
    obtain ⟨hgen, hnext⟩ := hact.probeGen
    rcases Pool.after_cases hu with ⟨-, rfl⟩ | ⟨-, hnew⟩ | ⟨-, hold⟩
    · rcases hnext gen hprobe with hsame | ⟨rfl, -⟩
      · exact Nat.le_trans (h.past i gen t ht hsame) hgen
      · exact hgen
    · exact nomatch (hact.started_bare hnew false).2.symm.trans hprobe
    · exact Nat.le_trans (h.past j gen u hold hprobe) hgen
  holds hp j u hu hholds := by
    obtain ⟨hpaused, -, hrec⟩ := hact.stays_paused hp
    rcases Pool.after_cases hu with ⟨rfl, rfl⟩ | ⟨-, hnew⟩ | ⟨hne, hold⟩
    · rcases hact.holdsEvidence hp hholds with hheld | hprobe | hreplay
      · exact Evidence.fresh_turn (h.holds hpaused j t ht hheld)
          fun _ => Thread.replays_of_holds hheld
      · exact Evidence.fresh_turn (h.probe hpaused j t ht hprobe)
          fun _ => Thread.replays_of_probe hprobe
      · exact Evidence.replay_turn hreplay (h.noted hpaused (Thread.noted_of_replays hreplay))
    · exact nomatch (hact.started_bare hnew _).1.symm.trans hholds
    · exact Evidence.fresh_turn (h.holds hpaused j u hold (Thread.holdsEvidence_mono hrec hholds))
        fun hji => absurd hji hne
  probe hp j u hu hprobe := by
    obtain ⟨hpaused, hgen, -⟩ := hact.stays_paused hp
    replace hprobe : u.probeGen = some p.1.shared.pauseGen := hprobe.trans (congrArg some hgen)
    rcases Pool.after_cases hu with ⟨rfl, rfl⟩ | ⟨-, hnew⟩ | ⟨hne, hold⟩
    · rcases hact.probeGen.2 _ hprobe with hsame | ⟨-, hstart⟩
      · exact Evidence.fresh_turn (h.probe hpaused j t ht hsame)
          fun _ => Thread.replays_of_probe hsame
      · exact Evidence.probe_turn hact hstart
    · exact nomatch (hact.started_bare hnew false).2.symm.trans hprobe
    · exact Evidence.fresh_turn (h.probe hpaused j u hold hprobe) fun hji => absurd hji hne
  noted hp hn := by
    obtain ⟨hpaused, -, -⟩ := hact.stays_paused hp
    rcases hact.pendingHandover hn with ⟨hold, hreplay⟩ | ⟨⟨source, rfl⟩, hrec, hexit⟩
    · exact Evidence.noted_turn (h.noted hpaused hold) hreplay
    · show (p.2.turn p.1 i (.handover source) out).noted
      exact Evidence.handover_turn hrec hexit (h.holds hpaused i _ ht hrec)

theorem Sourced.step {p q : System × Evidence} {ev : Event} (h : Sourced p)
    (hcalm : Calm p.1 ev) (hstep : evidenceStep hooks p ev = some q) : Sourced q := by
  obtain ⟨t, m⟩ := q
  obtain ⟨hs, hm⟩ := recording_eq_some.mp hstep
  obtain rfl : m = p.2.note hooks p.1 ev := hm
  replace hs : p.1.step hooks ev = some t := hs
  cases step_cases hs with
  | tick | publish | die => exact h.put rfl rfl rfl rfl nofun
  | wake | connect =>
    exact h.put rfl rfl rfl rfl fun u hu => Option.some.inj hu ▸ ⟨fun _ => rfl, rfl⟩
  | @dial ok =>
    have hstarted : ∀ u, (p.1.shared.noteDialResult ok).2 = some u →
        (∀ b, u.holdsEvidence b = false) ∧ u.probeGen = none :=
      fun u hu => noteDialResult_started hu ▸ ⟨fun _ => rfl, rfl⟩
    obtain ⟨_, _, _, hdial, -⟩ := p.1.shared.noteDialResult_eq ok
    rw [hdial]
    exact h.put rfl rfl rfl rfl hstarted
  | netlost => exact h.netlost hcalm
  | @notice n => exact h.notice n
  | go ht hout =>
    rw [Evidence.note_go ht hout]
    exact h.go ht (step_act hout)

/-- Only a turn ends a pause, and only one that holds evidence. -/
theorem Sourced.fresh {p : System × Evidence} {ev : Event} (h : Sourced p) : Fresh hooks p ev := by
  intro t hs hpaused hend
  cases step_cases hs with
  | @go i r t out ht hout =>
    exact ⟨i, r, rfl, h.holds hpaused i t ht ((step_act hout).ends_pause hpaused hend)⟩
  | @dial ok =>
    obtain ⟨_, _, _, hdial, -⟩ := p.1.shared.noteDialResult_eq ok
    rw [hdial] at hend
    exact absurd (hpaused.symm.trans hend) nofun
  | tick | notice | wake | connect | publish | die =>
    exact absurd (hpaused.symm.trans hend) nofun
  | netlost => exact nomatch hend

def evidenceNew (tunIP : String) (now : ℕ) : System × Evidence := (.new tunIP now, ⟨[], false⟩)

theorem sourced_new (tunIP : String) (now : ℕ) : Sourced (evidenceNew tunIP now) :=
  ⟨nofun, nofun, nofun, nofun⟩

/-- **A pause ends on fresh evidence** if the network is lost in calm states only. -/
theorem cleared_by_fresh (hooks : Hooks) (tunIP : String) (now : ℕ) (events : List Event)
    (hcalm : Admits (evidenceStep hooks) (fun p => Calm p.1) (evidenceNew tunIP now) events) :
    Admits (evidenceStep hooks) (Fresh hooks) (evidenceNew tunIP now) events :=
  hcalm.of_invariant (fun _ _ _ h hok hstep => h.step hok hstep) (fun _ _ h _ => h.fresh)
    (sourced_new tunIP now)

/-- The network is lost, and the second probe finds it. -/
theorem probe_clears :
    Admits (evidenceStep ⟨true, true, true, true⟩) (Fresh ⟨true, true, true, true⟩)
      (evidenceNew "10.66.0.2" 0)
      [.netlost, .go 0 ⟨true, 0, "", 0⟩, .tick (probeDelay 0), .go 1 ⟨true, 0, "", 0⟩,
        .go 1 ⟨false, 0, "", 0⟩, .tick (probeDelay 1), .go 1 ⟨true, 0, "", 0⟩,
        .go 1 ⟨true, 0, "", 0⟩, .go 1 ⟨true, 0, "", 0⟩, .go 1 ⟨true, 0, "", 0⟩] :=
  cleared_by_fresh ⟨true, true, true, true⟩ "10.66.0.2" 0 _ (by decide)

/-- A handover comes during a recycle, then the network is lost; the recycle comes through. -/
def lateReplay : List Event :=
  let no : Reply := ⟨false, 0, "", 0⟩
  let yes : Reply := ⟨true, 0, "10.66.0.2", 0⟩
  .connect :: List.replicate 2 (.go 0 no) ++ List.replicate 5 (.go 1 no) ++
    List.replicate 2 (.go 2 no) ++ [.notice .handover, .go 3 no, .go 3 no, .netlost, .go 4 no,
      .tick dataPathEngineSettle, .go 2 yes, .publish] ++ List.replicate 4 (.go 2 yes)

/-- The replayed handover ends the pause. -/
theorem handover_replayed :
    ¬ ∀ events, Admits (evidenceStep ⟨true, true, true, true⟩) (Fresh ⟨true, true, true, true⟩)
      (evidenceNew "10.66.0.2" 0) events := by
  intro hclaim
  obtain ⟨p, hp, q, hq, hpaused, hend, hstale⟩ : ∃ p,
      run (evidenceStep ⟨true, true, true, true⟩) (evidenceNew "10.66.0.2" 0) lateReplay = some p ∧
        ∃ q, p.1.step ⟨true, true, true, true⟩ (.go 2 ⟨true, 0, "", 0⟩) = some q ∧
          p.1.shared.paused ∧ q.shared.paused = false ∧ 2 ∉ p.2.fresh :=
    ⟨_, rfl, _, rfl, by decide⟩
  have hlast := ((admits_append hp).mp (hclaim (lateReplay ++ [.go 2 ⟨true, 0, "", 0⟩]))).2
  have hstep : evidenceStep ⟨true, true, true, true⟩ p (.go 2 ⟨true, 0, "", 0⟩) = some (q, _) :=
    recording_eq_some.mpr ⟨hq, rfl⟩
  obtain ⟨i, r, hgo, hfresh⟩ := ((admits_cons hstep).mp hlast).1 q hq hpaused hend
  obtain ⟨rfl, -⟩ := Event.go.inj hgo
  exact hstale hfresh

end Csqtt.DataPath
