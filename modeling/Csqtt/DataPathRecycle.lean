/-
What the guard promises of its recycles and of its exit.

"Never recycle or fatal while offline": a recycle that fails while the guard is paused
waits for `netback`.  A recycle that finds another tunnel address with no
`rebuildTunFn` exits without a look at `paused`.

* `never_fatal_offline_iff` — no step goes fatal or starts a recycle while paused, an
  exit is final, recycles are single, 45 s apart and at most eight in a row, exactly as
  long as that exit is not taken offline;
* `fatal_offline` — a `netlost` while the new engine comes up with another address.
-/
import Csqtt.DataPath

open Transition

namespace Csqtt.DataPath

/-- A recycle is in progress in this goroutine. -/
def Thread.inRecycle : Thread → Bool
  | .recycling .. => true
  | _ => false

/-- It is about to call `rebindFn`. -/
def Thread.inRebind : Thread → Bool
  | .rebind .. => true
  | _ => false

/-- What is remembered of the recycles of a run. -/
structure Starts where
  /-- When they started, the last one first. -/
  times : List ℕ
  /-- How many have started since a dial succeeded 60 s or more after one. -/
  streak : ℕ
  deriving DecidableEq

variable (hooks : Hooks)

def Starts.note (s : System) (l : Starts) (ev : Event) : Starts :=
  match ev, s.step hooks ev with
  | .dial true, _ =>
    if within l.times.head? s.shared.now dataPathRecycleStable then l else { l with streak := 0 }
  | _, some t =>
    if !s.shared.recycling && t.shared.recycling then ⟨s.shared.now :: l.times, l.streak + 1⟩ else l
  | _, none => l

def recycleStep : System × Starts → Event → Option (System × Starts) :=
  recording (System.step hooks) (Starts.note hooks)

/-- A step goes fatal or starts a recycle online only, and after an exit nothing new is
done to the engine. -/
structure Sound (s t : System) : Prop where
  fatal : t.shared.exiting → s.shared.exiting = false → s.shared.paused = false
  recycle : t.shared.recycling → s.shared.recycling = false → s.shared.paused = false
  final : s.shared.exiting → t.shared.exiting
  ended : s.shared.exiting → ∀ (i : ℕ) (u : Thread), t.threads[i]? = some u →
    (u.inRecycle → ∃ v : Thread, s.threads[i]? = some v ∧ v.inRecycle) ∧
      (u.inRebind → ∃ v : Thread, s.threads[i]? = some v ∧ v.inRebind)

def SoundStep (p : System × Starts) (ev : Event) : Prop :=
  ∀ t, p.1.step hooks ev = some t → Sound p.1 t

/-- One recycle at a time, 45 s apart and at most eight in a row. -/
structure Spaced (p : System × Starts) : Prop where
  single : ∀ (i j : ℕ) (t u : Thread), p.1.threads[i]? = some t → p.1.threads[j]? = some u →
    t.inRecycle → u.inRecycle → i = j
  few : p.2.streak ≤ dataPathMaxRecycles
  apart : p.2.times.Pairwise fun later earlier => earlier + dataPathRecycleMinGap ≤ later

/-- The goroutine has found another tunnel address and no `rebuildTunFn`. -/
def Thread.ipChanged : Thread → Bool
  | .recycling .ipChanged .. => true
  | _ => false

/-- Nobody exits for a changed tunnel address while the guard is paused. -/
def IpKept (s : System) : Event → Prop
  | .go i _ => ∀ t ∈ s.threads[i]?, t.ipChanged → s.shared.paused = false
  | _ => True

instance (s : System) : DecidablePred (IpKept s)
  | .go i _ => inferInstanceAs (Decidable (∀ t ∈ s.threads[i]?, t.ipChanged → _))
  | .tick _ | .dial _ | .netlost | .notice _ | .wake | .connect | .publish | .die => isTrue trivial

/-! ### What a turn does to the recycles -/

variable {hooks} {g : Guard} {r : Reply} {t : Thread} {out : Out}

/-- Nothing, a start, an exit without one, or an end. -/
inductive Recycles (g : Guard) (t : Thread) (out : Out) : Prop where
  | apart (hrec : out.shared.recycling = g.recycling) (hexit : out.shared.exiting = g.exiting)
      (hcount : out.shared.recycles = g.recycles) (hlast : out.shared.lastRecycle = g.lastRecycle)
      (hnext : out.next.inRecycle = t.inRecycle) (hrebind : out.next.inRebind → g.exiting = false)
      (hip : t.ipChanged = false)
  | start (hexit : g.exiting = false) (hpaused : g.paused = false) (hrec : g.recycling = false)
      (hgap : within g.lastRecycle g.now dataPathRecycleMinGap = false)
      (hmax : g.recycles < dataPathMaxRecycles) (hrec' : out.shared.recycling)
      (hexit' : out.shared.exiting = false) (hcount : out.shared.recycles = g.recycles + 1)
      (hlast : out.shared.lastRecycle = some g.now) (hip : t.ipChanged = false)
  | exhaust (hpaused : g.paused = false) (hrec : g.recycling = false)
      (hrec' : out.shared.recycling = false) (hexit' : out.shared.exiting)
      (hcount : out.shared.recycles = g.recycles) (hlast : out.shared.lastRecycle = g.lastRecycle)
      (hnext : out.next.inRecycle = false) (hrebind : out.next.inRebind = false)
      (hip : t.ipChanged = false)
  | stop (ht : t.inRecycle) (hrec' : out.shared.recycling = false)
      (hexit' : out.shared.exiting → g.exiting ∨ g.paused = false ∨ t.ipChanged)
      (hfinal : g.exiting → out.shared.exiting) (hip : t.ipChanged → out.shared.exiting)
      (hcount : out.shared.recycles = g.recycles) (hlast : out.shared.lastRecycle = g.lastRecycle)
      (hnext : out.next.inRecycle = false) (hrebind : out.next.inRebind = false)

theorem After.next_apart (k : After) : k.next.inRecycle = false ∧ k.next.inRebind = false := by
  cases k with
  | done | onHandover | probeSucceeded => exact ⟨rfl, rfl⟩

theorem Look.apart {t next : Thread} {started : Option Thread}
    (h : Look hooks g r t next started) :
    next.inRecycle = t.inRecycle ∧ next.inRebind = false ∧ t.ipChanged = false := by
  cases h with
  | @recycling pc _ _ _ hlook =>
    refine ⟨rfl, rfl, ?_⟩
    cases pc with
    | ipChanged => exact nomatch hlook
    | _ => rfl
  | _ => exact ⟨rfl, rfl, rfl⟩

theorem Act.recycles (h : Act hooks g r t out) : Recycles g t out := by
  cases h with
  | look h =>
    obtain ⟨hnext, hrebind, hip⟩ := h.apart
    exact .apart rfl rfl rfl rfl hnext (fun hnew => nomatch hrebind.symm.trans hnew) hip
  | @pass _ k =>
    exact .apart rfl rfl rfl rfl k.next_apart.1
      (fun hnew => nomatch k.next_apart.2.symm.trans hnew) rfl
  | @resumed _ _ _ k =>
    exact .apart rfl rfl rfl rfl k.next_apart.1
      (fun hnew => nomatch k.next_apart.2.symm.trans hnew) rfl
  | @refused gen source =>
    obtain ⟨b, hb⟩ := g.finishRebind_eq gen
    rw [hb]
    exact .apart rfl rfl rfl rfl rfl nofun rfl
  | @finish gen reason =>
    obtain ⟨b, hb⟩ := g.finishRebind_eq gen
    rw [hb]
    rcases reason with _ | reason
    · exact .apart rfl rfl rfl rfl rfl nofun rfl
    · exact .apart rfl rfl rfl rfl rfl nofun rfl
  | handoverRebind hexit => exact .apart rfl rfl rfl rfl rfl (fun _ => hexit) rfl
  | recycleExhausted hexit hpaused hrec =>
    exact .exhaust hpaused hrec hrec rfl rfl rfl rfl rfl rfl
  | recycleStart hexit hpaused hrec hgap hmax =>
    exact .start hexit hpaused hrec hgap hmax rfl hexit rfl rfl rfl
  | ipChanged =>
    exact .stop rfl rfl (fun _ => .inr (.inr rfl)) (fun _ => rfl) (fun _ => rfl) rfl rfl rfl rfl
  | finishing | replay | failOffline =>
    exact .stop rfl rfl .inl id nofun rfl rfl rfl rfl
  | failOnline hpaused =>
    exact .stop rfl rfl (fun _ => .inr (.inl hpaused)) (fun _ => rfl) nofun rfl rfl rfl rfl
  | wakePaused hexit =>
    refine .apart rfl rfl rfl rfl ?_ (fun _ => hexit) rfl
    show (if hooks.probeFn then Thread.wakeProbing g.pauseGen else .ended).inRecycle = false
    split_ifs <;> rfl
  | netlost | unpause | handoverLate | handoverNoted | handoverGap | recycleLate | recyclePaused
  | recycleBusy | stopping | engineStarted | engineFailed | rebuilt | softResume | wakeLate
  | wakeOnline => exact .apart rfl rfl rfl rfl rfl nofun rfl

/-- A goroutine that is started neither recycles nor rebinds yet. -/
theorem Act.started_apart (h : Act hooks g r t out) {u : Thread} (hu : out.started = some u) :
    u.inRecycle = false ∧ u.inRebind = false := by
  cases h.forked hu with
  | watchdog | recycle | heal | softResume | probeWait => exact ⟨rfl, rfl⟩

/-! ### Over a run -/

theorem noteDialResult_apart (g : Guard) (ok : Bool) :
    (g.noteDialResult ok).1.recycling = g.recycling ∧
      (g.noteDialResult ok).1.exiting = g.exiting ∧
      (g.noteDialResult ok).1.lastRecycle = g.lastRecycle ∧
      (g.noteDialResult ok).1.now = g.now := by
  obtain ⟨_, _, _, hdial, -⟩ := g.noteDialResult_eq ok
  rw [hdial]
  exact ⟨rfl, rfl, rfl, rfl⟩

/-- What holds of the recycles in every state. -/
structure Counted (p : System × Starts) : Prop where
  busy : ∀ (i : ℕ) (t : Thread), p.1.threads[i]? = some t → t.inRecycle → p.1.shared.recycling
  single : ∀ (i j : ℕ) (t u : Thread), p.1.threads[i]? = some t → p.1.threads[j]? = some u →
    t.inRecycle → u.inRecycle → i = j
  alive : p.1.shared.recycling → p.1.shared.exiting = false
  last : p.2.times.head? = p.1.shared.lastRecycle
  past : ∀ t ∈ p.2.times, t ≤ p.1.shared.now
  streak : p.2.streak = p.1.shared.recycles
  few : p.1.shared.recycles ≤ dataPathMaxRecycles
  apart : p.2.times.Pairwise fun later earlier => earlier + dataPathRecycleMinGap ≤ later

theorem Counted.spaced {p : System × Starts} (h : Counted p) : Spaced p :=
  { h with few := h.streak ▸ h.few }

/-- A step of which no recycle knows. -/
theorem Counted.put {p : System × Starts} (h : Counted p) {g : Guard} {o : Option Thread}
    (hrec : g.recycling = p.1.shared.recycling) (hexit : g.exiting = p.1.shared.exiting)
    (hlast : g.lastRecycle = p.1.shared.lastRecycle) (hnow : p.1.shared.now ≤ g.now)
    (hcount : g.recycles = p.1.shared.recycles) (ho : ∀ u, o = some u → u.inRecycle = false) :
    Counted (p.1.put g o, p.2) where
  busy i t ht hin := by
    rcases Pool.put_cases ht with hold | ⟨-, hnew⟩
    · exact hrec.trans (h.busy i t hold hin)
    · exact nomatch (ho t hnew).symm.trans hin
  single i j t u ht hu htin huin := by
    rcases Pool.put_cases ht with hold | ⟨-, hnew⟩
    · rcases Pool.put_cases hu with hold' | ⟨-, hnew⟩
      · exact h.single i j t u hold hold' htin huin
      · exact nomatch (ho u hnew).symm.trans huin
    · exact nomatch (ho t hnew).symm.trans htin
  alive hr := hexit.trans (h.alive (hrec.symm.trans hr))
  last := h.last.trans hlast.symm
  past t ht := Nat.le_trans (h.past t ht) hnow
  streak := h.streak.trans hcount.symm
  few := Nat.le_trans (Nat.le_of_eq hcount) h.few
  apart := h.apart

theorem pairwise_of_gap {times : List ℕ} {now : ℕ}
    (hgap : within times.head? now dataPathRecycleMinGap = false) (hpast : ∀ t ∈ times, t ≤ now)
    (h : times.Pairwise fun later earlier => earlier + dataPathRecycleMinGap ≤ later) :
    (now :: times).Pairwise fun later earlier => earlier + dataPathRecycleMinGap ≤ later := by
  refine List.pairwise_cons.mpr ⟨fun t ht => ?_, h⟩
  rcases times with _ | ⟨last, times⟩
  · exact nomatch ht
  · have hlast : last ≤ now := hpast last List.mem_cons_self
    simp only [within, List.head?_cons, Option.any_some, decide_eq_false_iff_not] at hgap
    rcases List.mem_cons.mp ht with rfl | hmem
    · omega
    · have hearlier := (List.pairwise_cons.mp h).1 t hmem
      omega

theorem note_go {s : System} {l : Starts} {i : ℕ} {r : Reply} {t : System}
    (h : s.step hooks (.go i r) = some t) :
    l.note hooks s (.go i r) = if !s.shared.recycling && t.shared.recycling then
      ⟨s.shared.now :: l.times, l.streak + 1⟩ else l := by
  simp only [Starts.note, h]

/-- No start, no end: the turn of a goroutine keeps everything. -/
theorem Counted.after {p : System × Starts} (h : Counted p) {i : ℕ}
    (ht : p.1.threads[i]? = some t) (hact : Act hooks p.1.shared r t out) {l : Starts}
    (hbusy : out.next.inRecycle → out.shared.recycling)
    (hothers : ∀ (j : ℕ) (u : Thread), j ≠ i → p.1.threads[j]? = some u → u.inRecycle →
      out.shared.recycling ∧ out.next.inRecycle = false)
    (halive : out.shared.recycling → out.shared.exiting = false)
    (hlast : l.times.head? = out.shared.lastRecycle) (hpast : ∀ t ∈ l.times, t ≤ p.1.shared.now)
    (hstreak : l.streak = out.shared.recycles) (hfew : out.shared.recycles ≤ dataPathMaxRecycles)
    (hapart : l.times.Pairwise fun later earlier => earlier + dataPathRecycleMinGap ≤ later) :
    Counted (p.1.after i out, l) where
  busy j u hu hin := by
    rcases Pool.after_cases hu with ⟨-, rfl⟩ | ⟨-, hnew⟩ | ⟨hne, hold⟩
    · exact hbusy hin
    · exact nomatch (hact.started_apart hnew).1.symm.trans hin
    · exact (hothers j u hne hold hin).1
  single j k u v hu hv huin hvin := by
    rcases Pool.after_cases hu with ⟨rfl, rfl⟩ | ⟨-, hnew⟩ | ⟨hne, hold⟩
    · rcases Pool.after_cases hv with ⟨rfl, rfl⟩ | ⟨-, hnew⟩ | ⟨hne', hold'⟩
      · rfl
      · exact nomatch (hact.started_apart hnew).1.symm.trans hvin
      · exact nomatch (hothers k v hne' hold' hvin).2.symm.trans huin
    · exact nomatch (hact.started_apart hnew).1.symm.trans huin
    · rcases Pool.after_cases hv with ⟨rfl, rfl⟩ | ⟨-, hnew⟩ | ⟨hne', hold'⟩
      · exact nomatch (hothers j u hne hold huin).2.symm.trans hvin
      · exact nomatch (hact.started_apart hnew).1.symm.trans hvin
      · exact h.single j k u v hold hold' huin hvin
  alive := halive
  last := hlast
  past t ht := Nat.le_trans (hpast t ht) (Nat.le_of_eq hact.now.symm)
  streak := hstreak
  few := hfew
  apart := hapart

theorem Counted.go {p : System × Starts} (h : Counted p) {i : ℕ}
    (ht : p.1.threads[i]? = some t) (hact : Act hooks p.1.shared r t out)
    (hstep : p.1.step hooks (.go i r) = some (p.1.after i out)) :
    Counted (p.1.after i out, p.2.note hooks p.1 (.go i r)) := by
  rw [note_go hstep, Pool.after_shared]
  cases hact.recycles with
  | apart hrec hexit hcount hlast hnext =>
    have hsame : (!p.1.shared.recycling && out.shared.recycling) = false := by
      rw [hrec, Bool.not_and_self]
    rw [if_neg (Bool.eq_false_iff.mp hsame)]
    refine h.after ht hact (fun hin => hrec.trans (h.busy i t ht (hnext.symm.trans hin)))
      (fun j u hne hu hin => ⟨hrec.trans (h.busy j u hu hin), ?_⟩) (fun hr => ?_)
      (h.last.trans hlast.symm) h.past (h.streak.trans hcount.symm) (hcount ▸ h.few) h.apart
    · rw [hnext]
      exact Bool.eq_false_iff.mpr fun htin => hne (h.single j i u t hu ht hin htin)
    · exact hexit.trans (h.alive (hrec.symm.trans hr))
  | start hexit hpaused hrec hgap hmax hrec' hexit' hcount hlast =>
    -- nobody was in a recycle before
    have hnone : ∀ (j : ℕ) (u : Thread), p.1.threads[j]? = some u → u.inRecycle = false :=
      fun j u hu => Bool.eq_false_iff.mpr fun hin => nomatch hrec.symm.trans (h.busy j u hu hin)
    have hstart : (!p.1.shared.recycling && out.shared.recycling) = true := by rw [hrec, hrec']; rfl
    rw [if_pos hstart]
    exact h.after ht hact (fun _ => hrec') (fun j u _ hu hin => nomatch (hnone j u hu).symm.trans hin)
      (fun _ => hexit') hlast.symm
      (List.forall_mem_cons.mpr ⟨Nat.le_refl _, h.past⟩) (by rw [hcount, h.streak])
      (hcount ▸ hmax) (pairwise_of_gap (h.last ▸ hgap) h.past h.apart)
  | exhaust hpaused hrec hrec' hexit' hcount hlast hnext =>
    rw [hrec', Bool.and_false, if_neg Bool.false_ne_true]
    exact h.after ht hact (fun hin => nomatch hnext.symm.trans hin)
      (fun j u _ hu hin => nomatch hrec.symm.trans (h.busy j u hu hin))
      (fun hr => nomatch hrec'.symm.trans hr) (h.last.trans hlast.symm) h.past
      (h.streak.trans hcount.symm) (hcount ▸ h.few) h.apart
  | stop htin hrec' hexit' hfinal hip hcount hlast hnext =>
    rw [hrec', Bool.and_false, if_neg Bool.false_ne_true]
    exact h.after ht hact (fun hin => nomatch hnext.symm.trans hin)
      (fun j u hne hu hin => absurd (h.single j i u t hu ht hin htin) hne)
      (fun hr => nomatch hrec'.symm.trans hr) (h.last.trans hlast.symm) h.past
      (h.streak.trans hcount.symm) (hcount ▸ h.few) h.apart

theorem Counted.dial {p : System × Starts} (h : Counted p) (ok : Bool) :
    Counted (p.1.put (p.1.shared.noteDialResult ok).1 (p.1.shared.noteDialResult ok).2,
      p.2.note hooks p.1 (.dial ok)) := by
  obtain ⟨hrec, hexit, hlast, hnow⟩ := noteDialResult_apart p.1.shared ok
  have hstarted : ∀ u, (p.1.shared.noteDialResult ok).2 = some u → u.inRecycle = false :=
    fun u hu => noteDialResult_started hu ▸ rfl
  cases ok with
  | false =>
    have hkeep : p.2.note hooks p.1 (.dial false) = p.2 := by
      show (if !p.1.shared.recycling && (p.1.shared.noteDialResult false).1.recycling then _ else _)
        = p.2
      rw [hrec, Bool.not_and_self, if_neg Bool.false_ne_true]
    have hcount : (p.1.shared.noteDialResult false).1.recycles = p.1.shared.recycles := by
      rw [Guard.noteDialResult, if_neg Bool.false_ne_true]
      split_ifs <;> rfl
    rw [hkeep]
    exact h.put hrec hexit hlast (Nat.le_of_eq hnow.symm) hcount hstarted
  | true =>
    have hnote : p.2.note hooks p.1 (.dial true) =
        if within p.1.shared.lastRecycle p.1.shared.now dataPathRecycleStable then p.2
        else { p.2 with streak := 0 } := by
      simp only [Starts.note, h.last]
    have hcount : (p.1.shared.noteDialResult true).1.recycles =
        if 0 < p.1.shared.recycles &&
            !within p.1.shared.lastRecycle p.1.shared.now dataPathRecycleStable then 0
        else p.1.shared.recycles := rfl
    rw [hnote]
    rcases hstable : within p.1.shared.lastRecycle p.1.shared.now dataPathRecycleStable with _ | _
    · -- the streak ends in the record and in the guard
      rw [if_neg Bool.false_ne_true]
      have hzero : (p.1.shared.noteDialResult true).1.recycles = 0 := by
        rw [hcount, hstable, Bool.not_false, Bool.and_true]
        split_ifs with hpos
        · rfl
        · exact Nat.eq_zero_of_not_pos fun h0 => hpos (decide_eq_true h0)
      have hput := h.put (g := { (p.1.shared.noteDialResult true).1 with
        recycles := p.1.shared.recycles }) hrec hexit hlast (Nat.le_of_eq hnow.symm) rfl hstarted
      exact { hput with
        streak := hzero.symm
        few := Nat.le_trans (Nat.le_of_eq hzero) (Nat.zero_le _) }
    · rw [if_pos rfl]
      refine h.put hrec hexit hlast (Nat.le_of_eq hnow.symm) ?_ hstarted
      rw [hcount, hstable, Bool.not_true, Bool.and_false, if_neg Bool.false_ne_true]

theorem note_same {s t : System} {l : Starts} {ev : Event} (h : s.step hooks ev = some t)
    (hrec : t.shared.recycling = s.shared.recycling) (hdial : ∀ ok, ev ≠ .dial ok) :
    l.note hooks s ev = l := by
  have hnone : (!s.shared.recycling && t.shared.recycling) = false := by
    rw [hrec, Bool.not_and_self]
  cases ev with
  | dial ok => exact absurd rfl (hdial ok)
  | tick | netlost | notice | wake | connect | go | publish | die =>
    simp only [Starts.note, h, hnone, if_neg Bool.false_ne_true]

theorem Notice.thread_apart (n : Notice) : n.thread.inRecycle = false ∧ n.thread.inRebind = false := by
  cases n with
  | netback | stall | handover | netchange => exact ⟨rfl, rfl⟩

theorem Counted.step {p q : System × Starts} {ev : Event} (h : Counted p)
    (hstep : recycleStep hooks p ev = some q) : Counted q := by
  obtain ⟨t, m⟩ := q
  obtain ⟨hs, hm⟩ := recording_eq_some.mp hstep
  obtain rfl : m = p.2.note hooks p.1 ev := hm
  replace hs : p.1.step hooks ev = some t := hs
  cases step_cases hs with
  | dial => exact h.dial _
  | go ht hout => exact h.go ht (step_act hout) hs
  | tick =>
    rw [note_same hs rfl nofun]
    exact h.put rfl rfl rfl (Nat.le_add_right _ _) rfl nofun
  | netlost | wake | connect =>
    rw [note_same hs rfl nofun]
    exact h.put rfl rfl rfl (Nat.le_refl _) rfl fun u hu => Option.some.inj hu ▸ rfl
  | @notice n =>
    rw [note_same hs rfl nofun]
    exact h.put rfl rfl rfl (Nat.le_refl _) rfl
      fun u hu => Option.some.inj hu ▸ n.thread_apart.1
  | publish | die =>
    rw [note_same hs rfl nofun]
    exact h.put rfl rfl rfl (Nat.le_refl _) rfl nofun

/-! ### Online only -/

/-- What is common to all steps but the turns of the goroutines. -/
theorem sound_put {s : System} {g : Guard} {o : Option Thread}
    (hrec : g.recycling = s.shared.recycling) (hexit : g.exiting = s.shared.exiting)
    (ho : ∀ u, o = some u → u.inRecycle = false ∧ u.inRebind = false) : Sound s (s.put g o) where
  fatal hnew hold := nomatch hold.symm.trans (hexit.symm.trans hnew)
  recycle hnew hold := nomatch hold.symm.trans (hrec.symm.trans hnew)
  final hold := hexit.trans hold
  ended _ i u hu := by
    rcases Pool.put_cases hu with hold | ⟨-, hnew⟩
    · exact ⟨fun hin => ⟨u, hold, hin⟩, fun hin => ⟨u, hold, hin⟩⟩
    · exact ⟨fun hin => absurd hin (Bool.eq_false_iff.mp (ho u hnew).1),
        fun hin => absurd hin (Bool.eq_false_iff.mp (ho u hnew).2)⟩

theorem Counted.sound_go {p : System × Starts} (h : Counted p) {i : ℕ}
    (ht : p.1.threads[i]? = some t) (hact : Act hooks p.1.shared r t out) :
    Sound p.1 (p.1.after i out) ↔ (t.ipChanged → p.1.shared.paused = false) := by
  have hended : (out.next.inRecycle → t.inRecycle) → (out.next.inRebind → False) →
      ∀ (j : ℕ) (u : Thread), (p.1.after i out).threads[j]? = some u →
        (u.inRecycle → ∃ v : Thread, p.1.threads[j]? = some v ∧ v.inRecycle) ∧
          (u.inRebind → ∃ v : Thread, p.1.threads[j]? = some v ∧ v.inRebind) := by
    intro hrec hreb j u hu
    rcases Pool.after_cases hu with ⟨rfl, rfl⟩ | ⟨-, hnew⟩ | ⟨-, hold⟩
    · exact ⟨fun hin => ⟨t, ht, hrec hin⟩, fun hin => (hreb hin).elim⟩
    · exact ⟨fun hin => absurd hin (Bool.eq_false_iff.mp (hact.started_apart hnew).1),
        fun hin => absurd hin (Bool.eq_false_iff.mp (hact.started_apart hnew).2)⟩
    · exact ⟨fun hin => ⟨u, hold, hin⟩, fun hin => ⟨u, hold, hin⟩⟩
  cases hact.recycles with
  | apart hrec hexit hcount hlast hnext hrebind hip =>
    refine iff_of_true ⟨fun hnew hold => ?_, fun hnew hold => ?_, hexit.trans, fun hlate => ?_⟩
      fun hchanged => nomatch hip.symm.trans hchanged
    · exact nomatch hold.symm.trans (hexit.symm.trans hnew)
    · exact nomatch hold.symm.trans (hrec.symm.trans hnew)
    · exact hended hnext.symm.trans fun hin => nomatch (hrebind hin).symm.trans hlate
  | start hexit hpaused hrec hgap hmax hrec' hexit' hcount hlast hip =>
    exact iff_of_true ⟨fun _ _ => hpaused, fun _ _ => hpaused,
      fun hlate => absurd hlate (Bool.eq_false_iff.mp hexit),
      fun hlate => absurd hlate (Bool.eq_false_iff.mp hexit)⟩ fun _ => hpaused
  | exhaust hpaused hrec hrec' hexit' hcount hlast hnext hrebind hip =>
    exact iff_of_true ⟨fun _ _ => hpaused, fun _ _ => hpaused, fun _ => hexit', fun _ =>
      hended (fun hin => absurd hin (Bool.eq_false_iff.mp hnext))
        fun hin => absurd hin (Bool.eq_false_iff.mp hrebind)⟩ fun _ => hpaused
  | stop htin hrec' hexit' hfinal hip hcount hlast hnext hrebind =>
    have halive := h.alive (h.busy i t ht htin)
    constructor
    · intro hsound hchanged
      exact hsound.fatal (hip hchanged) halive
    · intro hkept
      refine ⟨fun hnew hold => ?_, fun hnew => absurd hnew (Bool.eq_false_iff.mp hrec'), hfinal,
        fun hlate => absurd hlate (Bool.eq_false_iff.mp halive)⟩
      rcases hexit' hnew with hlate | hpaused | hchanged
      · exact nomatch hold.symm.trans hlate
      · exact hpaused
      · exact hkept hchanged

theorem Counted.sound_iff {p : System × Starts} (h : Counted p) {ev : Event} {s : System}
    (hs : p.1.step hooks ev = some s) : Sound p.1 s ↔ IpKept p.1 ev := by
  cases step_cases hs with
  | @dial ok =>
    obtain ⟨hrec, hexit, -⟩ := noteDialResult_apart p.1.shared ok
    exact iff_of_true (sound_put hrec hexit fun u hu => noteDialResult_started hu ▸ ⟨rfl, rfl⟩)
      trivial
  | @go i r t out ht hout =>
    rw [h.sound_go ht (step_act hout), IpKept, ht]
    exact ⟨fun hkept u hu => Option.some.inj hu ▸ hkept, fun hkept => hkept t rfl⟩
  | tick | publish | die => exact iff_of_true (sound_put rfl rfl nofun) trivial
  | netlost | wake | connect =>
    exact iff_of_true (sound_put rfl rfl fun u hu => Option.some.inj hu ▸ ⟨rfl, rfl⟩) trivial
  | @notice n =>
    exact iff_of_true (sound_put rfl rfl fun u hu => Option.some.inj hu ▸ n.thread_apart) trivial

/-- The guard before anything has happened. -/
def recycleNew (tunIP : String) (now : ℕ) : System × Starts := (.new tunIP now, ⟨[], 0⟩)

theorem counted_new (tunIP : String) (now : ℕ) : Counted (recycleNew tunIP now) where
  busy _ _ ht := nomatch ht
  single _ _ _ _ ht := nomatch ht
  alive := nofun
  last := rfl
  past := nofun
  streak := rfl
  few := Nat.zero_le _
  apart := .nil

def bareHooks : Hooks := ⟨true, true, true, false⟩

/-- No path comes back, the rebind is refused, and the network goes while the recycle waits
for the new engine, which has another address. -/
def offlineRecycle : List Event :=
  let no : Reply := ⟨false, 0, "", 0⟩
  let yes : Reply := ⟨true, 0, "10.66.0.9", 0⟩
  .connect :: List.replicate 2 (.go 0 no) ++ List.replicate 5 (.go 1 no) ++
    List.replicate 2 (.go 2 no) ++ [.tick dataPathEngineSettle, .go 2 yes, .publish, .go 2 yes,
      .netlost, .go 2 yes]

end Csqtt.DataPath
