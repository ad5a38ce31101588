/-
Does a stop signal reach the engine it was meant for, and DISCONNECT a server?

The flag outlives the engines: a signal that nobody takes is left for whoever comes next.
The coordinator of an engine keeps `active` from its first request on, so a session that
registers later is remembered by nobody, and no later request tries again.

* `signal_reaches` — an engine answers only signals that were raised while it ran, and a
  request that returns leaves no live session without an offer to one of them, as long as
  every step is `Timely`;
* `signal_left_over` — a signal without an engine, and a request without a session.
-/
import Csqtt.StopSignal

open Transition

namespace Csqtt.Shutdown

/-! ### What is remembered of a run -/

/-- The signals of the host. -/
structure Signals where
  /-- The engines that ran when the flag was raised last. -/
  heard : List ℕ
  /-- The engines that have taken it down, each with those that ran when it was raised. -/
  taken : List (ℕ × List ℕ)

/-- A call of `request_disconnect`. -/
structure Call where
  number : ℕ
  engine : ℕ
  /-- The sessions that are live when it comes. -/
  present : List ℕ

/-- A call puts DISCONNECT into the queue of a writer. -/
structure Offer where
  call : Call
  session : ℕ

structure Ledger where
  count : ℕ
  /-- The last call of each thread. -/
  calls : ℕ → Option Call
  /-- When the first call of each engine gives up. -/
  deadline : ℕ → ℕ
  offers : List Offer

def Sessions.live (x : Sessions) : List ℕ := x.registered.filter (· ∉ x.closed)

def Signals.turn (s : System) (l : Signals) : Thread → Thread → Signals
  | .raise, _ => { l with heard := s.running }
  | .loop e, .request .. => { l with taken := (e, l.heard) :: l.taken }
  | _, _ => l

/-- Thread `i` has called for engine `e`. -/
def Ledger.enter (s : Process) (l : Ledger) (i e : ℕ) : Ledger :=
  { l with
    count := l.count + 1
    calls := Function.update l.calls i
      (some { number := l.count, engine := e, present := (s.sessions e).live })
    deadline :=
      if (s.sessions e).shutdown.active then l.deadline
      else Function.update l.deadline e (s.now + disconnectBudget) }

def Ledger.offer (l : Ledger) (call : Call) (session : ℕ) : Ledger :=
  { l with offers := { call, session } :: l.offers }

def Ledger.turn (s : Process) (l : Ledger) (i : ℕ) : Thread → Thread → Ledger
  | .request e _ .enter, _ => l.enter s i e
  | .request _ _ (.trying (writer :: _) _), .request _ _ (.sending ..) =>
    (l.calls i).elim l fun call => l.offer call writer
  | _, _ => l

abbrev Record := Signals × Ledger

def Record.note (s : System) (l : Record) : Event → Record
  | .go i c =>
    (s.threads[i]?.bind fun t => (t.step s.shared c).map fun out =>
      (l.1.turn s t out.next, l.2.turn s.shared i t out.next)).getD l
  | _ => l

def stopStep : System × Record → Event → Option (System × Record) :=
  recording System.step Record.note

def stopNew : System × Record :=
  (.new, { heard := [], taken := [] },
    { count := 0, calls := fun _ => none, deadline := fun _ => 0, offers := [] })

/-! ### What is asked for -/

/-- Whoever has answered a signal ran when it was raised. -/
def Meant (l : Signals) : Prop := ∀ x ∈ l.taken, x.1 ∈ x.2

/-- A call of `request_disconnect` has just returned to it. -/
def Thread.returned : Thread → Option ℕ
  | .finished e | .cancelled e _ => some e
  | _ => none

/-- A call that returns, and during which a session was live from the beginning to the end: it,
or an earlier call of its engine, has offered DISCONNECT to a session that was live when that
call came. -/
def Offered (s : System) (l : Ledger) : Prop :=
  ∀ (i : ℕ) (t : Thread) (e : ℕ) (call : Call), s.threads[i]? = some t → t.returned = some e →
    l.calls i = some call → (∃ id ∈ call.present, id ∈ (s.shared.sessions e).live) →
      ∃ offer ∈ l.offers, offer.call.engine = e ∧ offer.call.number ≤ call.number ∧
        offer.session ∈ offer.call.present

def Ledger.offered (l : Ledger) (e : ℕ) : Prop := ∃ offer ∈ l.offers, offer.call.engine = e

instance (l : Ledger) (e : ℕ) : Decidable (l.offered e) :=
  inferInstanceAs (Decidable (∃ offer ∈ l.offers, _))

/-- An engine has been asked for its first DISCONNECT and has offered it to nobody yet. -/
def Ledger.pending (l : Ledger) (s : Process) (e : ℕ) : Prop :=
  (s.sessions e).shutdown.active ∧ ¬ l.offered e

instance (l : Ledger) (s : Process) (e : ℕ) : Decidable (l.pending s e) :=
  inferInstanceAs (Decidable (_ ∧ _))

/-- The engine with whose coordinator it registers next. -/
def Thread.registers : Thread → Option ℕ
  | .registering e _ _ => some e
  | _ => none

/-- No engine starts with a signal left over; and while an engine has been asked for its first
DISCONNECT and has offered it to nobody, no session registers with it, its live sessions do
not wait for longer than the budget, and the server acknowledges nothing to them. -/
def Timely (p : System × Record) : Event → Prop
  | .start => p.1.shared.stopFlag = false
  | .tick d => ∀ e < p.1.shared.started, p.2.2.pending p.1.shared e →
      (p.1.shared.sessions e).live ≠ [] → p.1.shared.now + d < p.2.2.deadline e
  | .response e response => p.2.2.pending p.1.shared e → (p.1.shared.sessions e).live ≠ [] →
      (Demux.observeControlResponse (p.1.shared.sessions e).shutdown.toShutdownState
        response).1 = false
  | .go i _ => ∀ t ∈ p.1.threads[i]?, ∀ e ∈ t.registers, ¬ p.2.2.pending p.1.shared e
  | _ => True

instance (p : System × Record) : DecidablePred (Timely p)
  | .start => inferInstanceAs (Decidable (_ = _))
  | .tick _ => inferInstanceAs (Decidable (∀ e < p.1.shared.started, _ → _ → _))
  | .response .. => inferInstanceAs (Decidable (_ → _ → _))
  | .go i _ => inferInstanceAs (Decidable (∀ t ∈ p.1.threads[i]?, ∀ e ∈ t.registers, _))
  | .signal | .cancel _ | .connect _ | .sent .. | .close .. | .abort _ => isTrue trivial

/-! ### The signals -/

/-- While the flag is up, every engine that runs could hear the signal. -/
structure Heard (s : System) (l : Signals) : Prop where
  heard : s.shared.stopFlag → ∀ e ∈ s.running, e ∈ l.heard
  taken : Meant l

section

variable {s : System} {l : Signals} {i : ℕ} {t : Thread} {out : Out}

theorem mem_running {e : ℕ} : e ∈ s.running ↔ ∃ t ∈ s.threads, t.runs = some e :=
  List.mem_filterMap

theorem running_after (ht : s.threads[i]? = some t) (hact : Act s.shared t out) {e : ℕ}
    (he : e ∈ System.running (s.after i out)) : e ∈ s.running := by
  obtain ⟨u, hu, hruns⟩ := mem_running.mp he
  obtain ⟨hnone, hkeeps, -⟩ := hact.keeps
  rcases (Pool.mem_after ht).mp hu with rfl | hstarted | hold
  · exact mem_running.mpr ⟨t, List.mem_of_getElem? ht, hkeeps e hruns⟩
  · exact nomatch hnone.symm.trans hstarted
  · exact mem_running.mpr ⟨u, List.mem_of_mem_eraseIdx hold, hruns⟩

theorem Heard.put (h : Heard s l) {s' : Process} {o : Option Thread}
    (hflag : s'.stopFlag → s.shared.stopFlag)
    (hnew : ∀ t, o = some t → s'.stopFlag → t.runs = none) : Heard (s.put s' o) l := by
  refine ⟨fun hraised e he => ?_, h.taken⟩
  obtain ⟨t, ht, hruns⟩ := mem_running.mp he
  rcases Pool.mem_put.mp ht with hold | hput
  · exact h.heard (hflag hraised) e (mem_running.mpr ⟨t, hold, hruns⟩)
  · exact nomatch (hnew t hput hraised).symm.trans hruns

theorem Heard.after (h : Heard s l) (ht : s.threads[i]? = some t) (hact : Act s.shared t out) :
    Heard (s.after i out) (l.turn s t out.next) := by
  have hrunning : ∀ e ∈ System.running (s.after i out), e ∈ s.running := fun e => running_after ht hact
  cases hact with
  | raise => exact ⟨fun _ => hrunning, h.taken⟩
  | @stop e hflag =>
    refine ⟨nofun, fun x hx => ?_⟩
    -- the flag was up, so whoever ran could hear it
    rcases List.mem_cons.mp hx with rfl | hx
    · exact h.heard hflag e (mem_running.mpr ⟨_, List.mem_of_getElem? ht, rfl⟩)
    · exact h.taken x hx
  | pass hpass =>
    cases hpass with
    | _ => exact ⟨fun hflag e he => h.heard hflag e (hrunning e he), h.taken⟩
  | _ => exact ⟨fun hflag e he => h.heard hflag e (hrunning e he), h.taken⟩

end

/-! ### The requests -/

/-- Nobody is left to be told. -/
def Settled (l : Ledger) (e : ℕ) (x : Sessions) : Prop := l.offered e ∨ x.live = []

/-- The sessions of an engine between its first request and its first offer. -/
structure Stands (now started : ℕ) (l : Ledger) (e : ℕ) (x : Sessions) : Prop where
  idle : x.shutdown.active = false → ∀ id ∈ x.registered, id ∈ x.shutdown.ids
  known : ∀ id ∈ x.shutdown.ids, id ∈ x.registered
  started : x.shutdown.active → e < started
  stage : x.shutdown.active →
    Settled l e x ∨ (x.shutdown.completed = false ∧ now < l.deadline e)

structure Sound (s : Process) (l : Ledger) : Prop where
  engines : ∀ e, Stands s.now s.started l e (s.sessions e)
  deadline : ∀ e, l.deadline e ≤ s.now + disconnectBudget
  calls : ∀ i call, l.calls i = some call →
    (s.sessions call.engine).shutdown.active ∧ call.number < l.count
  offers : ∀ offer ∈ l.offers, offer.session ∈ offer.call.present ∧ offer.call.number < l.count ∧
    ∀ i call, l.calls i = some call → call.engine = offer.call.engine →
      offer.call.number ≤ call.number

/-- The call came first of those of its engine, and knows the writers that are left. -/
structure Leading (s : Process) (l : Ledger) (call : Call) (writers : List ℕ) : Prop where
  first : ∀ i other, l.calls i = some other → other.engine = call.engine →
    call.number ≤ other.number
  present : ∀ id ∈ writers, id ∉ (s.sessions call.engine).closed → id ∈ call.present

/-- Whoever is live is still to be tried. -/
def Trying (s : Process) (l : Ledger) (e : ℕ) (writers : List ℕ) (deadline : ℕ) : Prop :=
  Settled l e (s.sessions e) ∨
    (deadline = l.deadline e ∧ ∀ id ∈ (s.sessions e).live, id ∈ writers)

/-- What a call knows on its way. -/
def Request.Fits (s : Process) (l : Ledger) (call : Call) : Request → Prop
  | .enter => True
  | .following limit =>
    Settled l call.engine (s.sessions call.engine) ∨ l.deadline call.engine ≤ limit
  | .leading deadline =>
    Leading s l call (s.sessions call.engine).shutdown.ids ∧
      Trying s l call.engine (s.sessions call.engine).shutdown.ids deadline
  | .trying writers deadline =>
    Leading s l call writers ∧ Trying s l call.engine writers deadline
  | .sending writers _ _ | .waiting writers _ _ =>
    Leading s l call writers ∧ Settled l call.engine (s.sessions call.engine)
  | .completing => Settled l call.engine (s.sessions call.engine)

def Thread.Fits (s : Process) (l : Ledger) (last : Option Call) : Thread → Prop
  | .request e _ pc =>
    pc = .enter ∨ ∃ call, last = some call ∧ call.engine = e ∧ pc.Fits s l call
  | .finished e | .cancelled e _ =>
    ∃ call, last = some call ∧ call.engine = e ∧ Settled l e (s.sessions e)
  | _ => True

structure Kept (s : System) (l : Ledger) : Prop where
  sound : Sound s.shared l
  started : ∀ t ∈ s.threads, ∀ e, t.engine = some e → e < s.shared.started
  threads : ∀ (i : ℕ) (t : Thread), s.threads[i]? = some t → t.Fits s.shared l (l.calls i)

/-! ### What others may do meanwhile -/

/-- The sessions of an engine that has been asked for a DISCONNECT, before and after a step. -/
structure Eases (l l' : Ledger) (e : ℕ) (x x' : Sessions) : Prop where
  active : x.shutdown.active → x'.shutdown.active
  settled : x.shutdown.active → Settled l e x → Settled l' e x'
  deadline : x.shutdown.active → l'.deadline e = l.deadline e
  closed : ∀ id ∈ x.closed, id ∈ x'.closed
  ids : x.shutdown.active → ∀ id ∈ x'.shutdown.ids, id ∈ x.shutdown.ids
  live : x.shutdown.active → Settled l' e x' ∨
    ∀ id ∈ x'.live, id ∈ x.live ∧ (id ∈ x.shutdown.ids → id ∈ x'.shutdown.ids)

structure Later (s s' : Process) (l l' : Ledger) : Prop where
  engines : ∀ e, Eases l l' e (s.sessions e) (s'.sessions e)
  calls : ∀ i call, l'.calls i = some call → l.calls i = some call ∨ l.count ≤ call.number

section

variable {s s' : Process} {l l' : Ledger} {call : Call} {writers : List ℕ}

theorem Leading.later (h : Leading s l call writers) (hlater : Later s s' l l')
    (hnumber : call.number < l.count) : Leading s' l' call writers where
  first i other hother hengine := by
    rcases hlater.calls i other hother with hold | hnew
    · exact h.first i other hold hengine
    · exact Nat.le_trans (Nat.le_of_lt hnumber) hnew
  present id hid hopen :=
    h.present id hid fun hclosed => hopen ((hlater.engines call.engine).closed id hclosed)

theorem Leading.mono {fewer : List ℕ} (h : Leading s l call writers)
    (hfewer : ∀ id ∈ fewer, id ∈ writers) : Leading s l call fewer :=
  ⟨h.first, fun id hid => h.present id (hfewer id hid)⟩

theorem Trying.later {e deadline : ℕ} (h : Trying s l e writers deadline)
    (hlater : Later s s' l l') (hactive : (s.sessions e).shutdown.active) :
    Trying s' l' e writers deadline := by
  have heases := hlater.engines e
  rcases h with hsettled | ⟨hdeadline, hlive⟩
  · exact .inl (heases.settled hactive hsettled)
  · refine (heases.live hactive).imp_right fun hfewer => ?_
    exact ⟨hdeadline.trans (heases.deadline hactive).symm,
      fun id hid => hlive id (hfewer id hid).1⟩

theorem Request.Fits.later {pc : Request} (h : pc.Fits s l call) (hlater : Later s s' l l')
    (hactive : (s.sessions call.engine).shutdown.active) (hnumber : call.number < l.count) :
    pc.Fits s' l' call := by
  have heases := hlater.engines call.engine
  have hsettled := heases.settled hactive
  cases pc with
  | enter => trivial
  | following limit => exact h.imp hsettled fun hlimit => (heases.deadline hactive) ▸ hlimit
  | leading deadline =>
    refine ⟨(h.1.later hlater hnumber).mono (heases.ids hactive), ?_⟩
    rcases h.2 with hdone | ⟨hdeadline, hlive⟩
    · exact .inl (hsettled hdone)
    · refine (heases.live hactive).imp_right fun hfewer => ?_
      refine ⟨hdeadline.trans (heases.deadline hactive).symm, fun id hid => ?_⟩
      obtain ⟨hlive', hids⟩ := hfewer id hid
      exact hids (hlive id hlive')
  | trying writers deadline => exact ⟨h.1.later hlater hnumber, h.2.later hlater hactive⟩
  | sending writers | waiting writers => exact ⟨h.1.later hlater hnumber, hsettled h.2⟩
  | completing => exact hsettled h

theorem Thread.Fits.later {last : Option Call} {t : Thread} (h : t.Fits s l last)
    (hlater : Later s s' l l') (hsound : ∀ call, last = some call →
      (s.sessions call.engine).shutdown.active ∧ call.number < l.count) :
    t.Fits s' l' last := by
  cases t with
  | request e caller pc =>
    refine h.imp_right ?_
    rintro ⟨call, hlast, hengine, hfits⟩
    obtain ⟨hactive, hnumber⟩ := hsound call hlast
    exact ⟨call, hlast, hengine, hfits.later hlater hactive hnumber⟩
  | finished e | cancelled e =>
    obtain ⟨call, hlast, rfl, hsettled⟩ := h
    exact ⟨call, hlast, rfl,
      (hlater.engines call.engine).settled (hsound call hlast).1 hsettled⟩
  | _ => trivial

end

/-! ### What a step does to the sessions of an engine -/

section

variable {s : Process} {l : Ledger} {e id : ℕ} {x x' : Sessions} {now started : ℕ}

theorem mem_live : id ∈ x.live ↔ id ∈ x.registered ∧ id ∉ x.closed := by
  rw [Sessions.live, List.mem_filter, decide_eq_true_eq]

/-- The sessions stay as they are. -/
theorem Eases.of_ledger {l' : Ledger} (hoffered : l.offered e → l'.offered e)
    (hdeadline : l'.deadline e = l.deadline e) : Eases l l' e x x where
  active := id
  settled _ hsettled := hsettled.imp_left hoffered
  deadline _ := hdeadline
  closed _ := id
  ids _ _ := id
  live _ := .inr fun _ hid => ⟨hid, id⟩

theorem Eases.refl : Eases l l e x x := .of_ledger id rfl

theorem Stands.of_ledger {l' : Ledger} (h : Stands now started l e x)
    (hoffered : l.offered e → l'.offered e) (hdeadline : l'.deadline e = l.deadline e) :
    Stands now started l' e x where
  idle := h.idle
  known := h.known
  started := h.started
  stage hactive := (h.stage hactive).imp (fun hsettled => hsettled.imp_left hoffered)
    fun hfirst => ⟨hfirst.1, hdeadline.symm ▸ hfirst.2⟩

theorem Later.refl : Later s s l l := ⟨fun _ => .refl, fun _ _ => .inl⟩

theorem Later.setSessions (h : Eases l l e (s.sessions e) x) :
    Later s (s.setSessions e x) l l where
  engines := (Function.forall_update_iff s.sessions
    fun e' y => Eases l l e' (s.sessions e') y).mpr ⟨h, fun _ _ => .refl⟩
  calls _ _ := .inl

theorem Sound.setSessions (h : Sound s l) (hx : Stands s.now s.started l e x)
    (hactive : (s.sessions e).shutdown.active → x.shutdown.active) :
    Sound (s.setSessions e x) l where
  engines := (Function.forall_update_iff s.sessions
    fun e' y => Stands s.now s.started l e' y).mpr ⟨hx, fun e' _ => h.engines e'⟩
  deadline := h.deadline
  calls i call hcall := by
    obtain ⟨hold, hnumber⟩ := h.calls i call hcall
    have hkeeps := (Function.forall_update_iff s.sessions
      fun e' y => (s.sessions e').shutdown.active → y.shutdown.active).mpr
        ⟨hactive, fun _ _ => id⟩
    exact ⟨hkeeps call.engine hold, hnumber⟩
  offers := h.offers

/-- The sessions of an engine still stand after a step, and no call is worse off. -/
structure Mild (now started : ℕ) (l : Ledger) (e : ℕ) (x x' : Sessions) : Prop where
  stands : Stands now started l e x'
  eases : Eases l l e x x'

/-- Only the activities change. -/
theorem mild_of_ids {c : ShutdownCoordinator} (h : Stands now started l e x)
    (hstate : c.toShutdownState = x.shutdown.toShutdownState) (hids : c.ids = x.shutdown.ids) :
    Mild now started l e x { x with shutdown := c } := by
  have hactive : c.active = x.shutdown.active := congrArg Demux.ShutdownState.active hstate
  have hcompleted : c.completed = x.shutdown.completed :=
    congrArg Demux.ShutdownState.completed hstate
  refine ⟨⟨?_, ?_, ?_, ?_⟩, ⟨?_, ?_, ?_, ?_, ?_, ?_⟩⟩
  · exact fun hnot => hids.symm ▸ h.idle (hactive.symm.trans hnot)
  · exact hids.symm ▸ h.known
  · exact fun hin => h.started (hactive.symm.trans hin)
  · intro hin
    exact (h.stage (hactive.symm.trans hin)).imp_right fun hfirst =>
      ⟨hcompleted.trans hfirst.1, hfirst.2⟩
  · exact fun hin => hactive.trans hin
  · exact fun _ => id
  · exact fun _ => rfl
  · exact fun _ => id
  · exact fun _ _ hid => hids ▸ hid
  · exact fun _ => .inr fun _ hid => ⟨hid, fun hold => hids.symm ▸ hold⟩

theorem mild_complete (h : Stands now started l e x)
    (hsettled : x.shutdown.active → Settled l e x) :
    Mild now started l e x { x with shutdown := x.shutdown.complete } :=
  ⟨⟨h.idle, h.known, h.started, fun hactive => .inl (hsettled hactive)⟩,
    ⟨id, fun _ => id, fun _ => rfl, fun _ => id, fun _ _ => id,
      fun _ => .inr fun _ hid => ⟨hid, id⟩⟩⟩

/-- With fewer live sessions nobody is left who was not before. -/
theorem Settled.fewer (h : Settled l e x) (hfewer : ∀ id ∈ x'.live, id ∈ x.live) :
    Settled l e x' := by
  refine h.imp_right fun hnone => List.eq_nil_iff_forall_not_mem.mpr fun id hid => ?_
  exact List.not_mem_nil (hnone ▸ hfewer id hid)

theorem mild_close (h : Stands now started l e x) (id : ℕ) :
    Mild now started l e x { x with closed := id :: x.closed } := by
  have hfewer : ∀ other ∈ Sessions.live { x with closed := id :: x.closed }, other ∈ x.live :=
    fun other hother => mem_live.mpr
      ⟨(mem_live.mp hother).1, fun hold => (mem_live.mp hother).2 (List.mem_cons_of_mem id hold)⟩
  refine ⟨⟨h.idle, h.known, h.started, ?_⟩, ⟨fun hin => hin, ?_, fun _ => rfl, ?_, ?_, ?_⟩⟩
  · exact fun hactive => (h.stage hactive).imp_left fun hsettled => hsettled.fewer hfewer
  · exact fun _ hsettled => hsettled.fewer hfewer
  · exact fun _ => List.mem_cons_of_mem id
  · exact fun _ _ hid => hid
  · exact fun _ => .inr fun other hother => ⟨hfewer other hother, fun hid => hid⟩

theorem mild_unregister (h : Stands now started l e x) (id : ℕ) :
    Mild now started l e x
      { x with
        shutdown := x.shutdown.unregister id
        registered := x.registered.filter (· ≠ id) } := by
  have hregistered : ∀ other, other ∈ x.registered.filter (· ≠ id) ↔
      other ∈ x.registered ∧ other ≠ id := fun other => by
    rw [List.mem_filter, decide_eq_true_eq]
  have hfewer : ∀ other ∈ Sessions.live { x with
      shutdown := x.shutdown.unregister id
      registered := x.registered.filter (· ≠ id) }, other ∈ x.live ∧ other ≠ id := by
    intro other hother
    obtain ⟨hreg, hopen⟩ := mem_live.mp hother
    obtain ⟨hold, hne⟩ := (hregistered other).mp hreg
    exact ⟨mem_live.mpr ⟨hold, hopen⟩, hne⟩
  refine ⟨⟨?_, ?_, h.started, ?_⟩, ⟨fun hin => hin, ?_, fun _ => rfl, fun _ hid => hid, ?_, ?_⟩⟩
  · intro hnot other hother
    obtain ⟨hold, hne⟩ := (hregistered other).mp hother
    exact ShutdownCoordinator.mem_ids_unregister.mpr ⟨h.idle hnot other hold, hne⟩
  · intro other hother
    obtain ⟨hold, hne⟩ := ShutdownCoordinator.mem_ids_unregister.mp hother
    exact (hregistered other).mpr ⟨h.known other hold, hne⟩
  · exact fun hactive => (h.stage hactive).imp_left fun hsettled =>
      hsettled.fewer fun other hother => (hfewer other hother).1
  · exact fun _ hsettled => hsettled.fewer fun other hother => (hfewer other hother).1
  · exact fun _ other hother => (ShutdownCoordinator.mem_ids_unregister.mp hother).1
  · refine fun _ => .inr fun other hother => ⟨(hfewer other hother).1, fun hold => ?_⟩
    exact ShutdownCoordinator.mem_ids_unregister.mpr ⟨hold, (hfewer other hother).2⟩

/-- A session registers with a coordinator that remembers it, or after an offer. -/
theorem mild_register (h : Stands now started l e x) (id activity : ℕ)
    (hoffered : x.shutdown.active → l.offered e) :
    Mild now started l e x
      { x with
        shutdown := x.shutdown.register id activity
        registered := id :: x.registered } := by
  rcases hactive : x.shutdown.active with _ | _
  -- nobody has called yet, and it is remembered
  · have hids : ∀ other, other ∈ (x.shutdown.register id activity).ids ↔
        other ∈ x.shutdown.ids ∨ other = id :=
      fun other => ShutdownCoordinator.mem_ids_register hactive
    have hstill : (x.shutdown.register id activity).active = false := by
      rw [ShutdownCoordinator.register, hactive, if_neg Bool.false_ne_true]
      exact hactive
    refine ⟨⟨fun _ other hother => ?_, fun other hother => ?_, ?_, ?_⟩,
      ⟨?_, ?_, fun _ => rfl, fun _ hid => hid, ?_, ?_⟩⟩
    · refine (hids other).mpr ?_
      rcases List.mem_cons.mp hother with rfl | hold
      · exact .inr rfl
      · exact .inl (h.idle hactive other hold)
    · rcases (hids other).mp hother with hold | rfl
      · exact List.mem_cons_of_mem id (h.known other hold)
      · exact List.mem_cons_self
    · exact fun hin => absurd hin (Bool.eq_false_iff.mp hstill)
    · exact fun hin => absurd hin (Bool.eq_false_iff.mp hstill)
    all_goals exact fun hin => absurd hin (Bool.eq_false_iff.mp hactive)
  -- it is not remembered, but somebody has been told
  · rw [ShutdownCoordinator.register_late hactive]
    have hdone := hoffered hactive
    refine ⟨⟨?_, fun other hother => ?_, h.started, fun _ => .inl (.inl hdone)⟩,
      ⟨fun hin => hin, fun _ _ => .inl hdone, fun _ => rfl, fun _ hid => hid, fun _ _ hid => hid,
        fun _ => .inl (.inl hdone)⟩⟩
    · exact fun hnot => absurd hactive (Bool.eq_false_iff.mp hnot)
    · exact List.mem_cons_of_mem id (h.known other hother)

end

/-! ### What a step does to the calls -/

/-- The thread that has its turn knows what it has to, and the others are no worse off. -/
structure Goes (s s' : Process) (l l' : Ledger) (i : ℕ) (next : Thread) : Prop where
  sound : Sound s' l'
  later : Later s s' l l'
  others : ∀ j, j ≠ i → l'.calls j = l.calls j
  fits : next.Fits s' l' (l'.calls i)

section

variable {s : Process} {l : Ledger} {i e : ℕ} {t next : Thread} {caller : Caller} {call : Call}

theorem Goes.of_fits (h : Sound s l) (hfits : next.Fits s l (l.calls i)) :
    Goes s s l l i next :=
  ⟨h, .refl, fun _ _ => rfl, hfits⟩

theorem Goes.of_mild {x : Sessions} (h : Sound s l)
    (hmild : Mild s.now s.started l e (s.sessions e) x)
    (hfits : next.Fits (s.setSessions e x) l (l.calls i)) :
    Goes s (s.setSessions e x) l l i next :=
  ⟨h.setSessions hmild.stands hmild.eases.active, .setSessions hmild.eases, fun _ _ => rfl, hfits⟩

/-- A call has returned. -/
theorem back_fits (hlast : l.calls i = some call)
    (hsettled : Settled l call.engine (s.sessions call.engine)) :
    (caller.back call.engine).Fits s l (l.calls i) := by
  cases caller with
  | main | session => exact ⟨call, hlast, rfl, hsettled⟩

/-- A call knows what it is about once it has begun. -/
theorem Thread.Fits.called {pc : Request} {last : Option Call}
    (h : (Thread.request e caller pc).Fits s l last) (hpc : pc ≠ .enter) :
    ∃ call, last = some call ∧ call.engine = e ∧ pc.Fits s l call :=
  h.resolve_left hpc

/-- No writer is left to be tried. -/
theorem Trying.settled_nil {deadline : ℕ} (h : Trying s l e [] deadline) :
    Settled l e (s.sessions e) := by
  rcases h with hsettled | ⟨-, hlive⟩
  · exact hsettled
  · exact .inr (List.eq_nil_iff_forall_not_mem.mpr fun id hid => List.not_mem_nil (hlive id hid))

/-- The first call is not over before everybody is told. -/
theorem Stands.settled (h : Stands s.now s.started l e (s.sessions e))
    (hactive : (s.sessions e).shutdown.active) {limit : ℕ} (hlimit : l.deadline e ≤ limit)
    (hover : (s.sessions e).shutdown.completed ∨ limit ≤ s.now) :
    Settled l e (s.sessions e) := by
  refine (h.stage hactive).resolve_right ?_
  rintro ⟨hcompleted, hnow⟩
  -- a call that does not lead waits for longer than the leader takes
  rcases hover with hdone | hlate
  · exact nomatch hcompleted.symm.trans hdone
  · omega

theorem Ledger.enter_calls_self : (l.enter s i e).calls i =
    some { number := l.count, engine := e, present := (s.sessions e).live } :=
  Function.update_self ..

theorem Ledger.enter_calls_of_ne {j : ℕ} (h : j ≠ i) : (l.enter s i e).calls j = l.calls j :=
  Function.update_of_ne h ..

/-- Who has called after that. -/
theorem Ledger.enter_calls_cases {j : ℕ} (h : (l.enter s i e).calls j = some call) :
    call = { number := l.count, engine := e, present := (s.sessions e).live } ∨
      l.calls j = some call := by
  by_cases hji : j = i
  · subst hji
    exact .inl (Option.some.inj (Ledger.enter_calls_self.symm.trans h)).symm
  · exact .inr ((Ledger.enter_calls_of_ne hji).symm.trans h)

theorem Ledger.enter_later {j : ℕ} (h : (l.enter s i e).calls j = some call) :
    l.calls j = some call ∨ l.count ≤ call.number := by
  rcases Ledger.enter_calls_cases h with rfl | hold
  · exact .inr (Nat.le_refl _)
  · exact .inl hold

/-- The offers of the calls before. -/
theorem Sound.enter_offers (h : Sound s l) : ∀ offer ∈ (l.enter s i e).offers,
    offer.session ∈ offer.call.present ∧ offer.call.number < (l.enter s i e).count ∧
      ∀ j call, (l.enter s i e).calls j = some call → call.engine = offer.call.engine →
        offer.call.number ≤ call.number := by
  intro offer hoffer
  obtain ⟨hpresent, hnumber, hfirst⟩ := h.offers offer hoffer
  refine ⟨hpresent, Nat.lt_succ_of_lt hnumber, fun j call hcall hengine => ?_⟩
  rcases Ledger.enter_calls_cases hcall with rfl | hold
  · exact Nat.le_of_lt hnumber
  · exact hfirst j call hold hengine

/-- A call that finds another one before it. -/
theorem follow_goes (h : Sound s l) (hactive : (s.sessions e).shutdown.active) :
    Goes s s l (l.enter s i e) i
      (.request e caller (.following (s.now + followerWait))) := by
  have hdeadline : (l.enter s i e).deadline = l.deadline := if_pos hactive
  refine ⟨⟨fun e' => ?_, ?_, fun j call hcall => ?_, h.enter_offers⟩, ⟨fun e' => ?_, ?_⟩, ?_, ?_⟩
  · exact (h.engines e').of_ledger id (congrFun hdeadline e')
  · exact hdeadline.symm ▸ h.deadline
  · rcases Ledger.enter_calls_cases hcall with rfl | hold
    · exact ⟨hactive, Nat.lt_succ_self _⟩
    · exact (h.calls j call hold).imp_right Nat.lt_succ_of_lt
  · exact .of_ledger id (congrFun hdeadline e')
  · exact fun _ _ => Ledger.enter_later
  · exact fun _ => Ledger.enter_calls_of_ne
  · refine .inr ⟨_, Ledger.enter_calls_self, rfl, .inr ?_⟩
    have hwait : disconnectBudget ≤ followerWait := by decide
    have hgives := h.deadline e
    rw [hdeadline]
    show l.deadline e ≤ s.now + followerWait
    omega

/-- The first call for an engine. -/
theorem lead_goes (h : Sound s l) (hstarted : e < s.started)
    (hactive : (s.sessions e).shutdown.active = false) :
    Goes s (s.setShutdown e (s.sessions e).shutdown.lead) l (l.enter s i e) i
      (.request e caller (.leading (s.now + disconnectBudget))) := by
  have hdeadline : (l.enter s i e).deadline =
      Function.update l.deadline e (s.now + disconnectBudget) :=
    if_neg (Bool.eq_false_iff.mp hactive)
  have hself : (l.enter s i e).deadline e = s.now + disconnectBudget := by
    rw [hdeadline, Function.update_self]
  have hother : ∀ e', e' ≠ e → (l.enter s i e).deadline e' = l.deadline e' := fun e' hne => by
    rw [hdeadline, Function.update_of_ne hne]
  have hsessions : ∀ e', e' ≠ e →
      (s.setShutdown e (s.sessions e).shutdown.lead).sessions e' = s.sessions e' :=
    fun e' hne => Function.update_of_ne hne ..
  have hlead : (s.setShutdown e (s.sessions e).shutdown.lead).sessions e =
      { s.sessions e with shutdown := (s.sessions e).shutdown.lead } := Function.update_self ..
  have hbudget : 0 < disconnectBudget := by decide
  have hnot : ¬ (s.sessions e).shutdown.active = true := Bool.eq_false_iff.mp hactive
  refine ⟨⟨fun e' => ?_, fun e' => ?_, fun j call hcall => ?_, h.enter_offers⟩,
    ⟨fun e' => ?_, fun _ _ => Ledger.enter_later⟩, fun _ => Ledger.enter_calls_of_ne, ?_⟩
  · by_cases hne : e' = e
    · subst hne
      rw [hlead]
      refine ⟨nofun, (h.engines e').known, fun _ => hstarted, fun _ => .inr ⟨rfl, ?_⟩⟩
      rw [hself]
      exact Nat.lt_add_of_pos_right hbudget
    · rw [hsessions e' hne]
      exact (h.engines e').of_ledger id (hother e' hne)
  · by_cases hne : e' = e
    · rw [hne, hself]
      exact Nat.le_refl _
    · rw [hother e' hne]
      exact h.deadline e'
  · rcases Ledger.enter_calls_cases hcall with rfl | hold
    · exact ⟨congrArg (·.shutdown.active) hlead, Nat.lt_succ_self _⟩
    · obtain ⟨hin, hnumber⟩ := h.calls j call hold
      have hne : call.engine ≠ e := fun heq => hnot (heq ▸ hin)
      exact ⟨(hsessions call.engine hne).symm ▸ hin, Nat.lt_succ_of_lt hnumber⟩
  · by_cases hne : e' = e
    · subst hne
      rw [hlead]
      exact ⟨fun _ => rfl, fun hin => absurd hin hnot, fun hin => absurd hin hnot, fun _ => id,
        fun _ _ => id, fun hin => absurd hin hnot⟩
    · rw [hsessions e' hne]
      exact .of_ledger id (hother e' hne)
  · refine .inr ⟨_, Ledger.enter_calls_self, rfl, ⟨fun j other hcall hengine => ?_, ?_⟩, .inr ?_⟩
    · -- whoever had called before would have led
      rcases Ledger.enter_calls_cases hcall with rfl | hold
      · exact Nat.le_refl _
      · obtain rfl : other.engine = e := hengine
        exact absurd (h.calls j other hold).1 hnot
    · intro id hid hopen
      rw [hlead] at hid hopen
      exact mem_live.mpr ⟨(h.engines e).known id hid, hopen⟩
    · refine ⟨hself.symm, fun id hid => ?_⟩
      rw [hlead] at hid ⊢
      exact (h.engines e).idle hactive id (mem_live.mp hid).1

/-- A writer takes DISCONNECT. -/
theorem offer_goes {writer deadline limit : ℕ} {writers : List ℕ} (h : Sound s l)
    (hlast : l.calls i = some call) (hlead : Leading s l call (writer :: writers))
    (hopen : writer ∉ (s.sessions call.engine).closed) :
    Goes s s l (l.offer call writer) i
      (.request call.engine caller (.sending writers deadline limit)) := by
  have hmore : ∀ e, l.offered e → (l.offer call writer).offered e :=
    fun e ⟨offer, hoffer, hengine⟩ => ⟨offer, List.mem_cons_of_mem _ hoffer, hengine⟩
  refine ⟨⟨fun e' => ?_, h.deadline, h.calls, fun offer hoffer => ?_⟩,
    ⟨fun e' => ?_, fun _ _ => .inl⟩, fun _ _ => rfl, ?_⟩
  · exact (h.engines e').of_ledger (hmore e') rfl
  · rcases List.mem_cons.mp hoffer with rfl | hold
    · exact ⟨hlead.present writer List.mem_cons_self hopen, (h.calls i call hlast).2, hlead.first⟩
    · exact h.offers offer hold
  · exact .of_ledger (hmore e') rfl
  · refine .inr ⟨call, hlast, rfl, ?_, .inl ⟨_, List.mem_cons_self, rfl⟩⟩
    exact ⟨hlead.first, fun id hid => hlead.present id (List.mem_cons_of_mem writer hid)⟩

theorem Pass.goes (hpass : Pass s t next) (h : Sound s l) (hfits : t.Fits s l (l.calls i)) :
    Goes s s l (l.turn s i t next) i next := by
  cases hpass with
  | follow hactive => exact follow_goes h hactive
  | followed hover =>
    obtain ⟨call, hlast, rfl, hwait⟩ := hfits.called nofun
    have hactive := (h.calls i call hlast).1
    refine .of_fits h (back_fits hlast ?_)
    rcases hwait with hsettled | hlimit
    · exact hsettled
    · exact (h.engines call.engine).settled hactive hlimit hover
  | streams =>
    obtain ⟨call, hlast, rfl, hlead, htry⟩ := hfits.called nofun
    refine .of_fits h (.inr ⟨call, hlast, rfl, hlead.mono fun id hid => ?_, ?_⟩)
    · exact ShutdownCoordinator.mem_controlStreams.mp hid
    · refine htry.imp_right fun ⟨hdeadline, hlive⟩ => ⟨hdeadline, fun id hid => ?_⟩
      exact ShutdownCoordinator.mem_controlStreams.mpr (hlive id hid)
  | exhausted =>
    obtain ⟨call, hlast, rfl, -, htry⟩ := hfits.called nofun
    exact .of_fits h (.inr ⟨call, hlast, rfl, htry.settled_nil⟩)
  | stopped hover =>
    obtain ⟨call, hlast, rfl, -, htry⟩ := hfits.called nofun
    refine .of_fits h (.inr ⟨call, hlast, rfl, ?_⟩)
    -- before the first offer neither an acknowledgment nor the budget stops the leader
    rcases htry with hsettled | ⟨rfl, -⟩
    · exact hsettled
    · exact (h.engines call.engine).settled (h.calls i call hlast).1 (Nat.le_refl _) hover
  | @refused _ _ writer writers _ hclosed =>
    obtain ⟨call, hlast, rfl, hlead, htry⟩ := hfits.called nofun
    refine .of_fits h (.inr ⟨call, hlast, rfl,
      hlead.mono fun id hid => List.mem_cons_of_mem writer hid, ?_⟩)
    refine htry.imp_right fun ⟨hdeadline, hlive⟩ => ⟨hdeadline, fun id hid => ?_⟩
    refine (List.mem_cons.mp (hlive id hid)).resolve_left ?_
    -- a session without a writer is not live
    rintro rfl
    exact (mem_live.mp hid).2 hclosed
  | offer hopen =>
    obtain ⟨call, hlast, rfl, hlead, -⟩ := hfits.called nofun
    simp only [Ledger.turn, hlast, Option.elim_some]
    exact offer_goes h hlast hlead hopen
  | sentLate | answered =>
    obtain ⟨call, hlast, rfl, -, hsettled⟩ := hfits.called nofun
    exact .of_fits h (.inr ⟨call, hlast, rfl, hsettled⟩)
  | sent =>
    obtain ⟨call, hlast, rfl, hlead, hsettled⟩ := hfits.called nofun
    exact .of_fits h (.inr ⟨call, hlast, rfl, hlead, hsettled⟩)
  | unsent | silent =>
    obtain ⟨call, hlast, rfl, hlead, hsettled⟩ := hfits.called nofun
    exact .of_fits h (.inr ⟨call, hlast, rfl, hlead, .inl hsettled⟩)
  | cancel => exact .of_fits h (.inl rfl)
  | wake | signalDone | booted | unbooted | drained | leave | unconnected | unconfigured | ends
  | parting => exact .of_fits h trivial

theorem Goes.of_sessions {s' : Process} (h : Sound s l) (hsessions : s'.sessions = s.sessions)
    (hnow : s'.now = s.now) (hstarted : s'.started = s.started)
    (hfits : next.Fits s' l (l.calls i)) : Goes s s' l l i next := by
  refine ⟨⟨?_, ?_, ?_, h.offers⟩, ⟨?_, fun _ _ => .inl⟩, fun _ _ => rfl, hfits⟩
  · rw [hsessions, hnow, hstarted]
    exact h.engines
  · rw [hnow]
    exact h.deadline
  · rw [hsessions]
    exact h.calls
  · rw [hsessions]
    exact fun _ => .refl

/-- The first call is over. -/
theorem complete_goes (h : Sound s l)
    (hfits : (Thread.request e caller .completing).Fits s l (l.calls i)) :
    Goes s (s.setShutdown e (s.sessions e).shutdown.complete) l l i (caller.back e) := by
  obtain ⟨call, hlast, rfl, hsettled⟩ := hfits.called nofun
  refine .of_mild h (mild_complete (h.engines call.engine) fun _ => hsettled) ?_
  refine back_fits hlast ?_
  show Settled l call.engine (Function.update s.sessions call.engine _ call.engine)
  rw [Function.update_self]
  exact hsettled

theorem Act.goes {out : Out} (hact : Act s t out) (h : Sound s l)
    (hfits : t.Fits s l (l.calls i)) (hstarted : ∀ e, t.engine = some e → e < s.started)
    (hregister : ∀ e ∈ t.registers, ¬ l.pending s e) :
    Goes s out.shared l (l.turn s i t out.next) i out.next := by
  cases hact with
  | pass hpass => exact hpass.goes h hfits
  | stop => exact .of_sessions h rfl rfl rfl (.inl rfl)
  | @lead e _ hactive => exact lead_goes h (hstarted e rfl) hactive
  | complete => exact complete_goes h hfits
  | @configuring e => exact .of_mild h (mild_of_ids (h.engines e) rfl rfl) trivial
  | @registering e id activity =>
    refine .of_mild h (mild_register (h.engines e) id activity fun hactive => ?_) trivial
    exact not_not.mp fun hnone => hregister e rfl ⟨hactive, hnone⟩
  | @closing e id => exact .of_mild h (mild_close (h.engines e) id) trivial
  | @closed e id => exact .of_mild h (mild_unregister (h.engines e) id) trivial
  | signal | raise | ctrlC | finished | tail | connecting =>
    exact .of_sessions h rfl rfl rfl trivial

end

/-! ### Over a run -/

section

variable {s : System} {l l' : Ledger} {i : ℕ} {t : Thread} {out : Out}

theorem Kept.after (h : Kept s l) (ht : s.threads[i]? = some t) (hnone : out.started = none)
    (hengine : ∀ e, out.next.engine = some e → t.engine = some e)
    (hstarted : s.shared.started ≤ out.shared.started)
    (hgoes : Goes s.shared out.shared l l' i out.next) : Kept (s.after i out) l' where
  sound := hgoes.sound
  started u hu e he := by
    rcases (Pool.mem_after ht).mp hu with rfl | hnew | hold
    · exact Nat.lt_of_lt_of_le (h.started t (List.mem_of_getElem? ht) e (hengine e he)) hstarted
    · exact nomatch hnone.symm.trans hnew
    · exact Nat.lt_of_lt_of_le (h.started u (List.mem_of_mem_eraseIdx hold) e he) hstarted
  threads j u hu := by
    rcases Pool.after_cases hu with ⟨rfl, rfl⟩ | ⟨-, hnew⟩ | ⟨hne, hold⟩
    · exact hgoes.fits
    · exact nomatch hnone.symm.trans hnew
    · rw [hgoes.others j hne]
      exact (h.threads j u hold).later hgoes.later (h.sound.calls j)

/-- Something else happens, and perhaps a thread is started that has not called yet. -/
theorem Kept.put (h : Kept s l) {s' : Process} {o : Option Thread} (hsound : Sound s' l)
    (hlater : Later s.shared s' l l) (hstarted : s.shared.started ≤ s'.started)
    (hnew : ∀ t, o = some t → (∀ last, t.Fits s' l last) ∧
      ∀ e, t.engine = some e → e < s'.started) : Kept (s.put s' o) l where
  sound := hsound
  started u hu e he := by
    rcases Pool.mem_put.mp hu with hold | hput
    · exact Nat.lt_of_lt_of_le (h.started u hold e he) hstarted
    · exact (hnew u hput).2 e he
  threads j u hu := by
    rcases Pool.put_cases hu with hold | ⟨-, hput⟩
    · exact (h.threads j u hold).later hlater (h.sound.calls j)
    · exact (hnew u hput).1 _

/-- The sessions of one engine change. -/
theorem Kept.mild (h : Kept s l) {e : ℕ} {x : Sessions}
    (hmild : Mild s.shared.now s.shared.started l e (s.shared.sessions e) x) :
    Kept (s.put (s.shared.setSessions e x) none) l :=
  h.put (h.sound.setSessions hmild.stands hmild.eases.active) (.setSessions hmild.eases)
    (Nat.le_refl _) nofun

theorem kept_new : Kept stopNew.1 stopNew.2.2 where
  sound :=
    { engines := fun _ => ⟨fun _ => nofun, nofun, nofun, nofun⟩
      deadline := fun _ => Nat.zero_le _
      calls := nofun
      offers := nofun }
  started := nofun
  threads := nofun

/-- Time passes, but not too much of it while somebody is to be told. -/
theorem Kept.tick (h : Kept s l) {d : ℕ} (hok : ∀ e < s.shared.started, l.pending s.shared e →
    (s.shared.sessions e).live ≠ [] → s.shared.now + d < l.deadline e) :
    Kept (s.put { s.shared with now := s.shared.now + d } none) l := by
  refine h.put ⟨fun e => ?_, fun e => ?_, h.sound.calls, h.sound.offers⟩
    ⟨fun _ => .refl, fun _ _ => .inl⟩ (Nat.le_refl _) nofun
  · obtain ⟨hidle, hknown, hstarted, hstage⟩ := h.sound.engines e
    refine ⟨hidle, hknown, hstarted, fun hactive => ?_⟩
    rcases hstage hactive with hsettled | ⟨hcompleted, -⟩
    · exact .inl hsettled
    · refine or_iff_not_imp_left.mpr fun hopen => ⟨hcompleted, ?_⟩
      obtain ⟨hnone, hlive⟩ := not_or.mp hopen
      exact hok e (hstarted hactive) ⟨hactive, hnone⟩ hlive
  · show l.deadline e ≤ s.shared.now + d + disconnectBudget
    have hgives := h.sound.deadline e
    omega

theorem Kept.response (h : Kept s l) {e : ℕ} {response : Packet}
    (hok : l.pending s.shared e → (s.shared.sessions e).live ≠ [] →
      (Demux.observeControlResponse (s.shared.sessions e).shutdown.toShutdownState
        response).1 = false) :
    Kept (s.put (s.shared.setShutdown e ((s.shared.sessions e).shutdown.observe response))
      none) l := by
  have hstands := h.sound.engines e
  rcases (s.shared.sessions e).shutdown.observe_cases response with
    hsame | ⟨hanswer, hcomplete⟩
  · rw [hsame]
    exact h.mild (mild_of_ids hstands rfl rfl)
  · rw [hcomplete]
    refine h.mild (mild_complete hstands fun hactive => ?_)
    refine or_iff_not_imp_left.mpr fun hnone => by_contra fun hlive => ?_
    exact nomatch (hok ⟨hactive, hnone⟩ hlive).symm.trans hanswer

theorem Record.note_go {l : Record} {c : Choice} (ht : s.threads[i]? = some t)
    (hout : t.step s.shared c = some out) : Record.note s l (.go i c) =
      (l.1.turn s t out.next, l.2.turn s.shared i t out.next) := by
  rw [Record.note, ht, Option.bind_some, hout]
  rfl

theorem Heard.step {p q : System × Record} {ev : Event} (h : Heard p.1 p.2.1)
    (hok : Timely p ev) (hstep : stopStep p ev = some q) : Heard q.1 q.2.1 := by
  obtain ⟨s, l⟩ := p
  obtain ⟨s', l'⟩ := q
  obtain ⟨hs, rfl⟩ := recording_eq_some.mp hstep
  cases step_cases hs with
  | start => exact h.put id fun _ _ hraised => nomatch hok.symm.trans hraised
  | signal | connect => exact h.put id fun t ht _ => Option.some.inj ht ▸ rfl
  | abort ht habort =>
    refine ⟨fun hraised e he => h.heard hraised e ?_, h.taken⟩
    obtain ⟨u, hu, hruns⟩ := mem_running.mp he
    rcases (Pool.mem_after ht).mp hu with rfl | hnew | hold
    · obtain ⟨-, rfl | ⟨id, rfl⟩⟩ := abort_cases habort
      · exact nomatch hruns
      · exact nomatch hruns
    · exact nomatch hnew
    · exact mem_running.mpr ⟨u, List.mem_of_mem_eraseIdx hold, hruns⟩
  | go ht hout =>
    show Heard _ (Record.note _ _ _).1
    rw [Record.note_go ht hout]
    exact h.after ht (step_act hout)
  | tick | cancel | sent | close | response => exact h.put id nofun

theorem Kept.step {p q : System × Record} {ev : Event} (h : Kept p.1 p.2.2)
    (hok : Timely p ev) (hstep : stopStep p ev = some q) : Kept q.1 q.2.2 := by
  obtain ⟨s, l⟩ := p
  obtain ⟨s', l'⟩ := q
  obtain ⟨hs, rfl⟩ := recording_eq_some.mp hstep
  cases step_cases hs with
  | tick => exact h.tick hok
  | start =>
    refine h.put ⟨fun e => ?_, h.sound.deadline, h.sound.calls, h.sound.offers⟩
      ⟨fun _ => .refl, fun _ _ => .inl⟩ (Nat.le_succ _) fun t ht => ?_
    · obtain ⟨hidle, hknown, hstarted, hstage⟩ := h.sound.engines e
      exact ⟨hidle, hknown, fun hactive => Nat.lt_succ_of_lt (hstarted hactive), hstage⟩
    · obtain rfl := Option.some.inj ht
      exact ⟨fun _ => trivial, fun e he => Option.some.inj he ▸ Nat.lt_succ_self _⟩
  | signal =>
    refine h.put h.sound .refl (Nat.le_refl _) fun t ht => ?_
    obtain rfl := Option.some.inj ht
    exact ⟨fun _ => trivial, nofun⟩
  | connect hrunning =>
    refine h.put h.sound .refl (Nat.le_refl _) fun t ht => ?_
    obtain rfl := Option.some.inj ht
    obtain ⟨u, hu, hruns⟩ := mem_running.mp hrunning
    refine ⟨fun _ => trivial, fun e he => ?_⟩
    exact Option.some.inj he ▸ h.started u hu _ (Thread.engine_of_runs hruns)
  | cancel =>
    exact h.put ⟨h.sound.engines, h.sound.deadline, h.sound.calls, h.sound.offers⟩
      ⟨fun _ => .refl, fun _ _ => .inl⟩ (Nat.le_refl _) nofun
  | @sent e id =>
    exact h.mild (mild_of_ids (h.sound.engines e) rfl ShutdownCoordinator.ids_markActivity)
  | @close e id => exact h.mild (mild_close (h.sound.engines e) id)
  | response => exact h.response hok
  | @abort i e t next ht habort =>
    obtain ⟨hengine, hnext⟩ := abort_cases habort
    rcases hnext with rfl | ⟨id, rfl⟩
    · exact h.after ht rfl nofun (Nat.le_refl _) (.of_fits h.sound trivial)
    · exact h.after ht rfl (fun e' he' => Option.some.inj he' ▸ hengine) (Nat.le_refl _)
        (.of_fits h.sound trivial)
  | @go i c t out ht hout =>
    show Kept _ (Record.note _ _ _).2
    rw [Record.note_go ht hout]
    have hact := step_act hout
    obtain ⟨hnone, -, hengine⟩ := hact.keeps
    refine h.after ht hnone hengine (Nat.le_of_eq hact.started.symm) ?_
    exact hact.goes h.sound (h.threads i t ht) (h.started t (List.mem_of_getElem? ht)) (hok t ht)

theorem Kept.offered (h : Kept s l) : Offered s l := by
  rintro i t e call ht hreturned hcall ⟨id, -, hlive⟩
  have hfits : ∃ call, l.calls i = some call ∧ call.engine = e ∧
      Settled l e (s.shared.sessions e) := by
    cases t with
    | finished | cancelled =>
      obtain rfl := Option.some.inj hreturned
      exact h.threads i _ ht
    | _ => exact nomatch hreturned
  obtain ⟨call', hcall', hengine, hsettled⟩ := hfits
  obtain rfl := Option.some.inj (hcall.symm.trans hcall')
  rcases hsettled with ⟨offer, hoffer, hsame⟩ | hnone
  -- the offer is the first call's, and this one came no earlier
  · obtain ⟨hpresent, -, hfirst⟩ := h.sound.offers offer hoffer
    exact ⟨offer, hoffer, hsame, hfirst i call hcall (hengine.trans hsame.symm), hpresent⟩
  · exact absurd (hnone ▸ hlive) List.not_mem_nil

end

/-- In every run of timely steps each DISCONNECT that a signal causes is requested by an engine
that ran when the signal was raised, and a request that returns has not passed over the
sessions that were live all the while. -/
theorem signal_reaches {events : List Event} (h : Admits stopStep Timely stopNew events) :
    Always stopStep (fun p => Meant p.2.1 ∧ Offered p.1 p.2.2) stopNew events := by
  have hnew : Heard stopNew.1 stopNew.2.1 ∧ Kept stopNew.1 stopNew.2.2 :=
    ⟨⟨nofun, nofun⟩, kept_new⟩
  have hkept : Always stopStep (fun p => Heard p.1 p.2.1 ∧ Kept p.1 p.2.2) stopNew events :=
    always_of_admits (fun _ _ _ h hok hstep => ⟨h.1.step hok hstep, h.2.step hok hstep⟩) hnew h
  exact hkept.mono fun _ h => ⟨h.1.taken, h.2.offered⟩

/-- An engine with a session gets a signal. -/
def goodbye : List Event :=
  [.start, .go 0 .ok, .connect 0, .go 1 .ok, .go 1 .ok, .go 1 .ok, .signal, .go 2 .ok, .go 2 .ok,
    .go 0 .stop, .go 0 .ok, .go 0 .ok, .tick 5, .go 0 .ok, .go 0 .ok,
    .response 0 Demux.okDisconnected, .go 0 .ok, .go 0 .ok]

theorem goodbye_reaches :
    Always stopStep (fun p => Meant p.2.1 ∧ Offered p.1 p.2.2) stopNew goodbye :=
  signal_reaches (by decide +kernel)

example : (run stopStep stopNew goodbye).map (fun p =>
    (p.2.1.taken, p.2.2.offers.map (·.session), p.1.threads[0]?)) =
      some ([(0, [0])], [1], some (.finished 0)) := by
  decide +kernel

/-- A signal without an engine, and then an engine. -/
def leftOver : List Event :=
  [.signal, .go 0 .ok, .go 0 .ok, .start, .go 1 .ok, .go 1 .stop]

/-- An engine without a session gets a signal; then a session registers, and the engine is
cancelled. -/
def tooEarly : List Event :=
  [.start, .go 0 .ok, .signal, .go 1 .ok, .go 1 .ok, .go 0 .stop, .go 0 .ok, .go 0 .ok, .go 0 .ok,
    .go 0 .ok, .connect 0, .go 2 .ok, .go 2 .ok, .go 2 .ok, .cancel 0, .go 2 .cancelled, .go 2 .ok,
    .go 2 .ok]

/-- The new engine answers the old signal, and the live session is not told. -/
theorem signal_left_over :
    ¬ Always stopStep (fun p => Meant p.2.1) stopNew leftOver ∧
      ¬ Always stopStep (fun p => Offered p.1 p.2.2) stopNew tooEarly := by
  constructor
  · intro h
    have htaken : (run stopStep stopNew leftOver).map (·.2.1.taken) = some [(0, [])] := by
      decide +kernel
    obtain ⟨p, hp, htaken⟩ := Option.map_eq_some_iff.mp htaken
    have hmeant := always_iff_prefixes.mp h leftOver List.prefix_rfl p hp
    exact nomatch hmeant (0, []) (htaken ▸ List.mem_cons_self)
  · intro h
    have hmissed : (run stopStep stopNew tooEarly).map (fun p =>
        (p.1.threads[2]?, (p.2.2.calls 2).map (·.present), (p.1.shared.sessions 0).live,
          p.2.2.offers.map (·.session))) =
          some (some (.cancelled 0 1), some [1], [1], []) := by
      decide +kernel
    obtain ⟨p, hp, heq⟩ := Option.map_eq_some_iff.mp hmissed
    simp only [Prod.mk.injEq] at heq
    obtain ⟨hthread, hcall, hlive, hnone⟩ := heq
    obtain ⟨call, hcall, hpresent⟩ := Option.map_eq_some_iff.mp hcall
    have hoffered := always_iff_prefixes.mp h tooEarly List.prefix_rfl p hp
    obtain ⟨offer, hoffer, -⟩ := hoffered 2 (.cancelled 0 1) 0 call hthread rfl hcall
      ⟨1, hpresent ▸ List.mem_cons_self, hlive ▸ List.mem_cons_self⟩
    exact List.not_mem_nil (List.map_eq_nil_iff.mp hnone ▸ hoffer)

end Csqtt.Shutdown
