/-
Runs of a partial deterministic step over a list of labels.

A component is given by a step `σ → ι → Option σ`: the label says which event
happens next (with everything it draws from the outside), `none` says that the
event is not enabled.  This file has no program in it; it only packages the
inductions over runs:

* `run_invariant` — what every step with a good label preserves holds at the end
  of every run of such labels;
* `always_of_admits` — the same when the steps preserve it only under a
  condition `ok` on the state before the step and the label;
* `always_iff_admits` — if moreover each step that violates `ok` breaks the
  property, then the property holds along a run *exactly* when every step of
  the run meets `ok`;
* `recording` — the step with a record of the run so far, for properties that
  speak about earlier steps.
-/
import Mathlib.Tactic.Common

namespace Transition

variable {σ ι : Type*} {step : σ → ι → Option σ} {P : σ → Prop} {ok : σ → ι → Prop}

/-- The state after a list of labels; `none` once a label is not enabled. -/
def run (step : σ → ι → Option σ) : σ → List ι → Option σ
  | s, [] => some s
  | s, i :: is => (step s i).bind fun s' => run step s' is

/-- `P` holds in every state that the run visits, the first one included. -/
def Always (step : σ → ι → Option σ) (P : σ → Prop) : σ → List ι → Prop
  | s, [] => P s
  | s, i :: is => P s ∧ ∀ s', step s i = some s' → Always step P s' is

/-- Every step of the run meets the condition `ok` on the state before it. -/
def Admits (step : σ → ι → Option σ) (ok : σ → ι → Prop) : σ → List ι → Prop
  | _, [] => True
  | s, i :: is => ∀ s', step s i = some s' → ok s i ∧ Admits step ok s' is

theorem admits_cons {s s' : σ} {i : ι} {is : List ι} (h : step s i = some s') :
    Admits step ok s (i :: is) ↔ ok s i ∧ Admits step ok s' is :=
  ⟨fun hadm => hadm s' h, fun hok _ ht => Option.some_inj.mp (h.symm.trans ht) ▸ hok⟩

instance decidableAdmits [∀ s i, Decidable (ok s i)] :
    (is : List ι) → (s : σ) → Decidable (Admits step ok s is)
  | [], _ => isTrue trivial
  | i :: is, s =>
    match h : step s i with
    | none => isTrue fun _ hs' => nomatch h.symm.trans hs'
    | some s' =>
      have := decidableAdmits is s'
      decidable_of_iff _ (admits_cons h).symm

@[simp] theorem run_nil (s : σ) : run step s [] = some s := rfl

@[simp] theorem run_cons (s : σ) (i : ι) (is : List ι) :
    run step s (i :: is) = (step s i).bind fun s' => run step s' is := rfl

theorem run_append (s : σ) (is js : List ι) :
    run step s (is ++ js) = (run step s is).bind fun s' => run step s' js := by
  induction is generalizing s with
  | nil => rfl
  | cons i is ih =>
    rw [List.cons_append, run_cons, run_cons, Option.bind_assoc]
    exact Option.bind_congr fun s' _ => ih s'

theorem admits_append {s s' : σ} {is js : List ι} (h : run step s is = some s') :
    Admits step ok s (is ++ js) ↔ Admits step ok s is ∧ Admits step ok s' js := by
  induction is generalizing s with
  | nil =>
    rw [run_nil, Option.some_inj] at h
    exact h ▸ ⟨fun hjs => ⟨trivial, hjs⟩, And.right⟩
  | cons i is ih =>
    obtain ⟨t, ht, h⟩ := Option.bind_eq_some_iff.mp h
    rw [List.cons_append, admits_cons ht, admits_cons ht, ih h, and_assoc]

/-- What every step with a good label preserves holds at the end of every run
whose labels are good. -/
theorem run_invariant {good : ι → Prop}
    (hstep : ∀ s i s', P s → good i → step s i = some s' → P s') :
    ∀ {is : List ι} {s t : σ}, P s → (∀ i ∈ is, good i) → run step s is = some t → P t := by
  intro is
  induction is with
  | nil =>
    intro s t hs _ ht
    exact Option.some_inj.mp ht ▸ hs
  | cons i is ih =>
    intro s t hs hgood ht
    obtain ⟨s', hs', ht⟩ := Option.bind_eq_some_iff.mp ht
    exact ih (hstep s i s' hs (hgood i List.mem_cons_self) hs')
      (fun j hj => hgood j (List.mem_cons_of_mem i hj)) ht

theorem run_of_step (hstep : ∀ s i s', P s → step s i = some s' → P s') {is : List ι}
    {s t : σ} (hs : P s) (ht : run step s is = some t) : P t :=
  have hany : ∀ i ∈ is, (fun _ : ι => True) i := fun _ _ => trivial
  run_invariant (fun s i s' hs _ => hstep s i s' hs) hs hany ht

theorem Always.head {s : σ} {is : List ι} (h : Always step P s is) : P s := by
  cases is with
  | nil => exact h
  | cons i is => exact h.1

/-- `Always` speaks about the end of every prefix of the run. -/
theorem always_iff_prefixes {is : List ι} {s : σ} :
    Always step P s is ↔ ∀ js, js <+: is → ∀ t, run step s js = some t → P t := by
  induction is generalizing s with
  | nil =>
    constructor
    · rintro h js hjs t ht
      rw [List.prefix_nil.mp hjs, run_nil, Option.some_inj] at ht
      exact ht ▸ h
    · intro h
      exact h [] List.prefix_rfl s rfl
  | cons i is ih =>
    constructor
    · rintro ⟨hs, hrest⟩ js hjs t ht
      rcases js with _ | ⟨j, js⟩
      · rw [run_nil, Option.some_inj] at ht
        exact ht ▸ hs
      · obtain ⟨rfl, hjs'⟩ := List.cons_prefix_cons.mp hjs
        obtain ⟨s', hs', ht⟩ := Option.bind_eq_some_iff.mp ht
        exact ih.mp (hrest s' hs') js hjs' t ht
    · intro h
      refine ⟨h [] List.nil_prefix s rfl, fun s' hs' => ih.mpr fun js hjs t ht => ?_⟩
      refine h (i :: js) (List.cons_prefix_cons.mpr ⟨rfl, hjs⟩) t ?_
      rw [run_cons, hs', Option.bind_some, ht]

theorem Always.mono {Q : σ → Prop} (hPQ : ∀ s, P s → Q s) {s : σ} {is : List ι}
    (h : Always step P s is) : Always step Q s is :=
  always_iff_prefixes.mpr fun js hjs t ht =>
    hPQ t (always_iff_prefixes.mp h js hjs t ht)

theorem always_of_admits (hstep : ∀ s i s', P s → ok s i → step s i = some s' → P s') :
    ∀ {is : List ι} {s : σ}, P s → Admits step ok s is → Always step P s is := by
  intro is
  induction is with
  | nil => exact fun hs _ => hs
  | cons i is ih =>
    intro s hs hadm
    refine ⟨hs, fun s' hs' => ?_⟩
    obtain ⟨hi, hrest⟩ := hadm s' hs'
    exact ih (hstep s i s' hs hi hs') hrest

/-- A condition that good steps meet in an invariant that they keep. -/
theorem Admits.of_invariant {good : σ → ι → Prop}
    (hstep : ∀ s i s', P s → ok s i → step s i = some s' → P s')
    (hgood : ∀ s i, P s → ok s i → good s i) :
    ∀ {is : List ι} {s : σ}, P s → Admits step ok s is → Admits step good s is := by
  intro is
  induction is with
  | nil => exact fun _ _ => trivial
  | cons i is ih =>
    intro s hs hadm s' hs'
    obtain ⟨hi, hrest⟩ := hadm s' hs'
    exact ⟨hgood s i hs hi, ih (hstep s i s' hs hi hs') hrest⟩

/-- What every step preserves holds all along. -/
theorem always_of_step (hstep : ∀ s i s', P s → step s i = some s' → P s') :
    ∀ {is : List ι} {s : σ}, P s → Always step P s is := by
  intro is
  induction is with
  | nil => exact fun hs => hs
  | cons i is ih => exact fun hs => ⟨hs, fun s' hs' => ih (hstep _ i s' hs hs')⟩

/-- Two conditions on steps that agree under an invariant. -/
theorem admits_congr {ok' : σ → ι → Prop} {Q : σ → Prop}
    (hQ : ∀ s i s', Q s → step s i = some s' → Q s')
    (hok : ∀ s i s', Q s → step s i = some s' → (ok s i ↔ ok' s i)) :
    ∀ {is : List ι} {s : σ}, Q s → (Admits step ok s is ↔ Admits step ok' s is) := by
  intro is
  induction is with
  | nil => exact fun _ => Iff.rfl
  | cons i is ih =>
    intro s hs
    refine forall_congr' fun s' => forall_congr' fun hs' => ?_
    rw [hok s i s' hs hs', ih (hQ s i s' hs hs')]

/-- If an auxiliary invariant `Q` holds and every good step keeps `P` exactly when it
meets `ok`, then `P` holds along a run of good steps exactly when every step meets `ok`. -/
theorem always_iff_admits_of_good {Q : σ → Prop} {good : σ → ι → Prop}
    (hQ : ∀ s i s', Q s → good s i → step s i = some s' → Q s')
    (hstep : ∀ s i s', Q s → P s → good s i → step s i = some s' → (P s' ↔ ok s i)) :
    ∀ {is : List ι} {s : σ}, Q s → P s → Admits step good s is →
      (Always step P s is ↔ Admits step ok s is) := by
  intro is
  induction is with
  | nil => exact fun _ hs _ => ⟨fun _ => trivial, fun _ => hs⟩
  | cons i is ih =>
    intro s hq hs hgood
    constructor
    · rintro ⟨_, hrest⟩ s' hs'
      obtain ⟨hi, hgood'⟩ := hgood s' hs'
      have hs'P : P s' := (hrest s' hs').head
      exact ⟨(hstep s i s' hq hs hi hs').mp hs'P,
        (ih (hQ s i s' hq hi hs') hs'P hgood').mp (hrest s' hs')⟩
    · intro hadm
      refine ⟨hs, fun s' hs' => ?_⟩
      obtain ⟨hi, hgood'⟩ := hgood s' hs'
      obtain ⟨hok, hrest⟩ := hadm s' hs'
      have hs'P : P s' := (hstep s i s' hq hs hi hs').mpr hok
      exact (ih (hQ s i s' hq hi hs') hs'P hgood').mpr hrest

theorem admits_of_forall {is : List ι} (hok : ∀ i ∈ is, ∀ s, ok s i) :
    ∀ {s : σ}, Admits step ok s is := by
  induction is with
  | nil => exact trivial
  | cons i is ih =>
    intro s s' _
    exact ⟨hok i List.mem_cons_self s, ih fun j hj => hok j (List.mem_cons_of_mem i hj)⟩

/-- The same when every step is good. -/
theorem always_iff_admits {Q : σ → Prop}
    (hQ : ∀ s i s', Q s → step s i = some s' → Q s')
    (hstep : ∀ s i s', Q s → P s → step s i = some s' → (P s' ↔ ok s i)) {is : List ι} {s : σ}
    (hq : Q s) (hs : P s) : Always step P s is ↔ Admits step ok s is :=
  have hany : Admits step (fun _ _ => True) s is := admits_of_forall fun _ _ _ => trivial
  always_iff_admits_of_good (fun s i s' hq _ => hQ s i s' hq)
    (fun s i s' hq hs _ => hstep s i s' hq hs) hq hs hany

/-- Two properties that agree after each step from a state that has both. -/
theorem always_congr {P' : σ → Prop}
    (hstep : ∀ s i s', P s → P' s → step s i = some s' → (P s' ↔ P' s')) :
    ∀ {is : List ι} {s : σ}, (P s ↔ P' s) → (Always step P s is ↔ Always step P' s is) := by
  intro is
  induction is with
  | nil => exact id
  | cons i is ih =>
    intro s hs
    constructor
    · rintro ⟨hP, hrest⟩
      refine ⟨hs.mp hP, fun s' hs' => ?_⟩
      exact (ih (hstep s i s' hP (hs.mp hP) hs')).mp (hrest s' hs')
    · rintro ⟨hP', hrest⟩
      refine ⟨hs.mpr hP', fun s' hs' => ?_⟩
      exact (ih (hstep s i s' (hs.mpr hP') hP' hs')).mpr (hrest s' hs')

/-- If what is lost never comes back, it is enough to look at the end of the run. -/
theorem always_iff_last {Q : σ → Prop} (hQ : ∀ s i s', Q s → step s i = some s' → Q s')
    (hlost : ∀ s i s', Q s → ¬ P s → step s i = some s' → ¬ P s') :
    ∀ {is : List ι} {s t : σ}, Q s → run step s is = some t → (Always step P s is ↔ P t) := by
  intro is
  induction is with
  | nil =>
    intro s t _ ht
    rw [run_nil, Option.some_inj] at ht
    rw [ht, Always]
  | cons i is ih =>
    intro s t hs ht
    obtain ⟨s', hs', ht⟩ := Option.bind_eq_some_iff.mp ht
    have hrest := ih (hQ s i s' hs hs') ht
    constructor
    · rintro ⟨_, halways⟩
      exact hrest.mp (halways s' hs')
    · intro hP
      have halways := hrest.mpr hP
      refine ⟨?_, fun u hu => Option.some_inj.mp (hs'.symm.trans hu) ▸ halways⟩
      by_contra hnot
      exact hlost s i s' hs hnot hs' halways.head

/-! ### A record of the run -/

variable {η : Type*} {note : σ → η → ι → η}

/-- The step, with a record that `note` keeps of the states and labels so far. -/
def recording (step : σ → ι → Option σ) (note : σ → η → ι → η) (p : σ × η) (i : ι) :
    Option (σ × η) :=
  (step p.1 i).map fun s' => (s', note p.1 p.2 i)

theorem recording_eq_some {p q : σ × η} {i : ι} :
    recording step note p i = some q ↔ step p.1 i = some q.1 ∧ q.2 = note p.1 p.2 i := by
  rw [recording, Option.map_eq_some_iff]
  constructor
  · rintro ⟨s', hs', rfl⟩
    exact ⟨hs', rfl⟩
  · rintro ⟨hs', hnote⟩
    exact ⟨q.1, hs', by rw [← hnote]⟩

/-- The record does not interfere. -/
theorem run_recording (p : σ × η) (is : List ι) :
    (run (recording step note) p is).map Prod.fst = run step p.1 is := by
  induction is generalizing p with
  | nil => rfl
  | cons i is ih =>
    rw [run_cons, run_cons, recording]
    rcases step p.1 i with _ | s'
    · rfl
    · exact ih (s', note p.1 p.2 i)

end Transition
