/-
Threads over a shared state.

A pool is a shared state and a list of threads.  One atomic section of a thread
changes the shared state, says what the thread does next and may start another
thread, which gets the next number; a thread keeps its number.  This file has no
program in it.

* `Pool.after_cases` — a thread of the pool after a section is the one that had its
  turn, the one that was started, or one that was there before;
* `Pool.exists_after` — a duty is not lost in a turn that keeps it or hands it on.
-/
import Mathlib.Tactic.Common

/-- A shared state and the threads over it, by their numbers. -/
structure Pool (σ τ : Type*) where
  shared : σ
  threads : List τ
  deriving DecidableEq

/-- What an atomic section leaves. -/
structure Turn (σ τ : Type*) where
  shared : σ
  next : τ
  started : Option τ
  deriving DecidableEq

namespace Pool

variable {σ τ : Type*} {p : Pool σ τ} {i j : ℕ} {t u : τ} {out : Turn σ τ}

/-- Another shared state, and perhaps another thread. -/
def put (p : Pool σ τ) (s : σ) (t : Option τ) : Pool σ τ := ⟨s, p.threads ++ t.toList⟩

/-- Thread `i` has had its turn. -/
def after (p : Pool σ τ) (i : ℕ) (out : Turn σ τ) : Pool σ τ :=
  ⟨out.shared, p.threads.set i out.next ++ out.started.toList⟩

@[simp] theorem after_shared : (p.after i out).shared = out.shared := rfl

theorem lt_length (h : p.threads[i]? = some t) : i < p.threads.length :=
  (List.getElem?_eq_some_iff.mp h).1

theorem put_cases {s : σ} {o : Option τ} (h : (p.put s o).threads[j]? = some u) :
    p.threads[j]? = some u ∨ (j = p.threads.length ∧ o = some u) := by
  rw [put] at h
  rcases Nat.lt_or_ge j p.threads.length with hj | hj
  · rw [List.getElem?_append_left hj] at h
    exact .inl h
  · rw [List.getElem?_append_right hj] at h
    rcases o with _ | t
    · exact nomatch h
    · rw [Option.toList_some, List.getElem?_singleton] at h
      split_ifs at h with hzero
      exact .inr ⟨by omega, h⟩

theorem put_old {s : σ} {o : Option τ} (h : p.threads[j]? = some u) :
    (p.put s o).threads[j]? = some u := by
  rw [put, List.getElem?_append_left (lt_length h), h]

theorem put_new {s : σ} : (p.put s (some t)).threads[p.threads.length]? = some t := by
  rw [put, List.getElem?_append_right (Nat.le_refl _), Nat.sub_self]
  rfl

theorem after_eq_put :
    p.after i out = (put ⟨p.shared, p.threads.set i out.next⟩ out.shared out.started) := rfl

/-- Where the threads after a turn come from. -/
theorem after_cases (h : (p.after i out).threads[j]? = some u) :
    (j = i ∧ u = out.next) ∨ (j = p.threads.length ∧ out.started = some u) ∨
      (j ≠ i ∧ p.threads[j]? = some u) := by
  rw [after_eq_put] at h
  rcases put_cases h with h | ⟨hj, hnew⟩
  · replace h : (p.threads.set i out.next)[j]? = some u := h
    by_cases hij : i = j
    · subst hij
      obtain ⟨hlt, hu⟩ := List.getElem?_eq_some_iff.mp h
      exact .inl ⟨rfl, by rw [← hu, List.getElem_set_self]⟩
    · rw [List.getElem?_set_ne hij] at h
      exact .inr (.inr ⟨Ne.symm hij, h⟩)
  · refine .inr (.inl ⟨?_, hnew⟩)
    rw [hj]
    exact List.length_set

theorem after_other (h : p.threads[j]? = some u) (hij : j ≠ i) :
    (p.after i out).threads[j]? = some u := by
  rw [after_eq_put]
  refine put_old ?_
  show (p.threads.set i out.next)[j]? = some u
  rw [List.getElem?_set_ne (Ne.symm hij), h]

theorem after_self (h : p.threads[i]? = some t) :
    (p.after i out).threads[i]? = some out.next := by
  rw [after_eq_put]
  refine put_old ?_
  show (p.threads.set i out.next)[i]? = some out.next
  rw [List.getElem?_set_self (lt_length h)]

theorem after_started (h : out.started = some u) :
    (p.after i out).threads[p.threads.length]? = some u := by
  rw [after_eq_put, h]
  have hlength : (p.threads.set i out.next).length = p.threads.length := List.length_set
  rw [← hlength]
  exact put_new

theorem mem_after (h : p.threads[i]? = some t) : u ∈ (p.after i out).threads ↔
    u = out.next ∨ out.started = some u ∨ u ∈ p.threads.eraseIdx i := by
  rw [List.mem_eraseIdx_iff_getElem?]
  constructor
  · intro hmem
    obtain ⟨j, hj⟩ := List.mem_iff_getElem?.mp hmem
    rcases after_cases hj with ⟨-, hnext⟩ | ⟨-, hnew⟩ | ⟨hne, hold⟩
    · exact .inl hnext
    · exact .inr (.inl hnew)
    · exact .inr (.inr ⟨j, hne, hold⟩)
  · rintro (rfl | hnew | ⟨j, hne, hold⟩)
    · exact List.mem_of_getElem? (after_self h)
    · exact List.mem_of_getElem? (after_started hnew)
    · exact List.mem_of_getElem? (after_other hold hne)

theorem mem_put {s : σ} {o : Option τ} :
    u ∈ (p.put s o).threads ↔ u ∈ p.threads ∨ o = some u := by
  rw [put, List.mem_append, Option.mem_toList]

/-- What some thread has to do is still to be done by one after a turn, if the thread that had
the turn keeps it or leaves it to the one that it starts. -/
theorem exists_after {P : τ → Prop} (ht : p.threads[i]? = some t) (h : ∃ u ∈ p.threads, P u)
    (hself : P t → P out.next ∨ ∃ u, out.started = some u ∧ P u) :
    ∃ u ∈ (p.after i out).threads, P u := by
  obtain ⟨u, hu, hP⟩ := h
  obtain ⟨j, hj⟩ := List.mem_iff_getElem?.mp hu
  by_cases hij : j = i
  · subst hij
    obtain rfl := Option.some.inj (hj.symm.trans ht)
    rcases hself hP with hnext | ⟨v, hv, hPv⟩
    · exact ⟨_, (mem_after ht).mpr (.inl rfl), hnext⟩
    · exact ⟨v, (mem_after ht).mpr (.inr (.inl hv)), hPv⟩
  · exact ⟨u, List.mem_of_getElem? (after_other hj hij), hP⟩

theorem exists_put {P : τ → Prop} {s : σ} {o : Option τ} (h : ∃ u ∈ p.threads, P u) :
    ∃ u ∈ (p.put s o).threads, P u :=
  h.imp fun _ hu => ⟨mem_put.mpr (.inl hu.1), hu.2⟩

end Pool
