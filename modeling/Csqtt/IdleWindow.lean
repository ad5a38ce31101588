/-
The window that ends the idle mode.

`window_hit` promises a sliding window and keeps a fixed one: the first event more than
`window_ms` after the start of the window opens the next one and is counted as its first.
The events of a burst that came before it are forgotten.

* `hit_counts_recent` — an answer `true` is never wrong: so many events did land within the window;
* `syns_straddle` — three connections within a fifth of a second that do not end the idle mode;
* `hit_slides_iff` — all the answers along a run are those of a sliding window exactly when no
  burst of `limit` events lies on both sides of a restart (`Unstraddled`).
-/
import Csqtt.IdleFlap

namespace List

variable {l a m : List ℕ} {P : ℕ → Bool}

/-- In a sorted list an upward closed property that holds of `n` entries holds of the last `n`. -/
theorem forall_drop_of_le_countP (hl : l.Pairwise (· ≤ ·))
    (hP : ∀ x y, x ≤ y → P x = true → P y = true) {n : ℕ} (hn : n ≤ l.countP P) :
    ∀ e ∈ l.drop (l.length - n), P e = true := by
  intro e he
  by_contra hfails
  -- What stands before the entry is smaller, so the property fails there too.
  obtain ⟨before, after, hsplit⟩ := List.append_of_mem he
  have hwhole : l = (l.take (l.length - n) ++ before) ++ e :: after := by
    rw [List.append_assoc, ← hsplit, List.take_append_drop]
  have hbefore : ∀ x ∈ l.take (l.length - n) ++ before ++ [e], ¬ P x = true := by
    intro x hx hPx
    rcases List.mem_append.mp hx with hx | hx
    · rw [hwhole] at hl
      exact hfails (hP x e ((List.pairwise_append.mp hl).2.2 x hx e mem_cons_self) hPx)
    · exact hfails (List.mem_singleton.mp hx ▸ hPx)
  have hcount : l.countP P ≤ after.length := by
    have hnone := List.countP_eq_zero.mpr hbefore
    rw [hwhole, List.append_cons, List.countP_append, hnone, Nat.zero_add]
    exact List.countP_le_length
  have hlen : before.length + (after.length + 1) = (l.drop (l.length - n)).length := by
    rw [hsplit, List.length_append, List.length_cons]
  rw [List.length_drop] at hlen
  have hle : l.countP P ≤ l.length := List.countP_le_length
  omega

end List

namespace Csqtt.Idle

variable {W limit s c t r : ℕ} {p q ts : List ℕ}

/-! ### The events of a run -/

/-- The start of the window and the count after one more event. -/
def noted (W limit : ℕ) (w : ℕ × ℕ) (nowMs : ℕ) : ℕ × ℕ := (windowHit w.1 w.2 nowMs W limit).2

/-- What the two atomics hold after these events. -/
def windowAfter (W limit : ℕ) (events : List ℕ) : ℕ × ℕ := events.foldl (noted W limit) (0, 0)

/-- The answer of `window_hit` to an event at `nowMs` that follows these. -/
def hit (W limit : ℕ) (events : List ℕ) (nowMs : ℕ) : Bool :=
  (windowHit (windowAfter W limit events).1 (windowAfter W limit events).2 nowMs W limit).1

/-- How many of the events landed within the last `W` milliseconds. -/
def recent (W nowMs : ℕ) (events : List ℕ) : ℕ := events.countP fun e => nowMs ≤ e + W

/-- At every event of the run the answer is that of a sliding window. -/
def Slides (W limit : ℕ) (ts : List ℕ) : Prop :=
  ∀ p t q, ts = p ++ t :: q → (hit W limit p t = true ↔ limit ≤ recent W t (p ++ [t]))

/-- The events that open a window, when the one before them was opened at `start`: each is
the first that comes more than `W` after the last of them. -/
def restarts (W : ℕ) : ℕ → List ℕ → List ℕ
  | _, [] => []
  | start, t :: ts => if start + W < t then t :: restarts W t ts else restarts W start ts

/-- No `limit` events in a row that lie within `W` have a restart among them, the first one aside. -/
def Unstraddled (W limit : ℕ) (ts : List ℕ) : Prop :=
  ∀ r ∈ restarts W 0 ts, ∀ burst, burst <:+: ts → burst.length = limit →
    (∀ x ∈ burst, ∀ y ∈ burst, y ≤ x + W) →
      (∀ x ∈ burst, r ≤ x) ∨ ∀ x ∈ burst, x < r

/-! ### The window that is open -/

theorem noted_restart (h : s + W < t) : noted W limit (s, c) t = (t, 1) := by
  rw [noted, windowHit, if_pos (by omega)]

theorem noted_inside (h : t ≤ s + W) : noted W limit (s, c) t = (s, c + 1) := by
  rw [noted, windowHit, if_neg (by omega)]

theorem windowAfter_concat (p : List ℕ) (t : ℕ) :
    windowAfter W limit (p ++ [t]) = noted W limit (windowAfter W limit p) t := by
  rw [windowAfter, List.foldl_append, ← windowAfter, List.foldl_cons, List.foldl_nil]

/-- The answer is read off the counter that is written. -/
theorem hit_iff : hit W limit p t = true ↔ limit ≤ (windowAfter W limit (p ++ [t])).2 := by
  rw [windowAfter_concat, hit, noted]
  obtain ⟨s, c⟩ := windowAfter W limit p
  simp only [windowHit]
  split <;> simp

/-- The restarts of a longer run: those so far, and those counted from the window that is open. -/
theorem restarts_append (start : ℕ) (p q : List ℕ) :
    restarts W start (p ++ q) =
      restarts W start p ++ restarts W ((restarts W start p).getLastD start) q := by
  induction p generalizing start with
  | nil => rfl
  | cons t p ih =>
    rw [List.cons_append, restarts, restarts]
    by_cases h : start + W < t
    · rw [if_pos h, if_pos h, ih, List.cons_append, List.getLastD_cons]
    · rw [if_neg h, if_neg h, ih]

/-- Every restart comes later than `W` after the window before it. -/
theorem lt_of_mem_restarts {start : ℕ} (h : r ∈ restarts W start ts) : start + W < r := by
  induction ts generalizing start with
  | nil => cases h
  | cons t ts ih =>
    rw [restarts] at h
    split at h
    next hlate =>
      rcases List.mem_cons.mp h with rfl | h
      · exact hlate
      · have := ih h
        omega
    next => exact ih h

/-- A restart is an event of the run. -/
theorem mem_of_mem_restarts {start : ℕ} (h : r ∈ restarts W start ts) : r ∈ ts := by
  induction ts generalizing start with
  | nil => cases h
  | cons t ts ih =>
    rw [restarts] at h
    split at h
    next =>
      rcases List.mem_cons.mp h with rfl | h
      · exact List.mem_cons_self
      · exact List.mem_cons_of_mem t (ih h)
    next => exact List.mem_cons_of_mem t (ih h)

/-- What the two atomics say about the events so far. -/
structure Open (W : ℕ) (events : List ℕ) (w : ℕ × ℕ) : Prop where
  start : w.1 = (restarts W 0 events).getLastD 0
  count : w.2 = events.countP fun e => w.1 ≤ e
  inside : ∀ e ∈ events, e ≤ w.1 + W
  newest : ∀ r ∈ restarts W 0 events, r ≤ w.1

/-- The window was opened by an event of the run, or stands at zero. -/
theorem Open.zero_or_restart {w : ℕ × ℕ} (h : Open W p w) : w.1 = 0 ∨ w.1 ∈ restarts W 0 p := by
  rw [h.start]
  rcases List.eq_nil_or_concat (restarts W 0 p) with hnone | ⟨rs, r, hlast⟩
  · exact .inl (by rw [hnone, List.getLastD_nil])
  · exact .inr (by simp [hlast])

/-- What one more event does to the open window. -/
theorem Open.noted {w : ℕ × ℕ} (h : Open W p w) (ht : w.1 ≤ t) :
    Open W (p ++ [t]) (noted W limit w t) := by
  obtain ⟨s, c⟩ := w
  have happend := restarts_append (W := W) 0 p [t]
  rw [← h.start, restarts] at happend
  by_cases hlate : s + W < t
  · rw [noted_restart hlate]
    rw [if_pos hlate, restarts] at happend
    have hearlier : ∀ e ∈ p, ¬ (decide (t ≤ e)) = true := by
      intro e he
      have := h.inside e he
      simp only [decide_eq_true_eq]
      omega
    refine ⟨?_, ?_, ?_, ?_⟩
    · rw [happend, List.getLastD_concat]
    · rw [List.countP_append, List.countP_eq_zero.mpr hearlier]
      simp
    · intro e he
      rcases List.mem_append.mp he with he | he
      · have := h.inside e he
        simp only at this ⊢
        omega
      · rw [List.mem_singleton.mp he]
        exact Nat.le_add_right t W
    · intro r hr
      rw [happend] at hr
      rcases List.mem_append.mp hr with hr | hr
      · exact (h.newest r hr).trans ht
      · exact (List.mem_singleton.mp hr).le
  · rw [noted_inside (by omega)]
    rw [if_neg hlate, restarts, List.append_nil] at happend
    refine ⟨?_, ?_, ?_, ?_⟩
    · rw [happend]
      exact h.start
    · have hcounted : [t].countP (fun e => s ≤ e) = 1 := by simpa using ht
      rw [List.countP_append, ← h.count, hcounted]
    · intro e he
      rcases List.mem_append.mp he with he | he
      · exact h.inside e he
      · rw [List.mem_singleton.mp he]
        simp only
        omega
    · rw [happend]
      exact h.newest

theorem opened (W limit : ℕ) (hts : p.Pairwise (· ≤ ·)) : Open W p (windowAfter W limit p) := by
  induction p using List.reverseRecOn with
  | nil => exact ⟨rfl, rfl, by simp, by simp [restarts]⟩
  | append_singleton p t ih =>
    rw [windowAfter_concat]
    have hp := ih (List.pairwise_append.mp hts).1
    refine hp.noted ?_
    rcases hp.zero_or_restart with hzero | hr
    · rw [hzero]
      exact Nat.zero_le t
    · exact (List.pairwise_append.mp hts).2.2 _ (mem_of_mem_restarts hr) t List.mem_cons_self

/-! ### The answers -/

/-- The answer is `true` when the events since the window was opened are enough. -/
theorem hit_iff_since (hts : (p ++ [t]).Pairwise (· ≤ ·)) :
    hit W limit p t = true ↔
      limit ≤ (p ++ [t]).countP fun e => (windowAfter W limit (p ++ [t])).1 ≤ e := by
  rw [hit_iff, (opened W limit hts).count]

/-- An answer `true` is right: that many events did land within the window. -/
theorem hit_counts_recent (hts : (p ++ [t]).Pairwise (· ≤ ·)) (h : hit W limit p t = true) :
    limit ≤ recent W t (p ++ [t]) := by
  refine ((hit_iff_since hts).mp h).trans (List.countP_mono_left fun e _ hopen => ?_)
  have hin := (opened W limit hts).inside t
    (List.mem_append_right p List.mem_cons_self)
  have hstart := of_decide_eq_true hopen
  exact decide_eq_true (by omega)

/-- A restart of the run that is not after one of the events so far has been seen. -/
theorem seen_of_le (limit : ℕ) (hts : (p ++ [t]).Pairwise (· ≤ ·)) (hr : r ∈ restarts W 0 (p ++ [t] ++ q))
    (hrt : r ≤ t) : r ≤ (windowAfter W limit (p ++ [t])).1 := by
  have hopen := opened W limit hts
  rw [restarts_append, ← hopen.start] at hr
  rcases List.mem_append.mp hr with hr | hr
  · exact hopen.newest r hr
  · have hlate := lt_of_mem_restarts hr
    have hin := hopen.inside t (List.mem_append_right p List.mem_cons_self)
    omega

theorem slides_of_unstraddled (hts : ts.Pairwise (· ≤ ·)) (h : Unstraddled W limit ts) :
    Slides W limit ts := by
  intro p t q hsplit
  have hwhole : ts = p ++ [t] ++ q := by rw [hsplit, List.append_assoc, List.singleton_append]
  have hpt : (p ++ [t]).Pairwise (· ≤ ·) := (List.pairwise_append.mp (hwhole ▸ hts)).1
  refine ⟨hit_counts_recent hpt, fun hrecent => (hit_iff_since hpt).mpr ?_⟩
  -- The last `limit` events so far lie within the window of a sliding counter.
  have hlen : limit ≤ (p ++ [t]).length := hrecent.trans List.countP_le_length
  obtain ⟨before, burst, hburst, hlimit⟩ :
      ∃ before burst, p ++ [t] = before ++ burst ∧ burst.length = limit :=
    ⟨_, _, (List.take_append_drop ((p ++ [t]).length - limit) (p ++ [t])).symm, by
      rw [List.length_drop]; omega⟩
  have hin : ∀ e ∈ burst, t ≤ e + W := by
    intro e he
    have hdrop : burst = (p ++ [t]).drop ((p ++ [t]).length - limit) := by
      rw [hburst, List.length_append, hlimit, Nat.add_sub_cancel, List.drop_left]
    refine of_decide_eq_true (List.forall_drop_of_le_countP hpt ?_ hrecent e (hdrop ▸ he))
    intro x y hxy hx
    have := of_decide_eq_true hx
    exact decide_eq_true (by omega)
  have hle : ∀ e ∈ p ++ [t], e ≤ t := by
    intro e he
    rcases List.mem_append.mp he with he | he
    · exact (List.pairwise_append.mp hpt).2.2 e he t List.mem_cons_self
    · exact (List.mem_singleton.mp he).le
  have hmem : ∀ e ∈ burst, e ∈ p ++ [t] := fun e he => hburst ▸ List.mem_append_right before he
  -- All of them came since the window was opened.
  have hsince : ∀ e ∈ burst, (windowAfter W limit (p ++ [t])).1 ≤ e := by
    have hopen := opened W limit hpt
    rcases hopen.zero_or_restart with hzero | hr
    · intro e _
      rw [hzero]
      exact Nat.zero_le e
    · have hrts : (windowAfter W limit (p ++ [t])).1 ∈ restarts W 0 ts := by
        rw [hwhole, restarts_append]
        exact List.mem_append_left _ hr
      have hinfix : burst <:+: ts := ⟨before, q, by rw [hwhole, hburst]⟩
      have hwithin : ∀ x ∈ burst, ∀ y ∈ burst, y ≤ x + W := by
        intro x hx y hy
        exact (hle y (hmem y hy)).trans (hin x hx)
      rcases h _ hrts burst hinfix hlimit hwithin with hall | hnone
      · exact hall
      · -- The event itself is one of them, and the window is not opened after it.
        intro e he
        have hgl : burst.getLast? = some t := by
          rw [← List.getLast?_append_of_ne_nil before (List.ne_nil_of_mem he), ← hburst,
            List.getLast?_concat]
        have := hnone t (List.mem_of_getLast? hgl)
        have := hle _ (mem_of_mem_restarts hr)
        omega
  calc limit = burst.length := hlimit.symm
    _ = burst.countP fun e => (windowAfter W limit (p ++ [t])).1 ≤ e :=
      (List.countP_eq_length.mpr fun e he => decide_eq_true (hsince e he)).symm
    _ ≤ (p ++ [t]).countP fun e => (windowAfter W limit (p ++ [t])).1 ≤ e :=
      (hburst ▸ List.sublist_append_right before burst : burst.Sublist (p ++ [t])).countP_le

theorem unstraddled_of_slides (hts : ts.Pairwise (· ≤ ·)) (h : Slides W limit ts) :
    Unstraddled W limit ts := by
  rintro r hr burst ⟨before, q, hwhole⟩ hlimit hwithin
  by_contra hstraddles
  push Not at hstraddles
  obtain ⟨⟨x, hx, hxr⟩, y, hy, hry⟩ := hstraddles
  obtain ⟨front, t, rfl⟩ := (List.eq_nil_or_concat burst).resolve_left (List.ne_nil_of_mem hx)
  rw [List.concat_eq_append] at *
  have hcut : ts = before ++ front ++ t :: q := by
    rw [← hwhole]
    simp only [List.append_assoc, List.singleton_append]
  have hwhole' : ts = before ++ front ++ [t] ++ q := by
    rw [hcut]
    simp only [List.append_assoc, List.singleton_append]
  have hpt : (before ++ front ++ [t]).Pairwise (· ≤ ·) :=
    (List.pairwise_append.mp (hwhole' ▸ hts)).1
  have hyt : y ≤ t := by
    rcases List.mem_append.mp hy with hy | hy
    · exact (List.pairwise_append.mp hpt).2.2 y (List.mem_append_right before hy) t
        List.mem_cons_self
    · exact (List.mem_singleton.mp hy).le
  -- A sliding window counts the whole burst at its last event, so the open one has to.
  have hrecent : limit ≤ recent W t (before ++ front ++ [t]) := by
    rw [recent, List.append_assoc, List.countP_append, ← hlimit]
    refine le_trans (le_of_eq ?_) (Nat.le_add_left _ _)
    refine (List.countP_eq_length.mpr fun e he => decide_eq_true ?_).symm
    exact hwithin e he t (List.mem_append_right front List.mem_cons_self)
  have hsince := (hit_iff_since hpt).mp ((h _ t q hcut).mpr hrecent)
  have hall := List.forall_drop_of_le_countP hpt (fun a b hab ha =>
    decide_eq_true ((of_decide_eq_true ha).trans hab)) hsince
  have hdrop : (before ++ front ++ [t]).drop ((before ++ front ++ [t]).length - limit) =
      front ++ [t] := by
    rw [← hlimit, List.append_assoc, List.length_append, Nat.add_sub_cancel, List.drop_left]
  rw [hdrop] at hall
  have hopened := of_decide_eq_true (hall x hx)
  have hseen := seen_of_le limit hpt (hwhole' ▸ hr) (hry.trans hyt)
  omega

/-- Three connections within a fifth of a second, and a window that an earlier one has opened: the
first of the three still falls into it, and is forgotten. -/
theorem syns_straddle :
    [10000, 12900, 13001, 13100].Pairwise (· ≤ ·) ∧
      ¬ Slides exitSynsWindowMs exitSyns [10000, 12900, 13001, 13100] := by
  refine ⟨by decide, fun h => ?_⟩
  have hthird := (h [10000, 12900, 13001] 13100 [] rfl).mpr (by decide)
  exact absurd hthird (by decide)

/-- The answers along a run with a steady clock are those of a sliding window exactly when no
burst straddles a restart. -/
theorem hit_slides_iff (W limit : ℕ) {ts : List ℕ} (hts : ts.Pairwise (· ≤ ·)) :
    Slides W limit ts ↔ Unstraddled W limit ts :=
  ⟨unstraddled_of_slides hts, slides_of_unstraddled hts⟩

theorem hit_slides_iff_burst :
    [10000, 10200, 10400, 20000].Pairwise (· ≤ ·) ∧
      (Slides 1000 3 [10000, 10200, 10400, 20000] ↔
        Unstraddled 1000 3 [10000, 10200, 10400, 20000]) :=
  ⟨by decide, hit_slides_iff 1000 3 (by decide)⟩

end Csqtt.Idle
